import JemallocPprof.Lib.ExtNum
import Mathlib.Algebra.Order.Archimedean.Real.Basic

/-!
# `cast.rs`: attempted casts

`try_cast_from` compares a value with its double conversion. Conversion and
comparison are f64's, so the cast is stated over any carrier `F` of f64 values;
exact numbers with NaN and infinities are one.
-/

namespace JemallocPprof
set_option autoImplicit false
open Lib

/-- The conversions of f64: `trunc`, `as i64`, `as f64` and `==`. -/
class F64Cast (F : Type) where
  trunc : F → F
  toI64 : F → Int
  ofI64 : Int → F
  eq : F → F → Bool

/-- The macro `try_cast_from!(from, to)`. -/
def tryCastFrom {α β : Type} (cast : α → β) (back : β → α) (eq : α → α → Bool) (value : α) :
    Option β :=
  let converted := cast value
  let inverse := back converted
  if eq value inverse then some converted else none

theorem tryCastFrom_eq_some {α β : Type} {cast : α → β} {back : β → α} {eq : α → α → Bool} {value : α} {b : β} :
    tryCastFrom cast back eq value = some b ↔ cast value = b ∧ eq value (back b) = true := by
  rw [tryCastFrom, Option.ite_none_right_eq_some, Option.some.injEq]
  constructor
  · rintro ⟨same, rfl⟩
    exact ⟨rfl, same⟩
  · rintro ⟨rfl, same⟩
    exact ⟨same, rfl⟩

/-- `i64::try_cast_from` on an f64. -/
def i64TryCastFrom {F : Type} [F64Cast F] (value : F) : Option Int :=
  tryCastFrom F64Cast.toI64 F64Cast.ofI64 F64Cast.eq value

def i64Min : Int := -2 ^ 63
def i64Max : Int := 2 ^ 63 - 1

/-- Exact values as f64 values. -/
instance exactCast {R : Type} [CommRing R] [LinearOrder R] [FloorRing R] : F64Cast (ExtNum R) where
  trunc := ExtNum.trunc
  toI64 := ExtNum.saturate i64Min i64Max
  ofI64 i := .fin (i : R)
  eq := ExtNum.eq

/-- A carrier of f64 values whose finite members denote reals: truncation is
exact, so are the conversions of integers in range that f64 has, and values that
denote one number are equal. -/
class F64Real (F : Type) [F64Cast F] where
  real : F → Option ℝ
  real_trunc : ∀ w v, real w = some v → real (F64Cast.trunc w) = some (truncate v : ℝ)
  toI64_int : ∀ (w : F) (i : Int), real w = some (i : ℝ) → -2 ^ 63 ≤ i → i < 2 ^ 63 → F64Cast.toI64 w = i
  real_ofI64 : ∀ (w : F) (i : Int), real w = some (i : ℝ) → real (F64Cast.ofI64 i) = some (i : ℝ)
  eq_of_real : ∀ (w w' : F) (v : ℝ), real w = some v → real w' = some v → F64Cast.eq w w' = true

/-- `w` is a finite number inside the i64 range. -/
def InI64Range {F : Type} [F64Cast F] [F64Real F] (w : F) : Prop :=
  ∃ v, F64Real.real w = some v ∧ -2 ^ 63 ≤ v ∧ v < 2 ^ 63

/-- A number inside the i64 range is cast to its truncation. -/
theorem cast_trunc {F : Type} [F64Cast F] [F64Real F] {w : F} {v : ℝ} (read : F64Real.real w = some v)
    (lo : -2 ^ 63 ≤ v) (hi : v < 2 ^ 63) : i64TryCastFrom (F64Cast.trunc w) = some (truncate v) := by
  obtain ⟨above, below⟩ := truncate_bounds (x := v) (m := 2 ^ 63)
    (by norm_num at lo ⊢; exact lo) (by norm_num at hi ⊢; exact hi)
  have truncated := F64Real.real_trunc w v read
  have converted := F64Real.toI64_int _ _ truncated above below
  have back := F64Real.real_ofI64 _ _ truncated
  have same := F64Real.eq_of_real _ _ _ truncated back
  simp only [i64TryCastFrom, tryCastFrom, converted, same, if_true]

/-- NaN is never cast. -/
theorem nan_not_cast {R : Type} [CommRing R] [LinearOrder R] [FloorRing R] :
    i64TryCastFrom (F64Cast.trunc (ExtNum.nan : ExtNum R)) = none := rfl

/-- The real a finite value is. -/
def exactReal : ExtNum ℝ → Option ℝ
  | .fin x => some x
  | _ => none

theorem exactReal_eq_some {w : ExtNum ℝ} {v : ℝ} : exactReal w = some v ↔ w = .fin v := by
  cases w <;> simp [exactReal]

noncomputable instance realExact : F64Real (ExtNum ℝ) where
  real := exactReal
  real_trunc := by
    intro w v read
    rw [exactReal_eq_some.1 read]
    rfl
  toI64_int := by
    intro w i read lo hi
    rw [exactReal_eq_some.1 read]
    exact ExtNum.saturate_intCast lo (Int.le_sub_one_of_lt hi)
  real_ofI64 := fun _ _ _ => rfl
  eq_of_real := by
    intro w w' v read read'
    rw [exactReal_eq_some.1 read, exactReal_eq_some.1 read']
    simp [F64Cast.eq, ExtNum.eq]

end JemallocPprof
