import Mathlib.Algebra.Order.Floor.Ring
import Mathlib.Tactic.Linarith

/-!
# Exact numbers with NaN and the infinities

Floating-point arithmetic read without rounding: a finite value is a number of
`R`, and the special values follow the usual rules (`0/0` and `inf - inf` are
NaN, `x/0` is an infinity, NaN propagates and equals nothing). Zero carries no
sign.
-/

namespace Lib
set_option autoImplicit false

/-- A number, an infinity (`inf true` is the negative one) or NaN. -/
inductive ExtNum (R : Type) where
  | nan
  | inf (negative : Bool)
  | fin (x : R)
  deriving DecidableEq

/-- `x` without its fraction. -/
def truncate {R : Type} [CommRing R] [LinearOrder R] [FloorRing R] (x : R) : Int :=
  if 0 ≤ x then ⌊x⌋ else ⌈x⌉

namespace ExtNum

variable {R : Type}

def neg [Neg R] : ExtNum R → ExtNum R
  | nan => nan
  | inf s => inf !s
  | fin x => fin (-x)

def sub [Sub R] : ExtNum R → ExtNum R → ExtNum R
  | nan, _ | _, nan => nan
  | inf s, inf t => if s = t then nan else inf s
  | inf s, fin _ => inf s
  | fin _, inf t => inf !t
  | fin x, fin y => fin (x - y)

def mul [CommRing R] [LinearOrder R] : ExtNum R → ExtNum R → ExtNum R
  | nan, _ | _, nan => nan
  | inf s, inf t => inf (s != t)
  | inf s, fin x | fin x, inf s => if x = 0 then nan else inf (s != decide (x < 0))
  | fin x, fin y => fin (x * y)

def div [Field R] [LinearOrder R] : ExtNum R → ExtNum R → ExtNum R
  | nan, _ | _, nan => nan
  | inf _, inf _ => nan
  | inf s, fin y => inf (s != decide (y < 0))
  | fin _, inf _ => fin 0
  | fin x, fin y =>
    if y = 0 then if x = 0 then nan else inf (decide (x < 0)) else fin (x / y)

/-- A positive function of the exponential's shape, continued to the infinities. -/
def exp [Zero R] (f : R → R) : ExtNum R → ExtNum R
  | nan => nan
  | inf true => fin 0
  | inf false => inf false
  | fin x => fin (f x)

/-- Equality of values: NaN equals nothing. -/
def eq [DecidableEq R] : ExtNum R → ExtNum R → Bool
  | fin x, fin y => decide (x = y)
  | inf s, inf t => s == t
  | _, _ => false

section Cast
variable [CommRing R] [LinearOrder R] [FloorRing R]

def trunc : ExtNum R → ExtNum R
  | nan => nan
  | inf s => inf s
  | fin x => fin (truncate x : R)

/-- Conversion to an integer of `[lo, hi]`: truncated, then clamped; NaN is zero. -/
def saturate (lo hi : Int) : ExtNum R → Int
  | nan => 0
  | inf s => if s then lo else hi
  | fin x => max lo (min hi (truncate x))

end Cast

theorem eq_fin [DecidableEq R] {x : ExtNum R} {y : R} : eq x (fin y) = true ↔ x = fin y := by
  cases x <;> simp [eq]

@[simp] theorem sub_nan [Sub R] (x : ExtNum R) : sub x nan = nan := by cases x <;> rfl

@[simp] theorem mul_nan [CommRing R] [LinearOrder R] (x : ExtNum R) : mul x nan = nan := by
  cases x <;> rfl

@[simp] theorem fin_sub_fin [Sub R] (x y : R) : sub (fin x) (fin y) = fin (x - y) := rfl

@[simp] theorem fin_mul_fin [CommRing R] [LinearOrder R] (x y : R) :
    mul (fin x) (fin y) = fin (x * y) := rfl

theorem fin_div_fin [Field R] [LinearOrder R] {x y : R} (h : y ≠ 0) :
    div (fin x) (fin y) = fin (x / y) := by
  simp [div, h]

end ExtNum

section Truncate
variable {R : Type} [CommRing R] [LinearOrder R] [IsStrictOrderedRing R] [FloorRing R] {x : R}

@[simp] theorem truncate_intCast (i : Int) : truncate (i : R) = i := by
  unfold truncate
  split <;> simp

/-- An integer in the range is left as it is. -/
theorem ExtNum.saturate_intCast {lo hi i : Int} (least : lo ≤ i) (most : i ≤ hi) :
    ExtNum.saturate lo hi (.fin (i : R)) = i := by
  rw [ExtNum.saturate, truncate_intCast, min_eq_right most, max_eq_right least]

theorem truncate_neg (x : R) : truncate (-x) = -truncate x := by
  unfold truncate
  rcases lt_trichotomy x 0 with negative | rfl | positive
  · rw [if_pos (neg_nonneg.2 negative.le), if_neg (not_le.2 negative), Int.floor_neg]
  · simp
  · rw [if_neg (not_le.2 (neg_lt_zero.2 positive)), if_pos positive.le, Int.ceil_neg]

/-- Truncation does not leave an interval of integers `[-m, m)`. -/
theorem truncate_bounds {m : Int} (lo : (-m : R) ≤ x) (hi : x < m) :
    -m ≤ truncate x ∧ truncate x < m := by
  have cast : ((-m : Int) : R) = -(m : R) := Int.cast_neg m
  unfold truncate
  split
  · exact ⟨Int.le_floor.2 (cast ▸ lo), Int.floor_lt.2 hi⟩
  · rename_i negative
    have below : x ≤ 0 := le_of_lt (not_le.1 negative)
    have zero : ⌈x⌉ ≤ 0 := Int.ceil_le.2 (by simpa using below)
    have up : ((-m : Int) : R) ≤ (⌈x⌉ : R) := (cast ▸ lo).trans (Int.le_ceil x)
    have positive : (0 : R) < m := by linarith
    have : 0 < m := by exact_mod_cast positive
    exact ⟨Int.cast_le.1 up, by omega⟩

end Truncate

end Lib
