import Mathlib.Algebra.Order.Ring.Int
import Mathlib.Tactic.Ring

/-!
# Fixed-width integer types

A type is its width and whether it has a sign. A cast to it keeps the low bits
(`wrap`), so it keeps the values the type has and no others (`wrap_eq_self`),
and a cast between two types keeps every value where the ranges are nested
(`embeds_iff`).
-/

namespace Lib
set_option autoImplicit false

/-- A fixed-width integer type. -/
structure IntType where
  signed : Bool
  bits : Nat
  pos : 0 < bits
  deriving DecidableEq

namespace IntType

variable {t a b : IntType} {x : Int}

/-- Half of the type's values. -/
def half (t : IntType) : Nat := 2 ^ (t.bits - 1)

theorem half_add (t : IntType) : t.half + t.half = 2 ^ t.bits := by
  have bits : t.bits - 1 + 1 = t.bits := Nat.sub_add_cancel t.pos
  calc t.half + t.half = 2 ^ (t.bits - 1) * 2 := by rw [half]; omega
    _ = 2 ^ t.bits := by rw [← pow_succ, bits]

theorem half_pos (t : IntType) : 0 < t.half := Nat.two_pow_pos _

/-- The least value. -/
def lo (t : IntType) : Int := if t.signed then -t.half else 0

/-- The greatest value. -/
def hi (t : IntType) : Int := if t.signed then t.half - 1 else t.half + t.half - 1

/-- The values of the type. -/
def Mem (t : IntType) (x : Int) : Prop := t.lo ≤ x ∧ x ≤ t.hi

instance : Decidable (t.Mem x) := inferInstanceAs (Decidable (_ ∧ _))

theorem lo_mem : t.Mem t.lo := by
  have := t.half_pos
  unfold Mem lo hi
  split <;> omega

theorem hi_mem : t.Mem t.hi := by
  have := t.half_pos
  unfold Mem lo hi
  split <;> omega

/-- The value with the low bits of `x`. -/
def wrap (t : IntType) (x : Int) : Int := if t.signed then x.bmod (2 ^ t.bits) else x % (2 ^ t.bits : Nat)

theorem wrap_mem (x : Int) : t.Mem (t.wrap x) := by
  have pos := t.half_pos
  unfold Mem lo hi wrap
  rw [← half_add]
  split
  · have low := Int.le_bmod (x := x) (by omega : 0 < t.half + t.half)
    have high := Int.bmod_lt (x := x) (by omega : 0 < t.half + t.half)
    omega
  · have low := Int.emod_nonneg x (by omega : ((t.half + t.half : Nat) : Int) ≠ 0)
    have high := Int.emod_lt_of_pos x (by omega : 0 < ((t.half + t.half : Nat) : Int))
    omega

theorem wrap_of_mem (inside : t.Mem x) : t.wrap x = x := by
  revert inside
  unfold Mem lo hi wrap
  rw [← half_add]
  split
  · rintro ⟨low, high⟩
    exact Int.bmod_eq_of_le (by omega) (by omega)
  · rintro ⟨low, high⟩
    exact Int.emod_eq_of_lt low (by omega)

/-- A cast keeps just the values the type has. -/
theorem wrap_eq_self : t.wrap x = x ↔ t.Mem x := by
  constructor
  · intro same
    rw [← same]
    exact wrap_mem x
  · exact wrap_of_mem

/-- The range of `a` lies in the range of `b`. -/
def Embeds (a b : IntType) : Prop := b.lo ≤ a.lo ∧ a.hi ≤ b.hi

instance : Decidable (a.Embeds b) := inferInstanceAs (Decidable (_ ∧ _))

/-- The ends of the range decide for all of it. -/
theorem embeds_iff : a.Embeds b ↔ ∀ x, a.Mem x → b.wrap x = x := by
  constructor
  · rintro ⟨low, high⟩ x ⟨above, below⟩
    exact wrap_of_mem ⟨low.trans above, below.trans high⟩
  · intro kept
    exact ⟨(wrap_eq_self.1 (kept _ lo_mem)).1, (wrap_eq_self.1 (kept _ hi_mem)).2⟩

end IntType
end Lib
