import Mathlib.Data.List.Basic
import Mathlib.Algebra.Group.Nat.Defs

/-!
# Bytes in memory

A memory gives a byte at every 64-bit address. `Holds m a l` says that the bytes
`l` stand at `a`; what stands at `a` is put together and taken apart at any byte
(`holds_append`). Numbers are little-endian.
-/

namespace Lib
set_option autoImplicit false

abbrev Memory := UInt64 → UInt8

/-- The `n` bytes at an address. -/
def bytesAt (m : Memory) (a : UInt64) (n : Nat) : List UInt8 :=
  (List.range n).map fun i => m (a + UInt64.ofNat i)

/-- The bytes at `a` are `l`. -/
def Holds (m : Memory) (a : UInt64) (l : List UInt8) : Prop := bytesAt m a l.length = l

instance (m : Memory) (a : UInt64) (l : List UInt8) : Decidable (Holds m a l) :=
  inferInstanceAs (Decidable (_ = _))

/-- The memory with some bytes at an address and zeros elsewhere. -/
def memoryOf (start : UInt64) (bytes : List UInt8) : Memory := fun a => (bytes[(a - start).toNat]?).getD 0

/-- The number little-endian bytes denote. -/
def ofLe (bytes : List UInt8) : Nat := bytes.foldr (fun b n => b.toNat + 256 * n) 0

/-- The lowest `width` bytes of a number. -/
def toLe : Nat → Nat → List UInt8
  | 0, _ => []
  | width + 1, n => UInt8.ofNat n :: toLe width (n / 256)

/-- A 32-bit number in memory. -/
def wordAt (m : Memory) (a : UInt64) : UInt32 := UInt32.ofNat (ofLe (bytesAt m a 4))

@[simp] theorem length_toLe (width n : Nat) : (toLe width n).length = width := by
  induction width generalizing n with
  | zero => rfl
  | succ width ih => rw [toLe, List.length_cons, ih]

/-- **Little-endian numbers are read back.** -/
theorem ofLe_toLe {width n : Nat} (fits : n < 256 ^ width) : ofLe (toLe width n) = n := by
  induction width generalizing n with
  | zero =>
    rw [Nat.pow_zero, Nat.lt_one_iff] at fits
    rw [fits]
    rfl
  | succ width ih =>
    have low : (UInt8.ofNat n).toNat = n % 256 := UInt8.toNat_ofNat'
    have rest := ih (n := n / 256) (by rw [Nat.div_lt_iff_lt_mul (by decide), ← Nat.pow_succ]; exact fits)
    rw [toLe, ofLe, List.foldr_cons, ← ofLe, rest, low]
    omega

theorem bytesAt_add (m : Memory) (a : UInt64) (n k : Nat) :
    bytesAt m a (n + k) = bytesAt m a n ++ bytesAt m (a + UInt64.ofNat n) k := by
  simp only [bytesAt, List.range_add, List.map_append, List.map_map, Function.comp_def, UInt64.ofNat_add,
    UInt64.add_assoc]

@[simp] theorem length_bytesAt (m : Memory) (a : UInt64) (n : Nat) : (bytesAt m a n).length = n := by
  simp [bytesAt]

theorem holds_append {m : Memory} {a : UInt64} {l l' : List UInt8} :
    Holds m a (l ++ l') ↔ Holds m a l ∧ Holds m (a + UInt64.ofNat l.length) l' := by
  rw [Holds, List.length_append, bytesAt_add]
  constructor
  · intro both
    exact List.append_inj both (length_bytesAt m a l.length)
  · rintro ⟨first, second⟩
    rw [first, second]

/-- A number that was written is read back. -/
theorem wordAt_toLe {m : Memory} {a : UInt64} {n : Nat} (fits : n < 2 ^ 32) (held : Holds m a (toLe 4 n)) :
    wordAt m a = UInt32.ofNat n := by
  rw [Holds, length_toLe] at held
  rw [wordAt, held, ofLe_toLe fits]

end Lib
