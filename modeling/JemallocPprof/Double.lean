import JemallocPprof.Cast
import JemallocPprof.Lib.Binary64
import JemallocPprof.Runtime

/-!
# The casts at f64

`cast.rs` has four attempted casts: from f64 to i64 and u64, and back. Over
doubles, `as` truncates and saturates one way and rounds the other way. An
integer type meets both at its upper end: the number past its greatest member
saturates to that member, which rounds to the number past it
(`float_cast`, `int_cast`).
-/

namespace JemallocPprof
set_option autoImplicit false
open Lib

instance binary64Cast : F64Cast Binary64 where
  trunc := Binary64.trunc
  toI64 x := x.value.saturate i64Min i64Max
  ofI64 := Binary64.ofInt
  eq := Binary64.eq

def u64Max : Int := 2 ^ 64 - 1

/-- `as u64`. -/
def toU64 (x : Binary64) : UInt64 := UInt64.ofNat (x.value.saturate 0 u64Max).toNat

/-- `as i64`. -/
def toI64 (x : Binary64) : Int64 := Int64.ofInt (x.value.saturate i64Min i64Max)

/-- `u64::try_cast_from` on an f64. -/
def u64TryCastFrom (value : Binary64) : Option UInt64 :=
  tryCastFrom toU64 (fun n => Binary64.ofInt n.toNat) Binary64.eq value

/-- `f64::try_cast_from` on an i64. -/
def f64TryCastFromI64 (value : Int64) : Option Binary64 :=
  tryCastFrom (fun i => Binary64.ofInt i.toInt) toI64 (· == ·) value

/-- `f64::try_cast_from` on a u64. -/
def f64TryCastFromU64 (value : UInt64) : Option Binary64 :=
  tryCastFrom (fun n => Binary64.ofInt n.toNat) toU64 (· == ·) value

/-- The range of an integer type, as doubles see it. -/
structure Bounds (lo hi : Int) : Prop where
  lo_nonpos : lo ≤ 0
  hi_nonneg : 0 ≤ hi
  /-- The least member is a double. -/
  low : roundedInt lo = lo
  /-- The greatest is not. -/
  high : roundedInt hi = hi + 1
  within : ∀ i, lo ≤ i → i ≤ hi → lo ≤ roundedInt i ∧ roundedInt i ≤ hi + 1
  finite : ∀ i, lo ≤ i → i ≤ hi → rounded i.natAbs < 2 ^ 1024

/-- The range below a power of two that rounds up to it. -/
theorem bounds_of_pow {lo : Int} {k : Nat} (word : k ≤ 64) (least : lo = -(2 ^ k : Nat) ∨ lo = 0)
    (high : roundedInt ((2 ^ k : Nat) - 1) = (2 ^ k : Nat)) : Bounds lo ((2 ^ k : Nat) - 1) := by
  have pos : 0 < 2 ^ k := Nat.two_pow_pos k
  have near : ∀ i : Int, lo ≤ i → i ≤ (2 ^ k : Nat) - 1 → rounded i.natAbs ≤ 2 ^ k := by
    intro i above below
    apply rounded_le_two_pow
    omega
  refine ⟨by omega, by omega, ?_, by omega, ?_, ?_⟩
  · rcases least with rfl | rfl
    · apply roundedInt_of_fits
      rw [Int.natAbs_neg, Int.natAbs_natCast]
      exact fits_two_pow k
    · rfl
  · intro i above below
    have := near i above below
    unfold roundedInt
    split <;> omega
  · intro i above below
    calc rounded i.natAbs ≤ 2 ^ k := near i above below
      _ < 2 ^ 1024 := pow_lt_pow_right₀ (by norm_num) (by omega)

theorem i64Bounds : Bounds i64Min i64Max := bounds_of_pow (by decide) (.inl rfl) (k := 63) (by decide)

theorem u64Bounds : Bounds 0 u64Max := bounds_of_pow (by decide) (.inr rfl) (k := 64) (by decide)

section Range
variable {lo hi i : Int}

/-- `saturate` stays in the range. -/
theorem saturate_within (bounds : Bounds lo hi) (x : ExtNum Rat) :
    lo ≤ x.saturate lo hi ∧ x.saturate lo hi ≤ hi := by
  have nonpos := bounds.lo_nonpos
  have nonneg := bounds.hi_nonneg
  have order : lo ≤ hi := nonpos.trans nonneg
  cases x with
  | nan => exact ⟨nonpos, nonneg⟩
  | inf s => cases s <;> simp [ExtNum.saturate, order]
  | fin q =>
    simp only [ExtNum.saturate]
    omega

/-- **From f64**: the cast is exact, but for the number past the range. -/
theorem float_cast (bounds : Bounds lo hi) (x : Binary64) :
    tryCastFrom (fun x : Binary64 => x.value.saturate lo hi) Binary64.ofInt Binary64.eq x = some i ↔
      (lo ≤ i ∧ i ≤ hi ∧ x.value = .fin (i : Rat)) ∨ (x.value = .fin ((hi + 1 : Int) : Rat) ∧ i = hi) := by
  have nonneg := bounds.hi_nonneg
  have nonpos := bounds.lo_nonpos
  rw [tryCastFrom_eq_some, Binary64.eq]
  constructor
  · rintro ⟨clamped, same⟩
    obtain ⟨least, most⟩ : lo ≤ i ∧ i ≤ hi := clamped ▸ saturate_within bounds x.value
    rw [Binary64.value_ofInt (bounds.finite i least most), ExtNum.eq_fin] at same
    obtain ⟨low, high⟩ := bounds.within i least most
    rw [same, ExtNum.saturate, truncate_intCast] at clamped
    rcases Int.lt_or_le hi (roundedInt i) with past | inside
    · have top : roundedInt i = hi + 1 := by omega
      exact .inr ⟨top ▸ same, by omega⟩
    · have own : roundedInt i = i := by omega
      exact .inl ⟨least, most, own ▸ same⟩
  · rintro (⟨least, most, found⟩ | ⟨found, rfl⟩)
    · have own : roundedInt i = i := roundedInt_of_fits (Binary64.fits_of_value found)
      rw [Binary64.value_ofInt (bounds.finite i least most), own, found, ExtNum.eq_fin]
      exact ⟨ExtNum.saturate_intCast least most, rfl⟩
    · rw [Binary64.value_ofInt (bounds.finite i (by omega) (le_refl i)), bounds.high, found, ExtNum.eq_fin,
        ExtNum.saturate, truncate_intCast]
      exact ⟨by omega, rfl⟩

/-- **To f64**: the cast is exact, but for the greatest member. -/
theorem int_cast (bounds : Bounds lo hi) (least : lo ≤ i) (most : i ≤ hi) :
    (Binary64.ofInt i).value.saturate lo hi = i ↔ (Binary64.ofInt i).value = .fin (i : Rat) ∨ i = hi := by
  obtain ⟨low, high⟩ := bounds.within i least most
  have order := bounds.lo_nonpos.trans bounds.hi_nonneg
  rw [Binary64.value_ofInt (bounds.finite i least most), ExtNum.saturate, truncate_intCast, ExtNum.fin.injEq,
    Int.cast_inj]
  constructor
  · intro same
    omega
  · rintro (same | rfl)
    · omega
    · rw [bounds.high]
      omega

end Range

theorem toInt_toI64 (x : Binary64) : (toI64 x).toInt = x.value.saturate i64Min i64Max := by
  obtain ⟨least, most⟩ := saturate_within i64Bounds x.value
  apply Int64.toInt_ofInt_of_le least
  exact Int.lt_of_le_of_lt most (by decide)

theorem toNat_toU64 (x : Binary64) : ((toU64 x).toNat : Int) = x.value.saturate 0 u64Max := by
  obtain ⟨least, most⟩ := saturate_within u64Bounds x.value
  have bound : (x.value.saturate 0 u64Max).toNat < 2 ^ 64 := by
    have : u64Max < 2 ^ 64 := by decide
    omega
  rw [toU64, UInt64.toNat_ofNat_of_lt' bound, Int.toNat_of_nonneg least]

/-- The double denotes the integer. -/
def Denotes (x : Binary64) (i : Int) : Prop := x.value = .fin (i : Rat)

instance (x : Binary64) (i : Int) : Decidable (Denotes x i) := inferInstanceAs (Decidable (_ = _))

theorem Denotes.unique {x : Binary64} {i j : Int} (hi : Denotes x i) (hj : Denotes x j) : i = j :=
  Int.cast_injective (ExtNum.fin.inj (hi.symm.trans hj))

theorem i64TryCastFrom_iff {x : Binary64} {i : Int} :
    i64TryCastFrom x = some i ↔ (InI64 i ∧ Denotes x i) ∨ (Denotes x (2 ^ 63) ∧ i = i64Max) := by
  have range : InI64 i ↔ i64Min ≤ i ∧ i ≤ i64Max := by
    unfold InI64 i64Min i64Max
    omega
  rw [range, and_assoc]
  exact float_cast i64Bounds x

theorem u64TryCastFrom_iff {x : Binary64} {n : UInt64} :
    u64TryCastFrom x = some n ↔ Denotes x n.toNat ∨ (Denotes x (2 ^ 64) ∧ (n.toNat : Int) = u64Max) := by
  have range : 0 ≤ (n.toNat : Int) ∧ (n.toNat : Int) ≤ u64Max := by
    have := n.toNat_lt
    unfold u64Max
    omega
  have given : toU64 x = n ↔ x.value.saturate 0 u64Max = n.toNat := by
    rw [← toNat_toU64, Int.ofNat_inj, UInt64.toNat_inj]
  have cast : u64TryCastFrom x = some n ↔
      tryCastFrom (fun x : Binary64 => x.value.saturate 0 u64Max) Binary64.ofInt Binary64.eq x =
        some (n.toNat : Int) := by
    rw [u64TryCastFrom, tryCastFrom_eq_some, tryCastFrom_eq_some, given]
  rw [cast, float_cast u64Bounds x]
  simp only [range, true_and]
  rfl

theorem f64TryCastFromI64_iff {i : Int64} {y : Binary64} :
    f64TryCastFromI64 i = some y ↔ y = Binary64.ofInt i.toInt ∧ (Denotes y i.toInt ∨ i.toInt = i64Max) := by
  have range := int_cast i64Bounds i.le_toInt (Int.le_of_lt_add_one i.toInt_lt)
  rw [f64TryCastFromI64, tryCastFrom_eq_some, beq_iff_eq, eq_comm]
  apply and_congr_right
  rintro rfl
  rw [← Int64.toInt_inj, toInt_toI64, eq_comm]
  exact range

theorem f64TryCastFromU64_iff {n : UInt64} {y : Binary64} :
    f64TryCastFromU64 n = some y ↔ y = Binary64.ofInt n.toNat ∧ (Denotes y n.toNat ∨ (n.toNat : Int) = u64Max) := by
  have most : (n.toNat : Int) ≤ u64Max := by
    have := n.toNat_lt
    unfold u64Max
    omega
  rw [f64TryCastFromU64, tryCastFrom_eq_some, beq_iff_eq, eq_comm]
  apply and_congr_right
  rintro rfl
  rw [← UInt64.toNat_inj, ← Int.ofNat_inj, toNat_toU64, eq_comm]
  exact int_cast u64Bounds (Int.natCast_nonneg _) most

/-- An integer that some double denotes is the one it is converted to. -/
theorem denotes_ofInt {x : Binary64} {i : Int} (h : Denotes x i) : Denotes (Binary64.ofInt i) i := by
  have fits : rounded i.natAbs = i.natAbs := rounded_of_fits (Binary64.fits_of_value h)
  have finite : rounded i.natAbs < 2 ^ 1024 := by
    rw [fits]
    exact Binary64.natAbs_lt h
  rw [Denotes, Binary64.value_ofInt finite, roundedInt_of_fits (Binary64.fits_of_value h)]

/-- The real a double is. -/
noncomputable def doubleReal (x : Binary64) : Option ℝ :=
  match x.value with
  | .fin q => some q
  | _ => none

theorem doubleReal_eq_some {x : Binary64} {v : ℝ} :
    doubleReal x = some v ↔ ∃ q : Rat, x.value = .fin q ∧ (q : ℝ) = v := by
  unfold doubleReal
  cases x.value <;> simp

theorem truncate_cast (q : Rat) : truncate (q : ℝ) = truncate q := by
  unfold truncate
  rw [Rat.floor_cast, Rat.ceil_cast]
  simp

theorem doubleReal_int {x : Binary64} {i : Int} (read : doubleReal x = some (i : ℝ)) : Denotes x i := by
  obtain ⟨q, found, same⟩ := doubleReal_eq_some.1 read
  have integral : q = (i : Rat) := by exact_mod_cast same
  rw [Denotes, found, integral]

/-- Doubles are what the conversion needs of f64. -/
noncomputable instance binary64Real : F64Real Binary64 where
  real := doubleReal
  real_trunc := by
    intro w v read
    obtain ⟨q, found, rfl⟩ := doubleReal_eq_some.1 read
    refine doubleReal_eq_some.2 ⟨truncate q, ?_, ?_⟩
    · show (Binary64.trunc w).value = _
      rw [Binary64.value_trunc, found, ExtNum.trunc]
    · rw [truncate_cast]
      exact Rat.cast_intCast _
  toI64_int := by
    intro w i read lo hi
    have found : w.value = .fin (i : Rat) := doubleReal_int read
    show w.value.saturate i64Min i64Max = i
    rw [found]
    exact ExtNum.saturate_intCast lo (Int.le_sub_one_of_lt hi)
  real_ofI64 := by
    intro w i read
    exact doubleReal_eq_some.2 ⟨i, denotes_ofInt (doubleReal_int read), Rat.cast_intCast i⟩
  eq_of_real := by
    intro w w' v read read'
    obtain ⟨q, found, rfl⟩ := doubleReal_eq_some.1 read
    obtain ⟨q', found', same⟩ := doubleReal_eq_some.1 read'
    have : q' = q := by exact_mod_cast same
    show Binary64.eq w w' = true
    rw [Binary64.eq, found', ExtNum.eq_fin, found, this]

end JemallocPprof
