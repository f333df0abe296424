import JemallocPprof.Lib.ExtNum
import Mathlib.Algebra.Order.Ring.Int
import Mathlib.Data.Rat.Floor
import Mathlib.Tactic.Ring

/-!
# Doubles

A double is read as the number it denotes, or as an infinity or NaN. `encode`
rounds an integer to 53 significant bits, ties to even, and takes the double of
the result (`value_encode`). The integer part of a double needs no rounding
(`intPart_fits`).
-/

namespace Lib
set_option autoImplicit false

/-- `n / d` to the nearest integer, ties to even. -/
def roundEven (n d : Nat) : Nat :=
  if 2 * (n % d) < d then n / d else if d < 2 * (n % d) then n / d + 1 else n / d + n / d % 2

/-- `n` with 53 significant bits. -/
def rounded (n : Nat) : Nat := roundEven n (2 ^ (n.log2 - 52)) * 2 ^ (n.log2 - 52)

/-- `n` needs no more than 53 significant bits. -/
def Fits (n : Nat) : Prop := ∃ m k, m < 2 ^ 53 ∧ n = m * 2 ^ k

/-- `i` rounded, away from its sign. -/
def roundedInt (i : Int) : Int := if i < 0 then -(rounded i.natAbs : Int) else rounded i.natAbs

section Rounding
variable {n d k : Nat} {i : Int}

theorem roundEven_bounds (n d : Nat) : n / d ≤ roundEven n d ∧ roundEven n d ≤ n / d + 1 := by
  unfold roundEven
  split
  · omega
  · split <;> omega

theorem roundEven_mul_of_dvd (pos : 0 < d) (divides : d ∣ n) : roundEven n d * d = n := by
  rw [roundEven, if_pos (by rw [Nat.mod_eq_zero_of_dvd divides]; omega), Nat.div_mul_cancel divides]

theorem mul_two_pow_lt {p q r : Nat} (bound : n < 2 ^ p) (room : p + q ≤ r) : n * 2 ^ q < 2 ^ r := by
  calc n * 2 ^ q < 2 ^ p * 2 ^ q := Nat.mul_lt_mul_of_pos_right bound (Nat.two_pow_pos q)
    _ = 2 ^ (p + q) := (Nat.pow_add 2 p q).symm
    _ ≤ 2 ^ r := Nat.pow_le_pow_right Nat.two_pos room

/-- **What fits is not rounded.** -/
theorem rounded_of_fits (fits : Fits n) : rounded n = n := by
  apply roundEven_mul_of_dvd (Nat.two_pow_pos _)
  obtain ⟨m, k, bound, rfl⟩ := fits
  have short : m * 2 ^ k < 2 ^ (53 + k) := mul_two_pow_lt bound (Nat.le_refl _)
  have log : (m * 2 ^ k).log2 - 52 ≤ k := by
    rcases Nat.eq_zero_or_pos (m * 2 ^ k) with zero | pos
    · rw [zero, Nat.log2_zero]
      omega
    · have := (Nat.log2_lt (Nat.ne_of_gt pos)).2 short
      omega
  exact Nat.dvd_mul_left_of_dvd (Nat.pow_dvd_pow 2 log) m

/-- Shifting a significand that fits leaves one. -/
theorem fits_shifted {m : Nat} (short : m < 2 ^ 53) (e u : Nat) : Fits (m * 2 ^ e / 2 ^ u) := by
  rcases Nat.le_total u e with whole | part
  · refine ⟨m, e - u, short, ?_⟩
    rw [Nat.mul_div_assoc _ (Nat.pow_dvd_pow 2 whole), Nat.pow_div whole (by norm_num)]
  · refine ⟨_, 0, ?_, (Nat.mul_one _).symm⟩
    apply Nat.lt_of_le_of_lt _ short
    apply Nat.div_le_of_le_mul
    rw [Nat.mul_comm]
    exact Nat.mul_le_mul_right _ (Nat.pow_le_pow_right (by norm_num) part)

theorem fits_two_pow (k : Nat) : Fits (2 ^ k) := ⟨1, k, by norm_num, (Nat.one_mul _).symm⟩

/-- Rounding stays below a power of two, or reaches it. -/
theorem rounded_le_two_pow (bound : n ≤ 2 ^ k) : rounded n ≤ 2 ^ k := by
  rcases Nat.eq_or_lt_of_le bound with rfl | below
  · exact Nat.le_of_eq (rounded_of_fits (fits_two_pow k))
  rcases Nat.lt_or_ge n (2 ^ 53) with short | long
  · rw [rounded_of_fits ⟨n, 0, short, by simp⟩]
    exact bound
  have nonzero : n ≠ 0 := by
    have := Nat.two_pow_pos 53
    omega
  have log_lt : n.log2 < k := (Nat.log2_lt nonzero).2 below
  have log_ge : 53 ≤ n.log2 := (Nat.le_log2 nonzero).2 long
  have quotient : n / 2 ^ (n.log2 - 52) < 2 ^ 53 := by
    rw [Nat.div_lt_iff_lt_mul (Nat.two_pow_pos _), ← Nat.pow_add]
    have : 53 + (n.log2 - 52) = n.log2 + 1 := by omega
    rw [this]
    exact Nat.lt_log2_self
  calc rounded n ≤ 2 ^ 53 * 2 ^ (n.log2 - 52) :=
        Nat.mul_le_mul_right _ (by have := (roundEven_bounds n (2 ^ (n.log2 - 52))).2; omega)
    _ = 2 ^ (53 + (n.log2 - 52)) := (Nat.pow_add 2 53 _).symm
    _ ≤ 2 ^ k := Nat.pow_le_pow_right (by norm_num) (by omega)

theorem roundedInt_of_fits (fits : Fits i.natAbs) : roundedInt i = i := by
  unfold roundedInt
  rw [rounded_of_fits fits]
  split <;> omega

end Rounding

/-- A double: its sign, the exponent's eleven bits and the fraction's fifty-two. -/
structure Binary64 where
  negative : Bool
  exponent : Fin 2048
  fraction : Fin (2 ^ 52)
  deriving DecidableEq

namespace Binary64

/-- The finite doubles are multiples of `1 / units`. -/
def units : Nat := 2 ^ 1075

/-- The fraction, with the leading bit that only subnormal numbers lack. -/
def significand (x : Binary64) : Nat :=
  if x.exponent.val = 0 then x.fraction.val else 2 ^ 52 + x.fraction.val

/-- The magnitude of a finite double, in `units`. -/
def scaled (x : Binary64) : Nat := x.significand * 2 ^ max x.exponent.val 1

/-- The integer part of the magnitude. -/
def intPart (x : Binary64) : Nat := x.scaled / units

def signed {R : Type} [Neg R] (negative : Bool) (r : R) : R := if negative then -r else r

/-- What the double denotes. -/
def value (x : Binary64) : ExtNum Rat :=
  if x.exponent.val = 2047 then if x.fraction.val = 0 then .inf x.negative else .nan
  else .fin (signed x.negative ((x.scaled : Rat) / units))

/-- The significand of `n` rounded; 2^53 where the rounding carries. -/
def significandOf (n : Nat) : Nat := roundEven n (2 ^ (n.log2 - 52)) * 2 ^ (52 - n.log2)

/-- The exponent and the fraction of `n` in one number: a carry out of the
fraction is one more in the exponent, and past the last exponent is infinity. -/
def wordOf (n : Nat) : Nat := min ((n.log2 + 1022) * 2 ^ 52 + significandOf n) (2047 * 2 ^ 52)

/-- The integer of this sign and magnitude, rounded. -/
def encode (negative : Bool) (n : Nat) : Binary64 :=
  if n = 0 then ⟨negative, 0, 0⟩
  else ⟨negative, Fin.ofNat 2048 (wordOf n / 2 ^ 52), Fin.ofNat (2 ^ 52) (wordOf n % 2 ^ 52)⟩

/-- `i as f64`. -/
def ofInt (i : Int) : Binary64 := encode (decide (i < 0)) i.natAbs

/-- `f64::trunc`. -/
def trunc (x : Binary64) : Binary64 := if x.exponent.val = 2047 then x else encode x.negative x.intPart

/-- `==`. -/
def eq (x y : Binary64) : Bool := ExtNum.eq x.value y.value

theorem units_pos : 0 < units := by
  unfold units
  positivity

section Encode
variable {n : Nat} {negative : Bool} {i : Int}

theorem significandOf_bounds (nonzero : n ≠ 0) : 2 ^ 52 ≤ significandOf n ∧ significandOf n ≤ 2 ^ 53 := by
  have lower : 2 ^ n.log2 ≤ n := Nat.log2_self_le nonzero
  have upper : n < 2 ^ (n.log2 + 1) := Nat.lt_log2_self
  unfold significandOf
  rcases Nat.le_total n.log2 52 with short | long
  · rw [Nat.sub_eq_zero_of_le short, Nat.pow_zero, ← Nat.mul_one (roundEven n 1),
      roundEven_mul_of_dvd Nat.one_pos (Nat.one_dvd n)]
    constructor
    · calc 2 ^ 52 = 2 ^ n.log2 * 2 ^ (52 - n.log2) := by rw [← Nat.pow_add, Nat.add_sub_cancel' short]
        _ ≤ n * 2 ^ (52 - n.log2) := Nat.mul_le_mul_right _ lower
    · calc n * 2 ^ (52 - n.log2) ≤ 2 ^ (n.log2 + 1) * 2 ^ (52 - n.log2) := Nat.mul_le_mul_right _ upper.le
        _ = 2 ^ 53 := by rw [← Nat.pow_add, Nat.add_right_comm, Nat.add_sub_cancel' short]
  · rw [Nat.sub_eq_zero_of_le long, Nat.pow_zero, Nat.mul_one]
    obtain ⟨least, most⟩ := roundEven_bounds n (2 ^ (n.log2 - 52))
    have low : 2 ^ 52 ≤ n / 2 ^ (n.log2 - 52) := by
      rw [Nat.le_div_iff_mul_le (Nat.two_pow_pos _), ← Nat.pow_add, Nat.add_sub_cancel' long]
      exact lower
    have high : n / 2 ^ (n.log2 - 52) < 2 ^ 53 := by
      rw [Nat.div_lt_iff_lt_mul (Nat.two_pow_pos _), ← Nat.pow_add]
      have : 53 + (n.log2 - 52) = n.log2 + 1 := by omega
      rw [this]
      exact upper
    omega

/-- The significand counts units of the exponent. -/
theorem significandOf_scaled (n : Nat) : significandOf n * 2 ^ (n.log2 + 1023) = rounded n * units := by
  have exponents : 52 - n.log2 + (n.log2 + 1023) = n.log2 - 52 + 1075 := by omega
  rw [units, significandOf, rounded, Nat.mul_assoc, Nat.mul_assoc, ← Nat.pow_add, ← Nat.pow_add, exponents]

/-- **Reading a word**: a significand of 2^53 is one of 2^52 with the next exponent. -/
theorem scaled_of_word {x : Binary64} {e m : Nat} (least : 2 ^ 52 ≤ m) (most : m ≤ 2 ^ 53)
    (exponent : x.exponent.val = (e * 2 ^ 52 + m) / 2 ^ 52) (fraction : x.fraction.val = (e * 2 ^ 52 + m) % 2 ^ 52) :
    x.scaled = m * 2 ^ (e + 1) := by
  rcases Nat.lt_or_eq_of_le most with below | rfl
  · have quotient : (e * 2 ^ 52 + m) / 2 ^ 52 = e + 1 := by omega
    have remainder : (e * 2 ^ 52 + m) % 2 ^ 52 = m - 2 ^ 52 := by omega
    have leading : significand x = m := by
      rw [significand, if_neg (by omega)]
      omega
    rw [scaled, leading, exponent, quotient, Nat.max_eq_left (by omega)]
  · have quotient : (e * 2 ^ 52 + 2 ^ 53) / 2 ^ 52 = e + 2 := by omega
    have leading : significand x = 2 ^ 52 := by
      rw [significand, if_neg (by omega)]
      omega
    rw [scaled, leading, exponent, quotient, Nat.max_eq_left (by omega), ← Nat.pow_add, ← Nat.pow_add]
    congr 1
    omega

theorem exponent_lt {p q r : Nat} (least : 2 ^ p ≤ n) (bound : n * 2 ^ q < 2 ^ r) : p + q < r := by
  apply (Nat.pow_lt_pow_iff_right (by norm_num : 1 < 2)).1
  rw [Nat.pow_add]
  exact Nat.lt_of_le_of_lt (Nat.mul_le_mul_right _ least) bound

/-- A rounded integer below 2^1024 does not reach infinity. -/
theorem wordOf_eq (nonzero : n ≠ 0) (bound : rounded n < 2 ^ 1024) :
    wordOf n = (n.log2 + 1022) * 2 ^ 52 + significandOf n ∧ wordOf n < 2047 * 2 ^ 52 := by
  obtain ⟨least, most⟩ := significandOf_bounds nonzero
  have small : significandOf n * 2 ^ (n.log2 + 1023) < 2 ^ (1024 + 1075) := by
    rw [significandOf_scaled, units]
    exact mul_two_pow_lt bound (Nat.le_refl _)
  have word : (n.log2 + 1022) * 2 ^ 52 + significandOf n < 2047 * 2 ^ 52 := by
    rcases Nat.lt_or_eq_of_le most with below | carried
    · have := exponent_lt least small
      omega
    · have := exponent_lt (Nat.le_of_eq carried.symm) small
      omega
  have eq : wordOf n = (n.log2 + 1022) * 2 ^ 52 + significandOf n := Nat.min_eq_left (Nat.le_of_lt word)
  exact ⟨eq, eq ▸ word⟩

/-- An integer that rounds to less than 2^1024 is finite, and its double is the rounded integer. -/
theorem scaled_encode (negative : Bool) (bound : rounded n < 2 ^ 1024) :
    (encode negative n).exponent.val ≠ 2047 ∧ (encode negative n).scaled = rounded n * units := by
  rcases Nat.eq_zero_or_pos n with rfl | pos
  · have zero : rounded 0 = 0 := rfl
    rw [encode, if_pos rfl, zero]
    exact ⟨by simp, by simp [scaled, significand]⟩
  have nonzero : n ≠ 0 := Nat.ne_of_gt pos
  obtain ⟨least, most⟩ := significandOf_bounds nonzero
  obtain ⟨word, finite⟩ := wordOf_eq nonzero bound
  have exponent : (encode negative n).exponent.val = wordOf n / 2 ^ 52 := by
    rw [encode, if_neg nonzero]
    exact Nat.mod_eq_of_lt (by omega)
  have fraction : (encode negative n).fraction.val = wordOf n % 2 ^ 52 := by
    rw [encode, if_neg nonzero]
    exact Nat.mod_eq_of_lt (Nat.mod_lt _ (Nat.two_pow_pos 52))
  constructor
  · omega
  · rw [word] at exponent fraction
    rw [scaled_of_word least most exponent fraction, significandOf_scaled]

@[simp] theorem encode_negative : (encode negative n).negative = negative := by
  unfold encode
  split <;> rfl

/-- **An integer's double** is the integer rounded. -/
theorem value_encode (bound : rounded n < 2 ^ 1024) :
    (encode negative n).value = .fin (signed negative (rounded n : Rat)) := by
  obtain ⟨finite, scaled⟩ := scaled_encode negative bound
  have nonzero : (units : Rat) ≠ 0 := Nat.cast_ne_zero.2 (Nat.ne_of_gt units_pos)
  rw [value, if_neg finite, scaled, encode_negative, Nat.cast_mul, mul_div_cancel_right₀ _ nonzero]

theorem value_ofInt (bound : rounded i.natAbs < 2 ^ 1024) : (ofInt i).value = .fin (roundedInt i : Rat) := by
  rw [ofInt, value_encode bound, roundedInt, signed]
  by_cases negative : i < 0
  · rw [if_pos (by simpa using negative), if_pos negative]
    push_cast
    rfl
  · rw [if_neg (by simpa using negative), if_neg negative]
    push_cast
    rfl

end Encode

section IntPart
variable {x : Binary64} {q : Rat} {i : Int}

theorem significand_lt (x : Binary64) : x.significand < 2 ^ 53 := by
  have := x.fraction.isLt
  unfold significand
  split <;> omega

/-- **The integer part fits.** -/
theorem intPart_fits (x : Binary64) : Fits x.intPart := fits_shifted (significand_lt x) _ 1075

theorem intPart_lt (finite : x.exponent.val ≠ 2047) : x.intPart < 2 ^ 1024 := by
  have small : x.scaled < 2 ^ (1024 + 1075) := mul_two_pow_lt (significand_lt x) (by omega)
  rw [intPart, Nat.div_lt_iff_lt_mul units_pos, units, ← pow_add]
  exact small

theorem value_fin (h : x.value = .fin q) :
    x.exponent.val ≠ 2047 ∧ q = signed x.negative ((x.scaled : Rat) / units) := by
  unfold value at h
  split at h
  · split at h <;> cases h
  · rename_i finite
    exact ⟨finite, (ExtNum.fin.inj h).symm⟩

/-- The truncation of a finite double. -/
theorem truncate_value (h : x.value = .fin q) : truncate q = signed x.negative (x.intPart : Int) := by
  obtain ⟨-, rfl⟩ := value_fin h
  have nonneg : truncate ((x.scaled : Rat) / units) = x.intPart := by
    rw [truncate, if_pos (by positivity)]
    exact Rat.floor_natCast_div_natCast _ _
  unfold signed
  split
  · rw [truncate_neg, nonneg]
  · exact nonneg

theorem truncate_natAbs (h : x.value = .fin q) : (truncate q).natAbs = x.intPart := by
  rw [truncate_value h, signed]
  split <;> omega

/-- An integer that a double denotes is its own rounding. -/
theorem fits_of_value (h : x.value = .fin (i : Rat)) : Fits i.natAbs := by
  have part := truncate_natAbs h
  rw [truncate_intCast] at part
  rw [part]
  exact intPart_fits x

theorem natAbs_lt (h : x.value = .fin (i : Rat)) : i.natAbs < 2 ^ 1024 := by
  have part := truncate_natAbs h
  rw [truncate_intCast] at part
  rw [part]
  exact intPart_lt (value_fin h).1

/-- **`trunc`** takes the fraction away, and rounds nothing. -/
theorem value_trunc (x : Binary64) : (trunc x).value = ExtNum.trunc x.value := by
  by_cases finite : x.exponent.val = 2047
  · rw [trunc, if_pos finite, value, if_pos finite]
    split <;> rfl
  · have exact_ := rounded_of_fits (intPart_fits x)
    have found : x.value = .fin (signed x.negative ((x.scaled : Rat) / units)) := by
      rw [value, if_neg finite]
    rw [found, ExtNum.trunc, truncate_value found, trunc, if_neg finite,
      value_encode (exact_.symm ▸ intPart_lt finite), exact_, signed, signed]
    split <;> simp

end IntPart

end Binary64

end Lib
