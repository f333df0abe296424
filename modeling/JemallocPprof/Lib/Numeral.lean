import Mathlib.Data.List.Basic
import Mathlib.Data.List.Induction

/-!
# Positional numerals

`parseDigits b` reads a digit string in base `b`, most significant digit first,
either case of letters. It reads back what `Nat.toDigits b` writes for every
base up to sixteen. `decimalInt` and `readInt` are the signed decimal numerals;
`readHex` reads bytes of two hexadecimal digits.
-/

namespace Lib
set_option autoImplicit false

/-- `char::to_digit`. -/
def digitValue? (base : Nat) (c : Char) : Option Nat :=
  let v :=
    if '0' ≤ c ∧ c ≤ '9' then some (c.toNat - '0'.toNat)
    else if 'a' ≤ c ∧ c ≤ 'z' then some (c.toNat - 'a'.toNat + 10)
    else if 'A' ≤ c ∧ c ≤ 'Z' then some (c.toNat - 'A'.toNat + 10)
    else none
  v.filter (· < base)

/-- The number a digit string denotes; the empty string denotes zero. -/
def parseDigits (base : Nat) (digits : List Char) : Option Nat :=
  digits.foldlM (fun n c => (digitValue? base c).map (n * base + ·)) 0

variable {base n : Nat}

theorem parseDigits_snoc (digits : List Char) (c : Char) : parseDigits base (digits ++ [c]) =
    (parseDigits base digits).bind fun n => (digitValue? base c).map (n * base + ·) := by
  simp [parseDigits, List.foldlM_append, bind]

/-- A string that denotes a number is one of digits. -/
theorem digit_of_parseDigits {digits : List Char} (read : parseDigits base digits = some n)
    {c : Char} (mem : c ∈ digits) : (digitValue? base c).isSome = true := by
  induction digits using List.reverseRecOn generalizing n with
  | nil => cases mem
  | append_singleton digits d ih =>
    rw [parseDigits_snoc] at read
    obtain ⟨m, front, last⟩ := Option.bind_eq_some_iff.1 read
    rcases List.mem_append.1 mem with mem | mem
    · exact ih front mem
    · obtain ⟨v, value, -⟩ := Option.map_eq_some_iff.1 last
      rw [List.mem_singleton.1 mem, value]
      rfl

theorem digitValue?_digitChar {d : Nat} (small : d < base) (hex : base ≤ 16) :
    digitValue? base (Nat.digitChar d) = some d := by
  have table : ∀ d < 16, digitValue? 16 (Nat.digitChar d) = some d := by decide
  have wide := table d (by omega)
  simp only [digitValue?, Option.filter_eq_some_iff, decide_eq_true_eq] at wide ⊢
  exact ⟨wide.1, small⟩

/-- **Numerals round-trip.** -/
theorem parseDigits_toDigits (two : 1 < base) (hex : base ≤ 16) (n : Nat) :
    parseDigits base (Nat.toDigits base n) = some n := by
  induction n using Nat.strongRecOn with
  | ind n ih =>
    rw [Nat.toDigits_eq_if two]
    split
    · rename_i small
      simp [parseDigits, digitValue?_digitChar small hex]
    · rename_i large
      have smaller : n / base < n := Nat.div_lt_self (by omega) two
      rw [parseDigits_snoc, ih _ smaller]
      simp only [Option.bind_some, digitValue?_digitChar (Nat.mod_lt n (by omega)) hex, Option.map_some]
      rw [Nat.mul_comm, Nat.div_add_mod]

/-- Every character of a numeral is a digit of its base. -/
theorem digit_of_mem_toDigits (two : 1 < base) (hex : base ≤ 16) {c : Char}
    (mem : c ∈ Nat.toDigits base n) : ∃ d, d < base ∧ c = Nat.digitChar d := by
  induction n using Nat.strongRecOn with
  | ind n ih =>
    rw [Nat.toDigits_eq_if two] at mem
    split at mem
    · rename_i small
      exact ⟨n, small, List.mem_singleton.1 mem⟩
    · rename_i large
      rcases List.mem_append.1 mem with mem | mem
      · exact ih _ (Nat.div_lt_self (by omega) two) mem
      · exact ⟨n % base, Nat.mod_lt n (by omega), List.mem_singleton.1 mem⟩

/-- What holds of every digit of the base holds of every character of a numeral. -/
theorem forall_toDigits {P : Char → Prop} (two : 1 < base) (hex : base ≤ 16)
    (digits : ∀ d < base, P (Nat.digitChar d)) : ∀ c ∈ Nat.toDigits base n, P c := by
  intro c mem
  obtain ⟨d, small, rfl⟩ := digit_of_mem_toDigits two hex mem
  exact digits d small

/-! ## Decimal numerals -/

def decimal (n : Nat) : List Char := Nat.toDigits 10 n

/-- With a minus sign where needed. -/
def decimalInt : Int → List Char
  | .ofNat n => decimal n
  | .negSucc n => '-' :: decimal (n + 1)

theorem toList_toString_nat (n : Nat) : (toString n).toList = decimal n := by
  simp [decimal, Nat.toString_eq_repr, Nat.repr]

/-- It is how integers print. -/
theorem toList_toString_int (i : Int) : (toString i).toList = decimalInt i := by
  cases i with
  | ofNat n => exact toList_toString_nat n
  | negSucc n =>
    have minus : toString (Int.negSucc n) = "-" ++ Nat.repr (n + 1) := rfl
    simp [minus, decimalInt, decimal, Nat.repr]

/-- A decimal numeral with an optional minus sign. -/
def readInt (digits : List Char) : Option Int :=
  match digits with
  | [] => none
  | '-' :: rest => if rest = [] then none else (parseDigits 10 rest).map fun n => -(n : Int)
  | digits => (parseDigits 10 digits).map Int.ofNat

theorem parseDigits_decimal (n : Nat) : parseDigits 10 (decimal n) = some n :=
  parseDigits_toDigits (by decide) (by decide) n

theorem isDigit_of_mem_decimal {n : Nat} {c : Char} (mem : c ∈ decimal n) : c.isDigit = true :=
  Nat.isDigit_of_mem_toDigits (by decide) (by decide) mem

theorem decimal_ne_nil (n : Nat) : decimal n ≠ [] := Nat.toDigits_ne_nil

/-- **Signed numerals round-trip.** -/
theorem readInt_decimalInt (i : Int) : readInt (decimalInt i) = some i := by
  cases i with
  | ofNat n =>
    obtain ⟨c, rest, e⟩ := List.exists_cons_of_ne_nil (decimal_ne_nil n)
    have unsigned : c ≠ '-' := by
      rintro rfl
      have digit := isDigit_of_mem_decimal (n := n) (e ▸ List.mem_cons_self)
      exact absurd digit (by decide)
    have read := parseDigits_decimal n
    rw [decimalInt, e]
    rw [e] at read
    simp [readInt, unsigned, read]
  | negSucc n =>
    simp only [decimalInt, readInt, if_neg (decimal_ne_nil (n + 1)), parseDigits_decimal]
    rfl

theorem space_not_mem_decimalInt (i : Int) : ' ' ∉ decimalInt i := by
  have digits : ∀ n, ' ' ∉ decimal n := fun n mem => absurd (isDigit_of_mem_decimal mem) (by decide)
  cases i with
  | ofNat n => exact digits n
  | negSucc n => simp [decimalInt, digits]

/-! ## Bytes in hexadecimal -/

/-- The two digits of a byte. -/
def hexDigits (byte : UInt8) : List Char := [Nat.digitChar (byte.toNat / 16), Nat.digitChar (byte.toNat % 16)]

/-- Bytes of two digits each. -/
def readHex : List Char → Option (List UInt8)
  | [] => some []
  | [_] => none
  | high :: low :: rest => do
    let byte ← parseDigits 16 [high, low]
    let bytes ← readHex rest
    some (UInt8.ofNat byte :: bytes)

theorem parseDigits_hexDigits (byte : UInt8) : parseDigits 16 (hexDigits byte) = some byte.toNat := by
  have bound := byte.toNat_lt
  have high : digitValue? 16 (Nat.digitChar (byte.toNat / 16)) = some (byte.toNat / 16) :=
    digitValue?_digitChar (by omega) (by decide)
  have low : digitValue? 16 (Nat.digitChar (byte.toNat % 16)) = some (byte.toNat % 16) :=
    digitValue?_digitChar (by omega) (by decide)
  have halves : byte.toNat / 16 * 16 + byte.toNat % 16 = byte.toNat := by omega
  simp [parseDigits, hexDigits, high, low, halves]

/-- **Bytes round-trip.** -/
theorem readHex_hexDigits (bytes : List UInt8) : readHex (bytes.flatMap hexDigits) = some bytes := by
  induction bytes with
  | nil => rfl
  | cons byte bytes ih =>
    have first := parseDigits_hexDigits byte
    unfold hexDigits at first
    rw [List.flatMap_cons, hexDigits, List.cons_append, List.cons_append, List.nil_append, readHex, first, ih]
    simp

end Lib
