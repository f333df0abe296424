import Mathlib.Data.List.Basic
import Mathlib.Data.List.ReduceOption

/-!
# UTF-8 text as bytes

`utf8Chars` reads a byte string character by character; bytes that start no
character give `none`, one for each maximal sequence that could have started
one. Strict decoding wants every entry to be a character, lossy decoding puts
U+FFFD for the others. Both read back what `utf8Bytes` writes.
-/

namespace Lib
set_option autoImplicit false

/-- The bytes of a text. -/
def utf8Bytes (text : String) : List UInt8 := text.toList.flatMap String.utf8EncodeChar

def isContinuation (b : UInt8) : Bool := 0x80 ≤ b && b ≤ 0xBF

/-- `b` may follow the first byte `a` of a three-byte character. -/
def secondOfThree (a b : UInt8) : Bool :=
  (a == 0xE0 && 0xA0 ≤ b && b ≤ 0xBF) || (0xE1 ≤ a && a ≤ 0xEC && isContinuation b) ||
  (a == 0xED && 0x80 ≤ b && b ≤ 0x9F) || (0xEE ≤ a && a ≤ 0xEF && isContinuation b)

/-- `b` may follow the first byte `a` of a four-byte character. -/
def secondOfFour (a b : UInt8) : Bool :=
  (a == 0xF0 && 0x90 ≤ b && b ≤ 0xBF) || (0xF1 ≤ a && a ≤ 0xF3 && isContinuation b) ||
  (a == 0xF4 && 0x80 ≤ b && b ≤ 0x8F)

/-- How many bytes one replacement character stands for, at the head of bytes
that start no character. -/
def invalidLength : List UInt8 → Nat
  | a :: b :: c :: _ =>
    if secondOfFour a b then if isContinuation c then 3 else 2
    else if secondOfThree a b then 2 else 1
  | [a, b] => if secondOfFour a b || secondOfThree a b then 2 else 1
  | _ => 1

/-- Read at most `n` characters. -/
def utf8CharsN : Nat → List UInt8 → List (Option Char)
  | 0, _ => []
  | _ + 1, [] => []
  | n + 1, b :: bytes =>
    match (b :: bytes).toByteArray.utf8DecodeChar? 0 with
    | some c => some c :: utf8CharsN n ((b :: bytes).drop c.utf8Size)
    | none => none :: utf8CharsN n ((b :: bytes).drop (invalidLength (b :: bytes)))

def utf8Chars (bytes : List UInt8) : List (Option Char) := utf8CharsN bytes.length bytes

/-- Strict decoding. -/
def fromUtf8 (bytes : List UInt8) : Option String :=
  if (utf8Chars bytes).all Option.isSome then some (String.ofList ((utf8Chars bytes).reduceOption))
  else none

/-- Lossy decoding. -/
def fromUtf8Lossy (bytes : List UInt8) : String :=
  String.ofList ((utf8Chars bytes).map (·.getD '\uFFFD'))

theorem utf8CharsN_encoded (chars : List Char) :
    ∀ n, (chars.flatMap String.utf8EncodeChar).length ≤ n →
      utf8CharsN n (chars.flatMap String.utf8EncodeChar) = chars.map some := by
  induction chars with
  | nil => intro n _; cases n <;> rfl
  | cons c chars ih =>
    intro n bound
    have size := c.utf8Size_pos
    have length := String.length_utf8EncodeChar c
    rw [List.flatMap_cons, List.length_append] at bound
    cases n with
    | zero => omega
    | succ n =>
      rw [List.flatMap_cons]
      have decoded : (String.utf8EncodeChar c ++ chars.flatMap String.utf8EncodeChar).toByteArray.utf8DecodeChar? 0
          = some c := by
        rw [List.toByteArray_append]
        exact ByteArray.utf8DecodeChar?_utf8EncodeChar_append
      cases e : String.utf8EncodeChar c with
      | nil => rw [e] at length; simp at length; omega
      | cons b bytes =>
        rw [e] at decoded length bound
        have rest : (b :: bytes ++ chars.flatMap String.utf8EncodeChar).drop c.utf8Size =
            chars.flatMap String.utf8EncodeChar := by rw [← length, List.drop_left]
        rw [List.cons_append] at decoded rest ⊢
        rw [utf8CharsN, decoded]
        simp only [rest, List.map_cons]
        rw [ih n (by omega)]

theorem utf8Chars_utf8Bytes (text : String) : utf8Chars (utf8Bytes text) = text.toList.map some :=
  utf8CharsN_encoded text.toList _ (Nat.le_refl _)

/-- A text survives strict decoding. -/
@[simp] theorem fromUtf8_utf8Bytes (text : String) : fromUtf8 (utf8Bytes text) = some text := by
  have chars : (text.toList.map some).reduceOption = text.toList := by
    simp [List.reduceOption, List.filterMap_map]
  rw [fromUtf8, utf8Chars_utf8Bytes, chars]
  simp

/-- Characters that were all read are what the bytes encode. -/
theorem utf8CharsN_decoded (n : Nat) : ∀ bytes : List UInt8, bytes.length ≤ n →
    (utf8CharsN n bytes).all Option.isSome = true →
    ((utf8CharsN n bytes).reduceOption).flatMap String.utf8EncodeChar = bytes := by
  induction n with
  | zero =>
    intro bytes bound _
    rw [List.eq_nil_of_length_eq_zero (Nat.le_zero.1 bound)]
    rfl
  | succ n ih =>
    intro bytes bound valid
    cases bytes with
    | nil => rfl
    | cons b bytes =>
      rw [utf8CharsN] at valid ⊢
      cases decoded : (b :: bytes).toByteArray.utf8DecodeChar? 0 with
      | none =>
        rw [decoded] at valid
        cases valid
      | some c =>
        obtain ⟨tail, split⟩ := ByteArray.exists_of_utf8DecodeChar?_eq_some decoded
        have split : b :: bytes = String.utf8EncodeChar c ++ tail.data.toList := by
          simpa using congrArg (fun a : ByteArray => a.data.toList) split
        have behind : (b :: bytes).drop c.utf8Size = tail.data.toList := by
          rw [split, ← String.length_utf8EncodeChar c, List.drop_left]
        have shorter : tail.data.toList.length ≤ n := by
          have size := c.utf8Size_pos
          have lengths := congrArg List.length split
          rw [List.length_append, String.length_utf8EncodeChar] at lengths
          omega
        simp only [decoded, behind, List.all_cons, Option.isSome_some, Bool.true_and] at valid
        simp only [behind, List.reduceOption_cons_of_some, List.flatMap_cons, ih _ shorter valid]
        exact split.symm

/-- **Strict decoding** accepts exactly the bytes of a text, and returns it. -/
theorem fromUtf8_eq_some {bytes : List UInt8} {text : String} :
    fromUtf8 bytes = some text ↔ bytes = utf8Bytes text := by
  constructor
  · intro decoded
    unfold fromUtf8 at decoded
    split at decoded
    · rename_i valid
      rw [← Option.some.inj decoded, utf8Bytes, String.toList_ofList]
      exact (utf8CharsN_decoded _ bytes (Nat.le_refl _) valid).symm
    · cases decoded
  · rintro rfl
    exact fromUtf8_utf8Bytes text

/-- Lossy decoding agrees where strict decoding succeeds. -/
theorem fromUtf8Lossy_eq {bytes : List UInt8} {text : String} (decoded : fromUtf8 bytes = some text) :
    fromUtf8Lossy bytes = text := by
  rw [fromUtf8_eq_some.1 decoded, fromUtf8Lossy, utf8Chars_utf8Bytes, List.map_map]
  simp [Function.comp_def]

/-- A byte below 128 stands for itself. -/
theorem ascii_of_mem_utf8EncodeChar {c : Char} {b : UInt8} (mem : b ∈ String.utf8EncodeChar c)
    (ascii : b.toNat < 128) : c.toNat = b.toNat := by
  unfold String.utf8EncodeChar at mem
  simp only at mem
  split at mem
  · rename_i small
    obtain rfl := List.mem_singleton.1 mem
    change c.toNat ≤ 127 at small
    simp [UInt8.toNat_ofNat']
    omega
  · split at mem
    · simp only [List.mem_cons, List.not_mem_nil, or_false] at mem
      rcases mem with rfl | rfl <;> simp [UInt8.toNat_ofNat'] at ascii <;> omega
    · split at mem
      · simp only [List.mem_cons, List.not_mem_nil, or_false] at mem
        rcases mem with rfl | rfl | rfl <;> simp [UInt8.toNat_ofNat'] at ascii <;> omega
      · simp only [List.mem_cons, List.not_mem_nil, or_false] at mem
        rcases mem with rfl | rfl | rfl | rfl <;> simp [UInt8.toNat_ofNat'] at ascii <;> omega

theorem ascii_of_mem_utf8Bytes {text : String} {b : UInt8} (mem : b ∈ utf8Bytes text) (ascii : b.toNat < 128) :
    ∃ c ∈ text.toList, c.toNat = b.toNat := by
  obtain ⟨c, here, inside⟩ := List.mem_flatMap.1 mem
  exact ⟨c, here, ascii_of_mem_utf8EncodeChar inside ascii⟩

theorem utf8Bytes_append (a b : List Char) :
    utf8Bytes (String.ofList (a ++ b)) = utf8Bytes (String.ofList a) ++ utf8Bytes (String.ofList b) := by
  simp [utf8Bytes]

end Lib
