import Mathlib.Data.List.DropRight
import Mathlib.Data.List.Infix

/-!
# Words of a line

Trimming, splitting at white space and stripping repeated prefixes, over lists
of any alphabet. A line that was put together from words and separators is
taken apart into the same words (`words_intercalate`).
-/

namespace Lib
set_option autoImplicit false

variable {α : Type}

/-- Without the `p` elements at both ends. -/
def trimBoth (p : α → Bool) (l : List α) : List α := (l.dropWhile p).rdropWhile p

/-- The maximal runs of elements that are not separators. -/
def words (sep : α → Bool) (l : List α) : List (List α) := (l.splitOnP sep).filter (· ≠ [])

section Strip
variable [BEq α] [LawfulBEq α]

/-- Without at most `n` leading copies of `pat`. -/
def stripN (pat : List α) : Nat → List α → List α
  | 0, l => l
  | n + 1, l => if pat ≠ [] ∧ pat.isPrefixOf l then stripN pat n (l.drop pat.length) else l

/-- Without any leading copy of `pat`. -/
def trimStartMatches (pat l : List α) : List α := stripN pat l.length l

theorem stripN_self {pat l : List α} (h : ¬pat <+: l) (n : Nat) : stripN pat n l = l := by
  cases n with
  | zero => rfl
  | succ n => rw [stripN, if_neg (fun e => h (List.isPrefixOf_iff_prefix.1 e.2))]

/-- One copy is stripped when what follows does not start with another. -/
theorem trimStartMatches_append {pat l : List α} (h : ¬pat <+: l) :
    trimStartMatches pat (pat ++ l) = l := by
  cases pat with
  | nil => exact absurd (List.nil_prefix) h
  | cons a pat =>
    rw [trimStartMatches, List.cons_append, List.length_cons, stripN,
      if_pos ⟨by simp, List.isPrefixOf_iff_prefix.2 (List.prefix_append (a :: pat) l)⟩]
    rw [← List.cons_append, List.drop_left]
    exact stripN_self h _

omit [LawfulBEq α] in
theorem stripN_suffix (pat : List α) (n : Nat) : ∀ l, stripN pat n l <:+ l := by
  induction n with
  | zero => exact fun l => List.suffix_rfl
  | succ n ih =>
    intro l
    rw [stripN]
    split
    · exact (ih _).trans (List.drop_suffix _ _)
    · exact List.suffix_rfl

omit [LawfulBEq α] in
/-- What is stripped comes off the front. -/
theorem trimStartMatches_suffix (pat l : List α) : trimStartMatches pat l <:+ l := stripN_suffix pat _ l

end Strip

section Trim
variable {p : α → Bool} {l : List α}

/-- Nothing is trimmed off a line whose ends are kept. -/
theorem trimBoth_self (first : ∀ a ∈ l.head?, p a = false) (last : ∀ a ∈ l.getLast?, p a = false) :
    trimBoth p l = l := by
  have left : l.dropWhile p = l := by
    cases l with
    | nil => rfl
    | cons a l => rw [List.dropWhile_cons_of_neg (by simp [first a (by simp)])]
  rw [trimBoth, left, List.rdropWhile_eq_self_iff]
  intro nonempty
  simp [last _ (List.getLast?_eq_getLast_of_ne_nil nonempty)]

theorem trimBoth_cons {a : α} (h : p a = true) : trimBoth p (a :: l) = trimBoth p l := by
  rw [trimBoth, List.dropWhile_cons_of_pos h, trimBoth]

/-- Trailing elements that go anyway may be there or not. -/
theorem trimBoth_snoc {a : α} (h : p a = true) : trimBoth p (l ++ [a]) = trimBoth p l := by
  unfold trimBoth
  by_cases all : ∀ x ∈ l, p x = true
  · rw [List.dropWhile_eq_nil_iff.2 all, List.dropWhile_eq_nil_iff.2]
    intro x hx
    rcases List.mem_append.1 hx with hx | hx
    · exact all x hx
    · rwa [List.mem_singleton.1 hx]
  · have kept : (l ++ [a]).dropWhile p = l.dropWhile p ++ [a] := by
      rw [List.dropWhile_append, if_neg]
      simpa [List.dropWhile_eq_nil_iff] using all
    rw [kept, List.rdropWhile_concat_pos _ _ _ h]

end Trim

section Words
variable {sep : α → Bool} {w l : List α}

@[simp] theorem words_nil : words sep ([] : List α) = [] := by simp [words, List.splitOnP_nil]

/-- A run of other elements is one word. -/
theorem words_word (plain : ∀ a ∈ w, sep a = false) (nonempty : w ≠ []) : words sep w = [w] := by
  simp [words, List.splitOnP_eq_singleton plain, nonempty]

theorem words_append_sep {a : α} (plain : ∀ x ∈ w, sep x = false) (nonempty : w ≠ [])
    (h : sep a = true) : words sep (w ++ a :: l) = w :: words sep l := by
  simp [words, List.splitOnP_append_cons_of_forall_mem plain a h, nonempty]

/-- **Words joined by a separator are found again.** -/
theorem words_intercalate {a : α} (h : sep a = true) {ws : List (List α)}
    (plain : ∀ w ∈ ws, w ≠ [] ∧ ∀ x ∈ w, sep x = false) :
    words sep (List.intercalate [a] ws) = ws := by
  induction ws with
  | nil => simp [List.intercalate]
  | cons w ws ih =>
    have here := plain w (by simp)
    have rest := ih (fun v hv => plain v (by simp [hv]))
    cases ws with
    | nil => simpa [List.intercalate] using words_word here.2 here.1
    | cons v ws =>
      have joined : List.intercalate [a] (w :: v :: ws) = w ++ a :: List.intercalate [a] (v :: ws) := by
        simp [List.intercalate, List.intersperse]
      rw [joined, words_append_sep here.2 here.1 h, rest]

end Words

/-- **Lines that each end in a separator are found again**, with an empty last piece. -/
theorem splitOn_ended [BEq α] [LawfulBEq α] {a : α} {lines : List (List α)}
    (plain : ∀ l ∈ lines, a ∉ l) : (lines.flatMap (· ++ [a])).splitOn a = lines ++ [[]] := by
  induction lines with
  | nil => rfl
  | cons l lines ih =>
    have rest := ih fun m hm => plain m (List.mem_cons_of_mem _ hm)
    rw [List.flatMap_cons, List.append_assoc, List.singleton_append,
      List.splitOn_append_cons_self_of_not_mem (plain l List.mem_cons_self), rest, List.cons_append]

/-- No piece holds the separator. -/
theorem not_mem_of_mem_splitOn [BEq α] [LawfulBEq α] {a : α} {l piece : List α} (mem : piece ∈ l.splitOn a) :
    a ∉ piece := by
  induction l generalizing piece with
  | nil =>
    rw [List.splitOn_nil, List.mem_singleton] at mem
    simp [mem]
  | cons x l ih =>
    rw [List.splitOn_cons_eq_if_modifyHead] at mem
    split at mem
    · rcases List.mem_cons.1 mem with rfl | mem
      · simp
      · exact ih mem
    · rename_i other
      obtain ⟨head, rest, split⟩ := List.exists_cons_of_ne_nil (List.splitOn_ne_nil a l)
      rw [split, List.modifyHead_cons] at mem
      rw [split] at ih
      rcases List.mem_cons.1 mem with rfl | mem
      · have here := ih List.mem_cons_self
        have differs : a ≠ x := by
          rintro rfl
          exact other BEq.rfl
        simp [differs, here]
      · exact ih (List.mem_cons_of_mem _ mem)

end Lib
