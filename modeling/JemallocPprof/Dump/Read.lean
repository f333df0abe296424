import JemallocPprof.Dump

/-!
# Reading a dump back

The lines of a dump are found again in its bytes, the words in its lines and
the numbers in its words. Of the kinds of line only the stack and total lines
of the records move the parser, and `parseJeheap_text` concludes that it
returns the dump's profile.
-/

namespace JemallocPprof
set_option autoImplicit false
open Lib

/-- `BufRead::lines` drops a carriage return before the line feed. -/
def dropCr (line : List Char) : List Char := if line.getLast? = some '\r' then line.dropLast else line

theorem utf8Bytes_dropCr (line : List Char) :
    (if (utf8Bytes (String.ofList line)).getLast? = some 0x0D then (utf8Bytes (String.ofList line)).dropLast
      else utf8Bytes (String.ofList line)) = utf8Bytes (String.ofList (dropCr line)) := by
  rcases List.eq_nil_or_concat' line with rfl | ⟨line, c, rfl⟩
  · rfl
  · rw [utf8Bytes_append]
    by_cases cr : c = '\r'
    · subst cr
      have one : utf8Bytes (String.ofList ['\r']) = [0x0D] := by decide
      simp [one, dropCr]
    · have one : utf8Bytes (String.ofList [c]) = String.utf8EncodeChar c := by simp [utf8Bytes]
      have other : (String.utf8EncodeChar c).getLast? ≠ some 0x0D := by
        intro last
        have code := ascii_of_mem_utf8EncodeChar (List.mem_of_getLast? last) (by decide)
        exact cr (Char.toNat_inj.1 code)
      have last : (utf8Bytes (String.ofList line) ++ String.utf8EncodeChar c).getLast? =
          (String.utf8EncodeChar c).getLast? := by
        rw [List.getLast?_append, Option.or_of_isSome]
        simp [String.utf8EncodeChar_ne_nil]
      rw [one, last, if_neg other, dropCr, if_neg (by simpa using cr), utf8Bytes_append, one]

/-- The bytes of lines that each end in a line feed. -/
theorem utf8Bytes_ended (lines : List (List Char)) :
    utf8Bytes (String.ofList (lines.flatMap (· ++ ['\n']))) =
      (lines.map fun l => utf8Bytes (String.ofList l)).flatMap (· ++ [0x0A]) := by
  have one : String.utf8EncodeChar '\n' = [0x0A] := by decide
  simp [utf8Bytes, List.flatMap_assoc, List.flatMap_map, one]

/-- Lines of text without a line feed have no line feed among their bytes. -/
theorem utf8Bytes_oneLine {lines : List (List Char)} (plain : ∀ l ∈ lines, '\n' ∉ l) :
    ∀ l ∈ lines.map fun l => utf8Bytes (String.ofList l), 0x0A ∉ l := by
  intro l hl mem
  obtain ⟨line, here, rfl⟩ := List.mem_map.1 hl
  obtain ⟨c, inside, code⟩ := ascii_of_mem_utf8Bytes mem (by decide)
  rw [String.toList_ofList] at inside
  have feed : c = '\n' := Char.toNat_inj.1 code
  exact plain line here (feed ▸ inside)

theorem bufReadLines_ended {lines : List (List Char)} (plain : ∀ l ∈ lines, '\n' ∉ l) :
    bufReadLines (utf8Bytes (String.ofList (lines.flatMap (· ++ ['\n'])))) =
      lines.map fun l => .ok (String.ofList (dropCr l)) := by
  have split := splitOn_ended (utf8Bytes_oneLine plain)
  rw [← utf8Bytes_ended] at split
  simp only [bufReadLines, split, List.dropLast_concat, List.getLast?_concat, List.map_map]
  simp [Function.comp_def, utf8Bytes_dropCr]

theorem dropCr_self {line : List Char} (plain : '\r' ∉ line) : dropCr line = line := by
  rw [dropCr, if_neg (fun last => plain (List.mem_of_getLast? last))]

/-- A carriage return at the end changes no word. -/
theorem lineWords_dropCr (line : List Char) :
    lineWords (String.ofList (dropCr line)) = lineWords (String.ofList line) := by
  unfold dropCr
  split
  · rename_i last
    obtain ⟨front, rfl⟩ := List.getLast?_eq_some_iff.1 last
    rw [List.dropLast_concat]
    simp only [lineWords, String.toList_ofList]
    rw [trimBoth_snoc (by decide)]
  · rfl

/-- A word without white space. -/
def PlainWord (w : List Char) : Prop := w ≠ [] ∧ ∀ c ∈ w, isWhitespace c = false

theorem not_asciiWhitespace {c : Char} (h : isWhitespace c = false) : isAsciiWhitespace c = false := by
  by_contra ascii
  rw [Bool.not_eq_false] at ascii
  simp only [isAsciiWhitespace, Bool.or_eq_true, beq_iff_eq] at ascii
  rcases ascii with (((rfl | rfl) | rfl) | rfl) | rfl <;> exact absurd h (by decide)

section Words
variable {ws : List (List Char)}

theorem spaced_ne_nil {w : List Char} (h : PlainWord w) : spaced (w :: ws) ≠ [] := by
  cases ws with
  | nil => simpa [spaced, List.intercalate] using h.1
  | cons v ws => simp [spaced, List.intercalate, List.intersperse]

/-- A line of plain words ends in one. -/
theorem spaced_getLast? (plain : ∀ w ∈ ws, PlainWord w) :
    ∀ c ∈ (spaced ws).getLast?, isWhitespace c = false := by
  induction ws with
  | nil =>
    intro c last
    cases last
  | cons w ws ih =>
    intro c last
    cases ws with
    | nil =>
      rw [spaced, List.intercalate_singleton] at last
      exact (plain w List.mem_cons_self).2 c (List.mem_of_getLast? last)
    | cons v ws =>
      have joined : spaced (w :: v :: ws) = w ++ ' ' :: spaced (v :: ws) := by
        simp [spaced, List.intercalate, List.intersperse]
      have more : spaced (v :: ws) ≠ [] := spaced_ne_nil (plain v (by simp))
      rw [joined, List.getLast?_append, List.getLast?_cons_of_ne_nil more, Option.mem_def,
        Option.or_of_isSome (by simpa using more)] at last
      exact ih (fun u hu => plain u (List.mem_cons_of_mem _ hu)) c last

theorem spaced_head? (plain : ∀ w ∈ ws, PlainWord w) : ∀ c ∈ (spaced ws).head?, isWhitespace c = false := by
  intro c first
  cases ws with
  | nil => cases first
  | cons w ws =>
    obtain ⟨nonempty, clean⟩ := plain w List.mem_cons_self
    cases w with
    | nil => exact absurd rfl nonempty
    | cons d w =>
      have head : (spaced ((d :: w) :: ws)).head? = some d := by
        cases ws <;> simp [spaced, List.intercalate, List.intersperse]
      rw [head] at first
      cases first
      exact clean _ List.mem_cons_self

theorem spaced_oneLine (plain : ∀ w ∈ ws, PlainWord w) : '\n' ∉ spaced ws := by
  induction ws with
  | nil => simp [spaced]
  | cons w ws ih =>
    have here : '\n' ∉ w := fun mem => absurd ((plain w List.mem_cons_self).2 _ mem) (by decide)
    have rest := ih fun v hv => plain v (List.mem_cons_of_mem _ hv)
    cases ws with
    | nil => simpa [spaced, List.intercalate_singleton] using here
    | cons v ws =>
      have joined : spaced (w :: v :: ws) = w ++ ' ' :: spaced (v :: ws) := by
        simp [spaced, List.intercalate, List.intersperse]
      simp [joined, here, rest]

/-- **Plain words are read back**, with or without indentation. -/
theorem lineWords_spaced (plain : ∀ w ∈ ws, PlainWord w) : lineWords (String.ofList (spaced ws)) = ws := by
  rw [lineWords, String.toList_ofList, trimBoth_self (spaced_head? plain) (spaced_getLast? plain)]
  exact words_intercalate rfl fun w hw => ⟨(plain w hw).1, fun c hc => not_asciiWhitespace ((plain w hw).2 c hc)⟩

theorem lineWords_indented (plain : ∀ w ∈ ws, PlainWord w) :
    lineWords (String.ofList (indented ws)) = ws := by
  have trimmed : lineWords (String.ofList (indented ws)) = lineWords (String.ofList (spaced ws)) := by
    simp only [lineWords, String.toList_ofList, indented]
    rw [trimBoth_cons (by decide), trimBoth_cons (by decide)]
  rw [trimmed, lineWords_spaced plain]

end Words

/-! ## The words of a dump -/

theorem digits_plain {base n : Nat} (two : 1 < base) (hex : base ≤ 16) :
    ∀ c ∈ Nat.toDigits base n, isWhitespace c = false :=
  forall_toDigits two hex fun d small =>
    (by decide : ∀ d < 16, isWhitespace (Nat.digitChar d) = false) d (by omega)

/-- A numeral between two plain texts is a plain word. -/
theorem plainWord_numeral (base n : Nat) (pre post : List Char) (two : 1 < base) (hex : base ≤ 16)
    (clean : ∀ c ∈ pre ++ post, isWhitespace c = false) :
    PlainWord (pre ++ Nat.toDigits base n ++ post) := by
  refine ⟨by simp [Nat.toDigits_ne_nil], fun c mem => ?_⟩
  rcases List.mem_append.1 mem with mem | mem
  · rcases List.mem_append.1 mem with mem | mem
    · exact clean c (List.mem_append_left _ mem)
    · exact digits_plain two hex c mem
  · exact clean c (List.mem_append_right _ mem)

theorem Counts.words_plain (c : Counts) : ∀ w ∈ c.words, PlainWord w := by
  simp only [Counts.words, List.forall_mem_cons, List.not_mem_nil, false_implies, implies_true, and_true]
  refine ⟨?_, ?_, ?_, ?_⟩
  · exact plainWord_numeral 10 c.objs [] [':'] (by decide) (by decide) (by decide)
  · simpa [decimal] using plainWord_numeral 10 c.bytes [] [] (by decide) (by decide) (by decide)
  · exact plainWord_numeral 10 c.accumObjs ['['] [':'] (by decide) (by decide) (by decide)
  · exact plainWord_numeral 10 c.accumBytes [] [']'] (by decide) (by decide) (by decide)

theorem stackWords_plain (addrs : List UInt64) : ∀ w ∈ stackWords addrs, PlainWord w := by
  refine List.forall_mem_cons.2 ⟨⟨by decide, by decide⟩, fun w hw => ?_⟩
  obtain ⟨a, -, rfl⟩ := List.mem_map.1 hw
  have := plainWord_numeral 16 a.toNat ['0', 'x'] [] (by decide) (by decide) (by decide)
  simpa [pointer] using this

theorem totalWords_plain (c : Counts) : ∀ w ∈ totalWords c, PlainWord w :=
  List.forall_mem_cons.2 ⟨⟨by decide, by decide⟩, c.words_plain⟩

theorem threadWords_plain (thread : Nat × Counts) : ∀ w ∈ threadWords thread, PlainWord w :=
  List.forall_mem_cons.2 ⟨plainWord_numeral 10 thread.1 ['t'] [':'] (by decide) (by decide) (by decide),
    thread.2.words_plain⟩

/-- The kind of a line given as characters. -/
abbrev charsKind (line : List Char) : LineKind := lineKind (String.ofList line)

theorem stackLine_kind (addrs : List UInt64) :
    charsKind (spaced (stackWords addrs)) = .stack (addrs.map pointer) := by
  rw [charsKind, lineKind, lineWords_spaced (stackWords_plain addrs)]
  rfl

theorem totalLine_kind (c : Counts) :
    charsKind (indented (totalWords c)) = .total (decimal c.objs ++ [':']) (decimal c.bytes) := by
  rw [charsKind, lineKind, lineWords_indented (totalWords_plain c)]
  rfl

theorem threadLine_kind (thread : Nat × Counts) : charsKind (indented (threadWords thread)) = .other := by
  rw [charsKind, lineKind, lineWords_indented (threadWords_plain thread)]
  apply kindOf_other (by simp [threadWords])
  intro same
  -- a numeral has no star
  have star : '*' ∈ decimal thread.1 ++ [':'] := by
    simp only [threadWords, List.cons_append, List.head?_cons, Option.some.injEq, List.cons.injEq,
      true_and] at same
    rw [same]
    decide
  rcases List.mem_append.1 star with mem | mem
  · exact absurd (isDigit_of_mem_decimal mem) (by decide)
  · exact absurd mem (by decide)

theorem ForeignLine.kind (line : ForeignLine) : charsKind line.chars = .other :=
  kindOf_other line.noStack line.noTotal

/-- A numeral without a sign is read as it stands. -/
theorem usizeFromStrRadix_unsigned {radix : Nat} {src : List Char} (noPlus : '+' ∉ src) (nonempty : src ≠ []) :
    usizeFromStrRadix radix src =
      (parseDigits radix src).bind fun n => if n < 2 ^ 64 then some (UInt64.ofNat n) else none := by
  cases src with
  | nil => exact absurd rfl nonempty
  | cons c src =>
    have unsigned : c ≠ '+' := fun same => noPlus (same ▸ List.mem_cons_self)
    simp [usizeFromStrRadix, unsigned]

/-- An address is read back. -/
theorem parseAddr_pointer (addr : UInt64) : parseAddr (pointer addr) = .ok addr := by
  have no : ∀ c ∈ Nat.toDigits 16 addr.toNat, c ≠ 'x' ∧ c ≠ '+' :=
    forall_toDigits (by decide) (by decide) (by decide)
  have once : ¬['0', 'x'] <+: Nat.toDigits 16 addr.toNat := by
    rintro ⟨rest, same⟩
    exact (no 'x' (by rw [← same]; simp)).1 rfl
  rw [parseAddr, pointer, trimStartMatches_append once,
    usizeFromStrRadix_unsigned (fun mem => (no _ mem).2 rfl) Nat.toDigits_ne_nil,
    parseDigits_toDigits (by decide) (by decide), Option.bind_some, if_pos addr.toNat_lt, UInt64.ofNat_toNat]

section Numbers
variable {F : Type} [F64 F]

/-- Digits are neither a sign nor a name of a special value. -/
theorem parseF64_digits {src : List Char} (digits : ∀ c ∈ src, c.isDigit = true)
    (nonempty : src ≠ []) : parseF64 (F := F) src = (parseNumber src).map F64.ofRat := by
  cases src with
  | nil => exact absurd rfl nonempty
  | cons c src =>
    have digit := digits c List.mem_cons_self
    have minus : c ≠ '-' := by
      rintro rfl
      exact absurd digit (by decide)
    have plus : c ≠ '+' := by
      rintro rfl
      exact absurd digit (by decide)
    have lower : c.toLower = c := by
      simp only [Char.isDigit, Bool.and_eq_true, decide_eq_true_eq] at digit
      have small : c.val ≤ 57 := digit.2
      have notUpper : ¬(c.val ≥ 'A'.val ∧ c.val ≤ 'Z'.val) := by
        intro upper
        exact absurd (UInt32.le_trans upper.1 small) (by decide)
      exact dif_neg notUpper
    have word : ∀ name : String, (∀ d ∈ name.toList, d.isDigit = false) →
        String.ofList ((c :: src).map Char.toLower) ≠ name := by
      intro name letters same
      have letter := letters c (by rw [← same]; simp [lower])
      rw [digit] at letter
      cases letter
    have inf := word "inf" (by decide)
    have infinity := word "infinity" (by decide)
    have nan := word "nan" (by decide)
    simp only [parseF64, List.cons.injEq, minus, plus, false_and, imp_self, implies_true]
    rw [if_neg (not_or.2 ⟨inf, infinity⟩), if_neg nan]
    simp [Function.comp_def]

/-- A count is read back. -/
theorem parseF64_decimal (n : Nat) : parseF64 (decimal n) = some (F64.ofRat n : F) := by
  have digits : ∀ c ∈ decimal n, c.isDigit = true := fun c mem => isDigit_of_mem_decimal mem
  have nonempty := decimal_ne_nil n
  have span : (decimal n).span Char.isDigit = (decimal n, []) := by
    rw [List.span_eq_takeWhile_dropWhile, List.takeWhile_eq_self_iff.2 digits,
      List.dropWhile_eq_nil_iff.2 digits]
  have number : parseNumber (decimal n) = some (n : ℚ) := by
    simp only [parseNumber, span, List.append_nil, if_neg nonempty, parseDigits_decimal]
    simp
  rw [parseF64_digits digits nonempty, number]
  rfl

theorem decimal_colon (n : Nat) : (decimal n ++ [':']).rdropWhile (· == ':') = decimal n := by
  rw [List.rdropWhile_concat_pos _ _ _ (by decide), List.rdropWhile_eq_self_iff]
  intro nonempty
  have digit := isDigit_of_mem_decimal (List.getLast_mem nonempty)
  simp only [beq_iff_eq]
  intro colon
  rw [colon] at digit
  exact absurd digit (by decide)

/-- No number starts like the header. -/
theorem parseF64_header (rest : List Char) : parseF64 ('h' :: rest) = (none : Option F) := by
  simp [parseF64, parseNumber, List.span_eq_takeWhile_dropWhile, ← String.toList_inj]

theorem parseFloat_header {chars : List Char} {rate : F} (read : parseF64 chars = some rate) :
    parseFloat (trimStartMatches "heap_v2/".toList ("heap_v2/".toList ++ chars)) = .ok rate := by
  have once : ¬"heap_v2/".toList <+: chars := by
    rintro ⟨rest, rfl⟩
    rw [show "heap_v2/".toList ++ rest = 'h' :: ("eap_v2/".toList ++ rest) from rfl, parseF64_header] at read
    cases read
  rw [trimStartMatches_append once, parseFloat, read]

end Numbers

/-! ## The run of the parser -/

section Run
variable {F : Type} [F64 F] {rate : F}

/-- What the parser does with a line given as characters. -/
def charsStep (rate : F) (s : JeheapState F) (line : List Char) : Except JeheapError (JeheapState F) :=
  kindStep rate s (charsKind line)

/-- The parser over lines whose carriage returns were dropped. -/
theorem lines_run (lines : List (List Char)) (s : JeheapState F) :
    (lines.map fun l => (.ok (String.ofList (dropCr l)) : Except IoError String)).foldlM (jeheapLine rate) s =
      lines.foldlM (charsStep rate) s := by
  have same : (fun s l => jeheapLine rate s (.ok (String.ofList (dropCr l)))) = charsStep rate := by
    funext s line
    rw [jeheapLine_eq, charsStep, charsKind, lineKind, lineKind, lineWords_dropCr]
  rw [List.foldlM_map, same]

/-- Lines of no kind are passed over. -/
theorem others_run {lines : List (List Char)} (others : ∀ l ∈ lines, charsKind l = .other)
    (s : JeheapState F) : lines.foldlM (charsStep rate) s = .ok s := by
  induction lines with
  | nil => rfl
  | cons l lines ih =>
    rw [List.foldlM_cons, charsStep, others l List.mem_cons_self]
    exact ih fun m hm => others m (List.mem_cons_of_mem _ hm)

theorem threads_other (threads : List (Nat × Counts)) :
    ∀ l ∈ threads.map fun thread => indented (threadWords thread), charsKind l = .other := by
  intro l hl
  obtain ⟨thread, -, rfl⟩ := List.mem_map.1 hl
  exact threadLine_kind thread

/-- **One record** pushes its stack. -/
theorem record_run (record : Record) (profile : StackProfile F) :
    record.lines.foldlM (charsStep rate) ⟨none, profile⟩ =
      .ok ⟨none, profile.pushStack (record.stack rate) none⟩ := by
  have addrs : (record.addrs.map pointer).mapM parseAddr = .ok record.addrs := by
    rw [mapM_ok, List.forall₂_map_left_iff]
    exact List.forall₂_same.2 fun a _ => parseAddr_pointer a
  have stack : charsStep rate ⟨none, profile⟩ (spaced (stackWords record.addrs)) =
      .ok ⟨some record.addrs.reverse, profile⟩ := by
    rw [charsStep, stackLine_kind]
    simp [kindStep, addrs]
  have total : charsStep rate ⟨some record.addrs.reverse, profile⟩ (indented (totalWords record.counts)) =
      .ok ⟨none, profile.pushStack (record.stack rate) none⟩ := by
    rw [charsStep, totalLine_kind]
    simp only [kindStep, decimal_colon, parseFloat, parseF64_decimal, ok_bind]
    rfl
  rw [Record.lines, List.foldlM_cons, stack, ok_bind, List.foldlM_cons, total, ok_bind]
  exact others_run (threads_other record.threads) _

/-- **All records.** -/
theorem records_run (records : List Record) (profile : StackProfile F) :
    (records.flatMap Record.lines).foldlM (charsStep rate) ⟨none, profile⟩ =
      .ok ⟨none, profile.pushStacks (records.map fun record => (record.stack rate, none))⟩ := by
  induction records generalizing profile with
  | nil => rfl
  | cons record records ih =>
    rw [List.flatMap_cons, List.foldlM_append, record_run, ok_bind, ih]
    rfl

theorem body_run (dump : Dump) : dump.body.foldlM (charsStep rate) ⟨none, .default⟩ =
    .ok ⟨none, StackProfile.default.pushStacks (dump.records.map fun record => (record.stack rate, none))⟩ := by
  have summary : charsStep rate (⟨none, .default⟩ : JeheapState F) (indented (totalWords dump.summary)) =
      .ok ⟨none, .default⟩ := by
    rw [charsStep, totalLine_kind]
    rfl
  have libraries : ∀ l ∈ [] :: "MAPPED_LIBRARIES:".toList :: dump.libraries.map ForeignLine.chars,
      charsKind l = .other := by
    intro l hl
    rcases List.mem_cons.1 hl with rfl | hl
    · decide
    rcases List.mem_cons.1 hl with rfl | hl
    · decide
    · obtain ⟨line, -, rfl⟩ := List.mem_map.1 hl
      exact line.kind
  rw [Dump.body, List.append_assoc, List.cons_append, List.foldlM_cons, summary, ok_bind, List.foldlM_append,
    others_run (threads_other dump.threads), ok_bind, List.foldlM_append, records_run, ok_bind]
  exact others_run libraries _

end Run

theorem indented_oneLine {ws : List (List Char)} (plain : ∀ w ∈ ws, PlainWord w) : '\n' ∉ indented ws := by
  simp [indented, spaced_oneLine plain]

theorem threads_oneLine (threads : List (Nat × Counts)) :
    ∀ l ∈ threads.map fun thread => indented (threadWords thread), '\n' ∉ l := by
  intro l hl
  obtain ⟨thread, -, rfl⟩ := List.mem_map.1 hl
  exact indented_oneLine (threadWords_plain thread)

theorem Record.lines_oneLine (record : Record) : ∀ l ∈ record.lines, '\n' ∉ l :=
  List.forall_mem_cons.2 ⟨spaced_oneLine (stackWords_plain _),
    List.forall_mem_cons.2 ⟨indented_oneLine (totalWords_plain _), threads_oneLine _⟩⟩

theorem Dump.body_oneLine (dump : Dump) : ∀ l ∈ dump.body, '\n' ∉ l := by
  intro l hl
  rcases List.mem_append.1 hl with hl | hl
  · rcases List.mem_append.1 hl with hl | hl
    · rcases List.mem_cons.1 hl with rfl | hl
      · exact indented_oneLine (totalWords_plain _)
      · exact threads_oneLine _ l hl
    · obtain ⟨record, -, here⟩ := List.mem_flatMap.1 hl
      exact record.lines_oneLine l here
  · rcases List.mem_cons.1 hl with rfl | hl
    · decide
    rcases List.mem_cons.1 hl with rfl | hl
    · decide
    · obtain ⟨line, -, rfl⟩ := List.mem_map.1 hl
      exact line.oneLine

/-- The lines of a dump's text. -/
def Dump.lines (dump : Dump) : List (List Char) := ("heap_v2/".toList ++ dump.rate.chars) :: dump.body

theorem Dump.header_plain (dump : Dump) : ∀ c ∈ "heap_v2/".toList ++ dump.rate.chars, c ≠ '\n' ∧ c ≠ '\r' := by
  intro c mem
  rcases List.mem_append.1 mem with mem | mem
  · exact (by decide : ∀ c ∈ "heap_v2/".toList, c ≠ '\n' ∧ c ≠ '\r') c mem
  · exact dump.rate.oneLine c mem

theorem Dump.lines_oneLine (dump : Dump) : ∀ line ∈ dump.lines, '\n' ∉ line :=
  List.forall_mem_cons.2 ⟨fun mem => (dump.header_plain _ mem).1 rfl, dump.body_oneLine⟩

/-- **A dump is read back**: the parser returns its profile. -/
theorem parseJeheap_text {F : Type} [F64 F] {rate : F} (dump : Dump)
    (read : parseF64 dump.rate.chars = some rate) (mappings : Option (List Mapping)) :
    parseJeheap (bufReadLines dump.text) mappings = .ok (dump.profile rate (mappings.getD [])) := by
  have lines := bufReadLines_ended dump.lines_oneLine
  rw [Dump.lines, ← Dump.text, List.map_cons, dropCr_self fun mem => (dump.header_plain _ mem).2 rfl] at lines
  rw [lines]
  simp only [parseJeheap, String.toList_ofList, parseFloat_header read, ok_bind, lines_run, body_run]
  rw [if_neg (by simp), StackProfile.pushMappings_eq, StackProfile.pushStacks_mappings]
  rfl

end JemallocPprof
