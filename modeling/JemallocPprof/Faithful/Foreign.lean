import JemallocPprof.Faithful.Weights

/-!
# Lines that are not the parser's

A dump ends in lines the parser has no use for: those of `/proc/self/maps`, with
paths of any bytes. A line of that kind may be put anywhere behind the first one
and changes nothing, so long as it is UTF-8: `lines()` reports any other one as
an error, and the parser gives up the dump for it (`foreign_line_iff`).
-/

namespace JemallocPprof
set_option autoImplicit false
open Lib

/-- The lines of a file as bytes, without their line feeds. -/
def fileLines (bytes : Bytes) : List Bytes :=
  (bytes.splitOn 0x0A).dropLast ++ (bytes.splitOn 0x0A).getLast?.toList.filter (· ≠ [])

/-- The file with `line` put before its line `k`, or at its end. -/
def insertLine (dump : Bytes) (k : Nat) (line : Bytes) : Bytes :=
  ((fileLines dump).insertIdx k line).flatMap (· ++ [0x0A])

/-- Read as text, the line's first word is neither `@` nor `t*:`. -/
def Foreign (line : Bytes) : Prop :=
  (lineWords (fromUtf8Lossy line)).head? ≠ some ['@'] ∧
    (lineWords (fromUtf8Lossy line)).head? ≠ some ['t', '*', ':']

instance : DecidablePred Foreign := fun _ => inferInstanceAs (Decidable (_ ∧ _))

theorem fileLines_ended {lines : List Bytes} (plain : ∀ l ∈ lines, 0x0A ∉ l) :
    fileLines (lines.flatMap (· ++ [0x0A])) = lines := by
  rw [fileLines, splitOn_ended plain]
  simp

theorem not_mem_of_mem_fileLines {bytes line : Bytes} (mem : line ∈ fileLines bytes) : 0x0A ∉ line := by
  rcases List.mem_append.1 mem with mem | mem
  · exact not_mem_of_mem_splitOn (List.mem_of_mem_dropLast mem)
  · have last := (List.mem_filter.1 mem).1
    rw [Option.mem_toList] at last
    exact not_mem_of_mem_splitOn (List.mem_of_getLast? last)

/-- The inserted line is found where it was put. -/
theorem fileLines_insertLine {line : Bytes} (plain : 0x0A ∉ line) (dump : Bytes) (k : Nat) :
    fileLines (insertLine dump k line) = (fileLines dump).insertIdx k line := by
  apply fileLines_ended
  intro l mem
  rcases List.eq_or_mem_of_mem_insertIdx mem with rfl | old
  · exact plain
  · exact not_mem_of_mem_fileLines old

/-- The lines of a dump's bytes are those of its text. -/
theorem fileLines_text (dump : Dump) :
    fileLines dump.text = dump.lines.map fun l => utf8Bytes (String.ofList l) := by
  rw [Dump.text, ← Dump.lines, utf8Bytes_ended, fileLines_ended (utf8Bytes_oneLine dump.lines_oneLine)]

/-! ### Lines as words -/

/-- A carriage return at the end is dropped. -/
def stripCr (line : Bytes) : Bytes := if line.getLast? = some 0x0D then line.dropLast else line

/-- What the reader makes of a line. -/
def decodeLine (line : Bytes) : Except IoError String :=
  match fromUtf8 line with
  | some text => .ok text
  | none => .error .invalidData

/-- The words of a line, or the error of reading it. -/
def pieceWords (line : Bytes) : Except IoError (List (List Char)) := (decodeLine line).map lineWords

theorem bufReadLines_eq (bytes : Bytes) : bufReadLines bytes =
    ((bytes.splitOn 0x0A).dropLast.map stripCr ++
      (bytes.splitOn 0x0A).getLast?.toList.filter (· ≠ [])).map decodeLine := rfl

theorem fromUtf8_ofList (chars : List Char) :
    fromUtf8 (utf8Bytes (String.ofList chars)) = some (String.ofList chars) := fromUtf8_utf8Bytes _

/-- **A carriage return changes no word** and no line's validity. -/
theorem pieceWords_stripCr (line : Bytes) : pieceWords (stripCr line) = pieceWords line := by
  have drop : ∀ text, fromUtf8 line = some text →
      fromUtf8 (stripCr line) = some (String.ofList (dropCr text.toList)) := by
    intro text decoded
    have bytes := utf8Bytes_dropCr text.toList
    rw [String.ofList_toList, ← fromUtf8_eq_some.1 decoded] at bytes
    rw [stripCr, bytes, fromUtf8_ofList]
  cases decoded : fromUtf8 line with
  | some text =>
    have words := lineWords_dropCr text.toList
    rw [String.ofList_toList] at words
    simp only [pieceWords, decodeLine, drop text decoded, decoded, Except.map, words]
  | none =>
    cases stripped : fromUtf8 (stripCr line) with
    | none => simp only [pieceWords, decodeLine, stripped, decoded]
    | some text =>
      -- the whole line would be the text with its carriage return
      have bytes := fromUtf8_eq_some.1 stripped
      unfold stripCr at bytes
      split at bytes
      · rename_i last
        obtain ⟨front, rfl⟩ := List.getLast?_eq_some_iff.1 last
        have one : utf8Bytes (String.ofList ['\r']) = [0x0D] := by decide
        have whole := utf8Bytes_append text.toList ['\r']
        rw [String.ofList_toList, ← bytes, one, List.dropLast_concat] at whole
        rw [← whole, fromUtf8_ofList] at decoded
        cases decoded
      · rw [bytes, fromUtf8_utf8Bytes] at decoded
        cases decoded

theorem words_of_lines (bytes : Bytes) :
    (bufReadLines bytes).map (Except.map lineWords) = (fileLines bytes).map pieceWords := by
  have stripped : (Except.map lineWords ∘ decodeLine) ∘ stripCr = pieceWords := funext pieceWords_stripCr
  rw [bufReadLines_eq, List.map_map, List.map_append, List.map_map, stripped, fileLines, List.map_append]
  rfl

/-! ### Numbers end in no carriage return -/

section Numbers

variable {F : Type} [F64 F] {src : List Char}

theorem parseDigits_cr {n : Nat} (read : parseDigits 10 src = some n) : '\r' ∉ src := by
  intro mem
  have digit := digit_of_parseDigits read mem
  revert digit
  decide

theorem parseExponent_cr {e : Int} (read : parseExponent src = some e) : '\r' ∉ src := by
  have digits : ∀ {body : List Char} {f : Int → Int},
      (if body = [] then none else ((parseDigits 10 body).bind fun n => some (n : Int)).map f) = some e →
      '\r' ∉ body := by
    intro body f read
    split at read
    · cases read
    · obtain ⟨n, read, -⟩ := Option.map_eq_some_iff.1 read
      obtain ⟨n, read, -⟩ := Option.bind_eq_some_iff.1 read
      exact parseDigits_cr read
  unfold parseExponent at read
  split at read
  rename_i negative body pair
  have plain := digits read
  split at pair <;> obtain ⟨-, rfl⟩ := Prod.mk.inj pair
  · simpa using plain
  · simpa using plain
  · exact plain

theorem parseNumber_cr {q : ℚ} (read : parseNumber src = some q) : '\r' ∉ src := by
  have parts : ∀ l : List Char, '\r' ∉ l.dropWhile Char.isDigit → '\r' ∉ l := by
    intro l behind mem
    rw [← List.takeWhile_append_dropWhile (p := Char.isDigit) (l := l)] at mem
    rcases List.mem_append.1 mem with mem | mem
    · have digit := List.mem_takeWhile_imp mem
      revert digit
      decide
    · exact behind mem
  apply parts
  simp only [parseNumber, List.span_eq_takeWhile_dropWhile] at read
  generalize src.dropWhile Char.isDigit = rest at read ⊢
  split at read
  -- with a fraction or without: `behind` is what follows the digits
  on_goal 1 => rename_i rest
  on_goal 1 => suffices '\r' ∉ rest.dropWhile Char.isDigit by simpa using parts _ this
  on_goal 1 => generalize rest.dropWhile Char.isDigit = behind at read ⊢
  all_goals
    split at read
    · cases read
    obtain ⟨significand, -, read⟩ := Option.bind_eq_some_iff.1 read
    dsimp only at read
    split at read
    · simp
    · obtain ⟨exponent, read, -⟩ := Option.bind_eq_some_iff.1 read
      simpa using parseExponent_cr read
    · obtain ⟨exponent, read, -⟩ := Option.bind_eq_some_iff.1 read
      simpa using parseExponent_cr read
    · cases read

/-- No number that is read holds a carriage return. -/
theorem parseF64_cr {value : F} (read : parseF64 src = some value) : '\r' ∉ src := by
  have lower : ∀ body : List Char, '\r' ∈ body → '\r' ∈ (String.ofList (body.map Char.toLower)).toList := by
    intro body mem
    rw [String.toList_ofList]
    exact List.mem_map.2 ⟨'\r', mem, by decide⟩
  have bodies : ∀ {body : List Char} {negative : Bool},
      ((if String.ofList (body.map Char.toLower) = "inf" ∨ String.ofList (body.map Char.toLower) = "infinity" then
          some F64.inf
        else if String.ofList (body.map Char.toLower) = "nan" then some F64.nan
        else (parseNumber body).map F64.ofRat).map fun v => if negative then F64.neg v else v) = some value →
        '\r' ∉ body := by
    intro body negative read mem
    obtain ⟨v, read, -⟩ := Option.map_eq_some_iff.1 read
    have there := lower body mem
    split at read
    · rename_i word
      rcases word with word | word <;> rw [word] at there <;> revert there <;> decide
    · split at read
      · rename_i word
        rw [word] at there
        revert there
        decide
      · obtain ⟨q, read, -⟩ := Option.map_eq_some_iff.1 read
        exact parseNumber_cr read mem
  unfold parseF64 at read
  split at read
  rename_i negative body pair
  have plain := bodies read
  split at pair <;> obtain ⟨-, rfl⟩ := Prod.mk.inj pair
  · simpa using plain
  · simpa using plain
  · exact plain

theorem parseF64_nil : (parseF64 [] : Option F) = none := by
  simp [parseF64, parseNumber, List.span_eq_takeWhile_dropWhile, ← String.toList_inj]

/-- A first line with a rate does not end in a carriage return. -/
theorem first_noCr {first : String} {rate : F}
    (read : parseF64 (trimStartMatches "heap_v2/".toList first.toList) = some rate) :
    first.toList.getLast? ≠ some '\r' := by
  intro last
  obtain ⟨front, ended⟩ := List.getLast?_eq_some_iff.1 last
  have suffix := trimStartMatches_suffix "heap_v2/".toList first.toList
  rw [ended] at suffix read
  rcases List.suffix_concat_iff.1 suffix with empty | ⟨rest, text, -⟩
  · rw [empty, parseF64_nil] at read
    cases read
  · rw [text] at read
    exact parseF64_cr read (by simp)

end Numbers

/-! ### The parser over the bytes of the lines -/

section Run
variable {F : Type} [F64 F] {dump bytes line first : Bytes} {rest : List Bytes}
  {mappings : Option (List Mapping)} {profile : StackProfile F}

/-- The parser's step, from the words of a line. -/
def wordsStep (rate : F) (s : JeheapState F) (line : Except IoError (List (List Char))) :
    Except JeheapError (JeheapState F) :=
  match line with
  | .error e => .error (.io e)
  | .ok ws => kindStep rate s (kindOf ws)

theorem jeheapLine_words (rate : F) (s : JeheapState F) (line : Except IoError String) :
    jeheapLine rate s line = wordsStep rate s (line.map lineWords) := by
  cases line with
  | error e => rfl
  | ok line => exact jeheapLine_eq line

theorem lines_words (rate : F) {lines : List (Except IoError String)}
    (words : lines.map (Except.map lineWords) = rest.map pieceWords) (s : JeheapState F) :
    lines.foldlM (jeheapLine rate) s = (rest.map pieceWords).foldlM (wordsStep rate) s := by
  rw [← words, List.foldlM_map]
  exact congrArg (fun step => List.foldlM step s lines)
    (funext fun s => funext fun line => jeheapLine_words rate s line)

/-- A file with these lines is accepted with this profile. -/
def PiecesAccepted (first : Bytes) (rest : List Bytes) (mappings : Option (List Mapping))
    (profile : StackProfile F) : Prop :=
  ∃ (text : String) (rate : F) (s : JeheapState F), fromUtf8 (stripCr first) = some text ∧
    parseF64 (trimStartMatches "heap_v2/".toList text.toList) = some rate ∧
    (rest.map pieceWords).foldlM (wordsStep rate) ⟨none, .default⟩ = .ok s ∧ s.curStack = none ∧
    profile = (mappings.getD []).foldl StackProfile.pushMapping s.profile

/-- The first line read: its carriage return is dropped unless it is the only
line and nothing ends it. -/
theorem bufReadLines_cons (lines : fileLines bytes = first :: rest) :
    ∃ read tail, bufReadLines bytes = decodeLine read :: tail ∧
      tail.map (Except.map lineWords) = rest.map pieceWords ∧ (read = stripCr first ∨ rest = [] ∧ read = first) := by
  have words := words_of_lines bytes
  rw [lines, List.map_cons] at words
  have tails : ∀ {read tail}, bufReadLines bytes = decodeLine read :: tail →
      tail.map (Except.map lineWords) = rest.map pieceWords := by
    intro read tail split
    rw [split, List.map_cons] at words
    exact (List.cons.inj words).2
  have split := bufReadLines_eq bytes
  unfold fileLines at lines
  cases ended : (bytes.splitOn 0x0A).dropLast with
  | nil =>
    rw [ended] at lines split
    rw [List.nil_append] at lines
    rw [List.map_nil, List.nil_append, lines, List.map_cons] at split
    refine ⟨first, _, split, tails split, .inr ⟨?_, rfl⟩⟩
    have short : (first :: rest).length ≤ 1 := by
      rw [← lines]
      refine (List.length_filter_le _ _).trans ?_
      cases (bytes.splitOn 0x0A).getLast? <;> simp
    exact List.eq_nil_of_length_eq_zero (by simpa using short)
  | cons q qs =>
    rw [ended] at lines split
    obtain ⟨rfl, -⟩ := List.cons.inj lines
    rw [List.map_cons, List.cons_append, List.map_cons] at split
    exact ⟨_, _, split, tails split, .inl rfl⟩

/-- What the parser does with a file whose first line reads as `read`. -/
theorem parse_read {read : Bytes} {tail : List (Except IoError String)}
    (words : tail.map (Except.map lineWords) = rest.map pieceWords) :
    parseJeheap (decodeLine read :: tail) mappings = .ok profile ↔
      ∃ (text : String) (rate : F) (s : JeheapState F), fromUtf8 read = some text ∧
        parseF64 (trimStartMatches "heap_v2/".toList text.toList) = some rate ∧
        (rest.map pieceWords).foldlM (wordsStep rate) ⟨none, .default⟩ = .ok s ∧ s.curStack = none ∧
        profile = (mappings.getD []).foldl StackProfile.pushMapping s.profile := by
  cases decoded : fromUtf8 read with
  | none =>
    have refused : decodeLine read = .error .invalidData := by rw [decodeLine, decoded]
    rw [refused]
    constructor
    · intro run
      cases run
    · rintro ⟨text, rate, s, absurd, -⟩
      cases absurd
  | some text =>
    have line : decodeLine read = .ok text := by rw [decodeLine, decoded]
    rw [line]
    constructor
    · intro run
      obtain ⟨rate, parsed, run₁⟩ := bind_ok.1 run
      obtain ⟨s, loop, run₂⟩ := bind_ok.1 run₁
      rw [lines_words rate words] at loop
      refine ⟨text, rate, s, rfl, parseFloat_ok.1 parsed, loop, ?_⟩
      split at run₂
      · cases run₂
      · rename_i empty
        exact ⟨by simpa using empty, (Except.ok.inj run₂).symm⟩
    · rintro ⟨text', rate, s, same, parsed, loop, empty, rfl⟩
      obtain rfl := Option.some.inj same
      refine bind_ok.2 ⟨rate, parseFloat_ok.2 parsed, bind_ok.2 ⟨s, ?_, ?_⟩⟩
      · rw [lines_words rate words]
        exact loop
      · rw [empty]
        rfl

theorem piecesAccepted_of_parse (lines : fileLines bytes = first :: rest)
    (accepted : parseJeheap (bufReadLines bytes) mappings = .ok profile) :
    PiecesAccepted first rest mappings profile := by
  obtain ⟨read, tail, split, words, rfl | ⟨-, rfl⟩⟩ := bufReadLines_cons lines
  · rw [split] at accepted
    exact (parse_read words).1 accepted
  · rw [split] at accepted
    obtain ⟨text, rate, s, decoded, parsed, run⟩ := (parse_read words).1 accepted
    refine ⟨text, rate, s, ?_, parsed, run⟩
    -- the line's text has no carriage return, so there is none to drop
    have bytes := utf8Bytes_dropCr text.toList
    rw [dropCr, if_neg (first_noCr parsed), String.ofList_toList, ← fromUtf8_eq_some.1 decoded] at bytes
    rwa [stripCr, bytes]

/-- A file of more lines than one is accepted by its lines. -/
theorem parse_iff_pieces (lines : fileLines bytes = first :: rest) (more : rest ≠ []) :
    parseJeheap (bufReadLines bytes) mappings = .ok profile ↔ PiecesAccepted first rest mappings profile := by
  obtain ⟨read, tail, split, words, rfl | ⟨none, -⟩⟩ := bufReadLines_cons lines
  · rw [split]
    exact parse_read words
  · exact absurd none more

theorem pieceWords_foreign (foreign : Foreign line) (valid : (fromUtf8 line).isSome = true) (rate : F)
    (s : JeheapState F) : wordsStep rate s (pieceWords line) = .ok s := by
  obtain ⟨text, decoded⟩ := Option.isSome_iff_exists.1 valid
  have kind : kindOf (lineWords text) = .other := by
    rw [Foreign, fromUtf8Lossy_eq decoded] at foreign
    exact kindOf_other foreign.1 foreign.2
  simp only [pieceWords, decodeLine, decoded, Except.map, wordsStep, kind, kindStep]

theorem pieceWords_invalid (invalid : fromUtf8 line = none) (rate : F) (s s' : JeheapState F) :
    wordsStep rate s (pieceWords line) ≠ .ok s' := by
  simp only [pieceWords, decodeLine, invalid, Except.map, wordsStep]
  intro run
  cases run

/-- No file with an invalid line behind the first one is accepted. -/
theorem invalid_line_refused (lines : fileLines bytes = first :: rest) (mem : line ∈ rest)
    (invalid : fromUtf8 line = none) : parseJeheap (bufReadLines bytes) mappings ≠ .ok profile := by
  intro accepted
  obtain ⟨text, rate, s, -, -, run, -⟩ := piecesAccepted_of_parse lines accepted
  exact foldlM_refused (List.mem_map_of_mem mem) (pieceWords_invalid invalid rate) _ s run

/-- A foreign line that is UTF-8 may stand anywhere behind the first one. -/
theorem foreign_line_kept {k : Nat} (lines : fileLines dump = first :: rest)
    (accepted : parseJeheap (bufReadLines dump) mappings = .ok profile)
    (inserted : fileLines bytes = first :: rest.insertIdx k line) (more : rest.insertIdx k line ≠ [])
    (foreign : Foreign line) (valid : (fromUtf8 line).isSome = true) :
    parseJeheap (bufReadLines bytes) mappings = .ok profile := by
  obtain ⟨text, rate, s, decoded, parsed, run, final⟩ := piecesAccepted_of_parse lines accepted
  rw [parse_iff_pieces inserted more]
  refine ⟨text, rate, s, decoded, parsed, ?_, final⟩
  rw [List.map_insertIdx, foldlM_insertIdx_skip (pieceWords_foreign foreign valid rate)]
  exact run

/-- The lines behind the first one take an insertion at any later position. -/
theorem inserted_behind {k : Nat} (behind : 1 ≤ k) (within : k ≤ (fileLines dump).length)
    (inserted : fileLines bytes = (fileLines dump).insertIdx k line) :
    ∃ first rest i, fileLines dump = first :: rest ∧ fileLines bytes = first :: rest.insertIdx i line ∧
      line ∈ rest.insertIdx i line := by
  obtain ⟨k, rfl⟩ := Nat.exists_eq_add_of_le' behind
  cases lines : fileLines dump with
  | nil =>
    rw [lines, List.length_nil] at within
    omega
  | cons first rest =>
    rw [lines, List.length_cons, Nat.succ_le_succ_iff] at within
    rw [lines, List.insertIdx_succ_cons] at inserted
    exact ⟨first, rest, k, rfl, inserted, (List.mem_insertIdx within).2 (.inl rfl)⟩

/-- **A foreign line** put into an accepted dump behind its first line leaves
the profile as it is exactly when the line is UTF-8. -/
theorem foreign_line_iff {k : Nat} (accepted : parseJeheap (bufReadLines dump) mappings = .ok profile)
    (behind : 1 ≤ k) (within : k ≤ (fileLines dump).length)
    (inserted : fileLines bytes = (fileLines dump).insertIdx k line) (foreign : Foreign line) :
    parseJeheap (bufReadLines bytes) mappings = .ok profile ↔ (fromUtf8 line).isSome = true := by
  obtain ⟨first, rest, i, lines, after, mem⟩ := inserted_behind behind within inserted
  constructor
  · intro kept
    by_contra invalid
    exact invalid_line_refused after mem (Option.not_isSome_iff_eq_none.1 invalid) kept
  · intro valid
    exact foreign_line_kept lines accepted after (List.ne_nil_of_mem mem) foreign valid

end Run

/-- A line of the maps whose path ends in `é`, in UTF-8. -/
def utf8Line : Bytes := utf8Bytes "7f10-7f30 r-xp 00 /srv/caf" ++ [0xC3, 0xA9]

/-- The same path in Latin-1. -/
def latin1Line : Bytes := utf8Bytes "7f10-7f30 r-xp 00 /srv/caf" ++ [0xE9]

theorem busyDump_lines : (fileLines busyDump.text).length = 11 := by
  rw [fileLines_text, List.length_map]
  rfl

/-- Between a stack and its total line. -/
theorem foreign_line_busyDump : parseJeheap (bufReadLines (insertLine busyDump.text 4 utf8Line)) none =
    .ok (busyDump.profile (ExtNum.fin (524288 : ℝ)) []) :=
  (foreign_line_iff (parseJeheap_text busyDump defaultRate_read none) (by decide)
    (by rw [busyDump_lines]; decide) (fileLines_insertLine (by decide) busyDump.text 4) (by decide +kernel)).2
    (by decide +kernel)

/-- A library whose path is not UTF-8 costs the whole profile. -/
theorem latin1_path_refused : Foreign latin1Line ∧
    fileLines (insertLine busyDump.text 11 latin1Line) = (fileLines busyDump.text).insertIdx 11 latin1Line ∧
    (∃ profile : StackProfile (ExtNum ℝ), parseJeheap (bufReadLines busyDump.text) none = .ok profile) ∧
    ∀ profile : StackProfile (ExtNum ℝ),
      parseJeheap (bufReadLines (insertLine busyDump.text 11 latin1Line)) none ≠ .ok profile := by
  have plain : 0x0A ∉ latin1Line := by decide
  have inserted := fileLines_insertLine plain busyDump.text 11
  refine ⟨by decide +kernel, inserted, ⟨_, parseJeheap_text busyDump defaultRate_read none⟩, ?_⟩
  obtain ⟨first, rest, i, -, after, mem⟩ :=
    inserted_behind (by decide) (by rw [busyDump_lines]) inserted
  intro profile
  exact invalid_line_refused after mem (by decide +kernel)

end JemallocPprof
