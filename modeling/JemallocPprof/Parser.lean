import JemallocPprof.Jeheap
import JemallocPprof.Lib.Paired

/-!
# What the parser does with a line

Three kinds of line matter to `parse_jeheap`: a stack line opens a slot, the
next total line closes it, and any other line is passed over
(`jeheapLine_eq`). From the kinds alone follow what an accepted dump's profile
holds: its mappings are the ones given, no stack is annotated, and its
addresses are those of the stack lines (`parseJeheap_accepted`).
-/

namespace JemallocPprof
set_option autoImplicit false
open Lib

inductive LineKind where
  /-- `@` and the words after it. -/
  | stack (addrs : List (List Char))
  /-- `t*:` and the two words after it. -/
  | total (count bytes : List Char)
  | other
  deriving DecidableEq

/-- The kind of a line with these words. -/
def kindOf (ws : List (List Char)) : LineKind :=
  match ws with
  | ['@'] :: addrs => .stack addrs
  | ['t', '*', ':'] :: count :: bytes :: _ => .total count bytes
  | _ => .other

/-- Each kind with the words that make it. -/
theorem kindOf_cases (ws : List (List Char)) :
    (∃ addrs, kindOf ws = .stack addrs ∧ ws = ['@'] :: addrs) ∨
      (∃ count bytes more, kindOf ws = .total count bytes ∧ ws = ['t', '*', ':'] :: count :: bytes :: more) ∨
      (kindOf ws = .other ∧ ws.head? ≠ some ['@'] ∧ ¬(ws.head? = some ['t', '*', ':'] ∧ 3 ≤ ws.length)) := by
  unfold kindOf
  split
  · rename_i addrs
    exact .inl ⟨addrs, rfl, rfl⟩
  · rename_i count bytes more
    exact .inr (.inl ⟨count, bytes, more, rfl, rfl⟩)
  · rename_i noStack noTotal
    refine .inr (.inr ⟨rfl, ?_, ?_⟩)
    · intro stack
      obtain ⟨addrs, rfl⟩ := List.head?_eq_some_iff.1 stack
      exact noStack addrs rfl
    · rintro ⟨total, long⟩
      obtain ⟨rest, rfl⟩ := List.head?_eq_some_iff.1 total
      match rest, long with
      | count :: bytes :: more, _ => exact noTotal count bytes more rfl

theorem kindOf_other {ws : List (List Char)} (noStack : ws.head? ≠ some ['@'])
    (noTotal : ws.head? ≠ some ['t', '*', ':']) : kindOf ws = .other := by
  rcases kindOf_cases ws with ⟨addrs, -, rfl⟩ | ⟨count, bytes, more, -, rfl⟩ | ⟨other, -, -⟩
  · exact absurd rfl noStack
  · exact absurd rfl noTotal
  · exact other

/-- The kind of a line. -/
def lineKind (line : String) : LineKind := kindOf (lineWords line)

/-- The address words of a line. -/
def addrWords (line : String) : List (List Char) :=
  match lineKind line with
  | .stack addrs => addrs
  | _ => []

/-- An address of the profile or of the waiting stack. -/
def JeheapState.HasAddr {F : Type} (s : JeheapState F) (a : UInt64) : Prop :=
  (∃ entry ∈ s.profile.stacks, a ∈ entry.1.addrs) ∨ ∃ addrs, s.curStack = some addrs ∧ a ∈ addrs

section
variable {F : Type} [F64 F] {rate : F} {s s' : JeheapState F}

theorem parseFloat_ok {word : List Char} {value : F} : parseFloat word = .ok value ↔ parseF64 word = some value := by
  unfold parseFloat
  cases (parseF64 word : Option F) <;> simp

/-- What a line of each kind does to the state. -/
def kindStep (rate : F) (s : JeheapState F) (kind : LineKind) : Except JeheapError (JeheapState F) :=
  match kind with
  | .stack words =>
    if s.curStack.isSome then .error .stackWithoutWeight
    else do
      let addrs ← words.mapM parseAddr
      .ok { s with curStack := some addrs.reverse }
  | .total count bytes =>
    match s.curStack with
    | some addrs => do
      let nObjs ← parseFloat (count.rdropWhile (· == ':'))
      let bytesInSampledObjs ← parseFloat bytes
      .ok ⟨none, s.profile.pushStack ⟨addrs, unbias nObjs bytesInSampledObjs rate⟩ none⟩
    | none => .ok s
  | .other => .ok s

/-- **A line acts through its kind.** -/
theorem jeheapLine_eq (line : String) : jeheapLine rate s (.ok line) = kindStep rate s (lineKind line) := by
  simp only [jeheapLine, lineKind]
  generalize lineWords line = ws
  unfold kindOf
  split
  · -- a stack line is no total line
    simp only [stackLine, kindStep]
    split
    · rfl
    · cases List.mapM parseAddr _ <;> rfl
  · rfl
  · rename_i noStack noTotal
    have stack : stackLine ws s = .ok s := by
      unfold stackLine
      split
      · exact absurd rfl (noStack _)
      · rfl
    rw [stack, ok_bind]
    unfold totalLine
    split
    · exact absurd rfl (noTotal _ _ _)
    · rfl

/-- A line that was accepted, by its kind. -/
theorem jeheapLine_ok {line : Except IoError String} (run : jeheapLine rate s line = .ok s') :
    ∃ text, line = .ok text ∧
      ((∃ addrs, s.curStack = none ∧ List.Forall₂ (fun w a => parseAddr w = .ok a) (addrWords text) addrs ∧
          s' = { s with curStack := some addrs.reverse }) ∨
        (∃ addrs weight, addrWords text = [] ∧ s.curStack = some addrs ∧
          s' = ⟨none, s.profile.pushStack ⟨addrs, weight⟩ none⟩) ∨
        addrWords text = [] ∧ s' = s) := by
  cases line with
  | error e => cases run
  | ok text =>
    refine ⟨text, rfl, ?_⟩
    rw [jeheapLine_eq] at run
    unfold addrWords
    cases kind : lineKind text with
    | stack words =>
      simp only [kind, kindStep] at run
      split at run
      · cases run
      · rename_i empty
        obtain ⟨addrs, parsed, last⟩ := bind_ok.1 run
        exact .inl ⟨addrs, by simpa using empty, mapM_ok.1 parsed, (Except.ok.inj last).symm⟩
    | total count bytes =>
      simp only [kind, kindStep] at run
      split at run
      · rename_i addrs held
        obtain ⟨n, -, run₁⟩ := bind_ok.1 run
        obtain ⟨b, -, run₂⟩ := bind_ok.1 run₁
        exact .inr (.inl ⟨addrs, _, rfl, held, (Except.ok.inj run₂).symm⟩)
      · exact .inr (.inr ⟨rfl, (Except.ok.inj run).symm⟩)
    | other =>
      simp only [kind, kindStep] at run
      exact .inr (.inr ⟨rfl, (Except.ok.inj run).symm⟩)

/-- An address word of one of the lines reads `a`. -/
def Addressed (lines : List (Except IoError String)) (a : UInt64) : Prop :=
  ∃ text, .ok text ∈ lines ∧ ∃ word ∈ addrWords text, parseAddr word = .ok a

theorem addressed_snoc {done : List (Except IoError String)} {text : String} {a : UInt64} :
    Addressed (done ++ [.ok text]) a ↔
      Addressed done a ∨ ∃ word ∈ addrWords text, parseAddr word = .ok a := by
  simp [Addressed, or_and_right, exists_or]

/-- A state reached over the lines `done`. -/
structure Reached (done : List (Except IoError String)) (s : JeheapState F) : Prop where
  annotations : s.profile.annotations = []
  unannotated : ∀ entry ∈ s.profile.stacks, entry.2 = none
  mappings : s.profile.mappings = []
  addrs : ∀ a, s.HasAddr a ↔ Addressed done a

/-- **One line.** -/
theorem jeheapLine_step {done : List (Except IoError String)} {line : Except IoError String}
    (h : Reached done s) (run : jeheapLine rate s line = .ok s') : Reached (done ++ [line]) s' := by
  obtain ⟨text, rfl, ⟨addrs, empty, parsed, rfl⟩ | ⟨addrs, weight, plain, held, rfl⟩ | ⟨plain, rfl⟩⟩ :=
    jeheapLine_ok run
  · refine ⟨h.annotations, h.unannotated, h.mappings, fun a => ?_⟩
    have words : a ∈ addrs ↔ ∃ word ∈ addrWords text, parseAddr word = .ok a := by
      constructor
      · intro mem
        obtain ⟨word, here, read⟩ := exists_of_mem_right parsed mem
        exact ⟨word, here, read⟩
      · rintro ⟨word, here, read⟩
        obtain ⟨b, mem, read'⟩ := exists_of_mem_left parsed here
        exact Except.ok.inj (read.symm.trans read') ▸ mem
    rw [addressed_snoc, ← h.addrs, ← words]
    simp [JeheapState.HasAddr, empty]
  · refine ⟨h.annotations, ?_, h.mappings, fun a => ?_⟩
    · intro entry mem
      rcases List.mem_append.1 mem with old | new
      · exact h.unannotated entry old
      · rw [List.mem_singleton.1 new]
    · rw [addressed_snoc, ← h.addrs, plain]
      simp [JeheapState.HasAddr, held, StackProfile.pushStack, or_and_right, exists_or]
  · refine ⟨h.annotations, h.unannotated, h.mappings, fun a => ?_⟩
    rw [addressed_snoc, ← h.addrs, plain]
    simp

/-- **An accepted dump**: no stack of its profile is annotated, its mappings
are the ones given and its addresses are those of its stack lines. -/
theorem parseJeheap_accepted {lines : List (Except IoError String)} {mappings : Option (List Mapping)}
    {profile : StackProfile F} (accepted : parseJeheap lines mappings = .ok profile) :
    (∀ entry ∈ profile.stacks, entry.2 = none) ∧ profile.mappings = mappings.getD [] ∧
      ∀ a, (∃ entry ∈ profile.stacks, a ∈ entry.1.addrs) ↔ Addressed lines.tail a := by
  cases lines with
  | nil => cases accepted
  | cons first lines =>
    cases first with
    | error e => cases accepted
    | ok first =>
      obtain ⟨rate, -, run₁⟩ := bind_ok.1 accepted
      obtain ⟨s, loop, run₂⟩ := bind_ok.1 run₁
      have start : Reached [] (⟨none, .default⟩ : JeheapState F) := by
        refine ⟨rfl, ?_, rfl, ?_⟩ <;> simp [StackProfile.default, JeheapState.HasAddr, Addressed]
      have reached := foldlM_run start
        (fun done line rest s s' _ inv step => jeheapLine_step inv step) loop
      split at run₂
      · cases run₂
      · rename_i empty
        rw [StackProfile.pushMappings_eq, reached.mappings] at run₂
        cases run₂
        refine ⟨reached.unannotated, by simp, fun a => ?_⟩
        have none_waits : s.curStack = none := by simpa using empty
        rw [List.tail_cons, ← reached.addrs]
        simp [JeheapState.HasAddr, none_waits]

end

end JemallocPprof
