import JemallocPprof.Faithful.Weights

/-!
# Dumps one after the other

Between two records the parser remembers nothing but the rate. Lines that make
an accepted dump may be followed by others: what is read from those is appended,
and they are refused as they would be alone. Lines that are refused stay
refused, unless a last stack was left without its weight (`LeftOpen`), which is
what more lines can mend (`parseJeheap_append`).
-/

namespace JemallocPprof
set_option autoImplicit false
open Lib

section
variable {F : Type} [F64 F]

/-- The profile with other stacks before its own. -/
def StackProfile.behind («stacks» : List (WeightedStack F × Option Nat)) (profile : StackProfile F) : StackProfile F :=
  { profile with «stacks» := «stacks» ++ profile.stacks }

def JeheapState.behind («stacks» : List (WeightedStack F × Option Nat)) (s : JeheapState F) : JeheapState F :=
  { s with profile := s.profile.behind «stacks» }

variable {rate : F} {earlier : List (WeightedStack F × Option Nat)}

/-- **One line** does the same after other stacks. -/
theorem jeheapLine_behind (s : JeheapState F) (line : Except IoError String) :
    jeheapLine rate (s.behind earlier) line = (jeheapLine rate s line).map (JeheapState.behind earlier) := by
  cases line with
  | error e => rfl
  | ok text =>
    rw [jeheapLine_eq, jeheapLine_eq]
    cases lineKind text with
    | stack words =>
      simp only [kindStep]
      have waiting : (s.behind earlier).curStack = s.curStack := rfl
      rw [waiting]
      split
      · rfl
      · cases words.mapM parseAddr <;> rfl
    | total count bytes =>
      obtain ⟨waiting, profile⟩ := s
      cases waiting with
      | none => rfl
      | some addrs =>
        simp only [kindStep, JeheapState.behind]
        cases (parseFloat (count.rdropWhile (· == ':')) : Except JeheapError F) with
        | error e => rfl
        | ok nObjs =>
          cases (parseFloat bytes : Except JeheapError F) with
          | error e => rfl
          | ok size =>
            simp only [ok_bind, Except.map, JeheapState.behind, StackProfile.behind, StackProfile.pushStack,
              List.append_assoc]
    | other => rfl

omit [F64 F] in
/-- What has been read when no stack waits is all that is kept. -/
theorem Reached.eq_behind {done : List (Except IoError String)} {s : JeheapState F} (h : Reached done s)
    (ready : s.curStack = none) : s = JeheapState.behind s.profile.stacks ⟨none, .default⟩ := by
  obtain ⟨waiting, annotations, entries, mappings⟩ := s
  obtain rfl : waiting = none := ready
  obtain rfl : annotations = [] := h.annotations
  obtain rfl : mappings = [] := h.mappings
  simp [JeheapState.behind, StackProfile.behind, StackProfile.default]

/-- The end of `parse_jeheap`. -/
def JeheapState.finish (mappings : Option (List Mapping)) (s : JeheapState F) : Except JeheapError (StackProfile F) :=
  if s.curStack.isSome then .error .stackWithoutWeight
  else .ok ((mappings.getD []).foldl StackProfile.pushMapping s.profile)

omit [F64 F] in
theorem JeheapState.finish_behind (mappings : Option (List Mapping)) (s : JeheapState F) :
    (s.behind earlier).finish mappings = (s.finish mappings).map (StackProfile.behind earlier) := by
  obtain ⟨waiting, profile⟩ := s
  cases waiting with
  | some addrs => rfl
  | none =>
    simp only [finish, JeheapState.behind, StackProfile.pushMappings_eq]
    rfl

omit [F64 F] in
theorem JeheapState.finish_ok {mappings : Option (List Mapping)} {s : JeheapState F} {profile : StackProfile F}
    (h : s.finish mappings = .ok profile) : s.curStack = none ∧ profile.stacks = s.profile.stacks := by
  obtain ⟨waiting, profile⟩ := s
  cases waiting with
  | some addrs => cases h
  | none =>
    simp only [finish, StackProfile.pushMappings_eq] at h
    cases h
    exact ⟨rfl, rfl⟩

/-- A header fixes the rate, or is refused. -/
theorem parseJeheap_header (header : Except IoError String) (mappings : Option (List Mapping)) :
    (∃ e, ∀ lines, (parseJeheap (header :: lines) mappings : Except JeheapError (StackProfile F)) = .error e) ∨
      ∃ rate : F, ∀ lines, parseJeheap (header :: lines) mappings =
        lines.foldlM (jeheapLine rate) ⟨none, .default⟩ >>= JeheapState.finish mappings := by
  cases header with
  | error e => exact .inl ⟨.io e, fun _ => rfl⟩
  | ok text =>
    simp only [parseJeheap]
    cases (parseFloat (trimStartMatches "heap_v2/".toList text.toList) : Except JeheapError F) with
    | error e => exact .inl ⟨e, fun _ => rfl⟩
    | ok rate => exact .inr ⟨rate, fun _ => rfl⟩

variable (F) in
/-- A stack is left open at the end: an accepted dump, a stack line of addresses,
and after it neither a stack line nor a total line. -/
inductive LeftOpen (header : Except IoError String) (mappings : Option (List Mapping)) :
    List (Except IoError String) → Prop where
  | intro {before after : List (Except IoError String)} {text : String} {words : List (List Char)}
      {profile : StackProfile F} (accepted : parseJeheap (header :: before) mappings = .ok profile)
      (stack : lineKind text = .stack words) (addrs : ∀ word ∈ words, ∃ addr, parseAddr word = .ok addr)
      (passed : ∀ line ∈ after, ∃ other, line = .ok other ∧ lineKind other = .other) :
      LeftOpen header mappings (before ++ .ok text :: after)

variable {header : Except IoError String} {lines more : List (Except IoError String)}
  {mappings : Option (List Mapping)}

theorem LeftOpen.snoc {text : String} (h : LeftOpen F header mappings lines) (other : lineKind text = .other) :
    LeftOpen F header mappings (lines ++ [.ok text]) := by
  obtain ⟨accepted, stack, addrs, passed⟩ := h
  rw [List.append_assoc, List.cons_append]
  refine ⟨accepted, stack, addrs, fun line mem => ?_⟩
  rcases List.mem_append.1 mem with old | new
  · exact passed line old
  · exact ⟨text, List.mem_singleton.1 new, other⟩

/-- A stack waits only where one is left open. -/
theorem leftOpen_of_waiting {s : JeheapState F}
    (read : ∀ lines, parseJeheap (header :: lines) mappings =
      lines.foldlM (jeheapLine rate) ⟨none, .default⟩ >>= JeheapState.finish mappings)
    (run : lines.foldlM (jeheapLine rate) ⟨none, .default⟩ = .ok s) :
    s.curStack = none ∨ LeftOpen F header mappings lines := by
  refine (foldlM_run (I := fun done s => done.foldlM (jeheapLine rate) ⟨none, .default⟩ = .ok s ∧
    (s.curStack = none ∨ LeftOpen F header mappings done)) ⟨rfl, .inl rfl⟩ ?_ run).2
  intro done line rest s s' _ ⟨sofar, inv⟩ step
  constructor
  · simp only [List.foldlM_append, sofar, ok_bind, List.foldlM_cons, step, List.foldlM_nil]
    rfl
  cases line with
  | error e => cases step
  | ok text =>
    rw [jeheapLine_eq] at step
    cases kind : lineKind text with
    | stack words =>
      simp only [kind, kindStep] at step
      split at step
      · cases step
      · rename_i empty
        obtain ⟨addrs, parsed, -⟩ := bind_ok.1 step
        have accepted : parseJeheap (header :: done) mappings =
            .ok ((mappings.getD []).foldl StackProfile.pushMapping s.profile) := by
          rw [read, sofar, ok_bind, JeheapState.finish, if_neg empty]
        refine .inr ⟨accepted, kind, fun word mem => ?_, fun line mem => absurd mem List.not_mem_nil⟩
        obtain ⟨addr, -, one⟩ := exists_of_mem_left (mapM_ok.1 parsed) mem
        exact ⟨addr, one⟩
    | total count bytes =>
      simp only [kind, kindStep] at step
      split at step
      · obtain ⟨n, -, step⟩ := bind_ok.1 step
        obtain ⟨b, -, step⟩ := bind_ok.1 step
        cases step
        exact .inl rfl
      · rename_i empty
        cases step
        exact .inl empty
    | other =>
      simp only [kind, kindStep] at step
      cases step
      exact inv.imp_right fun h => h.snoc kind

/-- Lines of neither kind change nothing. -/
theorem foldlM_passed {s : JeheapState F}
    (passed : ∀ line ∈ lines, ∃ other, line = .ok other ∧ lineKind other = .other) :
    lines.foldlM (jeheapLine rate) s = .ok s := by
  induction lines with
  | nil => rfl
  | cons line lines ih =>
    obtain ⟨other, rfl, kind⟩ := passed line List.mem_cons_self
    have here : jeheapLine rate s (.ok other) = .ok s := by rw [jeheapLine_eq, kind, kindStep]
    rw [List.foldlM_cons, here, ok_bind]
    exact ih fun line mem => passed line (List.mem_cons_of_mem _ mem)

/-- Where a stack is left open the lines are refused for it. -/
theorem LeftOpen.refused (h : LeftOpen F header mappings lines) :
    (parseJeheap (header :: lines) mappings : Except JeheapError (StackProfile F)) =
      .error .stackWithoutWeight := by
  obtain ⟨accepted, stack, addrs, passed⟩ := h
  rename_i before after text words profile
  rcases parseJeheap_header (F := F) header mappings with ⟨e, refused⟩ | ⟨rate, read⟩
  · rw [refused] at accepted
    cases accepted
  · rw [read] at accepted
    obtain ⟨s, run, finished⟩ := bind_ok.1 accepted
    have ready := (JeheapState.finish_ok finished).1
    obtain ⟨found, parsed⟩ := exists_mapM_ok addrs
    have opened : jeheapLine rate s (.ok text) = .ok { s with curStack := some found.reverse } := by
      simp only [jeheapLine_eq, stack, kindStep, ready, parsed]
      rfl
    simp only [read, List.foldlM_append, run, ok_bind, List.foldlM_cons, opened, foldlM_passed passed]
    rfl

/-- **One dump after another.** Lines accepted after a header may be followed by
any others: what those give alone is what they add. Lines that are refused are
refused whatever follows, unless a stack was left open at their end. -/
theorem parseJeheap_append :
    (∀ profile : StackProfile F, parseJeheap (header :: lines) mappings = .ok profile →
      parseJeheap (header :: (lines ++ more)) mappings =
        (parseJeheap (header :: more) mappings).map (StackProfile.behind profile.stacks)) ∧
    (∀ e, (parseJeheap (header :: lines) mappings : Except JeheapError (StackProfile F)) = .error e →
      ¬LeftOpen F header mappings lines →
      (parseJeheap (header :: (lines ++ more)) mappings : Except JeheapError (StackProfile F)) = .error e) ∧
    (LeftOpen F header mappings lines →
      (parseJeheap (header :: lines) mappings : Except JeheapError (StackProfile F)) =
        .error .stackWithoutWeight) := by
  refine ⟨?accepted, ?refused, LeftOpen.refused⟩
  case accepted =>
    intro profile accepted
    rcases parseJeheap_header (F := F) header mappings with ⟨e, refused⟩ | ⟨rate, read⟩
    · rw [refused] at accepted
      cases accepted
    · rw [read] at accepted
      obtain ⟨s, run, finished⟩ := bind_ok.1 accepted
      obtain ⟨ready, same⟩ := JeheapState.finish_ok finished
      have start : Reached [] (⟨none, .default⟩ : JeheapState F) := by
        refine ⟨rfl, ?_, rfl, ?_⟩ <;> simp [StackProfile.default, JeheapState.HasAddr, Addressed]
      have reached := foldlM_run start (fun done line rest s s' _ inv step => jeheapLine_step inv step) run
      rw [read, read, List.foldlM_append, run, ok_bind, reached.eq_behind ready, foldlM_map jeheapLine_behind, same]
      cases more.foldlM (jeheapLine rate) ⟨none, .default⟩ with
      | error e => rfl
      | ok s' => exact s'.finish_behind mappings
  case refused =>
    intro e refused closed
    rcases parseJeheap_header (F := F) header mappings with ⟨e, always⟩ | ⟨rate, read⟩
    · rw [always] at refused ⊢
      exact refused
    · rw [read] at refused
      cases run : lines.foldlM (jeheapLine rate) ⟨none, .default⟩ with
      | error e =>
        rw [run] at refused
        rw [read, List.foldlM_append, run]
        exact refused
      | ok s =>
        -- the whole of the lines was read, so they are refused for a stack that waits
        rw [run, ok_bind] at refused
        have ready := (leftOpen_of_waiting read run).resolve_right closed
        rw [JeheapState.finish, ready] at refused
        cases refused

end

/-- A record may be followed by another; two stack lines are refused whatever follows. -/
theorem oneRecord_append : (∃ profile : StackProfile (ExtNum ℚ),
    parseJeheap [.ok "heap_v2/524288", .ok "@ 0x1101", .ok " t*: 1: 64 [0: 0]"] none = .ok profile ∧
    parseJeheap [.ok "heap_v2/524288", .ok "@ 0x1101", .ok " t*: 1: 64 [0: 0]", .ok "@ 0x2101", .ok " t*: 2: 96 [0: 0]"]
        none = (parseJeheap [.ok "heap_v2/524288", .ok "@ 0x2101", .ok " t*: 2: 96 [0: 0]"] none).map
      (StackProfile.behind profile.stacks)) ∧
    (parseJeheap [.ok "heap_v2/524288", .ok "@ 0x1101", .ok "@ 0x2101", .ok " t*: 2: 96 [0: 0]"] none :
      Except JeheapError (StackProfile (ExtNum ℚ))) = .error .stackWithoutWeight := by
  constructor
  · obtain ⟨profile, accepted⟩ := exists_ok (x := (parseJeheap [.ok "heap_v2/524288", .ok "@ 0x1101",
      .ok " t*: 1: 64 [0: 0]"] none : Except JeheapError (StackProfile (ExtNum ℚ)))) (by decide +kernel)
    exact ⟨profile, accepted, parseJeheap_append.1 profile accepted⟩
  · have refused : (parseJeheap [.ok "heap_v2/524288", .ok "@ 0x1101", .ok "@ 0x2101"] none :
        Except JeheapError (StackProfile (ExtNum ℚ))) = .error .stackWithoutWeight := by decide +kernel
    have closed : ¬LeftOpen (ExtNum ℚ) (.ok "heap_v2/524288") none [.ok "@ 0x1101", .ok "@ 0x2101"] := by
      generalize twoStacks : [(.ok "@ 0x1101" : Except IoError String), .ok "@ 0x2101"] = lines
      rintro ⟨accepted, stack, addrs, passed⟩
      rename_i before after text words profile
      rcases before with _ | ⟨first, _ | ⟨second, before⟩⟩
      · cases twoStacks
        obtain ⟨other, same, kind⟩ := passed (.ok "@ 0x2101") List.mem_cons_self
        cases same
        revert kind
        decide +kernel
      · cases twoStacks
        have waits : (parseJeheap [.ok "heap_v2/524288", .ok "@ 0x1101"] none :
            Except JeheapError (StackProfile (ExtNum ℚ))) = .error .stackWithoutWeight := by decide +kernel
        rw [waits] at accepted
        cases accepted
      · simp at twoStacks
    exact parseJeheap_append.2.1 _ refused closed

end JemallocPprof
