import JemallocPprof.Parser

/-!
# The language of `parse_jeheap`

The lines the parser accepts, told by positions: which lines are stack lines and
total lines, and which total line is the first after a stack line. The parser's
slot is the one stack line before the current position without a total line
behind it (`Seen`); `parseJeheap_iff` says that the parser accepts exactly the
grammatical lists of lines, with the profile the positions spell out.
-/

namespace JemallocPprof
set_option autoImplicit false
open Lib

section Language

variable (body : List String)

/-- The words of the line at a position, none beyond the end. -/
def wordsAt (i : Nat) : List (List Char) := (body[i]?.map lineWords).getD []

/-- The first word is `@`. -/
def StackAt (i : Nat) : Prop := (wordsAt body i).head? = some ['@']

/-- The first word is `t*:` and two more follow. -/
def TotalAt (i : Nat) : Prop := (wordsAt body i).head? = some ['t', '*', ':'] ∧ 3 ≤ (wordsAt body i).length

instance : DecidablePred (StackAt body) := fun _ => inferInstanceAs (Decidable (_ = _))

instance : DecidablePred (TotalAt body) := fun _ => inferInstanceAs (Decidable (_ ∧ _))

/-- The stack lines before a position. -/
def stacksBefore (n : Nat) : List Nat := (List.range n).filter fun i => StackAt body i

/-- `j` is the first total line after `i`. -/
def FirstTotal (i j : Nat) : Prop := i < j ∧ TotalAt body j ∧ ∀ k, i < k → k < j → ¬TotalAt body k

/-- A total line comes after `i`, and no stack line before it. -/
def Followed (i : Nat) : Prop := ∃ j, i < j ∧ TotalAt body j ∧ ∀ k, i < k → k < j → ¬StackAt body k

/-- The rate in a first line. -/
def rateOf (F : Type) [F64 F] (first : String) : Option F :=
  parseF64 (trimStartMatches "heap_v2/".toList first.toList)

/-- The address an address word stands for. -/
def addrOf (word : List Char) : Option UInt64 := usizeFromStrRadix 16 (trimStartMatches ['0', 'x'] word)

/-- The two numbers of a total line: the number of objects and their bytes. -/
def TotalReads {F : Type} [F64 F] (j : Nat) (nObjs sampled : F) : Prop :=
  ((wordsAt body j)[1]?.bind fun count => parseF64 (count.rdropWhile (· == ':'))) = some nObjs ∧
  ((wordsAt body j)[2]?.bind parseF64) = some sampled

/-- The lines after the first: stack lines of addresses, each followed by a total
line, the first of which has two numbers. -/
structure GrammaticalBody (F : Type) [F64 F] : Prop where
  addrs : ∀ i, StackAt body i → ∀ word ∈ (wordsAt body i).tail, (addrOf word).isSome = true
  followed : ∀ i, StackAt body i → Followed body i
  totals : ∀ i j, StackAt body i → FirstTotal body i j → ∃ nObjs sampled : F, TotalReads body j nObjs sampled

/-- **The grammar**: a first line with a rate, and lines after it as they should be. -/
structure Grammatical (F : Type) [F64 F] (lines : List String) : Prop where
  first : ∃ first, lines.head? = some first ∧ (rateOf F first).isSome = true
  body : GrammaticalBody lines.tail F

/-- The entry a stack line makes: its addresses reversed, the weight of the
first total line after it, no annotation. -/
structure EntryOf {F : Type} [F64 F] (rate : F) (i : Nat) (entry : WeightedStack F × Option Nat) : Prop where
  addrs : List.Forall₂ (fun word addr => addrOf word = some addr) (wordsAt body i).tail entry.1.addrs.reverse
  weight : ∃ j nObjs sampled, FirstTotal body i j ∧ TotalReads body j nObjs sampled ∧
    entry.1.weight = unbias nObjs sampled rate
  plain : entry.2 = none

/-- The profile of grammatical lines: one entry for each stack line, in order. -/
structure ProfileOf {F : Type} [F64 F] (lines : List String) (mappings : Option (List Mapping))
    (profile : StackProfile F) : Prop where
  entries : ∃ first rate, lines.head? = some first ∧ rateOf F first = some rate ∧
    List.Forall₂ (EntryOf lines.tail rate) (stacksBefore lines.tail lines.tail.length) profile.stacks
  annotations : profile.annotations = []
  mappings : profile.mappings = mappings.getD []

end Language

variable {F : Type} [F64 F] {body : List String} {i j k n : Nat}

/-! ### Positions -/

theorem wordsAt_eq {line : String} (here : body[i]? = some line) : wordsAt body i = lineWords line := by
  rw [wordsAt, here, Option.map_some, Option.getD_some]

/-- A line of words lies inside the list. -/
theorem lt_of_wordsAt {word : List Char} (h : (wordsAt body i).head? = some word) : i < body.length := by
  by_contra beyond
  rw [wordsAt, List.getElem?_eq_none (by omega)] at h
  cases h

theorem not_total_of_stack (h : StackAt body i) : ¬TotalAt body i := by
  intro total
  have same := h.symm.trans total.1
  revert same
  decide

theorem stacksBefore_succ :
    stacksBefore body (n + 1) = stacksBefore body n ++ if StackAt body n then [n] else [] := by
  simp [stacksBefore, List.range_succ, List.filter_append, List.filter_cons]

theorem mem_stacksBefore : i ∈ stacksBefore body n ↔ i < n ∧ StackAt body i := by
  simp [stacksBefore]

theorem FirstTotal.unique (h : FirstTotal body i j) (h' : FirstTotal body i k) : j = k := by
  by_contra other
  rcases Nat.lt_or_gt_of_ne other with lt | lt
  · exact h'.2.2 j h.1 lt h.2.1
  · exact h.2.2 k h'.1 lt h'.2.1

theorem TotalReads.unique {nObjs nObjs' sampled sampled' : F} (h : TotalReads body j nObjs sampled)
    (h' : TotalReads body j nObjs' sampled') : nObjs = nObjs' ∧ sampled = sampled' :=
  ⟨Option.some.inj (h.1.symm.trans h'.1), Option.some.inj (h.2.symm.trans h'.2)⟩

/-- A stack line makes one entry only. -/
theorem EntryOf.unique {rate : F} {entry entry' : WeightedStack F × Option Nat}
    (h : EntryOf body rate i entry) (h' : EntryOf body rate i entry') : entry = entry' := by
  obtain ⟨⟨addrs, weight⟩, anno⟩ := entry
  obtain ⟨⟨addrs', weight'⟩, anno'⟩ := entry'
  obtain ⟨j, nObjs, sampled, first, reads, weighs⟩ := h.weight
  obtain ⟨j', nObjs', sampled', first', reads', weighs'⟩ := h'.weight
  obtain rfl := first.unique first'
  obtain ⟨rfl, rfl⟩ := reads.unique reads'
  have reversed : addrs.reverse = addrs'.reverse :=
    List.right_unique_forall₂' (fun _ _ _ read read' => Option.some.inj (read.symm.trans read')) h.addrs h'.addrs
  have same_addrs : addrs = addrs' := List.reverse_injective reversed
  have same_weight : weight = weight' := weighs.trans weighs'.symm
  have same_anno : anno = anno' := h.plain.trans h'.plain.symm
  rw [same_addrs, same_weight, same_anno]

/-- The lines say what the profile is. -/
theorem ProfileOf.unique {lines : List String} {mappings : Option (List Mapping)}
    {profile profile' : StackProfile F} (h : ProfileOf lines mappings profile)
    (h' : ProfileOf lines mappings profile') : profile = profile' := by
  obtain ⟨annotations, entries, all⟩ := profile
  obtain ⟨annotations', entries', all'⟩ := profile'
  obtain ⟨first, rate, head, read, forms⟩ := h.entries
  obtain ⟨first', rate', head', read', forms'⟩ := h'.entries
  obtain rfl := Option.some.inj (head.symm.trans head')
  obtain rfl := Option.some.inj (read.symm.trans read')
  have same_entries : entries = entries' :=
    List.right_unique_forall₂' (fun _ _ _ entry entry' => entry.unique entry') forms forms'
  have same_annotations : annotations = annotations' := h.annotations.trans h'.annotations.symm
  have same_mappings : all = all' := h.mappings.trans h'.mappings.symm
  rw [same_entries, same_annotations, same_mappings]

/-! ### The parser's state at a position -/

section States

variable (body) (rate : F)

/-- The stack lines before `m` are followed, and the profile has their entries. -/
structure Closed (m : Nat) (profile : StackProfile F) : Prop where
  followed : ∀ i < m, StackAt body i → Followed body i
  entries : List.Forall₂ (EntryOf body rate) (stacksBefore body m) profile.stacks
  annotations : profile.annotations = []
  mappings : profile.mappings = []

/-- The stack line at `i` holds the slot: no stack line or total line stands
between it and `n`. -/
structure Waiting (i n : Nat) (addrs : List UInt64) : Prop where
  before : i < n
  stack : StackAt body i
  alone : ∀ k, i < k → k < n → ¬StackAt body k ∧ ¬TotalAt body k
  addrs : List.Forall₂ (fun word addr => addrOf word = some addr) (wordsAt body i).tail addrs.reverse

/-- What the parser has made of the first `n` lines. -/
inductive Seen (n : Nat) : JeheapState F → Prop where
  | closed {profile : StackProfile F} (closed : Closed body rate n profile) : Seen n ⟨none, profile⟩
  | waiting {profile : StackProfile F} {i : Nat} {addrs : List UInt64} (waiting : Waiting body i n addrs)
      (closed : Closed body rate i profile) : Seen n ⟨some addrs, profile⟩

end States

variable {rate : F} {s s' : JeheapState F} {line : String} {profile : StackProfile F} {addrs : List UInt64}

/-- The kind of the line at `n`, by its words. -/
theorem lineKind_at (here : body[n]? = some line) :
    (∃ addrs, lineKind line = .stack addrs ∧ wordsAt body n = ['@'] :: addrs) ∨
      (∃ count bytes more, lineKind line = .total count bytes ∧
        wordsAt body n = ['t', '*', ':'] :: count :: bytes :: more) ∨
      (lineKind line = .other ∧ ¬StackAt body n ∧ ¬TotalAt body n) := by
  rw [StackAt, TotalAt, wordsAt_eq here]
  exact kindOf_cases (lineWords line)

theorem parseAddr_ok {word : List Char} {addr : UInt64} : parseAddr word = .ok addr ↔ addrOf word = some addr := by
  unfold parseAddr addrOf
  cases usizeFromStrRadix 16 (trimStartMatches ['0', 'x'] word) <;> simp

/-- A position without a stack line or total line changes nothing. -/
theorem Closed.other (h : Closed body rate n profile) (noStack : ¬StackAt body n) :
    Closed body rate (n + 1) profile := by
  refine ⟨?_, ?_, h.annotations, h.mappings⟩
  · intro i before stack
    rcases Nat.lt_succ_iff_lt_or_eq.1 before with lt | rfl
    · exact h.followed i lt stack
    · exact absurd stack noStack
  · rw [stacksBefore_succ, if_neg noStack, List.append_nil]
    exact h.entries

theorem Waiting.other (h : Waiting body i n addrs) (noStack : ¬StackAt body n) (noTotal : ¬TotalAt body n) :
    Waiting body i (n + 1) addrs := by
  refine ⟨Nat.lt_succ_of_lt h.before, h.stack, ?_, h.addrs⟩
  intro k above below
  rcases Nat.lt_succ_iff_lt_or_eq.1 below with lt | rfl
  · exact h.alone k above lt
  · exact ⟨noStack, noTotal⟩

/-- Between the line that waits and `n` there is no stack line. -/
theorem Waiting.stacksBefore (h : Waiting body i n addrs) :
    stacksBefore body n = stacksBefore body i ++ [i] := by
  obtain ⟨before, stack, alone, -⟩ := h
  induction n, before using Nat.le_induction with
  | base => rw [stacksBefore_succ, if_pos stack]
  | succ n above ih =>
    have here := (alone n above (Nat.lt_succ_self n)).1
    rw [stacksBefore_succ, if_neg here, List.append_nil]
    exact ih fun k after below => alone k after (Nat.lt_succ_of_lt below)

/-- The first total line behind the line that waits. -/
theorem Waiting.firstTotal (h : Waiting body i n addrs) (total : TotalAt body n) :
    FirstTotal body i n ∧ Followed body i :=
  ⟨⟨h.before, total, fun k above below => (h.alone k above below).2⟩,
    ⟨n, h.before, total, fun k above below => (h.alone k above below).1⟩⟩

/-- A total line closes the slot. -/
theorem Closed.push (h : Closed body rate i profile) (waits : Waiting body i n addrs) (total : TotalAt body n)
    {nObjs sampled : F} (reads : TotalReads body n nObjs sampled) :
    Closed body rate (n + 1) (profile.pushStack ⟨addrs, unbias nObjs sampled rate⟩ none) := by
  obtain ⟨first, followed⟩ := waits.firstTotal total
  have noStack : ¬StackAt body n := fun stack => not_total_of_stack stack total
  refine ⟨?_, ?_, h.annotations, h.mappings⟩
  · intro k before stack
    have known : k ∈ JemallocPprof.stacksBefore body n := by
      rcases Nat.lt_succ_iff_lt_or_eq.1 before with lt | rfl
      · exact mem_stacksBefore.2 ⟨lt, stack⟩
      · exact absurd stack noStack
    rw [waits.stacksBefore] at known
    rcases List.mem_append.1 known with old | new
    · exact h.followed k (mem_stacksBefore.1 old).1 stack
    · rwa [List.mem_singleton.1 new]
  · rw [stacksBefore_succ, if_neg noStack, List.append_nil, waits.stacksBefore]
    refine List.rel_append h.entries (.cons ?_ .nil)
    exact ⟨waits.addrs, ⟨n, nObjs, sampled, first, reads, rfl⟩, rfl⟩

/-- **One line** takes the parser from one position to the next. -/
theorem Seen.step (seen : Seen body rate n s) (here : body[n]? = some line)
    (run : jeheapLine rate s (.ok line) = .ok s') : Seen body rate (n + 1) s' := by
  rw [jeheapLine_eq] at run
  rcases lineKind_at here with ⟨words, kind, at_n⟩ | ⟨count, bytes, more, kind, at_n⟩ | ⟨kind, noStack, noTotal⟩
  · have stack : StackAt body n := by rw [StackAt, at_n, List.head?_cons]
    rw [kind] at run
    cases seen with
    | waiting waits closed => cases run
    | closed closed =>
      obtain ⟨addrs, parsed, last⟩ := bind_ok.1 run
      obtain rfl := Except.ok.inj last
      refine .waiting ⟨Nat.lt_succ_self n, stack, ?_, ?_⟩ closed
      · intro k above below
        omega
      · rw [at_n, List.tail_cons, List.reverse_reverse]
        exact (mapM_ok.1 parsed).imp fun _ _ => parseAddr_ok.1
  · have total : TotalAt body n := by
      rw [TotalAt, at_n]
      exact ⟨rfl, by simp⟩
    have noStack : ¬StackAt body n := fun stack => not_total_of_stack stack total
    rw [kind] at run
    cases seen with
    | closed closed =>
      obtain rfl := Except.ok.inj run
      exact .closed (closed.other noStack)
    | waiting waits closed =>
      obtain ⟨nObjs, counted, run₁⟩ := bind_ok.1 run
      obtain ⟨sampled, summed, run₂⟩ := bind_ok.1 run₁
      obtain rfl := Except.ok.inj run₂
      refine .closed (closed.push waits total ⟨?_, ?_⟩)
      · rw [at_n]
        exact parseFloat_ok.1 counted
      · rw [at_n]
        exact parseFloat_ok.1 summed
  · rw [kind] at run
    obtain rfl := Except.ok.inj run
    cases seen with
    | closed closed => exact .closed (closed.other noStack)
    | waiting waits closed => exact .waiting (waits.other noStack noTotal) closed

/-- In grammatical lines no line is refused. -/
theorem Seen.progress (seen : Seen body rate n s) (grammatical : GrammaticalBody body F)
    (here : body[n]? = some line) : ∃ s', jeheapLine rate s (.ok line) = .ok s' := by
  rw [jeheapLine_eq]
  rcases lineKind_at here with ⟨words, kind, at_n⟩ | ⟨count, bytes, more, kind, at_n⟩ | ⟨kind, noStack, noTotal⟩
  · have stack : StackAt body n := by rw [StackAt, at_n, List.head?_cons]
    rw [kind]
    cases seen with
    | waiting waits closed =>
      -- the line that waits is followed by a total line, which cannot come before `n`
      obtain ⟨j, after, total, noStack⟩ := grammatical.followed _ waits.stack
      rcases Nat.lt_or_ge j n with lt | ge
      · exact absurd total (waits.alone j after lt).2
      · rcases Nat.lt_or_eq_of_le ge with lt | rfl
        · exact absurd stack (noStack n waits.before lt)
        · exact absurd total (not_total_of_stack stack)
    | closed closed =>
      have parse : ∀ word ∈ words, ∃ addr, parseAddr word = .ok addr := by
        intro word mem
        have read := grammatical.addrs n stack word (by rw [at_n, List.tail_cons]; exact mem)
        obtain ⟨addr, read⟩ := Option.isSome_iff_exists.1 read
        exact ⟨addr, parseAddr_ok.2 read⟩
      obtain ⟨addrs, parsed⟩ := exists_mapM_ok parse
      exact ⟨_, bind_ok.2 ⟨addrs, parsed, rfl⟩⟩
  · have total : TotalAt body n := by
      rw [TotalAt, at_n]
      exact ⟨rfl, by simp⟩
    rw [kind]
    cases seen with
    | closed closed => exact ⟨_, rfl⟩
    | waiting waits closed =>
      obtain ⟨nObjs, sampled, counted, summed⟩ := grammatical.totals _ n waits.stack (waits.firstTotal total).1
      rw [at_n] at counted summed
      exact ⟨_, bind_ok.2 ⟨nObjs, parseFloat_ok.2 counted, bind_ok.2 ⟨sampled, parseFloat_ok.2 summed, rfl⟩⟩⟩
  · rw [kind]
    exact ⟨s, rfl⟩

/-- When the slot is empty at the end, the lines are grammatical. -/
theorem Closed.grammatical (h : Closed body rate body.length profile) : GrammaticalBody body F := by
  have entry : ∀ i, StackAt body i → ∃ entry, EntryOf body rate i entry := by
    intro i stack
    have mem := mem_stacksBefore.2 ⟨lt_of_wordsAt stack, stack⟩
    obtain ⟨entry, -, made⟩ := exists_of_mem_left h.entries mem
    exact ⟨entry, made⟩
  refine ⟨?_, ?_, ?_⟩
  · intro i stack word mem
    obtain ⟨entry, made⟩ := entry i stack
    obtain ⟨addr, -, read⟩ := exists_of_mem_left made.addrs mem
    rw [read]
    rfl
  · intro i stack
    exact h.followed i (lt_of_wordsAt stack) stack
  · intro i j stack first
    obtain ⟨entry, made⟩ := entry i stack
    obtain ⟨j', nObjs, sampled, first', reads, -⟩ := made.weight
    obtain rfl := first.unique first'
    exact ⟨nObjs, sampled, reads⟩

/-- In grammatical lines the slot is empty at the end. -/
theorem Seen.final (seen : Seen body rate body.length s) (grammatical : GrammaticalBody body F) :
    s.curStack = none := by
  cases seen with
  | closed closed => rfl
  | waiting waits closed =>
    obtain ⟨j, after, total, -⟩ := grammatical.followed _ waits.stack
    exact absurd total (waits.alone j after (lt_of_wordsAt total.1)).2

/-! ### The parser -/

theorem seen_start : Seen body rate 0 ⟨none, .default⟩ := by
  refine .closed ⟨?_, .nil, rfl, rfl⟩
  intro i before
  omega

/-- A prefix of the lines ends at the position of the next. -/
theorem here_of_split {done rest : List (Except IoError String)} {next : Except IoError String}
    (split : done ++ next :: rest = body.map .ok) : ∃ line, next = .ok line ∧ body[done.length]? = some line := by
  have found : (body.map Except.ok)[done.length]? = some next := by
    rw [← split, List.getElem?_append_right (Nat.le_refl _), Nat.sub_self, List.getElem?_cons_zero]
  rw [List.getElem?_map, Option.map_eq_some_iff] at found
  obtain ⟨line, here, rfl⟩ := found
  exact ⟨line, rfl, here⟩

theorem seen_of_run (run : (body.map .ok).foldlM (jeheapLine rate) ⟨none, .default⟩ = .ok s) :
    Seen body rate body.length s := by
  have last := foldlM_run (I := fun done s => Seen body rate done.length s) seen_start
    (fun done next rest s s' split seen step => by
      obtain ⟨line, rfl, here⟩ := here_of_split split
      rw [List.length_append, List.length_singleton]
      exact seen.step here step) run
  rwa [List.length_map] at last

theorem exists_run (rate : F) (grammatical : GrammaticalBody body F) :
    ∃ s, (body.map .ok).foldlM (jeheapLine rate) ⟨none, .default⟩ = .ok s := by
  obtain ⟨s, run, -⟩ := foldlM_total (I := fun done s => Seen body rate done.length s) (body.map Except.ok) seen_start
    (fun done next rest s split seen => by
      obtain ⟨line, rfl, here⟩ := here_of_split split
      obtain ⟨s', step⟩ := seen.progress grammatical here
      refine ⟨s', step, ?_⟩
      rw [List.length_append, List.length_singleton]
      exact seen.step here step)
  exact ⟨s, run⟩

/-- What the parser accepts is grammatical, and its profile is the one the lines make. -/
theorem grammatical_of_parse {lines : List String} {mappings : Option (List Mapping)}
    (accepted : parseJeheap (lines.map .ok) mappings = .ok profile) :
    Grammatical F lines ∧ ProfileOf lines mappings profile := by
  cases lines with
  | nil => cases accepted
  | cons first body =>
    obtain ⟨rate, parsed, run₁⟩ := bind_ok.1 accepted
    obtain ⟨s, loop, run₂⟩ := bind_ok.1 run₁
    have read : rateOf F first = some rate := parseFloat_ok.1 parsed
    have seen := seen_of_run loop
    cases seen with
    | waiting waits closed => cases run₂
    | closed closed =>
      obtain rfl := Except.ok.inj run₂
      rw [StackProfile.pushMappings_eq]
      refine ⟨⟨⟨first, rfl, by rw [read]; rfl⟩, closed.grammatical⟩, ⟨⟨first, rate, rfl, read, closed.entries⟩, ?_, ?_⟩⟩
      · exact closed.annotations
      · simp only [closed.mappings, List.nil_append]

/-- What is grammatical is accepted. -/
theorem parse_of_grammatical {lines : List String} (mappings : Option (List Mapping))
    (grammatical : Grammatical F lines) :
    ∃ profile : StackProfile F, parseJeheap (lines.map .ok) mappings = .ok profile := by
  obtain ⟨first, head, read⟩ := grammatical.first
  obtain ⟨rate, read⟩ := Option.isSome_iff_exists.1 read
  obtain ⟨body, rfl⟩ := List.head?_eq_some_iff.1 head
  obtain ⟨s, loop⟩ := exists_run rate grammatical.body
  have empty := (seen_of_run loop).final grammatical.body
  refine ⟨(mappings.getD []).foldl StackProfile.pushMapping s.profile, ?_⟩
  refine bind_ok.2 ⟨rate, parseFloat_ok.2 read, bind_ok.2 ⟨s, loop, ?_⟩⟩
  rw [empty]
  rfl

/-- **The parser accepts exactly the grammatical lines**, and a profile is
returned exactly when it is the one they make. -/
theorem parseJeheap_iff (lines : List String) (mappings : Option (List Mapping)) :
    ((∃ profile : StackProfile F, parseJeheap (lines.map .ok) mappings = .ok profile) ↔ Grammatical F lines) ∧
      ∀ profile : StackProfile F, parseJeheap (lines.map .ok) mappings = .ok profile ↔
        Grammatical F lines ∧ ProfileOf lines mappings profile := by
  refine ⟨⟨?_, parse_of_grammatical mappings⟩, fun profile => ⟨grammatical_of_parse, ?_⟩⟩
  · rintro ⟨profile, accepted⟩
    exact (grammatical_of_parse accepted).1
  · rintro ⟨grammatical, made⟩
    obtain ⟨profile', accepted⟩ := parse_of_grammatical (F := F) mappings grammatical
    rwa [made.unique (grammatical_of_parse accepted).2]

end JemallocPprof
