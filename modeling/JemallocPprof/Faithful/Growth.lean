import JemallocPprof.Faithful.Integrity
import JemallocPprof.Faithful.Totals

/-!
# Profiles grow at their ends

No step of the conversion changes an entry that is there: strings, functions,
locations and samples are only appended, and of a mapping only flags are set
(`Builder.Extends`). So stacks that are pushed later renumber nothing: the
profile of the first stacks is the beginning of the profile of all of them
(`toPprofProto_grows`), and what a reader finds in it stays.
-/

namespace JemallocPprof
set_option autoImplicit false
open Lib

/-- The same mapping, with flags that may have been set since. -/
structure Proto.Mapping.Flagged (m m' : Proto.Mapping) : Prop where
  same : m = { m' with
    hasFunctions := m.hasFunctions
    hasFilenames := m.hasFilenames
    hasLineNumbers := m.hasLineNumbers
    hasInlineFrames := m.hasInlineFrames }
  hasFunctions : m.hasFunctions = true → m'.hasFunctions = true
  hasFilenames : m.hasFilenames = true → m'.hasFilenames = true
  hasLineNumbers : m.hasLineNumbers = true → m'.hasLineNumbers = true
  hasInlineFrames : m.hasInlineFrames = true → m'.hasInlineFrames = true

/-- The profile is the beginning of the other. -/
structure Proto.Profile.Grows (p p' : Proto.Profile) : Prop where
  sampleType : p.sampleType = p'.sampleType
  timeNanos : p.timeNanos = p'.timeNanos
  periodType : p.periodType = p'.periodType
  stringTable : p.stringTable <+: p'.stringTable
  mapping : List.Forall₂ Proto.Mapping.Flagged p.mapping p'.mapping
  location : p.location <+: p'.location
  function : p.function <+: p'.function
  sample : p.sample <+: p'.sample

namespace Proto.Mapping.Flagged

theorem refl (m : Proto.Mapping) : m.Flagged m := ⟨rfl, fun set => set, fun set => set, fun set => set, fun set => set⟩

theorem trans {m m' m'' : Proto.Mapping} (h : m.Flagged m') (h' : m'.Flagged m'') : m.Flagged m'' where
  same := by
    rw [h.same, h'.same]
  hasFunctions := h'.hasFunctions ∘ h.hasFunctions
  hasFilenames := h'.hasFilenames ∘ h.hasFilenames
  hasLineNumbers := h'.hasLineNumbers ∘ h.hasLineNumbers
  hasInlineFrames := h'.hasInlineFrames ∘ h.hasInlineFrames

theorem modify {f : Proto.Mapping → Proto.Mapping} (sets : ∀ m, Proto.Mapping.Flagged m (f m)) (idx : Nat)
    (ms : List Proto.Mapping) : List.Forall₂ Proto.Mapping.Flagged ms (ms.modify idx f) := by
  induction ms generalizing idx with
  | nil => simp
  | cons m ms ih =>
    cases idx with
    | zero => exact .cons (sets m) (List.forall₂_same.2 fun m _ => refl m)
    | succ idx => exact .cons (refl m) (ih idx)

end Proto.Mapping.Flagged

/-- The table keeps its strings where they are. -/
def StringTable.Grows (t t' : StringTable) : Prop :=
  ∀ strings, t.Interned strings → ∃ more, t'.Interned (strings ++ more)

namespace StringTable.Grows

theorem refl (t : StringTable) : t.Grows t := fun strings held => ⟨[], by simpa using held⟩

theorem trans {t t' t'' : StringTable} (h : t.Grows t') (h' : t'.Grows t'') : t.Grows t'' := by
  intro strings held
  obtain ⟨more, held⟩ := h strings held
  obtain ⟨more', held⟩ := h' _ held
  exact ⟨more ++ more', by rwa [← List.append_assoc]⟩

theorem insert {t t' : StringTable} {s : String} {i : Nat} (run : t.insert s = .ok (i, t')) : t.Grows t' := by
  intro strings held
  obtain ⟨more, held', -, -⟩ := insert_interned held run
  exact ⟨more, held'⟩

end StringTable.Grows

/-- The tables, with more at their ends. -/
structure Builder.Extends (b b' : Builder) : Prop where
  strings : b.strings.Grows b'.strings
  mapping : List.Forall₂ Proto.Mapping.Flagged b.mapping b'.mapping
  location : b.location <+: b'.location
  function : b.function <+: b'.function
  sample : b.sample <+: b'.sample

namespace Builder
variable {b b' b'' : Builder}

theorem Extends.refl (b : Builder) : b.Extends b :=
  ⟨.refl _, List.forall₂_same.2 fun m _ => .refl m, List.prefix_rfl, List.prefix_rfl, List.prefix_rfl⟩

theorem Extends.trans (h : b.Extends b') (h' : b'.Extends b'') : b.Extends b'' where
  strings := h.strings.trans h'.strings
  mapping := forall₂_trans (fun _ _ _ => .trans) h.mapping h'.mapping
  location := h.location.trans h'.location
  function := h.function.trans h'.function
  sample := h.sample.trans h'.sample

/-- Strings may be added alone. -/
theorem Extends.withStrings {t : StringTable} (h : b.Extends b') (grows : b'.strings.Grows t) :
    b.Extends { b' with strings := t } :=
  ⟨h.strings.trans grows, h.mapping, h.location, h.function, h.sample⟩

theorem updateMapping_extends (b : Builder) (mapping : Option Nat) {f : Proto.Mapping → Proto.Mapping}
    (sets : ∀ m, Proto.Mapping.Flagged m (f m)) : b.Extends (b.updateMapping mapping f) := by
  cases mapping with
  | none => exact .refl b
  | some idx =>
    have flagged := Proto.Mapping.Flagged.modify sets idx b.mapping
    exact ⟨.refl _, flagged, List.prefix_rfl, List.prefix_rfl, List.prefix_rfl⟩

theorem functionId_extends {mapping : Option Nat} {symbol : Symbol} {symbolName : SymbolName} {lineno id : Nat}
    (run : b.functionId mapping symbol symbolName lineno = .ok (id, b')) : b.Extends b' := by
  simp only [functionId] at run
  split at run
  · cases run
    exact .refl b
  · obtain ⟨⟨nameIdx, t₁⟩, insert₁, run⟩ := bind_ok.1 run
    obtain ⟨⟨systemNameIdx, t₂⟩, insert₂, run⟩ := bind_ok.1 run
    obtain ⟨⟨filenameIdx, t₃⟩, insert₃, run⟩ := bind_ok.1 run
    cases run
    have strings := ((StringTable.Grows.insert insert₁).trans (.insert insert₂)).trans (.insert insert₃)
    have flagged := b.updateMapping_extends mapping (f := fun m => { m with
      hasFunctions := true
      hasFilenames := m.hasFilenames || (symbol.filename.map Lib.fromUtf8Lossy).getD "" != ""
      hasLineNumbers := m.hasLineNumbers || decide (lineno > 0) })
      fun m => ⟨rfl, fun _ => rfl, fun set => by simp [set], fun set => by simp [set], fun set => set⟩
    have grown := flagged.withStrings strings
    exact ⟨grown.strings, grown.mapping, grown.location, grown.function.trans (List.prefix_append _ _), grown.sample⟩

theorem pushLine_extends {mapping : Option Nat} {state state' : Builder × List Proto.Line} {symbol : Symbol}
    (run : pushLine mapping state symbol = .ok state') : state.1.Extends state'.1 := by
  obtain ⟨b, line⟩ := state
  cases named : symbol.name with
  | none =>
    simp only [pushLine, named] at run
    cases run
    exact .refl b
  | some symbolName =>
    simp only [pushLine, named] at run
    obtain ⟨⟨functionId, b₁⟩, function, run⟩ := bind_ok.1 run
    cases run
    apply (functionId_extends function).trans
    apply updateMapping_extends
    exact fun m => ⟨rfl, fun set => set, fun set => set, fun set => set, fun set => by simp [set]⟩

theorem locationId_extends {env : Env} {info : Option (Mapping × Nat)} {addr address : UInt64} {id : Nat}
    (run : b.locationId env info addr address = .ok (id, b')) : b.Extends b' := by
  unfold locationId at run
  split at run
  · cases run
    exact .refl b
  · obtain ⟨⟨b₁, line⟩, lines, run⟩ := bind_ok.1 run
    cases run
    have grown : b.Extends b₁ := foldlM_run (I := fun _ (s : Builder × List Proto.Line) => b.Extends s.1) (.refl b)
      (fun _ _ _ _ _ _ sofar step => sofar.trans (pushLine_extends step)) lines
    exact ⟨grown.strings, grown.mapping, grown.location.trans (List.prefix_append _ _), grown.function, grown.sample⟩

theorem pushFrame_extends {env : Env} {mappings : List Mapping} {annoKey : String} {anno : Option String}
    {state state' : Builder × Proto.Sample} {addr : UInt64}
    (run : pushFrame env mappings annoKey anno state addr = .ok state') : state.1.Extends state'.1 := by
  obtain ⟨b, sample⟩ := state
  obtain ⟨runtime, -, run⟩ := bind_ok.1 run
  obtain ⟨address, -, run⟩ := bind_ok.1 run
  obtain ⟨⟨id, b₁⟩, location, run⟩ := bind_ok.1 run
  have grown := locationId_extends location
  cases anno with
  | none =>
    cases run
    exact grown
  | some text =>
    obtain ⟨⟨key, t₁⟩, insert₁, run⟩ := bind_ok.1 run
    obtain ⟨⟨str, t₂⟩, insert₂, run⟩ := bind_ok.1 run
    cases run
    exact grown.withStrings ((StringTable.Grows.insert insert₁).trans (.insert insert₂))

/-- **One stack.** -/
theorem pushSample_extends {F : Type} [F64Cast F] {env : Env} {mappings : List Mapping} {annoKey : String}
    {item : WeightedStack F × Option String} (run : pushSample env mappings annoKey b item = .ok b') :
    b.Extends b' := by
  obtain ⟨stack, anno⟩ := item
  obtain ⟨value, -, run⟩ := bind_ok.1 run
  obtain ⟨⟨b₁, sample⟩, loop, run⟩ := bind_ok.1 run
  cases run
  have grown : b.Extends b₁ := foldlM_run (I := fun _ (s : Builder × Proto.Sample) => b.Extends s.1) (.refl b)
    (fun _ _ _ _ _ _ sofar step => sofar.trans (pushFrame_extends step)) loop
  exact ⟨grown.strings, grown.mapping, grown.location, grown.function, grown.sample.trans (List.prefix_append _ _)⟩

theorem pushMapping_grows {entry : Mapping × Nat} (run : b.pushMapping entry = .ok b') :
    b.strings.Grows b'.strings := by
  obtain ⟨⟨filename, t₁⟩, insert₁, run⟩ := bind_ok.1 run
  obtain ⟨⟨buildId, t₂⟩, insert₂, run⟩ := bind_ok.1 run
  cases run
  apply (StringTable.Grows.insert insert₁).trans
  unfold buildIdIdx at insert₂
  split at insert₂
  · exact .insert insert₂
  · cases insert₂
    exact .refl _

end Builder

/-! ## What is read -/

namespace Proto.Profile.Grows
variable {p p' : Proto.Profile}

theorem find?_of_prefix {α : Type} {q : α → Bool} {as bs : List α} {a : α} (begins : as <+: bs)
    (found : as.find? q = some a) : bs.find? q = some a := by
  obtain ⟨more, rfl⟩ := begins
  rw [List.find?_append, found, Option.some_or]

theorem lineName (h : p.Grows p') {line : Proto.Line} {name : String} (read : p.lineName line = some name) :
    p'.lineName line = some name := by
  obtain ⟨function, found, there⟩ := Option.bind_eq_some_iff.1 read
  refine Option.bind_eq_some_iff.2 ⟨function, find?_of_prefix h.function found, ?_⟩
  obtain ⟨more, grown⟩ := h.stringTable
  rw [← grown]
  exact Reads.append there

theorem locationNames (h : p.Grows p') {id : Nat} {names : List String} (read : p.locationNames id = some names) :
    p'.locationNames id = some names := by
  obtain ⟨location, found, lines⟩ := Option.bind_eq_some_iff.1 read
  refine Option.bind_eq_some_iff.2 ⟨location, find?_of_prefix h.location found, mapM_some.2 ?_⟩
  exact (mapM_some.1 lines).imp fun line name here => h.lineName here

theorem sampleNames (h : p.Grows p') {sample : Proto.Sample} {names : List String}
    (read : p.sampleNames sample = some names) : p'.sampleNames sample = some names := by
  obtain ⟨parts, each, last⟩ := Option.bind_eq_some_iff.1 read
  refine Option.bind_eq_some_iff.2 ⟨parts, mapM_some.2 ?_, last⟩
  exact (mapM_some.1 each).imp fun id names here => h.locationNames here

end Proto.Profile.Grows

/-! ## The whole conversion -/

section
variable {F : Type} [F64Cast F] {env : Env} {self : StackProfile F} {sampleType periodType : String × String}
  {annoKey : Option String} {items more : List (WeightedStack F × Option String)} {p' : Proto.Profile}

theorem toPprofProto_samples {p : Proto.Profile} (annotated : self.Annotated items)
    (run : toPprofProto env self sampleType periodType annoKey = .ok p) : p.sample.length = items.length := by
  obtain ⟨items', annotated', h⟩ := toPprofProto_describes run
  rw [annotated.unique annotated']
  exact h.sample.length_eq

/-- The run over the first stacks is the beginning of the run over all. -/
theorem toPprofProto_begins (annotated : self.Annotated items)
    (run : toPprofProto env (self.pushStacks more) sampleType periodType annoKey = .ok p') :
    ∃ p, toPprofProto env self sampleType periodType annoKey = .ok p ∧ p.Grows p' := by
  obtain ⟨⟨t, t₁⟩, insert₁, run₁⟩ := bind_ok.1 run
  obtain ⟨⟨u, t₂⟩, insert₂, run₂⟩ := bind_ok.1 run₁
  obtain ⟨⟨pt, t₃⟩, insert₃, run₃⟩ := bind_ok.1 run₂
  obtain ⟨⟨pu, t₄⟩, insert₄, run₄⟩ := bind_ok.1 run₃
  obtain ⟨nanos, time, run₅⟩ := bind_ok.1 run₄
  obtain ⟨b₁, mappingLoop, run₆⟩ := bind_ok.1 run₅
  obtain ⟨b₃, sampleLoop, last⟩ := bind_ok.1 run₆
  rw [StackProfile.pushStacks_mappings] at mappingLoop sampleLoop
  rw [(StackProfile.pushStacks_annotated annotated more).forEach_eq, List.foldlM_append] at sampleLoop
  obtain ⟨b₂, first, second⟩ := bind_ok.1 sampleLoop
  -- the strings before the first stack, and the tables from there on
  have start : StringTable.new.Grows t₄ := ((StringTable.Grows.insert insert₁).trans (.insert insert₂)).trans
    ((StringTable.Grows.insert insert₃).trans (.insert insert₄))
  have mapped : t₄.Grows b₁.strings := foldlM_run (I := fun _ (b : Builder) => t₄.Grows b.strings) (.refl t₄)
    (fun _ _ _ _ _ _ sofar step => sofar.trans (Builder.pushMapping_grows step)) mappingLoop
  have before : b₁.Extends b₂ := foldlM_run (I := fun _ b => b₁.Extends b) (.refl b₁)
    (fun _ _ _ _ _ _ sofar step => sofar.trans (Builder.pushSample_extends step)) first
  have after : b₂.Extends b₃ := foldlM_run (I := fun _ b => b₂.Extends b) (.refl b₂)
    (fun _ _ _ _ _ _ sofar step => sofar.trans (Builder.pushSample_extends step)) second
  obtain ⟨sofar, interned⟩ := ((start.trans mapped).trans before.strings) _ StringTable.new_interned
  obtain ⟨later, interned'⟩ := after.strings _ interned
  rw [← annotated.forEach_eq] at first
  refine ⟨_, bind_ok.2 ⟨_, insert₁, bind_ok.2 ⟨_, insert₂, bind_ok.2 ⟨_, insert₃, bind_ok.2 ⟨_, insert₄,
    bind_ok.2 ⟨_, time, bind_ok.2 ⟨_, mappingLoop, bind_ok.2 ⟨_, first, rfl⟩⟩⟩⟩⟩⟩⟩, ?_⟩
  cases last
  refine ⟨rfl, rfl, rfl, ?_, after.mapping, after.location, after.function, after.sample⟩
  simp only [StringTable.finish_eq interned, StringTable.finish_eq interned']
  exact List.prefix_append _ _

/-- **Profiles grow at their ends.** When the stacks pushed so far and some more
are converted, so are those pushed so far, to the beginning of what all of them
are converted to, and their samples are read as the same names. -/
theorem toPprofProto_grows (annotated : self.Annotated items)
    (run : toPprofProto env (self.pushStacks more) sampleType periodType annoKey = .ok p') :
    ∃ p, toPprofProto env self sampleType periodType annoKey = .ok p ∧ p.Grows p' ∧
      (∀ sample ∈ p.sample, p'.sampleNames sample = p.sampleNames sample) ∧
      p.sample.length = items.length ∧ p'.sample.length = items.length + more.length := by
  obtain ⟨p, run', grows⟩ := toPprofProto_begins annotated run
  obtain ⟨items', annotated', h⟩ := toPprofProto_describes run'
  have all := toPprofProto_samples (StackProfile.pushStacks_annotated annotated more) run
  rw [List.length_append] at all
  refine ⟨p, run', grows, ?_, toPprofProto_samples annotated run', all⟩
  intro sample mem
  obtain ⟨names, read⟩ := h.sampleNames mem
  rw [read, grows.sampleNames read]

end

theorem annotatedCalls_grows : ∃ p p',
    toPprofProto oneSymbol annotatedCalls ("inuse", "bytes") ("space", "bytes") none = .ok p ∧ p.Grows p' ∧
    (∀ sample ∈ p.sample, p'.sampleNames sample = p.sampleNames sample) ∧
    p.sample.length = 3 ∧ p'.sample.length = 3 + 2 := by
  have annotated : annotatedCalls.Annotated [(⟨[0x1101, 0x5201], .fin 8⟩, some "steady"),
      (⟨[0x9000], .fin 16⟩, some "startup"), (⟨[], .fin 0⟩, none)] :=
    .cons ⟨rfl, rfl⟩ (.cons ⟨rfl, rfl⟩ (.cons ⟨rfl, rfl⟩ .nil))
  obtain ⟨p', run⟩ := exists_ok (x := toPprofProto oneSymbol (annotatedCalls.pushStacks
    [(⟨[0x1101, 0x7301], .fin 24⟩, some "shutdown"), (⟨[0x5201], .fin 4⟩, none)]) ("inuse", "bytes") ("space", "bytes")
    none) (by decide +kernel)
  obtain ⟨p, run', grows⟩ := toPprofProto_grows annotated run
  exact ⟨p, p', run', grows⟩

end JemallocPprof
