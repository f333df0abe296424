import JemallocPprof.Faithful.Encoding
import JemallocPprof.Faithful.Labels

/-!
# With and without symbols

A consumer may symbolize a profile itself, so a build may leave `symbolize` out.
What a profile says besides names and lines (`Unsymbolized`) is a function of
the stacks and the mappings alone: whatever the resolver answers, the samples,
their labels, the locations' addresses and the mappings are the same
(`resolvers_agree`).
-/

namespace JemallocPprof
set_option autoImplicit false
open Lib

/-- A profile without its functions, lines and flags, its strings looked up. -/
structure Unsymbolized where
  sampleType : List (Option String × Option String)
  /-- The location ids, the values and the labels of each sample. -/
  sample : List (List Nat × List Int × List (Option String × Option String))
  /-- Id, path and build id. -/
  mapping : List (Nat × Option String × Option String)
  /-- Id, mapping id and address. -/
  location : List (Nat × Nat × UInt64)
  timeNanos : Int
  periodType : Option (Option String × Option String)
  deriving DecidableEq

/-- What `p` says besides its symbols. -/
def Proto.Profile.unsymbolized (p : Proto.Profile) : Unsymbolized where
  sampleType := p.sampleType.map fun t => (p.stringTable[t.type]?, p.stringTable[t.unit]?)
  sample := p.sample.map fun sample => (sample.locationId, sample.value,
    sample.label.map fun label => (p.stringTable[label.key]?, p.stringTable[label.str]?))
  mapping := p.mapping.map fun m => (m.id, p.stringTable[m.filename]?, p.stringTable[m.buildId]?)
  location := p.location.map fun l => (l.id, l.mappingId, l.address)
  timeNanos := p.timeNanos
  periodType := p.periodType.map fun t => (p.stringTable[t.type]?, p.stringTable[t.unit]?)

/-- No functions, lines and flags. -/
structure Proto.Profile.Symbolless (p : Proto.Profile) : Prop where
  function : p.function = []
  line : ∀ l ∈ p.location, l.line = []
  flags : ∀ m ∈ p.mapping, m.hasFunctions = false ∧ m.hasFilenames = false ∧ m.hasLineNumbers = false ∧
    m.hasInlineFrames = false

variable {F : Type} [F64Cast F] {env : Env} {sampleType periodType : String × String}

/-- The labels of a stack: one for each frame when it has an annotation. -/
def labelsOf (annoKey : String) (item : WeightedStack F × Option String) : List (Option String × Option String) :=
  match item.2 with
  | some text => List.replicate item.1.addrs.length (some annoKey, some text)
  | none => []

/-- What the stacks and the mappings say. -/
def unsymbolizedOf (mappings : List Mapping) (frames : List Frame) (items : List (WeightedStack F × Option String))
    (sampleType periodType : String × String) (annoKey : String) (timeNanos : Int) : Unsymbolized where
  sampleType := [(some sampleType.1, some sampleType.2)]
  sample := items.map fun item =>
    ((framesOf mappings item.1.addrs).map fun f => (rank Frame.address frames f.address).getD 0 + 1,
      [(i64TryCastFrom (F64Cast.trunc item.1.weight)).getD 0], labelsOf annoKey item)
  mapping := mappings.mapIdx fun i m => (i + 1, some (fromUtf8Lossy m.pathname), some m.buildIdText)
  location := (located frames).mapIdx fun i f => (i + 1, (f.mapping.map (· + 1)).getD 0, f.address)
  timeNanos
  periodType := some (some periodType.1, some periodType.2)

section Read
variable {strings : List String} {annoKey : String} {mappings : List Mapping} {frames : List Frame}

omit [F64Cast F] in
theorem LabelsMatch.read {item : WeightedStack F × Option String} {labels : List Proto.Label}
    (h : LabelsMatch strings annoKey item.2 item.1.addrs.length labels) :
    (labels.map fun label => (strings[label.key]?, strings[label.str]?)) = labelsOf annoKey item := by
  obtain ⟨stack, anno⟩ := item
  cases anno with
  | none =>
    obtain rfl := List.length_eq_zero_iff.1 h.count
    rfl
  | some text =>
    refine List.eq_replicate_iff.2 ⟨by simpa using h.count, fun pair mem => ?_⟩
    obtain ⟨label, inside, rfl⟩ := List.mem_map.1 mem
    obtain ⟨key, str⟩ := h.text label inside text rfl
    exact Prod.ext key str

theorem SampleMatches.read {sample : Proto.Sample} {item : WeightedStack F × Option String}
    (h : SampleMatches mappings frames strings annoKey sample item) :
    (sample.locationId, sample.value, sample.label.map fun label => (strings[label.key]?, strings[label.str]?)) =
      ((framesOf mappings item.1.addrs).map fun f => (rank Frame.address frames f.address).getD 0 + 1,
        [(i64TryCastFrom (F64Cast.trunc item.1.weight)).getD 0], labelsOf annoKey item) := by
  have ids : sample.locationId =
      (framesOf mappings item.1.addrs).map fun f => (rank Frame.address frames f.address).getD 0 + 1 := by
    rw [← List.forall₂_eq_eq_eq, List.forall₂_map_right_iff]
    refine h.locationId.imp fun id f held => ?_
    obtain ⟨j, first, rfl⟩ := held
    rw [first]
    rfl
  obtain ⟨v, cast, value⟩ := h.value
  rw [ids, value, cast, h.label.read]
  rfl

/-- **What a profile says besides its symbols** comes from the stacks and the mappings. -/
theorem Describes.unsymbolized {items : List (WeightedStack F × Option String)} {p : Proto.Profile}
    (h : Describes env mappings frames items sampleType periodType annoKey p) :
    p.unsymbolized = unsymbolizedOf mappings frames items sampleType periodType annoKey p.timeNanos := by
  obtain ⟨t, u, sampleTypes, readT, readU⟩ := h.sampleType
  obtain ⟨pt, pu, periods, readPt, readPu⟩ := h.periodType
  have samples := h.sample.imp fun _ _ told => told.read
  rw [← List.forall₂_map_right_iff, ← List.forall₂_map_left_iff] at samples
  rw [List.forall₂_eq_eq_eq] at samples
  have mapped := h.mapping.map_eq (f := fun m => (m.id, p.stringTable[m.filename]?, p.stringTable[m.buildId]?))
    (g := fun i m => (i + 1, some (fromUtf8Lossy m.pathname), some m.buildIdText)) fun i pm m told => by
      rw [told.id, told.filename, told.buildId]
  have places := h.location.map_eq (f := fun l => (l.id, l.mappingId, l.address))
    (g := fun i f => (i + 1, (f.mapping.map (· + 1)).getD 0, f.address)) fun i l f told => by
      rw [told.id, told.mappingId, told.address]
  rw [Proto.Profile.unsymbolized, samples, mapped, places, sampleTypes, periods]
  simp only [List.map_singleton, Option.map_some, readT, readU, readPt, readPu]
  rfl

end Read

variable {self : StackProfile F} {annoKey : Option String} {p p' : Proto.Profile}

theorem toPprofProto_symbolless (unset : env.symbolize = none)
    (run : toPprofProto env self sampleType periodType annoKey = .ok p) :
    p.Symbolless := by
  obtain ⟨items, -, h⟩ := toPprofProto_describes run
  have silent : ∀ f, namedSymbols env f = [] := by
    intro f
    rw [namedSymbols, Env.resolve, unset]
    rfl
  have nameless : firsts Named.name (named env self.frames) = [] := by
    have all : named env self.frames = [] := List.flatMap_eq_nil_iff.2 fun f _ => silent f
    rw [all]
    rfl
  refine ⟨?_, fun l mem => ?_, fun m mem => ?_⟩
  · exact List.length_eq_zero_iff.1 (h.function.length.trans (by rw [nameless, List.length_nil]))
  · obtain ⟨i, there⟩ := List.mem_iff_getElem?.1 mem
    obtain ⟨f, -, told⟩ := h.location.right there
    have lines := told.line
    rw [silent f] at lines
    exact List.forall₂_nil_right_iff.1 lines
  · obtain ⟨i, there⟩ := List.mem_iff_getElem?.1 mem
    have flags := h.flags i m there
    refine ⟨?_, ?_, ?_, ?_⟩ <;> rw [← Bool.not_eq_true]
    · simp [flags.hasFunctions, nameless]
    · simp [flags.hasFilenames, nameless]
    · simp [flags.hasLineNumbers, nameless]
    · simp [flags.hasInlineFrames, Inlined, silent]

/-- **Symbols only add names and lines.** Two conversions of a profile that
differ in their resolver say the same besides symbols, and one without a
resolver says nothing else. -/
theorem resolvers_agree {resolver resolver' : Option (UInt64 → List Symbol)}
    (run : toPprofProto { env with symbolize := resolver } self sampleType periodType annoKey = .ok p)
    (run' : toPprofProto { env with symbolize := resolver' } self sampleType periodType annoKey = .ok p') :
    p.unsymbolized = p'.unsymbolized ∧ (resolver' = none → p'.Symbolless) := by
  refine ⟨?_, fun unset => toPprofProto_symbolless unset run'⟩
  obtain ⟨items, annotated, h⟩ := toPprofProto_describes run
  obtain ⟨items', annotated', h'⟩ := toPprofProto_describes run'
  obtain rfl := annotated.unique annotated'
  have now : p.timeNanos = env.now := (clockFits_of_timeNanos (toPprofProto_timeNanos run)).2
  have now' : p'.timeNanos = env.now := (clockFits_of_timeNanos (toPprofProto_timeNanos run')).2
  rw [h.unsymbolized, h'.unsymbolized, now, now']

theorem annotatedCalls_resolvers : ∃ p p',
    toPprofProto oneSymbol annotatedCalls ("inuse", "bytes") ("space", "bytes") none = .ok p ∧
    toPprofProto noSymbols annotatedCalls ("inuse", "bytes") ("space", "bytes") none = .ok p' ∧
    p.function.length = 1 ∧ p.unsymbolized = p'.unsymbolized ∧ p'.Symbolless := by
  obtain ⟨p, run, one⟩ := exists_ok_and (x := toPprofProto { noSymbols with symbolize := oneSymbol.symbolize }
    annotatedCalls ("inuse", "bytes") ("space", "bytes") none) (c := fun p => p.function.length = 1) (by decide +kernel)
  obtain ⟨p', run'⟩ := exists_ok (x := toPprofProto { noSymbols with symbolize := none } annotatedCalls
    ("inuse", "bytes") ("space", "bytes") none) (by decide +kernel)
  obtain ⟨agree, bare⟩ := resolvers_agree run run'
  exact ⟨p, p', run, run', of_decide_eq_true one, agree, bare rfl⟩

end JemallocPprof
