import JemallocPprof.Lib.Firsts
import JemallocPprof.Lib.Paired
import JemallocPprof.Pprof

/-!
# What a profile attributes to each frame

The meaning of a profile, without the converter's tables. A return address is a
`Frame`: the runtime address of its call, the first mapping that contains it
and the address relative to that mapping's file. A frame's named symbols are
what the resolver reports there. `located` are the frames that get a location
(the first of each address) and `named` the symbols resolved for them, in the
order of the conversion.
-/

namespace JemallocPprof
set_option autoImplicit false
open Lib

structure Frame where
  runtime : UInt64
  /-- The index of the mapping. -/
  mapping : Option Nat
  address : UInt64
  deriving DecidableEq

/-- The address in the file of the mapping, or the runtime address itself. -/
def rebased (info : Option (Mapping × Nat)) (runtime : UInt64) : UInt64 :=
  match info with
  | some (mapping, _) => runtime - mapping.memoryStart + mapping.memoryOffset
  | none => runtime

/-- The frame of a return address. -/
def frameOf (mappings : List Mapping) (addr : UInt64) : Frame where
  runtime := addr - 1
  mapping := (mappingInfo mappings (addr - 1)).map Prod.snd
  address := rebased (mappingInfo mappings (addr - 1)) (addr - 1)

/-- The frames of a stack, leaf first. -/
def framesOf (mappings : List Mapping) (addrs : List UInt64) : List Frame :=
  addrs.reverse.map (frameOf mappings)

/-- A symbol with a name, at a frame of the mapping. -/
structure Named where
  mapping : Option Nat
  name : String
  systemName : String
  filename : String
  lineno : Nat
  deriving DecidableEq

/-- The named symbol, if the symbol has a name. -/
def namedSymbol (mapping : Option Nat) (symbol : Symbol) : Option Named :=
  symbol.name.map fun symbolName => {
    mapping
    name := symbolName.demangled
    systemName := fromUtf8Lossy symbolName.bytes
    filename := (symbol.filename.map fromUtf8Lossy).getD ""
    lineno := (symbol.lineno.map UInt32.toNat).getD 0 }

/-- The named symbols at a frame, innermost first. -/
def namedSymbols (env : Env) (f : Frame) : List Named :=
  (env.resolve f.runtime).filterMap (namedSymbol f.mapping)

/-- The frames that get a location of their own. -/
def located (frames : List Frame) : List Frame := firsts Frame.address frames

/-- The named symbols of all locations. -/
def named (env : Env) (frames : List Frame) : List Named := (located frames).flatMap (namedSymbols env)

/-- The frames of some stacks in the order of the conversion. -/
def itemFrames {F ι : Type} (mappings : List Mapping) (items : List (WeightedStack F × ι)) : List Frame :=
  items.flatMap fun item => framesOf mappings item.1.addrs

/-- All frames of a profile. -/
def StackProfile.frames {F : Type} (self : StackProfile F) : List Frame :=
  itemFrames self.mappings self.stacks

theorem StackProfile.Annotated.frames_eq {F : Type} {self : StackProfile F}
    {items : List (WeightedStack F × Option String)} (h : self.Annotated items) :
    itemFrames self.mappings items = self.frames := by
  unfold StackProfile.frames itemFrames
  unfold StackProfile.Annotated at h
  generalize self.stacks = entries at h
  induction h with
  | nil => rfl
  | cons here _ ih => rw [List.flatMap_cons, List.flatMap_cons, ih, here.1]

theorem StackProfile.mem_frames {F : Type} {self : StackProfile F} {f : Frame} :
    f ∈ self.frames ↔ ∃ stack ∈ self.stacks.map Prod.fst, f ∈ framesOf self.mappings stack.addrs := by
  simp [StackProfile.frames, itemFrames]

/-- A frame of the profile comes from a return address. -/
theorem StackProfile.frame_eq {F : Type} {self : StackProfile F} {f : Frame} (h : f ∈ self.frames) :
    ∃ addr, f = frameOf self.mappings addr := by
  obtain ⟨stack, -, mem⟩ := StackProfile.mem_frames.1 h
  obtain ⟨addr, -, rfl⟩ := List.mem_map.1 mem
  exact ⟨addr, rfl⟩

/-- The text of a mapping's build id: hex digits, or nothing. -/
def Mapping.buildIdText (mapping : Mapping) : String :=
  (mapping.buildId.map BuildId.toString).getD ""

/-! ## What the emitted messages say -/

/-- Index `i` of the string table reads `s`. -/
abbrev Reads (strings : List String) (i : Nat) (s : String) : Prop := strings[i]? = some s

/-- The id that the table of `keys`' first occurrences gives to `k`. -/
def HasId {α κ : Type} [DecidableEq κ] (key : α → κ) (items : List α) (k : κ) (id : Nat) : Prop :=
  ∃ j, rank key items k = some j ∧ id = j + 1

structure MappingMatches (strings : List String) (i : Nat) (pm : Proto.Mapping) (m : Mapping) : Prop where
  id : pm.id = i + 1
  filename : Reads strings pm.filename (fromUtf8Lossy m.pathname)
  buildId : Reads strings pm.buildId m.buildIdText

structure FunctionMatches (strings : List String) (i : Nat) (f : Proto.Function) (e : Named) : Prop where
  id : f.id = i + 1
  name : Reads strings f.name e.name
  systemName : Reads strings f.systemName e.systemName
  filename : Reads strings f.filename e.filename

/-- A line of a symbol: its line number, and the id of the function with its name. -/
structure LineMatches (es : List Named) (line : Proto.Line) (e : Named) : Prop where
  lineno : line.line = e.lineno
  function : HasId Named.name es e.name line.functionId

structure LocationMatches (env : Env) (es : List Named) (i : Nat) (loc : Proto.Location) (f : Frame) :
    Prop where
  id : loc.id = i + 1
  mappingId : loc.mappingId = (f.mapping.map (· + 1)).getD 0
  address : loc.address = f.address
  line : List.Forall₂ (LineMatches es) loc.line (namedSymbols env f)

/-- The flags of mapping `i`. The first three look only at the symbols whose
name is new, the last one at the locations. -/
structure FlagsMatch (es : List Named) (inlined : Nat → Prop) (i : Nat) (pm : Proto.Mapping) : Prop where
  hasFunctions : pm.hasFunctions = true ↔ ∃ e ∈ firsts Named.name es, e.mapping = some i
  hasFilenames : pm.hasFilenames = true ↔
    ∃ e ∈ firsts Named.name es, e.mapping = some i ∧ e.filename ≠ ""
  hasLineNumbers : pm.hasLineNumbers = true ↔
    ∃ e ∈ firsts Named.name es, e.mapping = some i ∧ 0 < e.lineno
  hasInlineFrames : pm.hasInlineFrames = true ↔ inlined i

/-- A location of mapping `i` has inlined functions. -/
def Inlined (env : Env) (frames : List Frame) (i : Nat) : Prop :=
  ∃ f ∈ located frames, f.mapping = some i ∧ 2 ≤ (namedSymbols env f).length

/-- The labels of a sample: one for each frame when the stack has an annotation. -/
structure LabelsMatch (strings : List String) (annoKey : String) (anno : Option String) (depth : Nat)
    (labels : List Proto.Label) : Prop where
  count : labels.length = if anno.isSome then depth else 0
  text : ∀ label ∈ labels, ∀ text, anno = some text →
    Reads strings label.key annoKey ∧ Reads strings label.str text

structure SampleMatches {F : Type} [F64Cast F] (mappings : List Mapping) (frames : List Frame)
    (strings : List String) (annoKey : String) (sample : Proto.Sample)
    (item : WeightedStack F × Option String) : Prop where
  value : ∃ v, i64TryCastFrom (F64Cast.trunc item.1.weight) = some v ∧ sample.value = [v]
  locationId : List.Forall₂ (fun id f => HasId Frame.address frames f.address id)
    sample.locationId (framesOf mappings item.1.addrs)
  label : LabelsMatch strings annoKey item.2 item.1.addrs.length sample.label

/-- The profile `p` says about `items`, whose frames are `frames`, what the
definitions above say. -/
structure Describes {F : Type} [F64Cast F] (env : Env) (mappings : List Mapping) (frames : List Frame)
    (items : List (WeightedStack F × Option String)) (sampleType periodType : String × String)
    (annoKey : String) (p : Proto.Profile) : Prop where
  nodup : p.stringTable.Nodup
  empty : Reads p.stringTable 0 ""
  sampleType : ∃ t u, p.sampleType = [⟨t, u⟩] ∧ Reads p.stringTable t sampleType.1 ∧
    Reads p.stringTable u sampleType.2
  periodType : ∃ t u, p.periodType = some ⟨t, u⟩ ∧ Reads p.stringTable t periodType.1 ∧
    Reads p.stringTable u periodType.2
  mapping : Paired (MappingMatches p.stringTable) p.mapping mappings
  flags : ∀ i pm, p.mapping[i]? = some pm → FlagsMatch (named env frames) (Inlined env frames) i pm
  function : Paired (FunctionMatches p.stringTable) p.function (firsts Named.name (named env frames))
  location : Paired (LocationMatches env (named env frames)) p.location (located frames)
  sample : List.Forall₂ (SampleMatches mappings frames p.stringTable annoKey) p.sample items

end JemallocPprof
