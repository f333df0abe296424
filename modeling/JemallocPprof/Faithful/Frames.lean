import JemallocPprof.Convert.Returns
import JemallocPprof.Reading

/-!
# Locations and frames

Locations are interned by address alone, while a location also holds a mapping
and lines. A frame whose address was met in another mapping is given that
mapping's location. `locations_faithful_iff` says that nothing else goes wrong:
every frame refers to a location that describes it exactly when no two frames
of one address lie in different mappings.
-/

namespace JemallocPprof
set_option autoImplicit false
open Lib

/-- The location says of the frame what it is: its address, its mapping with
path and build id, and one line for each symbol resolved at its own address. -/
structure DescribesFrame (env : Env) (mappings : List Mapping) (p : Proto.Profile)
    (loc : Proto.Location) (f : Frame) : Prop where
  address : loc.address = f.address
  unmapped : f.mapping = none → loc.mappingId = 0
  mapped : ∀ i, f.mapping = some i → loc.mappingId = i + 1 ∧ ∃ m pm, mappings[i]? = some m ∧
    p.mappingOf loc.mappingId = some pm ∧ Reads p.stringTable pm.filename (fromUtf8Lossy m.pathname) ∧
    Reads p.stringTable pm.buildId m.buildIdText
  line : List.Forall₂ (fun line e => line.line = e.lineno ∧
    ∃ fn, p.functionOf line.functionId = some fn ∧ Reads p.stringTable fn.name e.name)
    loc.line (namedSymbols env f)

/-- The location ids of all samples, each with the frame it stands for. -/
def references {F : Type} (self : StackProfile F) (p : Proto.Profile) : List (Nat × Frame) :=
  (p.sample.zip (self.stacks.map Prod.fst)).flatMap fun (sample, stack) =>
    sample.locationId.zip (framesOf self.mappings stack.addrs)

/-- Every frame of every stack refers to a location that describes it and no
frame of another mapping or address. -/
structure LocationsFaithful {F : Type} (env : Env) (profile : StackProfile F) (p : Proto.Profile) : Prop where
  described : List.Forall₂ (fun sample stack => List.Forall₂
    (fun id f => ∃ loc, p.locationOf id = some loc ∧ DescribesFrame env profile.mappings p loc f)
    sample.locationId (framesOf profile.mappings stack.addrs)) p.sample (profile.stacks.map Prod.fst)
  shared : ∀ r ∈ references profile p, ∀ s ∈ references profile p, r.1 = s.1 →
    r.2.mapping = s.2.mapping ∧ r.2.address = s.2.address

section
variable {F : Type} {env : Env} {self : StackProfile F} {p : Proto.Profile} {f g : Frame}

/-- Rebasing into one mapping loses nothing. -/
theorem frameOf_inj {mappings : List Mapping} {a b : UInt64}
    (mapping : (frameOf mappings a).mapping = (frameOf mappings b).mapping)
    (address : (frameOf mappings a).address = (frameOf mappings b).address) :
    frameOf mappings a = frameOf mappings b := by
  have runtime : (frameOf mappings a).runtime = (frameOf mappings b).runtime := by
    simp only [frameOf] at mapping address ⊢
    cases left : mappingInfo mappings (a - 1) with
    | none =>
      rw [left] at mapping address
      have right : mappingInfo mappings (b - 1) = none := by simpa using mapping.symm
      rw [right] at address
      exact address
    | some info =>
      obtain ⟨m, i⟩ := info
      rw [left] at mapping address
      obtain ⟨⟨n, j⟩, right, same⟩ := Option.map_eq_some_iff.1 mapping.symm
      simp only at same
      subst same
      have one : m = n := by
        have := (mappingInfo_some left).1.symm.trans (mappingInfo_some right).1
        exact Option.some.inj this
      subst one
      rw [right] at address
      simp only [rebased] at address
      grind
  cases left : frameOf mappings a
  cases right : frameOf mappings b
  simp_all

/-- The mapping of a location id is the mapping of the frame it describes. -/
theorem DescribesFrame.mappingId {mappings : List Mapping} {loc : Proto.Location}
    (h : DescribesFrame env mappings p loc f) : loc.mappingId = (f.mapping.map (· + 1)).getD 0 := by
  cases mapping : f.mapping with
  | none => exact h.unmapped mapping
  | some i => exact (h.mapped i mapping).1

/-- One location describes frames of one mapping only. -/
theorem DescribesFrame.mapping_eq {mappings : List Mapping} {loc : Proto.Location}
    (hf : DescribesFrame env mappings p loc f) (hg : DescribesFrame env mappings p loc g) :
    f.mapping = g.mapping := by
  have ids := hf.mappingId.symm.trans hg.mappingId
  cases left : f.mapping <;> cases right : g.mapping <;> simp_all

/-- Where locations are faithful, frames of one address have one mapping: they
share the id that the address got. -/
theorem LocationsFaithful.mapping_eq [F64Cast F] {items : List (WeightedStack F × Option String)}
    {sampleType periodType : String × String} {key : String} (faithful : LocationsFaithful env self p)
    (annotated : self.Annotated items)
    (h : Describes env self.mappings self.frames items sampleType periodType key p)
    (hf : f ∈ self.frames) (hg : g ∈ self.frames) (same : f.address = g.address) :
    f.mapping = g.mapping := by
  have both := List.Forall₂.mp (S := fun sample stack => List.Forall₂ (fun id f =>
      HasId Frame.address self.frames f.address id ∧
      ∃ loc, p.locationOf id = some loc ∧ DescribesFrame env self.mappings p loc f)
      sample.locationId (framesOf self.mappings stack.addrs))
    (fun _ _ held told => held.mp (fun _ _ => And.intro) told)
    (annotated.map_fst ▸ h.locationIds) faithful.described
  have describe : ∀ f ∈ self.frames, ∃ id loc, HasId Frame.address self.frames f.address id ∧
      p.locationOf id = some loc ∧ DescribesFrame env self.mappings p loc f := by
    intro f hf
    obtain ⟨stack, mem, inside⟩ := StackProfile.mem_frames.1 hf
    obtain ⟨sample, -, told⟩ := exists_of_mem_right both mem
    obtain ⟨id, -, held, loc, found, frame⟩ := exists_of_mem_right told inside
    exact ⟨id, loc, held, found, frame⟩
  obtain ⟨id, loc, held, found, frame⟩ := describe f hf
  obtain ⟨id', loc', held', found', frame'⟩ := describe g hg
  obtain ⟨i, ranked, rfl⟩ := held
  obtain ⟨j, ranked', rfl⟩ := held'
  rw [← same, ranked] at ranked'
  obtain rfl := Option.some.inj ranked'
  obtain rfl := Option.some.inj (found.symm.trans found')
  exact frame.mapping_eq frame'

variable [F64Cast F] {items : List (WeightedStack F × Option String)}
  {sampleType periodType : String × String} {key : String}

/-- The location of the first frame at an address describes that frame. -/
theorem Describes.describesFrame
    (h : Describes env self.mappings self.frames items sampleType periodType key p) {i : Nat}
    {loc : Proto.Location} (mem : f ∈ self.frames)
    (told : LocationMatches env (named env self.frames) i loc f) :
    DescribesFrame env self.mappings p loc f := by
  refine ⟨told.address, fun unmapped => ?_, fun j mapped => ?_, told.line.imp fun line e matched => ?_⟩
  · rw [told.mappingId, unmapped]
    rfl
  · have id : loc.mappingId = j + 1 := by
      rw [told.mappingId, mapped]
      rfl
    obtain ⟨addr, rfl⟩ := StackProfile.frame_eq mem
    obtain ⟨⟨m, _⟩, found, rfl⟩ := Option.map_eq_some_iff.1 mapped
    have there := (mappingInfo_some found).1
    obtain ⟨pm, follow, -, entry⟩ := h.mappingOf_index there
    exact ⟨id, m, pm, there, id ▸ follow, entry.filename, entry.buildId⟩
  · obtain ⟨_, fn, e', -, -, follow, -, name, entry⟩ := h.functionOf_hasId matched.function
    exact ⟨matched.lineno, fn, follow, name ▸ entry.name⟩

/-- Where no two frames of one address lie in different mappings, each is the
first at its address up to equality. -/
theorem Describes.locations_faithful (annotated : self.Annotated items)
    (h : Describes env self.mappings self.frames items sampleType periodType key p)
    (separate : ∀ f ∈ self.frames, ∀ g ∈ self.frames, f.address = g.address → f.mapping = g.mapping) :
    LocationsFaithful env self p := by
  have described : List.Forall₂ (fun sample stack => List.Forall₂
      (fun id f => ∃ loc, p.locationOf id = some loc ∧ DescribesFrame env self.mappings p loc f)
      sample.locationId (framesOf self.mappings stack.addrs)) p.sample (self.stacks.map Prod.fst) := by
    have ids := annotated.map_fst ▸ h.locationIds
    rw [List.forall₂_iff_zip] at ids ⊢
    refine ⟨ids.1, fun {sample stack} pair => ?_⟩
    have inner := ids.2 pair
    rw [List.forall₂_iff_zip] at inner ⊢
    refine ⟨inner.1, fun {id f} here => ?_⟩
    have hf : f ∈ self.frames :=
      StackProfile.mem_frames.2 ⟨stack, (List.of_mem_zip pair).2, (List.of_mem_zip here).2⟩
    obtain ⟨i, loc, g, -, -, follow, first, address, told⟩ := h.locationOf_hasId (inner.2 here)
    have hg := mem_of_mem_firsts first
    have same : g = f := by
      obtain ⟨a, rfl⟩ := StackProfile.frame_eq hf
      obtain ⟨b, rfl⟩ := StackProfile.frame_eq hg
      exact frameOf_inj (separate _ hg _ hf address) address
    exact ⟨loc, follow, same ▸ h.describesFrame hg told⟩
  refine ⟨described, fun r hr s hs ids => ?_⟩
  have describe : ∀ r ∈ references self p, ∃ loc, p.locationOf r.1 = some loc ∧
      DescribesFrame env self.mappings p loc r.2 := by
    intro r hr
    obtain ⟨pair, outer, inner⟩ := List.mem_flatMap.1 hr
    exact List.forall₂_zip (List.forall₂_zip described outer) inner
  obtain ⟨loc, follow, left⟩ := describe r hr
  obtain ⟨loc', follow', right⟩ := describe s hs
  rw [ids] at follow
  obtain rfl := Option.some.inj (follow.symm.trans follow')
  exact ⟨left.mapping_eq right, left.address.symm.trans right.address⟩

/-- **Location attribution.** Of a profile returned, every frame refers to a
location that describes it and no other frame exactly when frames of one
address have one mapping. -/
theorem locations_faithful_iff {annoKey : Option String}
    (run : toPprofProto env self sampleType periodType annoKey = .ok p) :
    LocationsFaithful env self p ↔
      ∀ f ∈ self.frames, ∀ g ∈ self.frames, f.address = g.address → f.mapping = g.mapping := by
  obtain ⟨items, annotated, h⟩ := toPprofProto_describes run
  exact ⟨fun faithful _ hf _ hg same => faithful.mapping_eq annotated h hf hg same,
    fun separate => h.locations_faithful annotated separate⟩

end

/-- A library mapped at `start`, 0x1000 bytes from the beginning of its file. -/
def library (start : UInt64) (pathname : Bytes) : Mapping where
  memoryStart := start
  memoryEnd := start + 0x1000
  memoryOffset := 0
  fileOffset := 0
  pathname := pathname
  buildId := none

/-- A recursive call into one library, and a call from outside any mapping. -/
def recursiveCall : StackProfile (ExtNum ℤ) where
  annotations := []
  «stacks» := [(⟨[0x1101, 0x1101], .fin 8⟩, none), (⟨[0x9000, 0x1101], .fin 16⟩, none)]
  mappings := [library 0x1000 [0x61], library 0x5000 [0x62]]

/-- A checked build that finds one symbol everywhere. -/
def oneSymbol : Env where
  overflowChecks := true
  now := 0
  symbolize := some fun _ => [⟨some ⟨"alloc", [0x61]⟩, some 7, none⟩]

theorem recursiveCall_returns : ∃ p,
    toPprofProto oneSymbol recursiveCall ("inuse", "bytes") ("space", "bytes") none = .ok p :=
  exists_ok (by decide +kernel)

theorem locations_faithful_recursiveCall : ∃ p,
    toPprofProto oneSymbol recursiveCall ("inuse", "bytes") ("space", "bytes") none = .ok p ∧
    LocationsFaithful oneSymbol recursiveCall p := by
  obtain ⟨p, run⟩ := recursiveCall_returns
  exact ⟨p, run, (locations_faithful_iff run).2 (by decide +kernel)⟩

/-- Calls at one offset of two libraries. -/
def twoLibraries : StackProfile (ExtNum ℤ) where
  annotations := []
  «stacks» := [(⟨[0x1101], .fin 8⟩, none), (⟨[0x5101], .fin 16⟩, none)]
  mappings := [library 0x1000 [0x61], library 0x5000 [0x62]]

/-- The second library's frame is given the location of the first. -/
theorem twoLibraries_share_location : ∃ p,
    toPprofProto oneSymbol twoLibraries ("inuse", "bytes") ("space", "bytes") none = .ok p ∧
    ¬LocationsFaithful oneSymbol twoLibraries p := by
  obtain ⟨p, run⟩ := exists_ok (x := toPprofProto oneSymbol twoLibraries ("inuse", "bytes")
    ("space", "bytes") none) (by decide +kernel)
  obtain ⟨items, annotated, h⟩ := toPprofProto_describes run
  refine ⟨p, run, fun faithful => ?_⟩
  have one : (⟨0x1100, some 0, 0x100⟩ : Frame) ∈ twoLibraries.frames := by decide +kernel
  have other : (⟨0x5100, some 1, 0x100⟩ : Frame) ∈ twoLibraries.frames := by decide +kernel
  have same := faithful.mapping_eq annotated h one other rfl
  cases same

end JemallocPprof
