import JemallocPprof.Convert.Symbols

/-!
# The location table

A frame whose address is new adds a location with the lines of its symbols, any
other frame reuses the id of the first frame at its address
(`locationId_step`). `Tracks` is the invariant of all tables over the frames
converted so far.
-/

namespace JemallocPprof
set_option autoImplicit false
open Lib

/-- The tables after the frames `frames`. -/
structure Tracks (env : Env) (strings : List String) (mappings : List Mapping) (frames : List Frame)
    (b : Builder) : Prop where
  symbols : SymbolTables strings mappings (named env frames) (Inlined env frames) b
  locationIds : ∀ a : UInt64, b.locationIds[a]? = (rank Frame.address frames a).map (· + 1)
  location : Paired (LocationMatches env (named env frames)) b.location (located frames)

/-- The mapping found contains the address, and none before it does. -/
theorem mappingInfo_some {mappings : List Mapping} {addr : UInt64} {m : Mapping} {idx : Nat}
    (h : mappingInfo mappings addr = some (m, idx)) :
    mappings[idx]? = some m ∧ m.memoryStart ≤ addr ∧ addr < m.memoryEnd := by
  have inside := List.find?_some h
  have member := List.mem_zipIdx_iff_getElem?.1 (List.mem_of_find?_eq_some h)
  simp only [Bool.and_eq_true, decide_eq_true_eq] at inside
  exact ⟨member, inside⟩

/-- The index found is one of the mapping messages'. -/
theorem mappingInfo_inRange {mappings : List Mapping} {addr : UInt64} {count : Nat}
    (all : count = mappings.length) :
    ((mappingInfo mappings addr).map Prod.snd).filter (· < count) = (mappingInfo mappings addr).map Prod.snd := by
  cases found : mappingInfo mappings addr with
  | none => rfl
  | some info =>
    have lt := (List.getElem?_eq_some_iff.1 (mappingInfo_some found).1).1
    simp [all, lt]

/-- The id read off the message found, 0 when none is. -/
theorem mappingInfo_id {strings : List String} {mappings : List Mapping} {messages : List Proto.Mapping}
    (h : Paired (MappingMatches strings) messages mappings) (addr : UInt64) :
    ((((mappingInfo mappings addr).map Prod.snd).bind (messages[·]?)).map Proto.Mapping.id).getD 0 =
      (((mappingInfo mappings addr).map Prod.snd).map (· + 1)).getD 0 := by
  cases found : mappingInfo mappings addr with
  | none => rfl
  | some info =>
    obtain ⟨pm, there, told⟩ := h.left (mappingInfo_some found).1
    simp [there, told.id]

section Snoc
variable {env : Env} {frames : List Frame} {f : Frame}

theorem located_new (new : f.address ∉ frames.map Frame.address) :
    located (frames ++ [f]) = located frames ++ [f] := firsts_snoc_new new

theorem located_old (old : f.address ∈ frames.map Frame.address) :
    located (frames ++ [f]) = located frames := firsts_snoc_old old

theorem named_new (new : f.address ∉ frames.map Frame.address) :
    named env (frames ++ [f]) = named env frames ++ namedSymbols env f := by
  simp [named, located_new new]

theorem named_old (old : f.address ∈ frames.map Frame.address) :
    named env (frames ++ [f]) = named env frames := by
  rw [named, located_old old, named]

theorem inlined_new (new : f.address ∉ frames.map Frame.address) (i : Nat) :
    Inlined env (frames ++ [f]) i ↔
      Inlined env frames i ∨ f.mapping = some i ∧ 2 ≤ (namedSymbols env f).length := by
  simp [Inlined, located_new new, or_and_right, exists_or]

theorem inlined_old (old : f.address ∈ frames.map Frame.address) :
    Inlined env (frames ++ [f]) = Inlined env frames := by
  unfold Inlined
  rw [located_old old]

end Snoc

theorem LocationMatches.append {env : Env} {es more : List Named} {i : Nat} {loc : Proto.Location}
    {f : Frame} (h : LocationMatches env es i loc f) : LocationMatches env (es ++ more) i loc f :=
  ⟨h.id, h.mappingId, h.address, h.line.imp fun _ _ matched => matched.append⟩

variable {env : Env} {strings more : List String} {mappings : List Mapping} {frames : List Frame}
  {b b' : Builder}

/-- A frame at a known address leaves the tables as they are. -/
theorem Tracks.old_address {f : Frame} (h : Tracks env strings mappings frames b)
    (old : f.address ∈ frames.map Frame.address) : Tracks env strings mappings (frames ++ [f]) b where
  symbols := by
    rw [named_old old, inlined_old old]
    exact h.symbols
  locationIds := by
    intro a
    rw [h.locationIds, rank_snoc_old old]
  location := by
    rw [named_old old, located_old old]
    exact h.location

/-- A frame at a new address adds its symbols and its location. -/
theorem Tracks.new_address {f : Frame} {b₁ : Builder} {loc : Proto.Location}
    (h : Tracks env strings mappings frames b) (new : f.address ∉ frames.map Frame.address)
    (tables : SymbolTables (strings ++ more) mappings (named env frames ++ namedSymbols env f)
      (fun i => Inlined env frames i ∨ f.mapping = some i ∧ 2 ≤ (namedSymbols env f).length) b₁)
    (keeps : KeepsLocations b b₁)
    (told : LocationMatches env (named env frames ++ namedSymbols env f) b.location.length loc f) :
    Tracks env (strings ++ more) mappings (frames ++ [f])
      { b₁ with
        location := b₁.location ++ [loc]
        locationIds := b₁.locationIds.insert f.address (b.location.length + 1) } where
  symbols := by
    rw [named_new new]
    refine ⟨tables.interned, tables.mapping, fun i pm there => ?_, tables.functionIds, tables.function⟩
    exact (tables.flags i pm there).congr (inlined_new new i).symm
  locationIds := by
    have length : b.location.length = (located frames).length := h.location.length
    rw [keeps.locationIds, length]
    exact cache_snoc h.locationIds new
  location := by
    rw [named_new new, located_new new, keeps.location]
    exact (h.location.imp fun _ _ _ told => told.append).snoc told

/-- **One location id.** -/
theorem locationId_step {f : Frame} {id : Nat} (h : Tracks env strings mappings frames b)
    (mapped : f.mapping = (mappingInfo mappings f.runtime).map Prod.snd)
    (run : b.locationId env (mappingInfo mappings f.runtime) f.runtime f.address = .ok (id, b')) :
    ∃ more, Tracks env (strings ++ more) mappings (frames ++ [f]) b' ∧
      HasId Frame.address (frames ++ [f]) f.address id ∧ b'.sample = b.sample := by
  unfold Builder.locationId at run
  split at run
  · -- the address has a location
    rename_i held
    cases run
    obtain ⟨old, hasId⟩ := cache_hit h.locationIds held
    exact ⟨[], by simpa using h.old_address old, hasId.append, rfl⟩
  · -- a new address: the lines of its symbols, then the location
    rename_i absent
    have new := cache_miss h.locationIds absent
    rw [mappingInfo_inRange h.symbols.mapping.length, ← mapped] at run
    obtain ⟨⟨b₁, line⟩, lines, run⟩ := bind_ok.1 run
    cases run
    obtain ⟨⟨more, tables⟩, matched, keeps⟩ := pushLines_run h.symbols lines
    simp only at tables matched keeps
    have mappingId := mappingInfo_id tables.mapping f.runtime
    rw [← mapped] at mappingId
    have length : b.location.length = (located frames).length := h.location.length
    exact ⟨more, h.new_address new tables keeps ⟨rfl, mappingId, rfl, matched⟩,
      length ▸ hasId_new new, keeps.sample⟩

end JemallocPprof
