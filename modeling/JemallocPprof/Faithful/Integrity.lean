import JemallocPprof.Faithful.Symbols

/-!
# Referential integrity

What any reader of a pprof profile relies on, whatever the profile means: ids
are positions, every reference names one entry, every entry is referred to, and
every string index is in the table. `toPprofProto_integrity` says that a
profile returned has it all.
-/

namespace JemallocPprof
set_option autoImplicit false
open Lib

/-- References between the tables. -/
structure TablesLinked (p : Proto.Profile) : Prop where
  mappingIds : p.mapping.map Proto.Mapping.id = List.range' 1 p.mapping.length
  locationIds : p.location.map Proto.Location.id = List.range' 1 p.location.length
  functionIds : p.function.map Proto.Function.id = List.range' 1 p.function.length
  sampleLocations : ∀ sample ∈ p.sample, ∀ id ∈ sample.locationId, NamesOne Proto.Location.id p.location id
  locationMappings : ∀ loc ∈ p.location, loc.mappingId ≠ 0 →
    NamesOne Proto.Mapping.id p.mapping loc.mappingId
  lineFunctions : ∀ loc ∈ p.location, ∀ line ∈ loc.line,
    NamesOne Proto.Function.id p.function line.functionId
  locationsUsed : ∀ loc ∈ p.location, ∃ sample ∈ p.sample, loc.id ∈ sample.locationId
  functionsUsed : ∀ fn ∈ p.function, ∃ loc ∈ p.location, ∃ line ∈ loc.line, line.functionId = fn.id
  addresses : (p.location.map Proto.Location.address).Nodup
  names : (p.function.map fun fn => p.stringTable[fn.name]?).Nodup
  values : ∀ sample ∈ p.sample, sample.value.length = p.sampleType.length

/-- Every string index reads the text it was made from. -/
structure StringsLinked {F : Type} (env : Env) (profile : StackProfile F)
    (items : List (WeightedStack F × Option String)) (sampleType periodType : String × String)
    (annoKey : String) (p : Proto.Profile) : Prop where
  empty : Reads p.stringTable 0 ""
  nodup : p.stringTable.Nodup
  sampleType : ∃ t u, p.sampleType = [⟨t, u⟩] ∧ Reads p.stringTable t sampleType.1 ∧
    Reads p.stringTable u sampleType.2
  periodType : ∃ t u, p.periodType = some ⟨t, u⟩ ∧ Reads p.stringTable t periodType.1 ∧
    Reads p.stringTable u periodType.2
  mappings : List.Forall₂ (fun pm m => Reads p.stringTable pm.filename (fromUtf8Lossy m.pathname) ∧
    Reads p.stringTable pm.buildId m.buildIdText) p.mapping profile.mappings
  labels : List.Forall₂ (fun sample item => ∀ label ∈ sample.label, ∃ text, item.2 = some text ∧
    Reads p.stringTable label.key annoKey ∧ Reads p.stringTable label.str text) p.sample items
  functions : ∀ fn ∈ p.function, ∃ e ∈ named env profile.frames, Reads p.stringTable fn.name e.name ∧
    Reads p.stringTable fn.systemName e.systemName ∧ Reads p.stringTable fn.filename e.filename

namespace Describes
variable {F : Type} [F64Cast F] {env : Env} {self : StackProfile F}
  {items : List (WeightedStack F × Option String)} {sampleType periodType : String × String}
  {key : String} {p : Proto.Profile}

/-- Each location was made for a frame, and that frame's sample refers to it. -/
theorem locations_used (annotated : self.Annotated items)
    (h : Describes env self.mappings self.frames items sampleType periodType key p)
    {loc : Proto.Location} (mem : loc ∈ p.location) :
    ∃ sample ∈ p.sample, loc.id ∈ sample.locationId := by
  obtain ⟨i, at_i⟩ := List.mem_iff_getElem?.1 mem
  obtain ⟨f, there, told⟩ := h.location.right at_i
  have ranked : rank Frame.address self.frames f.address = some i := rank_eq_some.2 ⟨f, there, rfl⟩
  obtain ⟨stack, hs, hf⟩ :=
    StackProfile.mem_frames.1 (mem_of_mem_firsts (List.mem_of_getElem? there))
  obtain ⟨sample, used, ids⟩ := exists_of_mem_right (annotated.map_fst ▸ h.locationIds) hs
  obtain ⟨id, here, j, ranked', rfl⟩ := exists_of_mem_right ids hf
  rw [ranked] at ranked'
  obtain rfl := Option.some.inj ranked'
  exact ⟨sample, used, told.id ▸ here⟩

/-- Each function was made for a symbol, and that symbol's line refers to it. -/
theorem functions_used (h : Describes env self.mappings self.frames items sampleType periodType key p)
    {fn : Proto.Function} (mem : fn ∈ p.function) :
    ∃ loc ∈ p.location, ∃ line ∈ loc.line, line.functionId = fn.id := by
  obtain ⟨i, at_i⟩ := List.mem_iff_getElem?.1 mem
  obtain ⟨e, there, told⟩ := h.function.right at_i
  have ranked : rank Named.name (named env self.frames) e.name = some i :=
    rank_eq_some.2 ⟨e, there, rfl⟩
  obtain ⟨f, hf, he⟩ := mem_named.1 (mem_of_mem_firsts (List.mem_of_getElem? there))
  obtain ⟨k, at_k⟩ := List.mem_iff_getElem?.1 hf
  obtain ⟨loc, at_loc, lines⟩ := h.location.left at_k
  obtain ⟨line, hl, matched⟩ := exists_of_mem_right lines.line he
  obtain ⟨j, ranked', id⟩ := matched.function
  rw [ranked] at ranked'
  obtain rfl := Option.some.inj ranked'
  exact ⟨loc, List.mem_of_getElem? at_loc, line, hl, id.trans told.id.symm⟩

theorem addresses_nodup
    (h : Describes env self.mappings self.frames items sampleType periodType key p) :
    (p.location.map Proto.Location.address).Nodup := by
  have same : p.location.map Proto.Location.address = (located self.frames).map Frame.address := by
    have pairs := h.location.forall₂ (T := fun loc f => loc.address = f.address)
      fun i loc f told => told.address
    rw [← List.forall₂_eq_eq_eq, List.forall₂_map_left_iff, List.forall₂_map_right_iff]
    exact pairs
  exact same ▸ firsts_keys_nodup _ _

theorem names_nodup (h : Describes env self.mappings self.frames items sampleType periodType key p) :
    (p.function.map fun fn => p.stringTable[fn.name]?).Nodup := by
  have same : (p.function.map fun fn => p.stringTable[fn.name]?) =
      ((firsts Named.name (named env self.frames)).map Named.name).map some := by
    have pairs := h.function.forall₂ (T := fun fn e => p.stringTable[fn.name]? = some e.name)
      fun i fn e told => told.name
    rw [← List.forall₂_eq_eq_eq, List.map_map, List.forall₂_map_left_iff, List.forall₂_map_right_iff]
    exact pairs
  exact same ▸ (firsts_keys_nodup _ _).map fun _ _ => Option.some.inj

theorem tables_linked (annotated : self.Annotated items)
    (h : Describes env self.mappings self.frames items sampleType periodType key p) : TablesLinked p where
  mappingIds := h.mapping_numbered.ids
  locationIds := h.location_numbered.ids
  functionIds := h.function_numbered.ids
  sampleLocations := by
    intro sample mem id here
    obtain ⟨stack, -, ids⟩ := exists_of_mem_left h.locationIds mem
    obtain ⟨f, -, held⟩ := exists_of_mem_left ids here
    obtain ⟨i, loc, -, rfl, at_i, -⟩ := h.locationOf_hasId held
    exact h.location_numbered.namesOne at_i
  locationMappings := by
    intro loc mem nonzero
    obtain ⟨i, at_i⟩ := List.mem_iff_getElem?.1 mem
    obtain ⟨f, there, told⟩ := h.location.right at_i
    obtain ⟨addr, rfl⟩ := StackProfile.frame_eq (mem_of_mem_firsts (List.mem_of_getElem? there))
    rw [told.mappingId] at nonzero ⊢
    cases mapped : (frameOf self.mappings addr).mapping with
    | none =>
      rw [mapped] at nonzero
      exact absurd rfl nonzero
    | some j =>
      obtain ⟨⟨m, _⟩, found, rfl⟩ := Option.map_eq_some_iff.1 mapped
      obtain ⟨pm, -, at_j, -⟩ := h.mappingOf_index (mappingInfo_some found).1
      exact h.mapping_numbered.namesOne at_j
  lineFunctions := by
    intro loc mem line hl
    obtain ⟨i, at_i⟩ := List.mem_iff_getElem?.1 mem
    obtain ⟨f, -, told⟩ := h.location.right at_i
    obtain ⟨e, -, matched⟩ := exists_of_mem_left told.line hl
    obtain ⟨j, fn, -, id, at_j, -⟩ := h.functionOf_hasId matched.function
    exact id ▸ h.function_numbered.namesOne at_j
  locationsUsed := fun _ mem => h.locations_used annotated mem
  functionsUsed := fun _ mem => h.functions_used mem
  addresses := h.addresses_nodup
  names := h.names_nodup
  values := by
    intro sample mem
    obtain ⟨item, -, told⟩ := exists_of_mem_left h.sample mem
    obtain ⟨v, -, value⟩ := told.value
    obtain ⟨t, u, types, -⟩ := h.sampleType
    rw [value, types, List.length_singleton, List.length_singleton]

theorem strings_linked (h : Describes env self.mappings self.frames items sampleType periodType key p) :
    StringsLinked env self items sampleType periodType key p where
  empty := h.empty
  nodup := h.nodup
  sampleType := h.sampleType
  periodType := h.periodType
  mappings := h.mapping.forall₂ fun _ _ _ told => ⟨told.filename, told.buildId⟩
  labels := by
    apply h.sample.imp
    intro sample item told label mem
    cases anno : item.2 with
    | none =>
      have count := told.label.count
      rw [anno] at count
      rw [List.length_eq_zero_iff.1 count] at mem
      cases mem
    | some text => exact ⟨text, rfl, told.label.text label mem text anno⟩
  functions := by
    intro fn mem
    obtain ⟨i, at_i⟩ := List.mem_iff_getElem?.1 mem
    obtain ⟨e, there, told⟩ := h.function.right at_i
    exact ⟨e, mem_of_mem_firsts (List.mem_of_getElem? there), told.name, told.systemName, told.filename⟩

end Describes

/-- **Referential integrity.** Every profile returned is linked: its tables to
each other, its indices to its strings. -/
theorem toPprofProto_integrity {F : Type} [F64Cast F] {env : Env} {self : StackProfile F}
    {sampleType periodType : String × String} {annoKey : Option String} {p : Proto.Profile}
    (run : toPprofProto env self sampleType periodType annoKey = .ok p) :
    TablesLinked p ∧ ∃ items, self.Annotated items ∧
      StringsLinked env self items sampleType periodType (annoKey.getD "annotation") p := by
  obtain ⟨items, annotated, h⟩ := toPprofProto_describes run
  exact ⟨h.tables_linked annotated, items, annotated, h.strings_linked⟩

/-- Two annotated stacks over two libraries, with symbols. -/
def annotatedCalls : StackProfile (ExtNum ℤ) where
  annotations := ["startup", "steady"]
  «stacks» := [(⟨[0x1101, 0x5201], .fin 8⟩, some 1), (⟨[0x9000], .fin 16⟩, some 0), (⟨[], .fin 0⟩, none)]
  mappings := [library 0x1000 [0x61], library 0x5000 [0x62]]

theorem annotatedCalls_integrity : ∃ p,
    toPprofProto oneSymbol annotatedCalls ("inuse", "bytes") ("space", "bytes") (some "phase") = .ok p ∧
    TablesLinked p ∧ ∃ items, annotatedCalls.Annotated items ∧
      StringsLinked oneSymbol annotatedCalls items ("inuse", "bytes") ("space", "bytes") "phase" p := by
  obtain ⟨p, run⟩ := exists_ok (x := toPprofProto oneSymbol annotatedCalls ("inuse", "bytes")
    ("space", "bytes") (some "phase")) (by decide +kernel)
  exact ⟨p, run, toPprofProto_integrity run⟩

end JemallocPprof
