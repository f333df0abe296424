import JemallocPprof.Convert.Samples
import JemallocPprof.Lib.Numbered

/-!
# Reading a profile

A reader follows ids from samples to locations, from locations to mappings and
from lines to functions. In a profile that `Describes` its input each id leads
to the entry of the abstract tables it was handed out for.
-/

namespace JemallocPprof
set_option autoImplicit false
open Lib

namespace Proto.Profile
variable (p : Proto.Profile)

/-- The location with an id. -/
def locationOf (id : Nat) : Option Proto.Location := p.location.find? (fun l => l.id = id)

/-- The mapping with an id. -/
def mappingOf (id : Nat) : Option Proto.Mapping := p.mapping.find? (fun m => m.id = id)

/-- The function with an id. -/
def functionOf (id : Nat) : Option Proto.Function := p.function.find? (fun f => f.id = id)

end Proto.Profile

namespace Describes
variable {F : Type} [F64Cast F] {env : Env} {mappings : List Mapping} {frames : List Frame}
  {items : List (WeightedStack F × Option String)} {sampleType periodType : String × String}
  {annoKey : String} {p : Proto.Profile}

theorem location_numbered (h : Describes env mappings frames items sampleType periodType annoKey p) :
    Numbered Proto.Location.id p.location := by
  intro i loc there
  obtain ⟨f, -, told⟩ := h.location.right there
  exact told.id

theorem mapping_numbered (h : Describes env mappings frames items sampleType periodType annoKey p) :
    Numbered Proto.Mapping.id p.mapping := by
  intro i pm there
  obtain ⟨m, -, told⟩ := h.mapping.right there
  exact told.id

theorem function_numbered (h : Describes env mappings frames items sampleType periodType annoKey p) :
    Numbered Proto.Function.id p.function := by
  intro i fn there
  obtain ⟨e, -, told⟩ := h.function.right there
  exact told.id

/-- The location ids of each sample are those of its stack's frames. -/
theorem locationIds (h : Describes env mappings frames items sampleType periodType annoKey p) :
    List.Forall₂ (fun sample stack => List.Forall₂ (fun id f => HasId Frame.address frames f.address id)
      sample.locationId (framesOf mappings stack.addrs)) p.sample (items.map Prod.fst) :=
  List.forall₂_map_right_iff.2 (h.sample.imp fun _ _ told => told.locationId)

/-- A location id leads to the location of the first frame at its address. -/
theorem locationOf_hasId (h : Describes env mappings frames items sampleType periodType annoKey p)
    {a : UInt64} {id : Nat} (held : HasId Frame.address frames a id) :
    ∃ i loc f, id = i + 1 ∧ p.location[i]? = some loc ∧ p.locationOf id = some loc ∧
      f ∈ located frames ∧ f.address = a ∧ LocationMatches env (named env frames) i loc f := by
  obtain ⟨i, ranked, rfl⟩ := held
  obtain ⟨f, there, same⟩ := rank_eq_some.1 ranked
  obtain ⟨loc, at_i, told⟩ := h.location.left there
  refine ⟨i, loc, f, rfl, at_i, ?_, List.mem_of_getElem? there, same, told⟩
  rw [Proto.Profile.locationOf, h.location_numbered.find?, at_i]

/-- A function id leads to the function of the first symbol with its name. -/
theorem functionOf_hasId (h : Describes env mappings frames items sampleType periodType annoKey p)
    {name : String} {id : Nat} (held : HasId Named.name (named env frames) name id) :
    ∃ i fn e, id = i + 1 ∧ p.function[i]? = some fn ∧ p.functionOf id = some fn ∧
      e ∈ firsts Named.name (named env frames) ∧ e.name = name ∧
      FunctionMatches p.stringTable i fn e := by
  obtain ⟨i, ranked, rfl⟩ := held
  obtain ⟨e, there, same⟩ := rank_eq_some.1 ranked
  obtain ⟨fn, at_i, told⟩ := h.function.left there
  refine ⟨i, fn, e, rfl, at_i, ?_, List.mem_of_getElem? there, same, told⟩
  rw [Proto.Profile.functionOf, h.function_numbered.find?, at_i]

/-- A mapping id leads to the message of its mapping. -/
theorem mappingOf_index (h : Describes env mappings frames items sampleType periodType annoKey p)
    {i : Nat} {m : Mapping} (there : mappings[i]? = some m) :
    ∃ pm, p.mappingOf (i + 1) = some pm ∧ p.mapping[i]? = some pm ∧ MappingMatches p.stringTable i pm m := by
  obtain ⟨pm, at_i, told⟩ := h.mapping.left there
  refine ⟨pm, ?_, at_i, told⟩
  rw [Proto.Profile.mappingOf, h.mapping_numbered.find?, at_i]

end Describes

end JemallocPprof
