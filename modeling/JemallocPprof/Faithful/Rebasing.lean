import JemallocPprof.Convert.Returns
import JemallocPprof.Reading
import JemallocPprof.SharedObject

/-!
# Rebasing to an object's load base

`build_mappings` adds a segment's offset to the object's base and may wrap;
`to_pprof_proto` takes the start off again and adds the offset, without
wrapping. Modulo 2^64 the base is left over. In a build with overflow checks the
second sum stops the conversion where the segment's offset is negative and the
address is not below the base (`rebased_iff`).
-/

namespace JemallocPprof
set_option autoImplicit false
open Lib

/-- Where a stack holds the return address `r`, its sample refers to a location
with address `a`. -/
def AddressedAt {F : Type} (profile : StackProfile F) (p : Proto.Profile) (r a : UInt64) : Prop :=
  List.Forall₂ (fun sample stack => List.Forall₂
    (fun id addr => addr = r → ∃ loc, p.locationOf id = some loc ∧ loc.address = a)
    sample.locationId stack.addrs.reverse) p.sample (profile.stacks.map Prod.fst)

/-- The return address `r` is rebased to the base `b`. -/
structure RebasedTo (mappings : List Mapping) (r b : UInt64) : Prop where
  /-- No step overflows, whether or not anybody checks. -/
  computed : ∀ checks, fileRelativeAddr checks (mappingInfo mappings (r - 1)) (r - 1) = .ok (r - 1 - b)
  /-- Every conversion that returns has it so. -/
  located : ∀ {F : Type} [F64Cast F] (env : Env) (profile : StackProfile F)
    (sampleType periodType : String × String) (annoKey : Option String) (p : Proto.Profile),
    profile.mappings = mappings → toPprofProto env profile sampleType periodType annoKey = .ok p →
      AddressedAt profile p r (r - 1 - b)

/-- The locations of a conversion have the addresses of its frames. -/
theorem addressedAt_of_run {F : Type} [F64Cast F] {env : Env} {profile : StackProfile F}
    {sampleType periodType : String × String} {annoKey : Option String} {p : Proto.Profile}
    (run : toPprofProto env profile sampleType periodType annoKey = .ok p) (r : UInt64) :
    AddressedAt profile p r (frameOf profile.mappings r).address := by
  obtain ⟨items, annotated, h⟩ := toPprofProto_describes run
  have ids := annotated.map_fst ▸ h.locationIds
  apply ids.imp
  intro sample stack frames
  rw [framesOf, List.forall₂_map_right_iff] at frames
  apply frames.imp
  rintro id addr held rfl
  obtain ⟨_, loc, f, -, -, follow, -, address, matched⟩ := h.locationOf_hasId held
  exact ⟨loc, follow, matched.address.trans address⟩

section
variable {checks : Bool} {objects : List SharedObject} {mappings : List Mapping} {r : UInt64} {m : Mapping}
  {idx : Nat} {object : SharedObject} {segment : LoadedSegment}

/-- **Modulo 2^64** only the base is taken off. -/
theorem rebased_segment (a : UInt64) :
    rebased (some (object.mapping segment, idx)) a = a - object.baseAddress := by
  simp only [rebased, SharedObject.mapping]
  grind

/-- The sum stays in u64 unless the start wrapped and the address has passed the base. -/
theorem sum_fits_iff {a b o : UInt64} (above : b + o ≤ a) :
    (a - (b + o)).toNat + o.toNat < 2 ^ 64 ↔ b.toNat + o.toNat < 2 ^ 64 ∨ a < b := by
  rw [UInt64.toNat_sub_of_le _ _ above, UInt64.lt_iff_toNat_lt]
  rw [UInt64.le_iff_toNat_le] at above
  rw [UInt64.toNat_add] at above ⊢
  have := a.toNat_lt
  have := b.toNat_lt
  have := o.toNat_lt
  omega

/-- **Rebasing** a return address whose call the first mapping containing it
takes from an object gives its distance from the object's base, in every build,
exactly when the segment's offset is not negative or the call lies below the base. -/
theorem rebased_iff (built : buildMappings checks objects = .ok mappings)
    (found : mappingInfo mappings (r - 1) = some (m, idx))
    (origin : (segmentsOf objects)[idx]? = some (object, segment)) :
    RebasedTo mappings r object.baseAddress ↔
      object.baseAddress.toNat + segment.memoryOffset.toNat < 2 ^ 64 ∨ r - 1 < object.baseAddress := by
  obtain ⟨there, above, -⟩ := mappingInfo_some found
  rw [buildMappings_ok built, List.getElem?_map, origin] at there
  obtain rfl := Option.some.inj there
  have address : rebased (mappingInfo mappings (r - 1)) (r - 1) = r - 1 - object.baseAddress := by
    rw [found]
    exact rebased_segment (r - 1)
  have fits : (r - 1 - (object.mapping segment).memoryStart).toNat + segment.memoryOffset.toNat < 2 ^ 64 ↔ _ :=
    sum_fits_iff above
  rw [← fits]
  constructor
  · intro rebasedTo
    have returns := fileRelativeAddr_returns.1 ⟨_, rebasedTo.computed true⟩
    exact returns rfl _ idx found
  · intro below
    constructor
    · intro checks
      obtain ⟨a, run⟩ := fileRelativeAddr_returns.2 fun (_ : checks = true) m' idx' found' => by
        obtain ⟨rfl, rfl⟩ := Prod.mk.inj (Option.some.inj (found.symm.trans found'))
        exact below
      rw [run, rebased_of_run run, address]
    · intro F cast env profile sampleType periodType annoKey p here run
      have located := addressedAt_of_run run r
      rwa [here, frameOf, address] at located

end

/-- A segment that starts 0x1000 bytes below its object's base. -/
def negativeSegment : LoadedSegment := ⟨0, 0xFFFFFFFFFFFFF000, 0x3000⟩

def negativeObject : SharedObject := ⟨0x2000, [], none, [negativeSegment]⟩

/-- Below the base all is well. -/
theorem rebased_below_base : RebasedTo [negativeObject.mapping negativeSegment] 0x1801 0x2000 := by
  have built : buildMappings true [negativeObject] = .ok [negativeObject.mapping negativeSegment] := by decide
  have found : mappingInfo [negativeObject.mapping negativeSegment] (0x1801 - 1) =
      some (negativeObject.mapping negativeSegment, 0) := by decide
  have origin : (segmentsOf [negativeObject])[0]? = some (negativeObject, negativeSegment) := by decide
  exact (rebased_iff built found origin).2 (by decide)

/-- From the base on the sum overflows. -/
theorem rebasing_overflows : ∃ mappings, buildMappings true [negativeObject] = .ok mappings ∧
    (mappingInfo mappings (0x2801 - 1)).isSome = true ∧
    fileRelativeAddr true (mappingInfo mappings (0x2801 - 1)) (0x2801 - 1) = .error .arithmeticOverflow ∧
    ¬RebasedTo mappings 0x2801 negativeObject.baseAddress := by
  have overflow : fileRelativeAddr true
      (mappingInfo [negativeObject.mapping negativeSegment] (0x2801 - 1)) (0x2801 - 1) =
        .error .arithmeticOverflow := by decide
  refine ⟨[negativeObject.mapping negativeSegment], by decide, by decide, overflow, ?_⟩
  intro rebasedTo
  cases overflow.symm.trans (rebasedTo.computed true)

end JemallocPprof
