import JemallocPprof.Dump.Read
import JemallocPprof.Faithful.Labels
import JemallocPprof.Faithful.Weights
import JemallocPprof.Reading

/-!
# From a dump to a profile

The parser and the converter one after the other. Both reversals of a stack
cancel, and a record becomes one sample with its weight and its frames
(`dump_faithful_iff`). In a build with overflow checks the converter stops
where a rebased address leaves u64, which wrapping arithmetic would not. A dump
whose address words never read zero always converts when its mappings do not
reach past u64 (`accepted_converts_iff`).
-/

namespace JemallocPprof
set_option autoImplicit false
open Lib

/-- The sample of a record: its truncated weight, and locations that give its
addresses, leaf first, each less one and rebased. -/
structure RecordFaithful {F : Type} [F64 F] [F64Real F] (rate : F) (mappings : List Mapping)
    (p : Proto.Profile) (sample : Proto.Sample) (record : Record) : Prop where
  value : ∃ v, F64Real.real (record.weight rate) = some v ∧ sample.value = [truncate v]
  locations : List.Forall₂ (fun id addr => ∃ loc, p.locationOf id = some loc ∧
    loc.address = rebased (mappingInfo mappings (addr - 1)) (addr - 1)) sample.locationId record.addrs

section
variable {F : Type} [F64 F] [F64Real F] {env : Env} {sampleType periodType : String × String}
  {annoKey : Option String}

omit [F64Real F] in
theorem Dump.profile_annotated (dump : Dump) (rate : F) (mappings : List Mapping) :
    (dump.profile rate mappings).Annotated (dump.records.map fun record => (record.stack rate, none)) :=
  StackProfile.pushStacks_annotated StackProfile.default_annotated _

/-- A described sample of a record is faithful to it. -/
theorem SampleMatches.recordFaithful {rate : F} {mappings : List Mapping} {frames : List Frame}
    {items : List (WeightedStack F × Option String)} {key : String} {p : Proto.Profile}
    {sample : Proto.Sample} {record : Record}
    (h : Describes env mappings frames items sampleType periodType key p)
    (told : SampleMatches mappings frames p.stringTable key sample (record.stack rate, none))
    (weight : InI64Range (record.weight rate)) : RecordFaithful rate mappings p sample record := by
  constructor
  · obtain ⟨v, cast, value⟩ := told.value
    obtain ⟨x, real, lo, hi⟩ := weight
    have truncated := cast_trunc real lo hi
    obtain rfl := Option.some.inj (truncated.symm.trans cast)
    exact ⟨x, real, value⟩
  · have ids := told.locationId
    rw [Record.stack, framesOf, List.reverse_reverse, List.forall₂_map_right_iff] at ids
    apply ids.imp
    intro id addr held
    obtain ⟨_, loc, f, -, -, follow, -, address, matched⟩ := h.locationOf_hasId held
    exact ⟨loc, follow, matched.address.trans address⟩

/-- **From dump to pprof.** A dump of nonzero addresses with weights in the i64
range is read and converted to one faithful sample for each record exactly when
rebasing stays in u64 wherever somebody checks. -/
theorem dump_faithful_iff (dump : Dump) {rate : F} (read : parseF64 dump.rate.chars = some rate)
    (mappings : List Mapping) (nonzero : ∀ record ∈ dump.records, ∀ addr ∈ record.addrs, addr ≠ 0)
    (weights : ∀ record ∈ dump.records, InI64Range (record.weight rate)) (clock : env.ClockFits)
    (fits : StringsFit env (dump.profile rate mappings) sampleType periodType annoKey) :
    (∃ (profile : StackProfile F) (p : Proto.Profile),
      parseJeheap (bufReadLines dump.text) (some mappings) = .ok profile ∧
      toPprofProto env profile sampleType periodType annoKey = .ok p ∧
      List.Forall₂ (RecordFaithful rate mappings p) p.sample dump.records) ↔
    (env.overflowChecks = true → ∀ record ∈ dump.records, ∀ addr ∈ record.addrs,
      RebaseFits mappings addr) := by
  have parsed := parseJeheap_text dump read (some mappings)
  have annotated := dump.profile_annotated rate mappings
  have returns := toPprofProto_returns annotated clock fits
  rw [List.forall_mem_map] at returns
  constructor
  · rintro ⟨profile, p, parsed', run, -⟩ on record mem addr here
    obtain rfl := Except.ok.inj (parsed.symm.trans parsed')
    have converts := returns.1 ⟨p, run⟩ record mem
    exact (converts.frames on addr (List.mem_reverse.2 here)).rebase
  · intro rebase
    obtain ⟨p, run⟩ := returns.2 fun record mem => by
      obtain ⟨x, real, lo, hi⟩ := weights record mem
      refine ⟨⟨_, cast_trunc real lo hi⟩, fun on addr here => ?_⟩
      have here := List.mem_reverse.1 here
      exact ⟨nonzero record mem addr here, rebase on record mem addr here⟩
    obtain ⟨items, annotated', h⟩ := toPprofProto_describes run
    obtain rfl := annotated.unique annotated'
    refine ⟨_, p, parsed, run, ?_⟩
    have samples := h.sample
    rw [List.forall₂_map_right_iff, List.forall₂_iff_zip] at samples
    refine List.forall₂_iff_zip.2 ⟨samples.1, fun {sample record} pair => ?_⟩
    exact (samples.2 pair).recordFaithful h (weights record (List.of_mem_zip pair).2)

end

/-- A library mapped at 0x1000, whose file addresses begin at `offset`. -/
def libraryAt (offset : UInt64) : Mapping where
  memoryStart := 0x1000
  memoryEnd := 0x3000
  memoryOffset := offset
  fileOffset := 0
  pathname := [0x61]
  buildId := none

theorem busyDump_inRange :
    ∀ record ∈ busyDump.records, InI64Range (record.weight (ExtNum.fin (524288 : ℝ))) := by
  intro record mem
  have sampled : record.counts.objs ≠ 0 := (by decide : ∀ r ∈ busyDump.records, r.counts.objs ≠ 0) record mem
  have sized : record.counts.objs ≤ record.counts.bytes :=
    (by decide : ∀ r ∈ busyDump.records, r.counts.objs ≤ r.counts.bytes) record mem
  exact weight_inRange (by norm_num) (Nat.pos_of_ne_zero sampled) sized (busyDump_below record mem sampled)

theorem busyDump_stringsFit : StringsFit noSymbols
    (busyDump.profile (ExtNum.fin (524288 : ℝ)) [libraryAt 0x400]) ("", "") ("", "") none := by
  unfold StringsFit
  decide +kernel

theorem busyDump_faithful : ∃ (profile : StackProfile (ExtNum ℝ)) (p : Proto.Profile),
    parseJeheap (bufReadLines busyDump.text) (some [libraryAt 0x400]) = .ok profile ∧
    toPprofProto noSymbols profile ("", "") ("", "") none = .ok p ∧
    List.Forall₂ (RecordFaithful (ExtNum.fin (524288 : ℝ)) [libraryAt 0x400] p) p.sample busyDump.records := by
  exact (dump_faithful_iff busyDump defaultRate_read _ (by decide) busyDump_inRange ⟨by decide, by decide⟩
    busyDump_stringsFit).2 (by decide +kernel)

/-- Below the beginning of its file's addresses, a library is rebased by a sum
past u64: a checked build panics. -/
theorem busyDump_overflows : ¬∃ (profile : StackProfile (ExtNum ℝ)) (p : Proto.Profile),
    parseJeheap (bufReadLines busyDump.text) (some [libraryAt 0xFFFFFFFFFFFFF000]) = .ok profile ∧
    toPprofProto noSymbols profile ("", "") ("", "") none = .ok p ∧
    List.Forall₂ (RecordFaithful (ExtNum.fin (524288 : ℝ)) [libraryAt 0xFFFFFFFFFFFFF000] p)
      p.sample busyDump.records := by
  rintro ⟨profile, p, parsed, run, -⟩
  obtain rfl := Except.ok.inj ((parseJeheap_text busyDump defaultRate_read _).symm.trans parsed)
  have converts := toPprofProto_converts (busyDump.profile_annotated _ _) run
  have frame := (converts _ List.mem_cons_self).frames rfl 0x2101 (by decide)
  exact absurd frame.rebase (by decide +kernel)

/-! ## Every accepted text -/

/-- A mapping does not reach past u64, in memory or in its file. -/
def Mapping.Fits (m : Mapping) : Prop :=
  m.memoryStart ≤ m.memoryEnd ∧ m.memoryOffset.toNat + (m.memoryEnd - m.memoryStart).toNat < 2 ^ 64

theorem sub_lt_span {a lo hi : UInt64} (above : lo ≤ a) (below : a < hi) :
    (a - lo).toNat < (hi - lo).toNat := by
  have lo_le : lo.toNat ≤ a.toNat := UInt64.le_iff_toNat_le.1 above
  have lt_hi : a.toNat < hi.toNat := UInt64.lt_iff_toNat_lt.1 below
  rw [UInt64.toNat_sub_of_le _ _ above,
    UInt64.toNat_sub_of_le _ _ (UInt64.le_iff_toNat_le.2 (Nat.le_trans lo_le lt_hi.le))]
  omega

/-- Rebasing into mappings that fit stays in u64. -/
theorem rebaseFits_of_fits {mappings : List Mapping} (fit : ∀ m ∈ mappings, m.Fits) (addr : UInt64) :
    RebaseFits mappings addr := by
  intro m idx found
  obtain ⟨there, above, below⟩ := mappingInfo_some found
  have inside := sub_lt_span above below
  have span := (fit m (List.mem_of_getElem? there)).2
  omega

/-- Without annotations the iterator yields the stacks as they are. -/
theorem StackProfile.plain_annotated {F : Type} {self : StackProfile F}
    (plain : ∀ entry ∈ self.stacks, entry.2 = none) :
    self.Annotated (self.stacks.map fun entry => (entry.1, none)) := by
  rw [StackProfile.Annotated, List.forall₂_map_right_iff, List.forall₂_same]
  intro entry mem
  exact ⟨rfl, by rw [plain entry mem]; rfl⟩

/-- **Every accepted dump.** A text that was accepted, with mappings that fit
and weights in the i64 range, is converted whether or not anybody checks for
overflow exactly when no address word of it reads zero. -/
theorem accepted_converts_iff {F : Type} [F64 F] [F64Real F] {env : Env}
    {sampleType periodType : String × String} {annoKey : Option String}
    {lines : List (Except IoError String)} {mappings : Option (List Mapping)} {profile : StackProfile F}
    (accepted : parseJeheap lines mappings = .ok profile) (fit : ∀ m ∈ mappings.getD [], m.Fits)
    (weights : ∀ entry ∈ profile.stacks, InI64Range entry.1.weight) (clock : env.ClockFits)
    (fits : StringsFit env profile sampleType periodType annoKey) :
    (∀ checks, ∃ p, toPprofProto { env with overflowChecks := checks } profile sampleType periodType annoKey =
      .ok p) ↔ ¬Addressed lines.tail 0 := by
  obtain ⟨plain, pushed, addrs⟩ := parseJeheap_accepted accepted
  have annotated := StackProfile.plain_annotated plain
  rw [← pushed] at fit
  rw [← addrs]
  constructor
  · rintro returns ⟨entry, mem, zero⟩
    obtain ⟨p, run⟩ := returns true
    have converts := List.forall_mem_map.1 (toPprofProto_converts annotated run) entry mem
    exact (converts.frames rfl 0 zero).decrement rfl
  · intro nonzero checks
    have clock' : Env.ClockFits { env with overflowChecks := checks } := ⟨clock.1, clock.2⟩
    have fits' : StringsFit { env with overflowChecks := checks } profile sampleType periodType annoKey := fits
    apply (toPprofProto_returns annotated clock' fits').2
    rw [List.forall_mem_map]
    intro entry mem
    obtain ⟨x, real, lo, hi⟩ := weights entry mem
    refine ⟨⟨_, cast_trunc real lo hi⟩, fun _ addr here => ⟨?_, rebaseFits_of_fits fit addr⟩⟩
    rintro rfl
    exact nonzero ⟨entry, mem, here⟩

/-- The weights of a dump's profile are those of its records. -/
theorem Dump.profile_inRange {F : Type} [F64 F] [F64Real F] {dump : Dump} {rate : F} {mappings : List Mapping}
    (weights : ∀ record ∈ dump.records, InI64Range (record.weight rate)) :
    ∀ entry ∈ (dump.profile rate mappings).stacks, InI64Range entry.1.weight := by
  rw [Dump.profile_stacks]
  exact List.forall_mem_map.2 weights

theorem busyDump_converts : ∃ profile : StackProfile (ExtNum ℝ),
    parseJeheap (bufReadLines busyDump.text) (some [libraryAt 0x400]) = .ok profile ∧
    ∀ checks, ∃ p, toPprofProto { noSymbols with overflowChecks := checks } profile ("", "") ("", "") none =
      .ok p := by
  have accepted := parseJeheap_text busyDump defaultRate_read (some [libraryAt 0x400])
  refine ⟨_, accepted, (accepted_converts_iff accepted ?_ (Dump.profile_inRange busyDump_inRange)
    ⟨by decide, by decide⟩ busyDump_stringsFit).2 ?_⟩
  · exact List.forall_mem_singleton.2 ⟨by decide, by decide⟩
  · rw [← (parseJeheap_accepted accepted).2.2 0]
    rintro ⟨entry, mem, zero⟩
    rw [Dump.profile_stacks] at mem
    obtain ⟨record, here, rfl⟩ := List.mem_map.1 mem
    exact (by decide : ∀ record ∈ busyDump.records, (0 : UInt64) ∉ record.addrs.reverse) record here zero

/-- A record whose stack has the address zero. -/
def zeroAddress : Dump where
  rate := defaultRate
  summary := ⟨1, 64, 0, 0⟩
  threads := []
  records := [⟨[0], ⟨1, 64, 0, 0⟩, []⟩]
  libraries := []

/-- The dump is accepted with a weight in range, and a checked build panics on it. -/
theorem zeroAddress_panics : ∃ profile : StackProfile (ExtNum ℝ),
    parseJeheap (bufReadLines zeroAddress.text) none = .ok profile ∧
    (∀ entry ∈ profile.stacks, InI64Range entry.1.weight) ∧
    ¬∃ p, toPprofProto noSymbols profile ("", "") ("", "") none = .ok p := by
  refine ⟨_, parseJeheap_text zeroAddress defaultRate_read none, Dump.profile_inRange ?_, ?_⟩
  · have bound : estimate 524288 1 64 ≤ _ := (estimate_bounds (by norm_num) (by decide) (by decide)).2
    exact List.forall_mem_singleton.2
      (weight_inRange (by norm_num) (by decide) (by decide) (bound.trans_lt (by norm_num)))
  · rintro ⟨p, run⟩
    have converts := toPprofProto_converts (zeroAddress.profile_annotated _ _) run
    exact ((converts _ List.mem_cons_self).frames rfl 0 (by decide)).decrement rfl

end JemallocPprof
