import JemallocPprof.Faithful.Encoding
import JemallocPprof.Faithful.Totals

/-!
# Stacks in any order

jemalloc lists its records in no particular order. The conversion numbers what
it meets first first, and the symbols of an address are those of the first frame
there. Where all frames at an address have symbols of the same names, the names
of a sample are those of its stack (`Describes.stackNames`), the totals are sums
over the stacks, and the flamegraph is the same in any order
(`toFlamegraph_reordered`).
-/

namespace JemallocPprof
set_option autoImplicit false
open Lib

/-- Frames at one address have symbols of the same names. -/
def NamesAgree (env : Env) (frames : List Frame) : Prop :=
  ∀ f ∈ frames, ∀ g ∈ frames, f.address = g.address →
    (namedSymbols env f).map Named.name = (namedSymbols env g).map Named.name

section
variable {F : Type} [F64Cast F]

/-- The names of a stack, root first. -/
def WeightedStack.names (env : Env) (mappings : List Mapping) (stack : WeightedStack F) : List String :=
  ((framesOf mappings stack.addrs).map fun f => (namedSymbols env f).map Named.name).flatten.reverse

/-- The value of a stack. -/
def WeightedStack.value (stack : WeightedStack F) : Int := (i64TryCastFrom (F64Cast.trunc stack.weight)).getD 0

variable {env : Env} {mappings : List Mapping} {frames : List Frame} {items : List (WeightedStack F × Option String)}
  {sampleType periodType : String × String} {annoKey : String} {p : Proto.Profile}

theorem SampleMatches.firstValue {strings : List String} {sample : Proto.Sample}
    {item : WeightedStack F × Option String} (h : SampleMatches mappings frames strings annoKey sample item) :
    sample.firstValue = item.1.value := by
  obtain ⟨v, cast, value⟩ := h.value
  rw [Proto.Sample.firstValue, value, WeightedStack.value, cast]
  rfl

/-- **The names of a sample** are those of its stack. -/
theorem Describes.stackNames (h : Describes env mappings frames items sampleType periodType annoKey p)
    (agree : NamesAgree env frames) (inside : ∀ item ∈ items, ∀ f ∈ framesOf mappings item.1.addrs, f ∈ frames) :
    List.Forall₂ (fun sample item => p.sampleNames sample = some (item.1.names env mappings) ∧
      sample.firstValue = item.1.value) p.sample items := by
  have samples := List.forall₂_iff_zip.1 h.sample
  refine List.forall₂_iff_zip.2 ⟨samples.1, fun {sample item} pair => ?_⟩
  have told := samples.2 pair
  have known := inside item (List.of_mem_zip pair).2
  constructor
  · have ids := List.forall₂_iff_zip.1 told.locationId
    have names : sample.locationId.mapM p.locationNames =
        some ((framesOf mappings item.1.addrs).map fun f => (namedSymbols env f).map Named.name) := by
      rw [mapM_some, List.forall₂_map_right_iff]
      refine List.forall₂_iff_zip.2 ⟨ids.1, fun {id f} pair' => ?_⟩
      obtain ⟨first, mem, same, read⟩ := h.locationNames (ids.2 pair')
      rw [read, agree first (mem_of_mem_firsts mem) f (known f (List.of_mem_zip pair').2) same]
    rw [Proto.Profile.sampleNames, names]
    rfl
  · exact told.firstValue

/-- Values of stacks of moderate size cannot overflow. -/
theorem Describes.totalsFit (h : Describes env mappings frames items sampleType periodType annoKey p)
    (moderate : (items.map fun item => item.1.value.natAbs).sum < 2 ^ 63) : TotalsFit p := by
  have sizes : (p.sample.map fun sample => sample.firstValue.natAbs) = items.map fun item => item.1.value.natAbs := by
    rw [← List.forall₂_eq_eq_eq, List.forall₂_map_left_iff, List.forall₂_map_right_iff]
    exact h.sample.imp fun sample item told => congrArg Int.natAbs told.firstValue
  exact totalsFit_of_sum (sizes ▸ moderate)

/-- The samples of a converted profile are totalled in either build. -/
theorem Describes.stackTotals (h : Describes env mappings frames items sampleType periodType annoKey p)
    (fit : TotalsFit p) (checks : Bool) : ∃ totals, Flamegraph.stackTotals checks p = .ok totals ∧
      Tallies p.sampleNames Proto.Sample.firstValue p.sample totals := by
  have values : ∀ sample ∈ p.sample, ∃ v, sample.value = [v] := by
    intro sample mem
    obtain ⟨item, -, told⟩ := exists_of_mem_left h.sample mem
    obtain ⟨v, -, value⟩ := told.value
    exact ⟨v, value⟩
  have follows := Flamegraph.Index.of_follows h.location_numbered h.function_numbered
  exact Flamegraph.stackTotals_tallies follows values (fun _ mem => h.sampleNames mem) fit

variable {self : StackProfile F}

omit [F64Cast F] in
theorem StackProfile.Annotated.inside (annotated : self.Annotated items) :
    ∀ item ∈ items, ∀ f ∈ framesOf self.mappings item.1.addrs, f ∈ self.frames := by
  intro item mem f here
  rw [← annotated.frames_eq]
  exact List.mem_flatMap.2 ⟨item, mem, here⟩

/-- The totals of a profile's samples are those of its stacks. -/
theorem toPprofProto_tallies {annoKey : Option String} (annotated : self.Annotated items)
    (agree : NamesAgree env self.frames) (moderate : (items.map fun item => item.1.value.natAbs).sum < 2 ^ 63)
    (run : toPprofProto env self sampleType periodType annoKey = .ok p) :
    ∃ totals, Flamegraph.stackTotals env.overflowChecks p = .ok totals ∧
      Tallies (fun item => some (item.1.names env self.mappings)) (fun item => item.1.value) items totals := by
  obtain ⟨items', annotated', h⟩ := toPprofProto_describes run
  obtain rfl := annotated.unique annotated'
  have told := h.stackNames agree annotated.inside
  obtain ⟨totals, loop, tallies⟩ := h.stackTotals (h.totalsFit moderate) env.overflowChecks
  exact ⟨totals, loop, tallies.congr told⟩

variable {stacks' : List (WeightedStack F × Option Nat)}

omit [F64Cast F] in
/-- The iterator yields the same items in the other order. -/
theorem StackProfile.Annotated.reordered (annotated : self.Annotated items) (reordered : self.stacks.Perm stacks') :
    ∃ items', StackProfile.Annotated { self with «stacks» := stacks' } items' ∧ items'.Perm items :=
  List.perm_comp_forall₂ reordered.symm annotated

omit [F64Cast F] in
theorem StringsFit.reordered {annoKey : Option String} (fits : StringsFit env self sampleType periodType annoKey)
    (reordered : self.stacks.Perm stacks') :
    StringsFit env { self with «stacks» := stacks' } sampleType periodType annoKey := by
  have strings : List.Perm (self.strings env sampleType periodType (annoKey.getD "annotation"))
      (StackProfile.strings env { self with «stacks» := stacks' } sampleType periodType (annoKey.getD "annotation")) :=
    (reordered.flatMap_right _).append_left _
  unfold StringsFit at fits ⊢
  rwa [← strings.dedup.length_eq]

/-- **The order of the stacks** does not show in the flamegraph, where frames at
one address have symbols of the same names and the values are of moderate size. -/
theorem toFlamegraph_reordered {R : Type} {fromLines : List String → R} {drawn : R}
    (reordered : self.stacks.Perm stacks') (agree : NamesAgree env self.frames)
    (moderate : (self.stacks.map fun entry => entry.1.value.natAbs).sum < 2 ^ 63)
    (fits : StringsFit env self ("", "") ("", "") none) (run : toFlamegraph env self fromLines = .ok drawn) :
    toFlamegraph env { self with «stacks» := stacks' } fromLines = .ok drawn := by
  obtain ⟨p, converted, run₁⟩ := bind_ok.1 run
  obtain ⟨items, annotated, -⟩ := toPprofProto_describes converted
  obtain ⟨items', annotated', perm⟩ := annotated.reordered reordered
  -- the other order is converted too
  have clock := (clockFits_of_timeNanos (toPprofProto_timeNanos converted)).1
  obtain ⟨p', converted'⟩ := (toPprofProto_returns annotated' clock (fits.reordered reordered)).2 fun item mem =>
    toPprofProto_converts annotated converted item (perm.mem_iff.1 mem)
  -- with the same totals
  have agree' : NamesAgree env (StackProfile.frames { self with «stacks» := stacks' }) := by
    have frames : List.Perm self.frames (StackProfile.frames { self with «stacks» := stacks' }) :=
      reordered.flatMap_right _
    intro f mem g mem'
    exact agree f (frames.mem_iff.2 mem) g (frames.mem_iff.2 mem')
  have values : (items.map fun item => item.1.value.natAbs) = self.stacks.map fun entry => entry.1.value.natAbs := by
    have stacks_eq := congrArg (List.map fun stack : WeightedStack F => stack.value.natAbs) annotated.map_fst
    rwa [List.map_map, List.map_map] at stacks_eq
  have small : (items.map fun item => item.1.value.natAbs).sum < 2 ^ 63 := values ▸ moderate
  have small' : (items'.map fun item => item.1.value.natAbs).sum < 2 ^ 63 := by
    rwa [(perm.map _).sum_eq]
  obtain ⟨totals, loop, tallies⟩ := toPprofProto_tallies annotated agree small converted
  obtain ⟨totals', loop', tallies'⟩ := toPprofProto_tallies annotated' agree' small' converted'
  have lines : Flamegraph.foldedLines totals' = Flamegraph.foldedLines totals := by
    rw [Flamegraph.foldedLines, Flamegraph.foldedLines, (tallies'.perm perm).unique tallies]
  simp only [loop, ok_bind] at run₁
  simp only [toFlamegraph, converted', loop', ok_bind, lines]
  exact run₁

end

/-- A build with a name for each of two libraries. -/
def nameOfEach : Env where
  overflowChecks := true
  now := 0
  symbolize := some fun addr => [⟨some ⟨if addr < 0x5000 then "alloc" else "main", [0x61]⟩, some 7, none⟩]

theorem annotatedCalls_reordered : ∃ drawn, toFlamegraph nameOfEach annotatedCalls id = .ok drawn ∧
    toFlamegraph nameOfEach { annotatedCalls with «stacks» := annotatedCalls.stacks.reverse } id = .ok drawn := by
  obtain ⟨drawn, run⟩ := exists_ok (x := toFlamegraph nameOfEach annotatedCalls id) (by decide +kernel)
  have agree : NamesAgree nameOfEach annotatedCalls.frames := by
    unfold NamesAgree
    decide +kernel
  have fits : StringsFit nameOfEach annotatedCalls ("", "") ("", "") none := by
    unfold StringsFit
    decide +kernel
  exact ⟨drawn, run, toFlamegraph_reordered (List.reverse_perm _).symm agree (by decide +kernel) fits run⟩

end JemallocPprof
