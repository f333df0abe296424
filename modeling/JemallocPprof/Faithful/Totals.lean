import JemallocPprof.Faithful.Frames
import JemallocPprof.Flamegraph
import JemallocPprof.Lib.Totals
import JemallocPprof.Reading

/-!
# Flamegraph totals

What the samples of a profile say about function names is read off its tables:
the lines of each location are innermost inline first, the locations of a
sample are leaf first. The stacks of the flamegraph are these names root first,
and the total of a stack is the sum of the values of the samples that have it;
what is drawn is one line for each of these totals (`toFlamegraph_totals`). No
lookup of the folding fails, because in a converted profile every id leads
somewhere.
-/

namespace JemallocPprof
set_option autoImplicit false
open Lib

/-- The value of a sample's first type. -/
def Proto.Sample.firstValue (sample : Proto.Sample) : Int := sample.value.headD 0

namespace Proto.Profile
variable (p : Proto.Profile)

/-- The function name of a line. -/
def lineName (line : Proto.Line) : Option String := do
  let function ← p.functionOf line.functionId
  p.stringTable[function.name]?

/-- The function names of a location, innermost inline first. -/
def locationNames (id : Nat) : Option (List String) := do
  let location ← p.locationOf id
  location.line.mapM p.lineName

/-- The function names of a sample, root first. -/
def sampleNames (sample : Proto.Sample) : Option (List String) := do
  let names ← sample.locationId.mapM p.locationNames
  some names.flatten.reverse

/-- The values of the samples with these names, added up. -/
def total (names : List String) : Int :=
  sumBy p.sampleNames Proto.Sample.firstValue p.sample (some names)

end Proto.Profile

/-- The stack totals are the aggregation of the samples. -/
structure Aggregates (p : Proto.Profile) (totals : Std.TreeMap (List String) Int) : Prop where
  value : ∀ sample ∈ p.sample, ∃ v, sample.value = [v]
  names : ∀ sample ∈ p.sample, ∃ k, p.sampleNames sample = some k
  total : ∀ k t, totals[k]? = some t ↔ (∃ sample ∈ p.sample, p.sampleNames sample = some k) ∧ t = p.total k
  sum : (totals.toList.map Prod.snd).sum = (p.sample.map Proto.Sample.firstValue).sum

/-- The lines that are drawn: one for each total, its names joined with
semicolons and the total after a space, in order. -/
structure DrawnFrom (totals : Std.TreeMap (List String) Int) (lines : List String) : Prop where
  entry : lines.Perm (totals.toList.map fun entry => ";".intercalate entry.1 ++ " " ++ toString entry.2)
  sorted : lines.Pairwise (· ≤ ·)

/-- No running total of a stack leaves the i64 range. -/
def TotalsFit (p : Proto.Profile) : Prop :=
  ∀ done rest, done ++ rest = p.sample → ∀ k,
    InI64 (sumBy p.sampleNames Proto.Sample.firstValue done (some k))

/-- Values of moderate size cannot overflow. -/
theorem totalsFit_of_sum {p : Proto.Profile}
    (bound : (p.sample.map fun sample => sample.firstValue.natAbs).sum < 2 ^ 63) : TotalsFit p := by
  intro done rest split k
  have total : (sumBy p.sampleNames Proto.Sample.firstValue done (some k)).natAbs ≤ _ := natAbs_sumBy_le
  rw [← split, List.map_append, List.sum_append] at bound
  unfold InI64
  omega

theorem i64Add_fits {checks : Bool} {a b : Int} (fits : InI64 (a + b)) : i64Add checks a b = .ok (a + b) :=
  if_pos fits

namespace Describes
variable {F : Type} [F64Cast F] {env : Env} {mappings : List Mapping} {frames : List Frame}
  {items : List (WeightedStack F × Option String)} {sampleType periodType : String × String}
  {annoKey : String} {p : Proto.Profile}

/-- A line of a symbol is read as its name. -/
theorem lineName (h : Describes env mappings frames items sampleType periodType annoKey p) {line : Proto.Line}
    {e : Named} (told : LineMatches (named env frames) line e) : p.lineName line = some e.name := by
  obtain ⟨i, fn, e', -, -, found, -, same, matched⟩ := h.functionOf_hasId told.function
  rw [Proto.Profile.lineName, found, ← same]
  exact matched.name

/-- The id of a frame's location is read as the names of the symbols that were
found for the first frame at its address. -/
theorem locationNames (h : Describes env mappings frames items sampleType periodType annoKey p) {a : UInt64}
    {id : Nat} (held : HasId Frame.address frames a id) :
    ∃ f ∈ located frames, f.address = a ∧ p.locationNames id = some ((namedSymbols env f).map Named.name) := by
  obtain ⟨i, loc, f, -, -, found, mem, same, told⟩ := h.locationOf_hasId held
  refine ⟨f, mem, same, ?_⟩
  rw [Proto.Profile.locationNames, found]
  apply mapM_some.2
  apply List.forall₂_map_right_iff.2
  exact told.line.imp fun line e matched => h.lineName matched

/-- **Every sample has names.** -/
theorem sampleNames (h : Describes env mappings frames items sampleType periodType annoKey p)
    {sample : Proto.Sample} (mem : sample ∈ p.sample) : ∃ names, p.sampleNames sample = some names := by
  obtain ⟨stack, -, ids⟩ := exists_of_mem_left h.locationIds mem
  obtain ⟨names, read⟩ : ∃ names, sample.locationId.mapM p.locationNames = some names := by
    apply exists_mapM_some
    intro id here
    obtain ⟨f, -, held⟩ := exists_of_mem_left ids here
    obtain ⟨first, -, -, names⟩ := h.locationNames held
    exact ⟨_, names⟩
  exact ⟨names.flatten.reverse, by rw [Proto.Profile.sampleNames, read]; rfl⟩

end Describes

namespace Flamegraph
variable {p : Proto.Profile} {index : Index}

/-- Looking up the index is following ids. -/
structure Index.Follows (index : Index) (p : Proto.Profile) : Prop where
  location : ∀ id, index.locations[id]? = p.locationOf id
  function : ∀ id, index.functions[id]? = p.functionOf id
  strings : index.strings = p.stringTable

theorem Index.of_follows (locations : Numbered Proto.Location.id p.location)
    (functions : Numbered Proto.Function.id p.function) : (Index.of p).Follows p where
  location := byId_getElem? locations.nodup
  function := byId_getElem? functions.nodup
  strings := rfl

/-- A line pushes its name. -/
theorem pushLine_name (follows : index.Follows p) {line : Proto.Line} {name : String}
    (read : p.lineName line = some name) (stack : List String) :
    pushLine index stack line = .ok (stack ++ [name]) := by
  obtain ⟨fn, found, there⟩ := Option.bind_eq_some_iff.1 read
  rw [← follows.function] at found
  rw [← follows.strings] at there
  simp only [pushLine, expect_ok.2 found, expect_ok.2 there, ok_bind]

/-- A location pushes its names, the outermost first. -/
theorem pushLocation_names (follows : index.Follows p) {id : Nat} {names : List String}
    (read : p.locationNames id = some names) (stack : List String) :
    pushLocation index stack id = .ok (stack ++ names.reverse) := by
  obtain ⟨loc, found, lines⟩ := Option.bind_eq_some_iff.1 read
  rw [← follows.location] at found
  have pieces : List.Forall₂ (fun line piece => ∀ s, pushLine index s line = .ok (s ++ piece))
      loc.line.reverse (names.map ([·])).reverse := by
    rw [List.forall₂_reverse_iff, List.forall₂_map_right_iff]
    exact (mapM_some.1 lines).imp fun line name here => pushLine_name follows here
  have flat : (names.map ([·])).reverse.flatten = names.reverse := by
    rw [← List.map_reverse, ← List.flatMap_def, List.flatMap_singleton']
  simp only [pushLocation, expect_ok.2 found, ok_bind, foldlM_append pieces, flat]

/-- A sample's value is added to the total of its names. -/
theorem pushSample_names (follows : index.Follows p) {checks : Bool} {totals : Std.TreeMap (List String) Int}
    {sample : Proto.Sample} {names : List String} {v : Int} (read : p.sampleNames sample = some names)
    (value : sample.value = [v]) (fits : InI64 (totals.getD names 0 + v)) :
    pushSample checks index totals sample = .ok (totals.insert names (totals.getD names 0 + v)) := by
  obtain ⟨parts, each, rfl⟩ : ∃ parts, sample.locationId.mapM p.locationNames = some parts ∧
      parts.flatten.reverse = names := by
    obtain ⟨parts, each, last⟩ := Option.bind_eq_some_iff.1 read
    exact ⟨parts, each, Option.some.inj last⟩
  have pieces : List.Forall₂ (fun id piece => ∀ s, pushLocation index s id = .ok (s ++ piece))
      sample.locationId.reverse (parts.map List.reverse).reverse := by
    rw [List.forall₂_reverse_iff, List.forall₂_map_right_iff]
    exact (mapM_some.1 each).imp fun id names here => pushLocation_names follows here
  have stack := foldlM_append pieces []
  rw [List.nil_append, ← List.reverse_flatten] at stack
  have first : expect "missing value" sample.value.head? = .ok v := by rw [value]; rfl
  simp only [pushSample, stack, first, i64Add_fits fits, ok_bind]

/-- **The loop over the samples** returns, with the total of each stack. -/
theorem stackTotals_tallies {checks : Bool} (follows : (Index.of p).Follows p)
    (values : ∀ sample ∈ p.sample, ∃ v, sample.value = [v])
    (names : ∀ sample ∈ p.sample, ∃ k, p.sampleNames sample = some k) (fit : TotalsFit p) :
    ∃ totals, stackTotals checks p = .ok totals ∧
      Tallies p.sampleNames Proto.Sample.firstValue p.sample totals := by
  refine foldlM_total (I := fun done totals => Tallies p.sampleNames Proto.Sample.firstValue done totals)
    p.sample Tallies.empty fun done sample rest totals split held => ?_
  have mem : sample ∈ p.sample := split ▸ by simp
  obtain ⟨v, value⟩ := values sample mem
  obtain ⟨k, read⟩ := names sample mem
  have first : sample.firstValue = v := by rw [Proto.Sample.firstValue, value]; rfl
  have next := held.insert read
  rw [first] at next
  refine ⟨_, pushSample_names follows read value ?_, next⟩
  have bound := fit (done ++ [sample]) rest (by simpa using split) k
  rwa [sumBy_snoc, if_pos read, first, ← held.getD] at bound

theorem foldedLine_eq (entry : List String × Int) :
    foldedLine entry = ";".intercalate entry.1 ++ " " ++ toString entry.2 := by
  apply String.toList_injective
  rw [foldedLine, String.toList_ofList, String.toList_append, String.toList_append, String.toList_intercalate,
    toList_toString_int, join]
  simp

theorem foldedLines_drawnFrom (totals : Std.TreeMap (List String) Int) :
    DrawnFrom totals (foldedLines totals) where
  entry := by
    rw [← List.map_congr_left fun entry _ => foldedLine_eq entry]
    exact List.perm_insertionSort _ _
  sorted := List.pairwise_insertionSort _ _

end Flamegraph

/-- **The flamegraph agrees with the profile.** Where the conversion returns
and no running total overflows, the flamegraph is drawn from one line for each
of the profile's totals. -/
theorem toFlamegraph_totals {F : Type} [F64Cast F] {env : Env} {self : StackProfile F} {p : Proto.Profile}
    (run : toPprofProto env self ("", "") ("", "") none = .ok p) (fit : TotalsFit p) :
    ∃ totals lines, Flamegraph.stackTotals env.overflowChecks p = .ok totals ∧ Aggregates p totals ∧
      DrawnFrom totals lines ∧
      ∀ {R : Type} (fromLines : List String → R), toFlamegraph env self fromLines = .ok (fromLines lines) := by
  obtain ⟨items, annotated, h⟩ := toPprofProto_describes run
  have values : ∀ sample ∈ p.sample, ∃ v, sample.value = [v] := by
    intro sample mem
    obtain ⟨item, -, told⟩ := exists_of_mem_left h.sample mem
    obtain ⟨v, -, value⟩ := told.value
    exact ⟨v, value⟩
  have names : ∀ sample ∈ p.sample, ∃ k, p.sampleNames sample = some k := fun _ mem => h.sampleNames mem
  have follows := Flamegraph.Index.of_follows h.location_numbered h.function_numbered
  obtain ⟨totals, loop, tallies⟩ := Flamegraph.stackTotals_tallies follows values names fit
  refine ⟨totals, _, loop, ⟨values, names, tallies, tallies.sum_eq names⟩,
    Flamegraph.foldedLines_drawnFrom totals, fun fromLines => ?_⟩
  simp only [toFlamegraph, run, loop, ok_bind]

/-- A build that finds two inlined functions everywhere, and one it has no name for. -/
def inlinedCalls : Env where
  overflowChecks := true
  now := 0
  symbolize := some fun _ => [⟨some ⟨"push", [0x61]⟩, some 7, none⟩, ⟨none, none, none⟩,
    ⟨some ⟨"main", [0x62]⟩, some 9, none⟩]

theorem toFlamegraph_totals_inlinedCalls : ∃ p totals lines,
    toPprofProto inlinedCalls recursiveCall ("", "") ("", "") none = .ok p ∧
    Flamegraph.stackTotals true p = .ok totals ∧ Aggregates p totals ∧ DrawnFrom totals lines ∧
    toFlamegraph inlinedCalls recursiveCall List.length = .ok lines.length := by
  obtain ⟨p, run, bound⟩ := exists_ok_and (x := toPprofProto inlinedCalls recursiveCall ("", "") ("", "") none)
    (c := fun p => (p.sample.map fun sample => sample.firstValue.natAbs).sum < 2 ^ 63) (by decide +kernel)
  obtain ⟨totals, lines, loop, aggregates, drawn, fed⟩ :=
    toFlamegraph_totals run (totalsFit_of_sum (of_decide_eq_true bound))
  exact ⟨p, totals, lines, run, loop, aggregates, drawn, fed List.length⟩

end JemallocPprof
