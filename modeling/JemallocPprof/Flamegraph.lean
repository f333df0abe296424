import JemallocPprof.Lib.Numeral
import JemallocPprof.Pprof

/-!
# `StackProfile::to_flamegraph`

The flamegraph is made from the converted profile: samples become lists of
function names, values are added up by list, and the sums are folded into
lines. Hash maps are ordered maps here; the one that is iterated has its lines
sorted afterwards. The drawing itself, `inferno::flamegraph::from_lines`, is a
parameter.
-/

namespace JemallocPprof
set_option autoImplicit false
open Lib

/-- `into_iter().map(|a| (a.id, a)).collect()`. -/
def byId {α : Type} (id : α → Nat) (as : List α) : Std.TreeMap Nat α :=
  as.foldl (fun map a => map.insert (id a) a) ∅

/-- With distinct ids, looking up an id finds its entry. -/
theorem byId_getElem? {α : Type} {id : α → Nat} {as : List α} (nodup : (as.map id).Nodup) (k : Nat) :
    (byId id as)[k]? = as.find? fun a => id a = k := by
  have go : ∀ map : Std.TreeMap Nat α,
      (as.foldl (fun map a => map.insert (id a) a) map)[k]? = (as.find? fun a => id a = k).or map[k]? := by
    induction as with
    | nil =>
      intro map
      rfl
    | cons a as ih =>
      intro map
      obtain ⟨fresh, nodup⟩ := List.nodup_cons.1 nodup
      rw [List.foldl_cons, ih nodup, List.find?_cons]
      by_cases same : id a = k
      · have absent : (as.find? fun b => id b = k) = none := by
          rw [List.find?_eq_none]
          intro b mem
          rw [decide_eq_true_eq, ← same]
          exact fun e => fresh (List.mem_map.2 ⟨b, mem, e⟩)
        simp [absent, same]
      · simp [Std.TreeMap.getElem?_insert, same]
  rw [byId, go]
  simp

namespace Flamegraph

/-- `locations`, `functions` and `strings`. -/
structure Index where
  locations : Std.TreeMap Nat Proto.Location
  functions : Std.TreeMap Nat Proto.Function
  strings : List String

/-- The index of a profile. -/
def Index.of (profile : Proto.Profile) : Index where
  locations := byId Proto.Location.id profile.location
  functions := byId Proto.Function.id profile.function
  strings := profile.stringTable

/-- The body of the loop over `location.line`. -/
def pushLine (index : Index) (stack : List String) (line : Proto.Line) : Except Panic (List String) := do
  let function ← expect "missing function" index.functions[line.functionId]?
  let name ← expect "missing string" index.strings[function.name]?
  .ok (stack ++ [name])

/-- The body of the loop over `sample.location_id`. -/
def pushLocation (index : Index) (stack : List String) (location : Nat) : Except Panic (List String) := do
  let location ← expect "missing location" index.locations[location]?
  location.line.reverse.foldlM (pushLine index) stack

/-- The body of the loop over `profile.sample`. -/
def pushSample (overflowChecks : Bool) (index : Index) («stacks» : Std.TreeMap (List String) Int)
    (sample : Proto.Sample) : Except Panic (Std.TreeMap (List String) Int) := do
  let stack ← sample.locationId.reverse.foldlM (pushLocation index) []
  let value ← expect "missing value" sample.value.head?
  let total ← i64Add overflowChecks («stacks».getD stack 0) value
  .ok («stacks».insert stack total)

/-- `stacks` after the loop. -/
def stackTotals (overflowChecks : Bool) (profile : Proto.Profile) :
    Except Panic (Std.TreeMap (List String) Int) :=
  profile.sample.foldlM (pushSample overflowChecks (Index.of profile)) ∅

/-- `stack.join(";")`. -/
def join (stack : List String) : List Char := List.intercalate [';'] (stack.map String.toList)

/-- `format!("{} {}", stack.join(";"), value)`. -/
def foldedLine (entry : List String × Int) : String :=
  String.ofList (join entry.1 ++ ' ' :: decimalInt entry.2)

/-- `lines`, sorted. -/
def foldedLines («stacks» : Std.TreeMap (List String) Int) : List String :=
  («stacks».toList.map foldedLine).insertionSort (· ≤ ·)

end Flamegraph

/-- `to_flamegraph`. -/
def toFlamegraph {F R : Type} [F64Cast F] (env : Env) (self : StackProfile F)
    (fromLines : List String → R) : Except Panic R := do
  let profile ← toPprofProto env self ("", "") ("", "") none
  let totals ← Flamegraph.stackTotals env.overflowChecks profile
  .ok (fromLines (Flamegraph.foldedLines totals))

end JemallocPprof
