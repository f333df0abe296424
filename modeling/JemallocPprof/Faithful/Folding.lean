import JemallocPprof.Faithful.Frames
import JemallocPprof.Flamegraph
import JemallocPprof.Lib.Text

/-!
# Folded lines

A folded line joins the names of a stack with semicolons, and Rust names
contain semicolons (`[u8; 4]`). Read the way inferno reads it, a line gives the
stack back exactly when no name has one (`folding_faithful_iff`); spaces do no
harm, for the count is what follows the last of them.
-/

namespace JemallocPprof
set_option autoImplicit false
open Lib

namespace Flamegraph

/-- The parts before and after the last space. -/
def splitLast (line : List Char) : Option (List Char × List Char) :=
  match line.reverse.span (· ≠ ' ') with
  | (_, []) => none
  | (after, _ :: before) => some (before.reverse, after.reverse)

/-- The names a joined stack is split into. -/
def splitNames (joined : List Char) : List String := (joined.splitOn ';').map String.ofList

/-- A folded line, read: the count after the last space, the names between semicolons. -/
def readFolded (line : String) : Option (List String × Int) := do
  let (joined, count) ← splitLast line.toList
  let total ← readInt count
  some (splitNames joined, total)

/-- The lines of the totals read as the totals, and no two stacks fold into one. -/
structure FoldingFaithful (totals : Std.TreeMap (List String) Int) : Prop where
  read : ((foldedLines totals).map readFolded).Perm (totals.toList.map some)
  distinct : (totals.keys.map join).Nodup

theorem splitLast_append {before after : List Char} (plain : ' ' ∉ after) :
    splitLast (before ++ ' ' :: after) = some (before, after) := by
  have reversed : (before ++ ' ' :: after).reverse = after.reverse ++ ' ' :: before.reverse := by simp
  have kept : ∀ c ∈ after.reverse, (decide (c ≠ ' ')) = true := by
    intro c mem
    rw [decide_eq_true_eq]
    rintro rfl
    exact plain (List.mem_reverse.1 mem)
  rw [splitLast, reversed, List.span_eq_takeWhile_dropWhile, List.takeWhile_append_of_pos kept,
    List.dropWhile_append_of_pos kept, List.takeWhile_cons_of_neg (by simp),
    List.dropWhile_cons_of_neg (by simp)]
  simp

theorem readFolded_foldedLine (stack : List String) (total : Int) :
    readFolded (foldedLine (stack, total)) = some (splitNames (join stack), total) := by
  simp [readFolded, foldedLine, splitLast_append (space_not_mem_decimalInt total), readInt_decimalInt]

/-- Names without semicolons are split where they were joined. -/
theorem splitNames_join {stack : List String} (nonempty : stack ≠ [])
    (plain : ∀ name ∈ stack, ';' ∉ name.toList) : splitNames (join stack) = stack := by
  rw [splitNames, join, List.splitOn_intercalate]
  · simp [Function.comp_def]
  · exact List.forall_mem_map.2 plain
  · simpa using nonempty

/-- A name that was split off has no semicolon. -/
theorem plain_of_mem_splitNames {joined : List Char} {name : String} (mem : name ∈ splitNames joined) :
    ';' ∉ name.toList := by
  obtain ⟨piece, here, rfl⟩ := List.mem_map.1 mem
  rw [String.toList_ofList]
  exact not_mem_of_mem_splitOn here

/-- The lines read, up to their order. -/
theorem read_perm (totals : Std.TreeMap (List String) Int) :
    ((foldedLines totals).map readFolded).Perm
      (totals.toList.map fun entry => some (splitNames (join entry.1), entry.2)) := by
  have sorted := (List.perm_insertionSort (· ≤ ·) (totals.toList.map foldedLine)).map readFolded
  rw [List.map_map] at sorted
  have same : (totals.toList.map (readFolded ∘ foldedLine)) =
      totals.toList.map fun entry => some (splitNames (join entry.1), entry.2) :=
    List.map_congr_left fun entry _ => readFolded_foldedLine entry.1 entry.2
  exact same ▸ sorted

theorem mem_keys_of_mem_toList {totals : Std.TreeMap (List String) Int} {entry : List String × Int}
    (mem : entry ∈ totals.toList) : entry.1 ∈ totals.keys := by
  rw [← Std.TreeMap.map_fst_toList_eq_keys]
  exact List.mem_map_of_mem mem

/-- A stack whose line reads as an entry of the totals has no semicolon. -/
theorem FoldingFaithful.plain {totals : Std.TreeMap (List String) Int} (faithful : FoldingFaithful totals)
    {stack : List String} (mem : stack ∈ totals.keys) {name : String} (here : name ∈ stack) :
    ';' ∉ name.toList := by
  rw [← Std.TreeMap.map_fst_toList_eq_keys] at mem
  obtain ⟨entry, held, rfl⟩ := List.mem_map.1 mem
  have perm := (read_perm totals).symm.trans faithful.read
  obtain ⟨other, -, read⟩ := List.mem_map.1 (perm.mem_iff.2 (List.mem_map_of_mem held))
  rw [← (Prod.ext_iff.1 (Option.some.inj read)).1] at here
  exact plain_of_mem_splitNames here

/-- **Folded lines** are unambiguous exactly when no name has a semicolon. -/
theorem folding_faithful_iff {totals : Std.TreeMap (List String) Int}
    (nonempty : ∀ stack ∈ totals.keys, stack ≠ []) :
    FoldingFaithful totals ↔ ∀ stack ∈ totals.keys, ∀ name ∈ stack, ';' ∉ name.toList := by
  constructor
  · exact fun faithful stack mem name here => faithful.plain mem here
  · intro plain
    have back : ∀ stack ∈ totals.keys, splitNames (join stack) = stack := fun stack mem =>
      splitNames_join (nonempty stack mem) (plain stack mem)
    constructor
    · refine (read_perm totals).trans (List.Perm.of_eq (List.map_congr_left fun entry mem => ?_))
      rw [back entry.1 (mem_keys_of_mem_toList mem)]
    · refine List.Nodup.map_on (fun a ha b hb same => ?_) Std.TreeMap.nodup_keys
      rw [← back a ha, ← back b hb, same]

/-- Two stacks with spaces and brackets in their names. -/
def plainTotals : Std.TreeMap (List String) Int :=
  (Std.TreeMap.empty.insert ["main", "<[u8] as Debug>::fmt"] 24).insert ["main", "impl Fn() -> u8"] (-8)

theorem folding_faithful_plainTotals : FoldingFaithful plainTotals :=
  (folding_faithful_iff (by decide +kernel)).2 (by decide +kernel)

/-- A build that finds a method of an array everywhere. -/
def arrayMethod : Env where
  overflowChecks := true
  now := 0
  symbolize := some fun _ => [⟨some ⟨"<[u8; 4] as Debug>::fmt", []⟩, none, none⟩]

/-- The method's frames are torn apart where its name has a semicolon. -/
theorem arrayMethod_misfolded : ∃ p totals,
    toPprofProto arrayMethod recursiveCall ("", "") ("", "") none = .ok p ∧
    stackTotals true p = .ok totals ∧ (∀ stack ∈ totals.keys, stack ≠ []) ∧ ¬FoldingFaithful totals := by
  obtain ⟨totals, run, shape⟩ := exists_ok_and
    (x := toPprofProto arrayMethod recursiveCall ("", "") ("", "") none >>= stackTotals true)
    (c := fun totals => (totals.keys.all fun stack => stack ≠ []) &&
      totals.keys.any fun stack => stack.any fun name => name.toList.contains ';') (by decide +kernel)
  obtain ⟨p, converted, totalled⟩ := bind_ok.1 run
  simp only [Bool.and_eq_true, List.all_eq_true, List.any_eq_true, decide_eq_true_eq,
    List.contains_iff_mem] at shape
  obtain ⟨nonempty, stack, mem, name, here, semicolon⟩ := shape
  exact ⟨p, totals, converted, totalled, nonempty, fun faithful => faithful.plain mem here semicolon⟩

end Flamegraph

end JemallocPprof
