import JemallocPprof.Runtime
import Mathlib.Data.List.Nodup
import Mathlib.Data.List.Sort
import Std.Data.TreeMap.Lemmas

/-!
# `StringTable`

The table is a map from strings to indices; `finish` lists the strings by
index. `Interned t strings` says what the map holds at any time: string `i` of
`strings` has index `i`, and nothing else has one. `insert` extends the list by
at most its argument (`insert_interned`), and `finish` is the list
(`finish_eq`).
-/

namespace JemallocPprof
set_option autoImplicit false
open Lib

/-- `StringTable(BTreeMap<String, i64>)`. -/
structure StringTable where
  map : Std.TreeMap String Nat

namespace StringTable

/-- Element 0 must always be the empty string. -/
def new : StringTable := ⟨Std.TreeMap.empty.insert "" 0⟩

/-- The index of `s`, and the table that has it. -/
def insert (t : StringTable) (s : String) : Except Panic (Nat × StringTable) :=
  match t.map[s]? with
  | some idx => .ok (idx, t)
  | none => do
    let idx ← expect "must fit" (if t.map.size < 2 ^ 63 then some t.map.size else none)
    .ok (idx, ⟨t.map.insert s idx⟩)

/-- The strings, sorted by index. -/
def finish (t : StringTable) : List String :=
  (t.map.toList.insertionSort fun a b => a.2 ≤ b.2).map Prod.fst

/-- The table holds exactly `strings`, each at its position. -/
structure Interned (t : StringTable) (strings : List String) : Prop where
  lookup : ∀ (s : String) (i : Nat), t.map[s]? = some i ↔ strings[i]? = some s
  size : t.map.size = strings.length

variable {t t' : StringTable} {strings : List String} {s s' : String} {i : Nat}

theorem new_interned : Interned new [""] := by
  refine ⟨fun s i => ?_, rfl⟩
  rw [new, Std.TreeMap.getElem?_insert, List.getElem?_singleton]
  by_cases e : s = ""
  · subst e
    by_cases zero : i = 0 <;> simp [zero, eq_comm]
  · have ne : ¬compare "" s = .eq := fun h => e (Std.LawfulEqCmp.eq_of_compare h).symm
    simp [ne, eq_comm, e]

theorem Interned.nodup (h : Interned t strings) : strings.Nodup := by
  apply List.nodup_iff_injective_get.2
  intro a b same
  have first := (h.lookup strings[a] a).2 (by simp)
  have second := (h.lookup strings[a] b).2 (by
    rw [List.getElem?_eq_getElem b.2]
    exact congrArg some same.symm)
  exact Fin.ext (Option.some.inj (first.symm.trans second))

theorem Interned.mem_iff (h : Interned t strings) : s ∈ strings ↔ s ∈ t.map := by
  rw [List.mem_iff_getElem?, Std.TreeMap.mem_iff_isSome_getElem?, Option.isSome_iff_exists]
  exact exists_congr fun i => (h.lookup s i).symm

/-- **`insert`** returns the position of its argument in the list it leaves,
which is the old one or the old one with the argument at the end. -/
theorem insert_interned (h : Interned t strings) (run : t.insert s = .ok (i, t')) :
    ∃ more, Interned t' (strings ++ more) ∧ (strings ++ more)[i]? = some s ∧
      (more = [] ∨ more = [s] ∧ s ∉ strings) := by
  unfold insert at run
  split at run
  · rename_i idx held
    cases run
    exact ⟨[], by simpa using h, by simpa using (h.lookup s i).1 held, .inl rfl⟩
  · rename_i absent
    obtain ⟨idx, bound, run⟩ := bind_ok.1 run
    rw [expect_ok] at bound
    split at bound
    · cases bound
      cases run
      have fresh : s ∉ strings := by
        rw [h.mem_iff, Std.TreeMap.mem_iff_isSome_getElem?, absent]
        simp
      have outside : s ∉ t.map := fun m => fresh (h.mem_iff.2 m)
      refine ⟨[s], ⟨fun x j => ?_, ?_⟩, by rw [h.size]; simp, .inr ⟨rfl, fresh⟩⟩
      · rw [Std.TreeMap.getElem?_insert]
        by_cases same : s = x
        · subst same
          rw [if_pos Std.ReflCmp.compare_self, h.size]
          constructor
          · rintro ⟨⟩
            simp
          · intro at_j
            rcases Nat.lt_trichotomy j strings.length with lt | rfl | gt
            · rw [List.getElem?_append_left lt] at at_j
              exact absurd (List.mem_of_getElem? at_j) fresh
            · rfl
            · rw [List.getElem?_eq_none (by simp; omega)] at at_j
              cases at_j
        · rw [if_neg (fun e => same (Std.LawfulEqCmp.eq_of_compare e)), h.lookup]
          rcases Nat.lt_or_ge j strings.length with lt | ge
          · rw [List.getElem?_append_left lt]
          · rw [List.getElem?_append_right ge, List.getElem?_eq_none ge]
            cases j - strings.length <;> simp [same]
      · simp [Std.TreeMap.size_insert, outside, h.size]
    · cases bound

/-- `insert` returns for a known string, and for any while an i64 counts the table. -/
theorem insert_returns (h : Interned t strings) (room : s ∈ strings ∨ strings.length < 2 ^ 63) :
    ∃ i t', t.insert s = .ok (i, t') := by
  unfold insert
  split
  · exact ⟨_, t, rfl⟩
  · rename_i absent
    have fresh : s ∉ strings := by
      rw [h.mem_iff, Std.TreeMap.mem_iff_isSome_getElem?, absent]
      simp
    rw [if_pos (h.size ▸ room.resolve_left fresh)]
    exact ⟨_, _, rfl⟩

/-- **`finish`** lists the strings by index: the sort undoes the map's
alphabetical order. -/
theorem finish_eq (h : Interned t strings) : t.finish = strings := by
  have target : strings.zipIdx.Pairwise fun a b => a.2 ≤ b.2 := by
    rw [List.pairwise_iff_getElem]
    intro a b ha hb lt
    simp
    omega
  have nodup : t.map.toList.Nodup := by
    apply (Std.TreeMap.distinct_keys_toList (t := t.map)).imp
    intro p q distinct same
    apply distinct
    rw [same]
    exact Std.ReflCmp.compare_self
  have perm : t.map.toList.Perm strings.zipIdx := by
    refine (List.perm_ext_iff_of_nodup nodup ?_).2 fun p => ?_
    · exact List.Nodup.of_map Prod.fst (by simpa using h.nodup)
    · rw [Std.TreeMap.mem_toList_iff_getElem?_eq_some, h.lookup, List.mem_zipIdx_iff_getElem?]
  have same : (t.map.toList.insertionSort fun a b => a.2 ≤ b.2) = strings.zipIdx := by
    have sort := List.perm_insertionSort (fun a b : String × Nat => a.2 ≤ b.2) t.map.toList
    have total : Std.Total fun a b : String × Nat => a.2 ≤ b.2 := ⟨fun a b => Nat.le_total a.2 b.2⟩
    have trans : IsTrans (String × Nat) fun a b => a.2 ≤ b.2 := ⟨fun a b c => Nat.le_trans⟩
    refine (sort.trans perm).eq_of_pairwise ?_ (List.pairwise_insertionSort _ _) target
    intro a b ha hb ab ba
    have ha := List.mem_zipIdx_iff_getElem?.1 (perm.mem_iff.1 (sort.mem_iff.1 ha))
    have hb := List.mem_zipIdx_iff_getElem?.1 hb
    have index : a.2 = b.2 := Nat.le_antisymm ab ba
    rw [index, hb] at ha
    exact Prod.ext (Option.some.inj ha).symm index
  rw [finish, same]
  simp

end StringTable

end JemallocPprof
