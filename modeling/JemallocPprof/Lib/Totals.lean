import JemallocPprof.Lib.Paired
import Mathlib.Algebra.BigOperators.Group.List.Basic
import Mathlib.Algebra.Ring.Int.Defs
import Mathlib.Algebra.Ring.Nat
import Mathlib.Data.List.Nodup
import Std.Data.TreeMap.Lemmas

/-!
# Totals by key

`sumBy key val items k` adds up the values of the items with key `k`. The
totals of all keys add up to the values of all items. A map `Tallies` items
when it holds the totals of their keys and nothing else.
-/

namespace Lib
set_option autoImplicit false

variable {α κ : Type} [DecidableEq κ] (key : α → κ) (val : α → Int)

/-- The values of the items with key `k`, added up. -/
def sumBy (items : List α) (k : κ) : Int := ((items.filter fun a => key a = k).map val).sum

variable {key val} {items : List α} {a : α} {k : κ}

theorem sumBy_cons : sumBy key val (a :: items) k = (if key a = k then val a else 0) + sumBy key val items k := by
  unfold sumBy
  by_cases same : key a = k <;> simp [same]

theorem sumBy_snoc : sumBy key val (items ++ [a]) k = sumBy key val items k + if key a = k then val a else 0 := by
  unfold sumBy
  by_cases same : key a = k <;> simp [same]

/-- A key no item has adds up to nothing. -/
theorem sumBy_absent (absent : ∀ a ∈ items, key a ≠ k) : sumBy key val items k = 0 := by
  have none_left : (items.filter fun a => key a = k) = [] := by
    rw [List.filter_eq_nil_iff]
    intro a mem
    simpa using absent a mem
  rw [sumBy, none_left]
  rfl

theorem sumBy_perm {items' : List α} (perm : items.Perm items') : sumBy key val items k = sumBy key val items' k :=
  ((perm.filter _).map val).sum_eq

/-- Items with the same keys and values have the same totals. -/
theorem sumBy_congr {β : Type} {key' : β → κ} {val' : β → Int} {bs : List β}
    (same : List.Forall₂ (fun a b => key a = key' b ∧ val a = val' b) items bs) :
    sumBy key val items k = sumBy key' val' bs k := by
  induction same with
  | nil => rfl
  | cons here _ ih => rw [sumBy_cons, sumBy_cons, here.1, here.2, ih]

/-- No total is larger than all values taken positively. -/
theorem natAbs_sumBy_le : (sumBy key val items k).natAbs ≤ (items.map fun a => (val a).natAbs).sum := by
  induction items with
  | nil => exact Nat.le_refl _
  | cons a items ih =>
    rw [sumBy_cons, List.map_cons, List.sum_cons]
    split <;> omega

/-- One of distinct keys takes a value. -/
theorem sum_ite_key {ks : List κ} {v : Int} (nodup : ks.Nodup) (mem : k ∈ ks) :
    (ks.map fun k' => if k = k' then v else 0).sum = v := by
  induction ks with
  | nil => cases mem
  | cons head ks ih =>
    obtain ⟨fresh, nodup⟩ := List.nodup_cons.1 nodup
    rw [List.map_cons, List.sum_cons]
    rcases List.mem_cons.1 mem with rfl | later
    · have rest : (ks.map fun k' => if k = k' then v else 0) = ks.map fun _ => 0 := by
        apply List.map_congr_left
        intro k' mem'
        apply if_neg
        rintro rfl
        exact fresh mem'
      simp [rest]
    · have other : k ≠ head := by
        rintro rfl
        exact fresh later
      rw [if_neg other, ih nodup later, Int.zero_add]

/-- **The totals of all keys** add up to the values of all items. -/
theorem sum_sumBy {ks : List κ} (nodup : ks.Nodup) (covers : ∀ a ∈ items, key a ∈ ks) :
    (ks.map (sumBy key val items)).sum = (items.map val).sum := by
  induction items with
  | nil =>
    have zero : ks.map (sumBy key val []) = ks.map fun _ => 0 := rfl
    simp [zero]
  | cons a items ih =>
    have split : ks.map (sumBy key val (a :: items)) =
        ks.map fun k => (if key a = k then val a else 0) + sumBy key val items k :=
      List.map_congr_left fun k _ => sumBy_cons
    rw [split, List.sum_map_add, sum_ite_key nodup (covers a List.mem_cons_self),
      ih fun b mem => covers b (List.mem_cons_of_mem _ mem), List.map_cons, List.sum_cons]

/-! ## Maps of totals -/

/-- The map holds the total of each key that some item has. -/
def Tallies {α κ : Type} [DecidableEq κ] [Ord κ] (key : α → Option κ) (val : α → Int) (items : List α)
    (totals : Std.TreeMap κ Int) : Prop :=
  ∀ k t, totals[k]? = some t ↔ (∃ a ∈ items, key a = some k) ∧ t = sumBy key val items (some k)

namespace Tallies
variable {α κ : Type} [DecidableEq κ] [Ord κ] [Std.TransOrd κ] {key : α → Option κ} {val : α → Int}
  {items : List α} {totals : Std.TreeMap κ Int} {a : α} {k : κ}

theorem empty : Tallies key val [] ∅ := by
  intro k t
  simp

/-- A key that no item has counts as zero. -/
theorem getD (h : Tallies key val items totals) (k : κ) : totals.getD k 0 = sumBy key val items (some k) := by
  rw [Std.TreeMap.getD_eq_getD_getElem?]
  by_cases has : ∃ a ∈ items, key a = some k
  · rw [(h k _).2 ⟨has, rfl⟩, Option.getD_some]
  · have absent : totals[k]? = none := by
      rw [Option.eq_none_iff_forall_ne_some]
      exact fun t there => has ((h k t).1 there).1
    rw [absent, sumBy_absent fun a mem same => has ⟨a, mem, same⟩, Option.getD_none]

omit [Std.TransOrd κ] in
/-- The order of the items does not matter. -/
theorem perm {items' : List α} (h : Tallies key val items totals) (perm : items.Perm items') :
    Tallies key val items' totals := by
  intro k t
  rw [h k t, sumBy_perm perm]
  exact and_congr_left' (exists_congr fun a => and_congr_left' perm.mem_iff)

omit [Std.TransOrd κ] in
/-- Nor does what they are, besides their keys and values. -/
theorem congr {β : Type} {key' : β → Option κ} {val' : β → Int} {bs : List β} (h : Tallies key val items totals)
    (same : List.Forall₂ (fun a b => key a = key' b ∧ val a = val' b) items bs) : Tallies key' val' bs totals := by
  intro k t
  have has : (∃ a ∈ items, key a = some k) ↔ ∃ b ∈ bs, key' b = some k := by
    constructor
    · rintro ⟨a, mem, is⟩
      obtain ⟨b, mem', keys, -⟩ := exists_of_mem_left same mem
      exact ⟨b, mem', keys ▸ is⟩
    · rintro ⟨b, mem, is⟩
      obtain ⟨a, mem', keys, -⟩ := exists_of_mem_right same mem
      exact ⟨a, mem', keys ▸ is⟩
  rw [h k t, sumBy_congr same, has]

variable [Std.LawfulEqOrd κ]

/-- Two maps of the same totals list them alike. -/
theorem unique {totals' : Std.TreeMap κ Int} (h : Tallies key val items totals)
    (h' : Tallies key val items totals') : totals.toList = totals'.toList := by
  apply Std.TreeMap.Equiv.toList_eq
  apply Std.TreeMap.Equiv.of_forall_constGet?_eq
  intro k
  exact Option.ext fun t => (h k t).trans (h' k t).symm

/-- **One more item**: its value is added to the total of its key. -/
theorem insert (h : Tallies key val items totals) (has : key a = some k) :
    Tallies key val (items ++ [a]) (totals.insert k (totals.getD k 0 + val a)) := by
  intro j t
  rw [h.getD, sumBy_snoc, has]
  by_cases same : k = j
  · subst same
    have there : ∃ b ∈ items ++ [a], key b = some k := ⟨a, by simp, has⟩
    rw [Std.TreeMap.getElem?_insert_self, if_pos rfl, Option.some.injEq]
    exact ⟨fun e => ⟨there, e.symm⟩, fun e => e.2.symm⟩
  · have differ : some k ≠ some j := fun e => same (Option.some.inj e)
    have others : (∃ b ∈ items ++ [a], key b = some j) ↔ ∃ b ∈ items, key b = some j := by
      simp [or_and_right, exists_or, has, same]
    rw [Std.TreeMap.getElem?_insert, if_neg (by simpa using same), if_neg differ, Int.add_zero, others]
    exact h j t

/-- **The totals of a map** add up to the values of the items. -/
theorem sum_eq (h : Tallies key val items totals) (keyed : ∀ a ∈ items, ∃ k, key a = some k) :
    (totals.toList.map Prod.snd).sum = (items.map val).sum := by
  have held : totals.toList.map Prod.snd =
      totals.toList.map fun entry => sumBy key val items (some entry.1) := by
    apply List.map_congr_left
    intro entry mem
    exact ((h entry.1 entry.2).1 (Std.TreeMap.mem_toList_iff_getElem?_eq_some.1 mem)).2
  have byKey : (totals.toList.map fun entry => sumBy key val items (some entry.1)) =
      (totals.keys.map some).map (sumBy key val items) := by
    rw [← Std.TreeMap.map_fst_toList_eq_keys, List.map_map, List.map_map]
    rfl
  have nodup : (totals.keys.map some).Nodup :=
    Std.TreeMap.nodup_keys.map fun _ _ => Option.some.inj
  rw [held, byKey, sum_sumBy nodup]
  intro a mem
  obtain ⟨k, has⟩ := keyed a mem
  have there := (h k _).2 ⟨⟨a, mem, has⟩, rfl⟩
  rw [has]
  apply List.mem_map_of_mem
  apply Std.TreeMap.mem_keys.2
  rw [Std.TreeMap.mem_iff_isSome_getElem?, there, Option.isSome_some]

end Tallies

end Lib
