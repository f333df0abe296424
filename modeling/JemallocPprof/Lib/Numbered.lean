import Mathlib.Data.List.Nodup

/-!
# Tables numbered from one

A table is numbered when each entry's id is its position plus one. Following an
id then is indexing (`Numbered.find?`), and an id in range names one entry.
-/

namespace Lib
set_option autoImplicit false

variable {α : Type} {id : α → Nat} {as : List α} {i : Nat} {a : α}

/-- Entry `i` has id `i + 1`. -/
def Numbered (id : α → Nat) (as : List α) : Prop := ∀ i a, as[i]? = some a → id a = i + 1

/-- The id names exactly one entry. -/
def NamesOne (id : α → Nat) (as : List α) (k : Nat) : Prop := as.countP (fun a => id a = k) = 1

namespace Numbered

theorem ids (h : Numbered id as) : as.map id = List.range' 1 as.length := by
  apply List.ext_getElem (by simp)
  intro i there _
  rw [List.length_map] at there
  rw [List.getElem_map, List.getElem_range', h i as[i] (List.getElem?_eq_getElem there)]
  omega

theorem nodup (h : Numbered id as) : (as.map id).Nodup := h.ids ▸ List.nodup_range'

/-- **Following an id is indexing.** -/
theorem find? (h : Numbered id as) : as.find? (fun a => id a = i + 1) = as[i]? := by
  cases there : as[i]? with
  | none =>
    rw [List.find?_eq_none]
    intro a mem same
    obtain ⟨j, lt, rfl⟩ := List.mem_iff_getElem.1 mem
    have number := h j as[j] (List.getElem?_eq_getElem lt)
    have beyond := List.getElem?_eq_none_iff.1 there
    simp only [decide_eq_true_eq] at same
    omega
  | some a =>
    obtain ⟨lt, rfl⟩ := List.getElem?_eq_some_iff.1 there
    refine List.find?_eq_some_iff_getElem.2 ⟨by simp [h i _ there], i, lt, rfl, fun j before => ?_⟩
    have number := h j as[j] (List.getElem?_eq_getElem (by omega))
    simp only [Bool.not_eq_true', decide_eq_false_iff_not]
    omega

theorem namesOne (h : Numbered id as) (there : as[i]? = some a) : NamesOne id as (i + 1) := by
  have mem : i + 1 ∈ as.map id := List.mem_map.2 ⟨a, List.mem_of_getElem? there, h i a there⟩
  have once := List.count_eq_one_of_mem h.nodup mem
  rw [List.count, List.countP_map] at once
  exact (List.countP_congr fun b _ => by simp).trans once

end Numbered

end Lib
