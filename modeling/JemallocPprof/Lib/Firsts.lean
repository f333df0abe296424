import Mathlib.Data.List.Basic
import Mathlib.Data.List.Induction
import Mathlib.Data.List.Nodup

/-!
# First occurrences

An interning table hands out the next number to a key it has not met. Its
content after a sequence of items is `firsts key items`: the items whose key is
new, in order. `rank key items k` is the number the table holds for `k`. Both
only grow with the sequence, so a number handed out early keeps its meaning.
-/

namespace Lib
set_option autoImplicit false

variable {α κ : Type} [DecidableEq κ] (key : α → κ)

/-- The items whose key does not occur earlier. -/
def firsts (items : List α) : List α :=
  items.foldl (fun kept a => if key a ∈ kept.map key then kept else kept ++ [a]) []

/-- The position of `k` among the keys of `firsts`. -/
def rank (items : List α) (k : κ) : Option Nat := ((firsts key items).map key).idxOf? k

variable {key} {items more : List α} {a : α} {k k' : κ} {i : Nat}

@[simp] theorem firsts_nil : firsts key ([] : List α) = [] := rfl

theorem firsts_snoc : firsts key (items ++ [a]) =
    if key a ∈ (firsts key items).map key then firsts key items else firsts key items ++ [a] := by
  simp [firsts, List.foldl_append]

theorem mem_firsts_keys : k ∈ (firsts key items).map key ↔ k ∈ items.map key := by
  induction items using List.reverseRecOn generalizing k with
  | nil => simp
  | append_singleton items a ih =>
    rw [firsts_snoc]
    split
    · rename_i old
      rw [ih] at old ⊢
      simp only [List.map_append, List.map_cons, List.map_nil, List.mem_append,
        List.mem_singleton]
      constructor
      · exact Or.inl
      · rintro (there | rfl)
        · exact there
        · exact old
    · simp [ih]

theorem firsts_snoc_old (old : key a ∈ items.map key) :
    firsts key (items ++ [a]) = firsts key items := by
  rw [firsts_snoc, if_pos (mem_firsts_keys.2 old)]

theorem firsts_snoc_new (new : key a ∉ items.map key) :
    firsts key (items ++ [a]) = firsts key items ++ [a] := by
  rw [firsts_snoc, if_neg (fun h => new (mem_firsts_keys.1 h))]

theorem firsts_grows (key : α → κ) (items more : List α) :
    firsts key items <+: firsts key (items ++ more) := by
  induction more using List.reverseRecOn with
  | nil => simp
  | append_singleton more a ih =>
    rw [← List.append_assoc, firsts_snoc]
    split
    · exact ih
    · exact ih.trans (List.prefix_append _ _)

theorem mem_of_mem_firsts (h : a ∈ firsts key items) : a ∈ items := by
  induction items using List.reverseRecOn with
  | nil => simp at h
  | append_singleton items b ih =>
    rw [firsts_snoc] at h
    split at h
    · exact List.mem_append_left _ (ih h)
    · rcases List.mem_append.1 h with h | h
      · exact List.mem_append_left _ (ih h)
      · exact List.mem_append_right _ h

theorem firsts_keys_nodup (key : α → κ) (items : List α) : ((firsts key items).map key).Nodup := by
  induction items using List.reverseRecOn with
  | nil => simp
  | append_singleton items a ih =>
    rw [firsts_snoc]
    split
    · exact ih
    · rename_i new
      rw [List.map_append, List.nodup_append]
      refine ⟨ih, by simp, ?_⟩
      intro x hx y hy
      rintro rfl
      obtain rfl := List.mem_singleton.1 hy
      exact new hx

/-- The first item is kept, and after it no item of its key is. -/
theorem firsts_cons (key : α → κ) (a : α) (items : List α) :
    firsts key (a :: items) = a :: firsts key (items.filter fun b => key b ≠ key a) := by
  induction items using List.reverseRecOn with
  | nil => rfl
  | append_singleton items b ih =>
    rw [← List.cons_append, firsts_snoc, ih, List.filter_append]
    by_cases same : key b = key a
    · rw [if_pos (by simp [same]), List.filter_cons_of_neg (by simpa using same), List.filter_nil, List.append_nil]
    · rw [List.filter_cons_of_pos (by simpa using same), List.filter_nil, firsts_snoc, List.map_cons]
      simp only [List.mem_cons, same, false_or]
      split
      · rfl
      · rw [List.cons_append]

/-- Two kept items with one key are the same item. -/
theorem firsts_key_inj {b : α} (ha : a ∈ firsts key items) (hb : b ∈ firsts key items)
    (same : key a = key b) : a = b :=
  List.inj_on_of_nodup_map (firsts_keys_nodup key items) ha hb same

theorem rank_eq_some : rank key items k = some i ↔ ∃ a, (firsts key items)[i]? = some a ∧ key a = k := by
  rw [rank, List.idxOf?_eq_some_iff]
  constructor
  · rintro ⟨lt, here, -⟩
    rw [List.length_map] at lt
    exact ⟨(firsts key items)[i], List.getElem?_eq_getElem lt, by simpa using here⟩
  · rintro ⟨a, there, rfl⟩
    obtain ⟨lt, rfl⟩ := List.getElem?_eq_some_iff.1 there
    refine ⟨by simpa using lt, by simp, ?_⟩
    intro j hj same
    have bound : i < ((firsts key items).map key).length := by simpa using lt
    have same : ((firsts key items).map key)[j] = ((firsts key items).map key)[i] :=
      same.trans (List.getElem_map key (h := bound)).symm
    have : j = i := (firsts_keys_nodup key items).getElem_inj_iff.1 same
    omega

theorem rank_eq_none : rank key items k = none ↔ k ∉ items.map key := by
  rw [rank, List.idxOf?_eq_none_iff, mem_firsts_keys]

/-- Only keys of the sequence have a number. -/
theorem mem_of_rank (h : rank key items k = some i) : k ∈ items.map key := by
  by_contra absent
  rw [rank_eq_none.2 absent] at h
  cases h

/-- A number handed out is kept by any longer sequence. -/
theorem rank_append (h : rank key items k = some i) : rank key (items ++ more) k = some i := by
  obtain ⟨a, ha, rfl⟩ := rank_eq_some.1 h
  obtain ⟨lt, rfl⟩ := List.getElem?_eq_some_iff.1 ha
  refine rank_eq_some.2 ⟨_, ?_, rfl⟩
  obtain ⟨tail, e⟩ := firsts_grows key items more
  rw [← e, List.getElem?_append_left lt, List.getElem?_eq_getElem lt]

theorem rank_snoc_old (old : key a ∈ items.map key) :
    rank key (items ++ [a]) k = rank key items k := by
  rw [rank, firsts_snoc_old old, rank]

theorem rank_snoc_new (new : key a ∉ items.map key) :
    rank key (items ++ [a]) k =
      if k = key a then some (firsts key items).length else rank key items k := by
  split
  · rename_i same
    refine rank_eq_some.2 ⟨a, ?_, same.symm⟩
    rw [firsts_snoc_new new]
    simp
  · rename_i other
    cases e : rank key items k with
    | some i => exact rank_append e
    | none =>
      rw [rank_eq_none] at e ⊢
      simp only [List.map_append, List.map_cons, List.map_nil, List.mem_append, List.mem_singleton]
      exact fun h => h.elim e other

end Lib
