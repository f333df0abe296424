import Mathlib.Data.List.Forall2

/-!
# Tables that describe each other entry by entry

`Paired R as bs`: the two lists have one length and their entries at each index
`i` are related by `R i`. Tables grow at the end, so `snoc` is the step. Where
the index plays no part the relation is `List.Forall₂`.
-/

namespace Lib
set_option autoImplicit false

variable {α β : Type}

structure Paired (R : Nat → α → β → Prop) (as : List α) (bs : List β) : Prop where
  length : as.length = bs.length
  entry : ∀ {i : Nat} {a : α} {b : β}, as[i]? = some a → bs[i]? = some b → R i a b

namespace Paired

variable {R S : Nat → α → β → Prop} {as : List α} {bs : List β} {a : α} {b : β} {i : Nat}

theorem nil : Paired R [] [] := ⟨rfl, fun h => by cases h⟩

theorem snoc (h : Paired R as bs) (last : R as.length a b) : Paired R (as ++ [a]) (bs ++ [b]) := by
  refine ⟨by simp [h.length], fun {i x y} hx hy => ?_⟩
  rcases Nat.lt_trichotomy i as.length with lt | rfl | gt
  · rw [List.getElem?_append_left lt] at hx
    rw [List.getElem?_append_left (h.length ▸ lt)] at hy
    exact h.entry hx hy
  · rw [List.getElem?_concat_length] at hx
    rw [h.length, List.getElem?_concat_length] at hy
    cases hx
    cases hy
    exact last
  · rw [List.getElem?_eq_none (by simp; omega)] at hx
    cases hx

theorem imp (h : Paired R as bs) (weaker : ∀ i a b, R i a b → S i a b) : Paired S as bs :=
  ⟨h.length, fun ha hb => weaker _ _ _ (h.entry ha hb)⟩

/-- An entry on the right has its partner on the left. -/
theorem left (h : Paired R as bs) (hb : bs[i]? = some b) : ∃ a, as[i]? = some a ∧ R i a b := by
  have lt : i < as.length := h.length ▸ (List.getElem?_eq_some_iff.1 hb).1
  exact ⟨as[i], List.getElem?_eq_getElem lt, h.entry (List.getElem?_eq_getElem lt) hb⟩

theorem right (h : Paired R as bs) (ha : as[i]? = some a) : ∃ b, bs[i]? = some b ∧ R i a b := by
  have lt : i < bs.length := h.length ▸ (List.getElem?_eq_some_iff.1 ha).1
  exact ⟨bs[i], List.getElem?_eq_getElem lt, h.entry ha (List.getElem?_eq_getElem lt)⟩

/-- A relation that needs no index. -/
theorem forall₂ {T : α → β → Prop} (h : Paired R as bs) (weaker : ∀ i a b, R i a b → T a b) :
    List.Forall₂ T as bs := by
  refine List.forall₂_iff_get.2 ⟨h.length, fun i left right => weaker i _ _ ?_⟩
  exact h.entry (List.getElem?_eq_getElem left) (List.getElem?_eq_getElem right)

/-- What the relation determines of the left entries is known from the right ones. -/
theorem map_eq {δ : Type} {f : α → δ} {g : Nat → β → δ} (h : Paired R as bs)
    (told : ∀ i a b, R i a b → f a = g i b) : as.map f = bs.mapIdx g := by
  refine List.ext_getElem (by simp [h.length]) fun i left right => ?_
  rw [List.getElem_map, List.getElem_mapIdx]
  rw [List.length_map] at left
  rw [List.length_mapIdx] at right
  exact told i _ _ (h.entry (List.getElem?_eq_getElem left) (List.getElem?_eq_getElem right))

/-- Changing entries of the left table keeps the pairing where each change does. -/
theorem of_getElem? {as' : List α} (h : Paired R as bs) (length : as'.length = as.length)
    (change : ∀ i a', as'[i]? = some a' → ∃ a, as[i]? = some a ∧ ∀ b, R i a b → S i a' b) :
    Paired S as' bs := by
  refine ⟨length.trans h.length, fun {i a' b} ha' hb => ?_⟩
  obtain ⟨a, ha, keep⟩ := change i a' ha'
  exact keep b (h.entry ha hb)

end Paired

section Forall₂
variable {R : α → β → Prop} {as : List α} {bs : List β} {a : α} {b : β}

theorem exists_of_mem_left (h : List.Forall₂ R as bs) (mem : a ∈ as) : ∃ b ∈ bs, R a b := by
  induction h with
  | nil => cases mem
  | cons here _ ih =>
    rcases List.mem_cons.1 mem with rfl | mem
    · exact ⟨_, List.mem_cons_self, here⟩
    · obtain ⟨b, there, related⟩ := ih mem
      exact ⟨b, List.mem_cons_of_mem _ there, related⟩

theorem exists_of_mem_right (h : List.Forall₂ R as bs) (mem : b ∈ bs) : ∃ a ∈ as, R a b :=
  exists_of_mem_left h.flip mem

end Forall₂

/-- Pairs of pairs. -/
theorem forall₂_trans {α : Type} {R : α → α → Prop} (trans : ∀ a b c, R a b → R b c → R a c) {as bs cs : List α}
    (h : List.Forall₂ R as bs) (h' : List.Forall₂ R bs cs) : List.Forall₂ R as cs := by
  induction h generalizing cs with
  | nil => exact h'
  | cons first _ ih =>
    cases h' with
    | cons second rest => exact .cons (trans _ _ _ first second) (ih rest)

end Lib
