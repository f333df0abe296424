import JemallocPprof.Lib.Firsts
import JemallocPprof.Lib.Runs
import JemallocPprof.StackProfile
import JemallocPprof.StringTable
import Mathlib.Data.Finset.Card

/-!
# Interning over whole histories

Two tables hand out numbers for texts: the string table of a conversion and the
annotations of a profile. Both hold the first occurrences of what they were
given, in order. A number handed out early is resolved at the end
(`insertAll_faithful`, `pushes_kept`).
-/

namespace JemallocPprof
set_option autoImplicit false
open Lib

namespace StringTable

/-- `insert` for one string after another: the indices returned, and the table. -/
def insertAll (t : StringTable) : List String → Except Panic (List Nat × StringTable)
  | [] => .ok ([], t)
  | s :: ss => do
    let (idx, t) ← t.insert s
    let (ids, t) ← t.insertAll ss
    .ok (idx :: ids, t)

/-- What an interner owes: `ids` were returned for `ss`, and `strings` is the listing. -/
structure Interns (ss : List String) (ids : List Nat) (strings : List String) : Prop where
  one_each : ids.length = ss.length
  /-- However many later inserts follow. -/
  resolves : ∀ k i : Nat, ids[k]? = some i → strings[i]? = ss[k]?
  injective : ∀ j k : Nat, j < ss.length → k < ss.length → (ids[j]? = ids[k]? ↔ ss[j]? = ss[k]?)
  /-- The empty string, and the others in the order of their first insertion. -/
  listing : strings = "" :: firsts id (ss.filter fun s => s ≠ "")
  once : strings.Nodup
  count : strings.length = 1 + (ss.toFinset.erase "").card

variable {t t' : StringTable} {done ss strings : List String} {s : String} {i : Nat} {ids : List Nat}

theorem insert_firsts (h : Interned t (firsts id done)) (run : t.insert s = .ok (i, t')) :
    Interned t' (firsts id (done ++ [s])) ∧ (firsts id (done ++ [s]))[i]? = some s := by
  obtain ⟨more, extended, found, rfl | ⟨rfl, fresh⟩⟩ := insert_interned h run
  · rw [List.append_nil] at extended found
    have old : id s ∈ done.map id := by
      apply mem_firsts_keys.1
      rw [List.map_id]
      exact List.mem_of_getElem? found
    rw [firsts_snoc_old old]
    exact ⟨extended, found⟩
  · have new : id s ∉ done.map id := by
      intro there
      apply fresh
      simpa using mem_firsts_keys.2 there
    rw [firsts_snoc_new new]
    exact ⟨extended, found⟩

/-- An index returned is good in every later table. -/
theorem insertAll_firsts (h : Interned t (firsts id done)) (run : t.insertAll ss = .ok (ids, t')) :
    Interned t' (firsts id (done ++ ss)) ∧
      List.Forall₂ (fun i s => (firsts id (done ++ ss))[i]? = some s) ids ss := by
  induction ss generalizing t done ids with
  | nil =>
    cases run
    rw [List.append_nil]
    exact ⟨h, .nil⟩
  | cons s ss ih =>
    obtain ⟨⟨i, t₁⟩, first, run⟩ := bind_ok.1 run
    obtain ⟨⟨ids, t₂⟩, later, run⟩ := bind_ok.1 run
    cases run
    obtain ⟨h, found⟩ := insert_firsts h first
    obtain ⟨interned, rest⟩ := ih h later
    rw [← List.append_cons] at interned rest
    refine ⟨interned, .cons ?_ rest⟩
    have grown := firsts_grows id (done ++ [s]) ss
    rw [← List.append_cons] at grown
    obtain ⟨more, grown⟩ := grown
    rw [← grown]
    exact List.getElem?_append_left (List.getElem?_eq_some_iff.1 found).1 |>.trans found

/-- Inserts return while an i64 counts the listing. -/
theorem insertAll_returns (h : Interned t (firsts id done)) (room : (firsts id (done ++ ss)).length ≤ 2 ^ 63) :
    ∃ ids t', t.insertAll ss = .ok (ids, t') := by
  induction ss generalizing t done with
  | nil => exact ⟨[], t, rfl⟩
  | cons s ss ih =>
    rw [List.append_cons] at room
    have space : s ∈ firsts id done ∨ (firsts id done).length < 2 ^ 63 := by
      by_cases known : s ∈ firsts id done
      · exact .inl known
      · right
        have new : id s ∉ done.map id := by
          intro there
          apply known
          simpa using mem_firsts_keys.2 there
        have grown := (firsts_grows id (done ++ [s]) ss).length_le
        rw [firsts_snoc_new new, List.length_append, List.length_singleton] at grown
        omega
    obtain ⟨i, t₁, first⟩ := insert_returns h space
    obtain ⟨ids, t₂, later⟩ := ih (insert_firsts h first).1 room
    refine ⟨i :: ids, t₂, ?_⟩
    simp only [insertAll, first, later, ok_bind]

theorem listing_nodup (ss : List String) : (firsts id ss).Nodup := by
  simpa using firsts_keys_nodup id ss

/-- One entry for each distinct string. -/
theorem listing_length (ss : List String) : (firsts id ("" :: ss)).length = 1 + (ss.toFinset.erase "").card := by
  have entries : (firsts id ("" :: ss)).toFinset = Insert.insert "" (ss.toFinset.erase "") := by
    ext s
    have mem : s ∈ (firsts id ("" :: ss)).map id ↔ s ∈ ("" :: ss).map id := mem_firsts_keys
    rw [List.map_id, List.map_id] at mem
    rw [List.mem_toFinset, mem]
    simp
    tauto
  rw [← List.toFinset_card_of_nodup (listing_nodup _), entries, Finset.card_insert_of_notMem (by simp)]
  omega

theorem resolved_at (resolved : List.Forall₂ (fun i s => strings[i]? = some s) ids ss) {k : Nat}
    (bound : k < ss.length) : ∃ i, ids[k]? = some i ∧ strings[i]? = ss[k]? := by
  have bound' : k < ids.length := resolved.length_eq ▸ bound
  refine ⟨ids[k], List.getElem?_eq_getElem bound', ?_⟩
  rw [List.getElem?_eq_getElem bound]
  exact resolved.get bound' bound

/-- Where no string is listed twice, indices are equal just where their strings are. -/
theorem resolved_inj (nodup : strings.Nodup) (resolved : List.Forall₂ (fun i s => strings[i]? = some s) ids ss)
    {j k : Nat} (hj : j < ss.length) (hk : k < ss.length) : ids[j]? = ids[k]? ↔ ss[j]? = ss[k]? := by
  obtain ⟨i, at_j, found⟩ := resolved_at resolved hj
  obtain ⟨i', at_k, found'⟩ := resolved_at resolved hk
  rw [at_j, at_k, ← found, ← found', Option.some_inj]
  constructor
  · rintro rfl
    rfl
  · intro same
    have bound : i < strings.length := by
      rw [List.getElem?_eq_getElem hj] at found
      exact (List.getElem?_eq_some_iff.1 found).1
    exact (List.getElem?_inj bound nodup).1 same

/-- **The string table is an interner.** A run of inserts that an i64 can count
returns, and its indices and its listing are an interner's. -/
theorem insertAll_faithful (ss : List String) :
    match new.insertAll ss with
    | .ok (ids, t) => Interns ss ids t.finish
    | .error _ => 2 ^ 63 < 1 + (ss.toFinset.erase "").card := by
  have start : Interned new (firsts id [""]) := new_interned
  split
  · rename_i ids t run
    obtain ⟨interned, resolved⟩ := insertAll_firsts start run
    rw [List.singleton_append] at interned resolved
    have nodup := listing_nodup ("" :: ss)
    rw [finish_eq interned]
    refine ⟨resolved.length_eq, ?_, ?_, firsts_cons id "" ss, nodup, listing_length ss⟩
    · intro k i returned
      have bound : k < ss.length := by
        rw [← resolved.length_eq]
        exact (List.getElem?_eq_some_iff.1 returned).1
      obtain ⟨i', returned', found⟩ := resolved_at resolved bound
      obtain rfl := Option.some.inj (returned.symm.trans returned')
      exact found
    · intro j k hj hk
      exact resolved_inj nodup resolved hj hk
  · rename_i panic run
    by_contra room
    rw [Nat.not_lt, ← listing_length, ← List.singleton_append] at room
    obtain ⟨ids, t, returned⟩ := insertAll_returns start room
    rw [run] at returned
    cases returned

end StringTable

/-- A call that adds to a profile. -/
inductive Push (F : Type) where
  | pushStack (stack : WeightedStack F) (anno : Option String)
  | pushMapping (mapping : Mapping)

namespace StackProfile

variable {F : Type}

/-- The pair a call pushes. -/
def pairOf : Push F → Option (WeightedStack F × Option String)
  | .pushStack stack anno => some (stack, anno)
  | .pushMapping _ => none

def push (self : StackProfile F) : Push F → StackProfile F
  | .pushStack stack anno => self.pushStack stack anno
  | .pushMapping mapping => self.pushMapping mapping

/-- The profile holds `items`, and nobody can tell that annotations are indices. -/
structure Keeps (self : StackProfile F) (items : List (WeightedStack F × Option String)) : Prop where
  /-- Wherever the iterator stands, `next` does not panic. -/
  next : ∀ idx, (StackProfileIter.mk self idx).next = .ok (items[idx]?.map fun item => (item, ⟨self, idx + 1⟩))
  loop : ∀ {σ : Type} (body : σ → WeightedStack F × Option String → Except Panic σ) (init : σ) (fuel : Nat),
    items.length < fuel → self.iter.forEach body fuel init = items.foldlM body init
  /-- Each annotation once, in the order of first use. -/
  annotations : self.annotations = firsts id (items.filterMap Prod.snd)
  once : self.annotations.Nodup

variable {self : StackProfile F} {items : List (WeightedStack F × Option String)}

theorem Annotated.next_eq (h : self.Annotated items) (idx : Nat) :
    (StackProfileIter.mk self idx).next = .ok (items[idx]?.map fun item => (item, ⟨self, idx + 1⟩)) := by
  have same : self.stacks.length = items.length := h.length_eq
  unfold StackProfileIter.next
  rcases Nat.lt_or_ge idx items.length with inside | outside
  · have held : idx < self.stacks.length := same ▸ inside
    obtain ⟨stack, anno⟩ : self.Yields self.stacks[idx] items[idx] := h.get held inside
    simp only [List.getElem?_eq_getElem held, List.getElem?_eq_getElem inside, anno, ok_bind, stack, Option.map_some]
  · simp only [List.getElem?_eq_none (same ▸ outside : self.stacks.length ≤ idx),
      List.getElem?_eq_none outside, Option.map_none]

/-- A loop takes what `next` has to give. -/
theorem forEach_of_next {σ : Type} {body : σ → WeightedStack F × Option String → Except Panic σ}
    (next : ∀ idx, (StackProfileIter.mk self idx).next = .ok (items[idx]?.map fun item => (item, ⟨self, idx + 1⟩)))
    {fuel idx : Nat} (enough : items.length < idx + fuel) (s : σ) :
    (StackProfileIter.mk self idx).forEach body fuel s = (items.drop idx).foldlM body s := by
  induction fuel generalizing idx s with
  | zero =>
    rw [List.drop_of_length_le (by omega), List.foldlM_nil]
    rfl
  | succ fuel ih =>
    rw [StackProfileIter.forEach, next, ok_bind]
    rcases Nat.lt_or_ge idx items.length with inside | outside
    · rw [List.getElem?_eq_getElem inside, List.drop_eq_getElem_cons inside, List.foldlM_cons]
      show body s items[idx] >>= _ = _
      exact congrArg _ (funext fun s => ih (by omega) s)
    · rw [List.getElem?_eq_none outside, List.drop_of_length_le outside, List.foldlM_nil]
      rfl

/-- `push_stack` interns its annotation. -/
theorem pushStack_annotations (h : self.annotations = firsts id (items.filterMap Prod.snd))
    (stack : WeightedStack F) (anno : Option String) :
    (self.pushStack stack anno).annotations = firsts id ((items ++ [(stack, anno)]).filterMap Prod.snd) := by
  rw [List.filterMap_append]
  unfold pushStack
  split
  · rename_i text
    show _ = firsts id (items.filterMap Prod.snd ++ [text])
    split
    · rename_i idx found
      obtain ⟨bound, same, -⟩ := List.findIdx?_eq_some_iff_getElem.1 found
      have known : text ∈ self.annotations := by
        rw [eq_of_beq same]
        exact List.getElem_mem bound
      rw [h, firsts_snoc_old]
      · apply mem_firsts_keys.1
        rwa [← h, List.map_id]
    · rename_i absent
      have unknown : text ∉ self.annotations := by
        intro there
        have different := List.findIdx?_eq_none_iff.1 absent text there
        simp at different
      rw [firsts_snoc_new, h]
      · intro there
        apply unknown
        rw [h]
        simpa using mem_firsts_keys.2 there
  · simpa using h

/-- What a push keeps. -/
theorem push_kept (call : Push F)
    (h : self.Annotated items ∧ self.annotations = firsts id (items.filterMap Prod.snd)) :
    (self.push call).Annotated (items ++ (pairOf call).toList) ∧
      (self.push call).annotations = firsts id ((items ++ (pairOf call).toList).filterMap Prod.snd) := by
  cases call with
  | pushStack stack anno =>
    exact ⟨pushStack_annotated h.1 stack anno, pushStack_annotations h.2 stack anno⟩
  | pushMapping mapping =>
    rw [pairOf, Option.toList_none, List.append_nil]
    refine ⟨?_, h.2⟩
    -- the annotations are the same list, in a record of its own
    exact List.Forall₂.imp (fun entry item yields => yields) h.1

theorem pushes_annotated (calls : List (Push F))
    (h : self.Annotated items ∧ self.annotations = firsts id (items.filterMap Prod.snd)) :
    (after push self calls).Annotated (items ++ calls.filterMap pairOf) ∧
      (after push self calls).annotations = firsts id ((items ++ calls.filterMap pairOf).filterMap Prod.snd) := by
  induction calls generalizing self items with
  | nil => simpa using h
  | cons call calls ih =>
    have later := ih (push_kept call h)
    rw [List.append_assoc] at later
    rw [after_cons]
    have split : (pairOf call).toList ++ calls.filterMap pairOf = (call :: calls).filterMap pairOf := by
      rw [List.filterMap_cons]
      cases pairOf call <;> rfl
    rwa [split] at later

/-- **Annotations survive interning**, whatever the calls and their order. -/
theorem pushes_kept (calls : List (Push F)) : (after push default calls).Keeps (calls.filterMap pairOf) := by
  have start : (default : StackProfile F).annotations = firsts id [] := rfl
  obtain ⟨annotated, annotations⟩ := pushes_annotated calls ⟨default_annotated, start⟩
  rw [List.nil_append] at annotated annotations
  refine ⟨annotated.next_eq, ?_, annotations, ?_⟩
  · intro σ body init fuel enough
    exact forEach_of_next annotated.next_eq (by omega) init
  · rw [annotations]
    simpa using firsts_keys_nodup id (calls.filterMap pairOf |>.filterMap Prod.snd)

end StackProfile

end JemallocPprof
