import JemallocPprof.Runtime
import Mathlib.Data.List.Forall2

/-!
# `StackProfile`

The parsed form of a heap profile: stacks with their weights, the mappings, and
the annotations, which a stack names by index. `push_stack` interns an
annotation by its position; `Annotated` says which items the iterator yields,
and `pushStacks_annotated` that they are the ones pushed.
-/

namespace JemallocPprof
set_option autoImplicit false
open Lib

/-- A stack trace, root first, and its weight. -/
structure WeightedStack (F : Type) where
  addrs : List UInt64
  weight : F
  deriving DecidableEq

structure BuildId where
  bytes : Bytes
  deriving DecidableEq

/-- `{byte:02x}`. -/
def hexByte (byte : UInt8) : List Char :=
  [Nat.digitChar (byte.toNat / 16), Nat.digitChar (byte.toNat % 16)]

/-- `impl Display for BuildId`. -/
def BuildId.toString (buildId : BuildId) : String := String.ofList (buildId.bytes.flatMap hexByte)

/-- A mapping of a single shared object. -/
structure Mapping where
  memoryStart : UInt64
  memoryEnd : UInt64
  memoryOffset : UInt64
  fileOffset : UInt64
  pathname : Bytes
  buildId : Option BuildId
  deriving DecidableEq

structure StackProfile (F : Type) where
  annotations : List String
  /-- The second element is the index in `annotations`, if one exists. -/
  «stacks» : List (WeightedStack F × Option Nat)
  mappings : List Mapping
  deriving DecidableEq

/-- `StackProfileIter`. -/
structure StackProfileIter (F : Type) where
  inner : StackProfile F
  idx : Nat

variable {F : Type}

namespace StackProfile

/-- `StackProfile::default()`. -/
def default : StackProfile F := ⟨[], [], []⟩

/-- `push_stack`: the annotation's position among those known, or a new last one. -/
def pushStack (self : StackProfile F) (stack : WeightedStack F) (anno : Option String) :
    StackProfile F :=
  match anno with
  | some text =>
    match self.annotations.findIdx? (text == ·) with
    | some idx => { self with «stacks» := self.stacks ++ [(stack, some idx)] }
    | none =>
      { self with
        annotations := self.annotations ++ [text]
        «stacks» := self.stacks ++ [(stack, some self.annotations.length)] }
  | none => { self with «stacks» := self.stacks ++ [(stack, none)] }

/-- `push_mapping`. -/
def pushMapping (self : StackProfile F) (mapping : Mapping) : StackProfile F :=
  { self with mappings := self.mappings ++ [mapping] }

/-- `iter`. -/
def iter (self : StackProfile F) : StackProfileIter F := ⟨self, 0⟩

/-- The annotation an entry of `stacks` carries. -/
def annotationOf (self : StackProfile F) (anno : Option Nat) : Except Panic (Option String) :=
  match anno with
  | some idx => do
    let text ← unwrap self.annotations[idx]?
    .ok (some text)
  | none => .ok none

end StackProfile

/-- `StackProfileIter::next`. -/
def StackProfileIter.next (self : StackProfileIter F) :
    Except Panic (Option ((WeightedStack F × Option String) × StackProfileIter F)) :=
  match self.inner.stacks[self.idx]? with
  | none => .ok none
  | some (stack, anno) => do
    let anno ← self.inner.annotationOf anno
    .ok (some ((stack, anno), { self with idx := self.idx + 1 }))

/-- A loop over the iterator: `next` until it yields nothing. -/
def StackProfileIter.forEach {σ : Type} (body : σ → WeightedStack F × Option String → Except Panic σ) :
    Nat → StackProfileIter F → σ → Except Panic σ
  | 0, _, s => .ok s
  | fuel + 1, iter, s => do
    match ← iter.next with
    | none => .ok s
    | some (item, iter) => do
      let s ← body s item
      forEach body fuel iter s

namespace StackProfile

/-- `for item in profile.iter() { body }`: the entries of `stacks` in order, each
with its annotation looked up. -/
def forEach {σ : Type} (self : StackProfile F)
    (body : σ → WeightedStack F × Option String → Except Panic σ) (init : σ) : Except Panic σ :=
  self.stacks.foldlM (fun s entry => do
    let anno ← self.annotationOf entry.2
    body s (entry.1, anno)) init

/-- **The loop is the iterator's**, with fuel for one call of `next` more than there are stacks. -/
theorem forEach_iter {σ : Type} (self : StackProfile F)
    (body : σ → WeightedStack F × Option String → Except Panic σ) (init : σ) :
    self.iter.forEach body (self.stacks.length + 1) init = self.forEach body init := by
  have go : ∀ rest idx s, self.stacks.drop idx = rest →
      StackProfileIter.forEach body (rest.length + 1) ⟨self, idx⟩ s =
        rest.foldlM (fun s entry => do
          let anno ← self.annotationOf entry.2
          body s (entry.1, anno)) s := by
    intro rest
    induction rest with
    | nil =>
      intro idx s here
      have stop : self.stacks[idx]? = none := List.getElem?_eq_none_iff.2 (List.drop_eq_nil_iff.1 here)
      rw [List.length_nil, StackProfileIter.forEach]
      simp only [StackProfileIter.next, stop, ok_bind]
      rfl
    | cons entry rest ih =>
      intro idx s here
      have at_idx : self.stacks[idx]? = some entry := by
        rw [← Nat.add_zero idx, ← List.getElem?_drop, here, List.getElem?_cons_zero]
      have later : self.stacks.drop (idx + 1) = rest := by
        rw [← List.drop_drop, here, List.drop_one, List.tail_cons]
      rw [List.length_cons, List.foldlM_cons, StackProfileIter.forEach]
      simp only [StackProfileIter.next, at_idx]
      cases found : self.annotationOf entry.2 with
      | error panic => rfl
      | ok anno =>
        simp only [ok_bind]
        cases here' : body s (entry.1, anno) with
        | error panic => rfl
        | ok s' => exact ih (idx + 1) s' later
  exact go self.stacks 0 init rfl

/-- An entry of `stacks` and what the iterator makes of it. -/
def Yields (self : StackProfile F) (entry : WeightedStack F × Option Nat)
    (item : WeightedStack F × Option String) : Prop :=
  entry.1 = item.1 ∧ self.annotationOf entry.2 = .ok item.2

/-- The iterator yields exactly `items`. -/
def Annotated (self : StackProfile F) (items : List (WeightedStack F × Option String)) : Prop :=
  List.Forall₂ self.Yields self.stacks items

/-- Over a profile whose annotations are known, the loop is one over its items. -/
theorem Annotated.forEach_eq {σ : Type} {self : StackProfile F}
    {items : List (WeightedStack F × Option String)} (h : self.Annotated items)
    (body : σ → WeightedStack F × Option String → Except Panic σ) (init : σ) :
    self.forEach body init = items.foldlM body init := by
  unfold forEach
  unfold Annotated at h
  generalize self.stacks = entries at h
  induction h generalizing init with
  | nil => rfl
  | cons here _ ih =>
    obtain ⟨same, found⟩ := here
    rw [List.foldlM_cons, List.foldlM_cons, found, ok_bind, same]
    exact congrArg _ (funext fun s => ih s)

/-- The items are the stacks, in order. -/
theorem Annotated.map_fst {self : StackProfile F} {items : List (WeightedStack F × Option String)}
    (h : self.Annotated items) : items.map Prod.fst = self.stacks.map Prod.fst := by
  unfold Annotated at h
  generalize self.stacks = entries at h
  induction h with
  | nil => rfl
  | cons here _ ih => rw [List.map_cons, List.map_cons, ih, here.1]

/-- The items are determined by the profile. -/
theorem Annotated.unique {self : StackProfile F} {items items' : List (WeightedStack F × Option String)}
    (h : self.Annotated items) (h' : self.Annotated items') : items = items' := by
  refine List.right_unique_forall₂' (fun entry item item' yields yields' => ?_) h h'
  exact Prod.ext (yields.1.symm.trans yields'.1) (Except.ok.inj (yields.2.symm.trans yields'.2))

/-- A loop that returned looked up every annotation. -/
theorem annotated_of_forEach {σ : Type} {self : StackProfile F}
    {body : σ → WeightedStack F × Option String → Except Panic σ} {init last : σ}
    (run : self.forEach body init = .ok last) : ∃ items, self.Annotated items := by
  unfold forEach at run
  unfold Annotated
  generalize self.stacks = entries at run
  induction entries generalizing init with
  | nil => exact ⟨[], .nil⟩
  | cons entry entries ih =>
    rw [List.foldlM_cons] at run
    obtain ⟨s, here, run⟩ := bind_ok.1 run
    obtain ⟨anno, found, -⟩ := bind_ok.1 here
    obtain ⟨items, rest⟩ := ih run
    exact ⟨(entry.1, anno) :: items, .cons ⟨rfl, found⟩ rest⟩

/-- A known annotation keeps its index when another is appended. -/
theorem annotationOf_append {self : StackProfile F} {entries : List (WeightedStack F × Option Nat)}
    {more : List String} {anno : Option Nat} {text : Option String}
    (found : self.annotationOf anno = .ok text) :
    annotationOf ⟨self.annotations ++ more, entries, self.mappings⟩ anno = .ok text := by
  cases anno with
  | none => exact found
  | some idx =>
    obtain ⟨a, ha, rest⟩ := bind_ok.1 found
    rw [unwrap_ok] at ha
    have lt := (List.getElem?_eq_some_iff.1 ha).1
    simp only [annotationOf, List.getElem?_append_left lt, ha, unwrap, ok_bind]
    exact rest

/-- `push_stack` appends its arguments to what the iterator yields. -/
theorem pushStack_annotated {self : StackProfile F}
    {items : List (WeightedStack F × Option String)} (h : self.Annotated items)
    (stack : WeightedStack F) (anno : Option String) :
    (self.pushStack stack anno).Annotated (items ++ [(stack, anno)]) := by
  -- the annotations only grow, so earlier entries keep their texts
  have grown : ∀ more entry, annotationOf ⟨self.annotations ++ more, self.stacks ++ [entry], self.mappings⟩
        entry.2 = .ok anno → entry.1 = stack →
      Annotated ⟨self.annotations ++ more, self.stacks ++ [entry], self.mappings⟩
        (items ++ [(stack, anno)]) := by
    intro more entry found same
    refine List.rel_append ?_ (.cons ⟨same, found⟩ .nil)
    exact h.imp fun e i yields => ⟨yields.1, annotationOf_append yields.2⟩
  unfold pushStack
  split
  · rename_i text
    split
    · rename_i idx found
      obtain ⟨lt, same, -⟩ := List.findIdx?_eq_some_iff_getElem.1 found
      have text_at : self.annotations[idx]? = some text := by
        rw [List.getElem?_eq_getElem lt, ← eq_of_beq same]
      simpa using grown [] (stack, some idx) (by simp [annotationOf, text_at, unwrap]) rfl
    · exact grown [text] (stack, some self.annotations.length) (by simp [annotationOf, unwrap]) rfl
  · simpa using grown [] (stack, none) rfl rfl

/-- A sequence of `push_stack` calls. -/
def pushStacks (self : StackProfile F) (calls : List (WeightedStack F × Option String)) :
    StackProfile F :=
  calls.foldl (fun profile call => profile.pushStack call.1 call.2) self

/-- **Annotations are kept.** After any calls the iterator yields what was pushed. -/
theorem pushStacks_annotated {self : StackProfile F}
    {items : List (WeightedStack F × Option String)} (h : self.Annotated items)
    (calls : List (WeightedStack F × Option String)) :
    (self.pushStacks calls).Annotated (items ++ calls) := by
  induction calls generalizing self items with
  | nil => simpa [pushStacks] using h
  | cons call calls ih =>
    have next := ih (pushStack_annotated h call.1 call.2)
    simpa [pushStacks] using next

theorem default_annotated : (default : StackProfile F).Annotated [] := .nil

@[simp] theorem pushStack_mappings (self : StackProfile F) (stack : WeightedStack F)
    (anno : Option String) : (self.pushStack stack anno).mappings = self.mappings := by
  unfold pushStack
  split
  · split <;> rfl
  · rfl

@[simp] theorem pushStacks_mappings (self : StackProfile F)
    (calls : List (WeightedStack F × Option String)) :
    (self.pushStacks calls).mappings = self.mappings := by
  induction calls generalizing self with
  | nil => rfl
  | cons call calls ih => exact (ih _).trans (pushStack_mappings self call.1 call.2)

/-- Without annotations the entries are the stacks pushed. -/
theorem pushStacks_plain (self : StackProfile F) (ws : List (WeightedStack F)) :
    (self.pushStacks (ws.map fun w => (w, none))).stacks = self.stacks ++ ws.map fun w => (w, none) := by
  induction ws generalizing self with
  | nil => simp [pushStacks]
  | cons w ws ih =>
    have next := ih (self.pushStack w none)
    simpa [pushStacks, pushStack] using next

/-- Mappings are pushed in order. -/
theorem pushMappings_eq (mappings : List Mapping) (self : StackProfile F) :
    mappings.foldl pushMapping self = { self with mappings := self.mappings ++ mappings } := by
  induction mappings generalizing self with
  | nil => simp
  | cons m mappings ih =>
    rw [List.foldl_cons, ih]
    simp [pushMapping]

end StackProfile

end JemallocPprof
