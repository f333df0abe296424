import JemallocPprof.Convert.Returns

/-!
# Annotations and labels

An annotation belongs to a stack, but its label is pushed in the loop over the
frames: an annotated stack gets one label for each of its frames, and none when
it is empty. `labels_faithful_iff` says that the labels are the annotations
exactly for annotated stacks of one frame.
-/

namespace JemallocPprof
set_option autoImplicit false
open Lib

/-- One label for an annotation, none without. -/
def LabelFaithful (strings : List String) (annoKey : String) (anno : Option String)
    (labels : List Proto.Label) : Prop :=
  match anno with
  | some text => ∃ label, labels = [label] ∧ Reads strings label.key annoKey ∧ Reads strings label.str text
  | none => labels = []

/-- One sample for each call, labelled with its annotation. -/
def LabelsFaithful {F : Type} (annoKey : String) (calls : List (WeightedStack F × Option String))
    (p : Proto.Profile) : Prop :=
  List.Forall₂ (fun sample call => LabelFaithful p.stringTable annoKey call.2 sample.label) p.sample calls

variable {F : Type} [F64Cast F] {env : Env} {calls : List (WeightedStack F × Option String)}
  {sampleType periodType : String × String} {annoKey : Option String}

/-- A sample with the labels of its stack has one for the annotation exactly
when the stack has one frame. -/
theorem LabelsMatch.one_iff {strings : List String} {key : String} {anno : Option String} {depth : Nat}
    {labels : List Proto.Label} (h : LabelsMatch strings key anno depth labels) :
    LabelFaithful strings key anno labels ↔ (anno.isSome = true → depth = 1) := by
  have count := h.count
  cases anno with
  | none => simpa [LabelFaithful] using count
  | some text =>
    simp only [LabelFaithful, Option.isSome_some, if_true, forall_const] at count ⊢
    constructor
    · rintro ⟨label, one, -⟩
      rw [← count, one, List.length_singleton]
    · intro one
      obtain ⟨label, rfl⟩ := List.length_eq_one_iff.1 (count.trans one)
      exact ⟨label, rfl, h.text label (List.mem_singleton_self label) text rfl⟩

theorem Describes.labels_faithful {mappings : List Mapping} {frames : List Frame} {key : String}
    {p : Proto.Profile} (h : Describes env mappings frames calls sampleType periodType key p) :
    LabelsFaithful key calls p ↔
      ∀ call ∈ calls, call.2.isSome = true → call.1.addrs.length = 1 := by
  constructor
  · intro faithful call mem
    have both := h.sample.mp (fun _ _ => And.intro) faithful
    obtain ⟨sample, -, told, labels⟩ := exists_of_mem_right both mem
    exact told.label.one_iff.1 labels
  · intro single
    have told := h.sample
    rw [List.forall₂_iff_zip] at told
    refine List.forall₂_iff_zip.2 ⟨told.1, fun {sample call} pair => ?_⟩
    exact (told.2 pair).label.one_iff.2 (single call (List.of_mem_zip pair).2)

/-- Without mappings an address only has to be nonzero. -/
theorem frameFits_unmapped {addr : UInt64} (nonzero : addr ≠ 0) : FrameFits [] addr :=
  ⟨nonzero, fun m idx found => by cases found⟩

/-- **Annotation fidelity.** Of stacks pushed on an empty profile, with nonzero
addresses, the conversion returns one sample per call with the right labels
exactly when the weights are i64 and every annotated stack has one frame. -/
theorem labels_faithful_iff (nonzero : ∀ call ∈ calls, ∀ addr ∈ call.1.addrs, addr ≠ 0)
    (clock : env.ClockFits)
    (fits : StringsFit env (StackProfile.default.pushStacks calls) sampleType periodType annoKey) :
    (∃ p, toPprofProto env (StackProfile.default.pushStacks calls) sampleType periodType annoKey = .ok p ∧
      LabelsFaithful (annoKey.getD "annotation") calls p) ↔
    (∀ call ∈ calls, ∃ v, i64TryCastFrom (F64Cast.trunc call.1.weight) = some v) ∧
      ∀ call ∈ calls, call.2.isSome = true → call.1.addrs.length = 1 := by
  have annotated : (StackProfile.default.pushStacks calls).Annotated calls :=
    StackProfile.pushStacks_annotated StackProfile.default_annotated calls
  have returns := toPprofProto_returns annotated clock fits
  rw [StackProfile.pushStacks_mappings] at returns
  have describes : ∀ p, toPprofProto env (StackProfile.default.pushStacks calls) sampleType periodType
      annoKey = .ok p → (LabelsFaithful (annoKey.getD "annotation") calls p ↔
        ∀ call ∈ calls, call.2.isSome = true → call.1.addrs.length = 1) := by
    intro p run
    obtain ⟨items, annotated', h⟩ := toPprofProto_describes run
    obtain rfl := annotated.unique annotated'
    exact h.labels_faithful
  constructor
  · rintro ⟨p, run, faithful⟩
    exact ⟨fun call mem => (returns.1 ⟨p, run⟩ call mem).weight, (describes p run).1 faithful⟩
  · rintro ⟨weights, single⟩
    obtain ⟨p, run⟩ := returns.2 fun call mem =>
      ⟨weights call mem, fun _ addr here => frameFits_unmapped (nonzero call mem addr here)⟩
    exact ⟨p, run, (describes p run).2 single⟩

/-- A checked build without symbols. -/
def noSymbols : Env where
  overflowChecks := true
  now := 0
  symbolize := none

/-- An annotated stack of one frame, and a deeper one without annotation. -/
def shallowCalls : List (WeightedStack (ExtNum ℤ) × Option String) :=
  [(⟨[0x1101], .fin 8⟩, some "startup"), (⟨[0x1101, 0x2202], .fin 16⟩, none)]

theorem labels_faithful_shallowCalls : ∃ p,
    toPprofProto noSymbols (StackProfile.default.pushStacks shallowCalls) ("", "") ("", "") none = .ok p ∧
    LabelsFaithful "annotation" shallowCalls p := by
  have fits : StringsFit noSymbols (StackProfile.default.pushStacks shallowCalls) ("", "") ("", "") none := by
    unfold StringsFit
    decide +kernel
  refine (labels_faithful_iff (by decide +kernel) ⟨by decide, by decide⟩ fits).2 ⟨?_, by decide +kernel⟩
  intro call mem
  exact Option.isSome_iff_exists.1 ((by decide +kernel : ∀ call ∈ shallowCalls,
    (i64TryCastFrom (F64Cast.trunc call.1.weight)).isSome = true) call mem)

/-- An annotated stack of two frames. -/
def deepCalls : List (WeightedStack (ExtNum ℤ) × Option String) :=
  [(⟨[0x1101, 0x2202], .fin 8⟩, some "startup")]

/-- Two labels for one annotation. -/
theorem deepCalls_labelled_twice : ∃ p,
    toPprofProto noSymbols (StackProfile.default.pushStacks deepCalls) ("", "") ("", "") none = .ok p ∧
    ¬LabelsFaithful "annotation" deepCalls p := by
  obtain ⟨p, run⟩ := exists_ok (x := toPprofProto noSymbols (StackProfile.default.pushStacks deepCalls)
    ("", "") ("", "") none) (by decide +kernel)
  obtain ⟨items, annotated, h⟩ := toPprofProto_describes run
  obtain rfl := annotated.unique (StackProfile.pushStacks_annotated StackProfile.default_annotated deepCalls)
  exact ⟨p, run, fun faithful => absurd (h.labels_faithful.1 faithful) (by decide +kernel)⟩

end JemallocPprof
