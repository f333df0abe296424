import JemallocPprof.Convert.Returns
import JemallocPprof.Double

/-!
# Attempted casts

Each cast of `cast.rs` is exact but at one number: the one past the greatest
member of the integer type, or that member (`casts_exact`). There the rounding
undoes the saturation, and the value is given for the other. So a weight is
stored truncated, except that 2^63 is stored as the greatest i64
(`Stored`); any other weight that an i64 does not hold stops the conversion.
-/

namespace JemallocPprof
set_option autoImplicit false
open Lib

/-- The cast returns a value just where the target type has one that is the
same number, and it is that one. -/
def ExactAt {α β : Type} (cast : α → Option β) (Same : α → β → Prop) (a : α) : Prop :=
  (∀ b, cast a = some b → Same a b) ∧ ((∃ b, Same a b) → ∃ b, cast a = some b)

/-- The cast is exact but at an edge, where it gives something else. -/
structure ExactBut {α β : Type} (cast : α → Option β) (Same : α → β → Prop) (Edge : α → Prop) (Given : β → Prop) :
    Prop where
  exact_iff : ∀ a, ExactAt cast Same a ↔ ¬Edge a
  edge : ∀ a, Edge a → ∃ b, cast a = some b ∧ Given b

theorem ExactBut.of {α β : Type} {cast : α → Option β} {Same : α → β → Prop} {Edge : α → Prop} {Given : β → Prop}
    (sound : ∀ a b, cast a = some b → Same a b ∨ Edge a) (complete : ∀ a b, Same a b → ∃ b, cast a = some b)
    (edge : ∀ a, Edge a → ∃ b, cast a = some b ∧ Given b ∧ ¬Same a b) : ExactBut cast Same Edge Given := by
  refine ⟨fun a => ⟨?_, ?_⟩, ?_⟩
  · intro exact_ at_edge
    obtain ⟨b, given, -, other⟩ := edge a at_edge
    exact other (exact_.1 b given)
  · intro inside
    refine ⟨?_, ?_⟩
    · intro b given
      exact (sound a b given).resolve_right inside
    · rintro ⟨b, same⟩
      exact complete a b same
  · intro a at_edge
    obtain ⟨b, given, what, -⟩ := edge a at_edge
    exact ⟨b, given, what⟩

/-- From f64: the edge is the number past the type, which is given for its greatest member. -/
theorem ExactBut.ofF64 {β : Type} {cast : Binary64 → Option β} {Same : Binary64 → β → Prop} {Given : β → Prop}
    {past : Int} (cast_iff : ∀ x b, cast x = some b ↔ Same x b ∨ (Denotes x past ∧ Given b)) (top : β)
    (given : Given top) (apart : ∀ x, Denotes x past → ¬Same x top) : ExactBut cast Same (Denotes · past) Given := by
  apply ExactBut.of
  · intro x b result
    exact ((cast_iff x b).1 result).imp id And.left
  · intro x b same
    exact ⟨b, (cast_iff x b).2 (.inl same)⟩
  · intro x there
    exact ⟨top, (cast_iff x top).2 (.inr ⟨there, given⟩), given, apart x there⟩

/-- To f64: the edge is the greatest member, which is given the number past it. -/
theorem ExactBut.toF64 {α : Type} {cast : α → Option Binary64} {num : α → Int} {top past : Int}
    (cast_iff : ∀ a y, cast a = some y ↔ y = Binary64.ofInt (num a) ∧ (Denotes y (num a) ∨ num a = top))
    (rounds : Denotes (Binary64.ofInt top) past) (apart : past ≠ top) :
    ExactBut cast (fun a y => Denotes y (num a)) (num · = top) (Denotes · past) := by
  apply ExactBut.of
  · intro a y result
    exact ((cast_iff a y).1 result).2
  · intro a y same
    exact ⟨_, (cast_iff a _).2 ⟨rfl, .inl (denotes_ofInt same)⟩⟩
  · intro a there
    refine ⟨_, (cast_iff a _).2 ⟨rfl, .inr there⟩, ?_, ?_⟩
    · rw [there]
      exact rounds
    · rw [there]
      intro same
      exact apart (rounds.unique same)

theorem i64TryCastFrom_exact : ExactBut i64TryCastFrom (fun (x : Binary64) i => InI64 i ∧ Denotes x i)
    (Denotes · (2 ^ 63)) (· = i64Max) := by
  apply ExactBut.ofF64 (fun x i => i64TryCastFrom_iff) i64Max rfl
  rintro x past ⟨-, same⟩
  exact absurd (past.unique same) (by decide)

theorem u64TryCastFrom_exact : ExactBut u64TryCastFrom (fun x n => Denotes x n.toNat)
    (Denotes · (2 ^ 64)) (fun n => (n.toNat : Int) = u64Max) := by
  have top : ((0xFFFFFFFFFFFFFFFF : UInt64).toNat : Int) = u64Max := by decide +kernel
  apply ExactBut.ofF64 (fun x n => u64TryCastFrom_iff) 0xFFFFFFFFFFFFFFFF top
  intro x past same
  rw [top] at same
  exact absurd (past.unique same) (by decide)

theorem f64TryCastFromI64_exact : ExactBut f64TryCastFromI64 (fun i y => Denotes y i.toInt)
    (·.toInt = i64Max) (Denotes · (2 ^ 63)) := by
  have rounds : Denotes (Binary64.ofInt i64Max) (2 ^ 63) := by decide +kernel
  exact ExactBut.toF64 (fun i y => f64TryCastFromI64_iff) rounds (by decide)

theorem f64TryCastFromU64_exact : ExactBut f64TryCastFromU64 (fun n y => Denotes y n.toNat)
    (fun n => (n.toNat : Int) = u64Max) (Denotes · (2 ^ 64)) := by
  have rounds : Denotes (Binary64.ofInt u64Max) (2 ^ 64) := by decide +kernel
  exact ExactBut.toF64 (fun n y => f64TryCastFromU64_iff) rounds (by decide)

/-- A sample of this weight has the value `v`. -/
def Stored (weight : Binary64) (v : Int) : Prop :=
  (InI64 v ∧ ExtNum.trunc weight.value = .fin (v : Rat)) ∨
    (ExtNum.trunc weight.value = .fin ((2 ^ 63 : Int) : Rat) ∧ v = i64Max)

theorem stored_iff {weight : Binary64} {v : Int} :
    i64TryCastFrom (F64Cast.trunc weight) = some v ↔ Stored weight v := by
  have truncated : (F64Cast.trunc weight).value = ExtNum.trunc weight.value := Binary64.value_trunc weight
  rw [i64TryCastFrom_iff, Denotes, Denotes, truncated]
  rfl

/-- What a conversion does with the weights. -/
structure WeightsStored (env : Env) (profile : StackProfile Binary64) (sampleType periodType : String × String)
    (annoKey : Option String) : Prop where
  stored : ∀ p, toPprofProto env profile sampleType periodType annoKey = .ok p →
    List.Forall₂ (fun sample stack => ∃ v, sample.value = [v] ∧ Stored stack.weight v) p.sample
      (profile.stacks.map Prod.fst)
  /-- A weight that cannot be stored stops its sample, and the conversion. -/
  refused : ∀ entry ∈ profile.stacks, (∀ v, ¬Stored entry.1.weight v) →
    (∀ annoKey b anno, Builder.pushSample env profile.mappings annoKey b (entry.1, anno) =
      .error (.expectFailed "no exabyte heap sizes")) ∧
    ∃ panic, toPprofProto env profile sampleType periodType annoKey = .error panic

theorem weights_stored (env : Env) (profile : StackProfile Binary64) (sampleType periodType : String × String)
    (annoKey : Option String) : WeightsStored env profile sampleType periodType annoKey := by
  have stored : ∀ p, toPprofProto env profile sampleType periodType annoKey = .ok p →
      List.Forall₂ (fun sample stack => ∃ v, sample.value = [v] ∧ Stored stack.weight v) p.sample
        (profile.stacks.map Prod.fst) := by
    intro p run
    obtain ⟨items, annotated, h⟩ := toPprofProto_describes run
    rw [← annotated.map_fst, List.forall₂_map_right_iff]
    apply h.sample.imp
    intro sample item sampled
    obtain ⟨v, cast, value⟩ := sampled.value
    exact ⟨v, value, stored_iff.1 cast⟩
  refine ⟨stored, ?_⟩
  intro entry mem outside
  have none : i64TryCastFrom (F64Cast.trunc entry.1.weight) = none := by
    apply Option.eq_none_iff_forall_ne_some.2
    intro v given
    exact outside v (stored_iff.1 given)
  constructor
  · intro annoKey b anno
    rw [Builder.pushSample, none]
    rfl
  · cases run : toPprofProto env profile sampleType periodType annoKey with
    | error panic => exact ⟨panic, rfl⟩
    | ok p =>
      obtain ⟨sample, -, v, -, held⟩ := exists_of_mem_right (stored p run) (List.mem_map_of_mem mem)
      exact absurd held (outside v)

/-- **Attempted casts are exact** but at the upper edge of the integer type, and so
are the stored weights. -/
theorem casts_exact :
    ExactBut i64TryCastFrom (fun (x : Binary64) i => InI64 i ∧ Denotes x i) (Denotes · (2 ^ 63)) (· = i64Max) ∧
    ExactBut u64TryCastFrom (fun x n => Denotes x n.toNat) (Denotes · (2 ^ 64)) (fun n => (n.toNat : Int) = u64Max) ∧
    ExactBut f64TryCastFromI64 (fun i y => Denotes y i.toInt) (·.toInt = i64Max) (Denotes · (2 ^ 63)) ∧
    ExactBut f64TryCastFromU64 (fun n y => Denotes y n.toNat) (fun n => (n.toNat : Int) = u64Max) (Denotes · (2 ^ 64)) ∧
    ∀ env profile sampleType periodType annoKey, WeightsStored env profile sampleType periodType annoKey :=
  ⟨i64TryCastFrom_exact, u64TryCastFrom_exact, f64TryCastFromI64_exact, f64TryCastFromU64_exact, weights_stored⟩

/-- 2^63 is cast to the greatest i64, and likewise at the other edges. -/
theorem edges_not_exact :
    ¬ExactAt i64TryCastFrom (fun (x : Binary64) i => InI64 i ∧ Denotes x i) (Binary64.encode false (2 ^ 63)) ∧
    ¬ExactAt u64TryCastFrom (fun x n => Denotes x n.toNat) (Binary64.encode false (2 ^ 64)) ∧
    ¬ExactAt f64TryCastFromI64 (fun i y => Denotes y i.toInt) Int64.maxValue ∧
    ¬ExactAt f64TryCastFromU64 (fun n y => Denotes y n.toNat) 0xFFFFFFFFFFFFFFFF := by
  refine ⟨?_, ?_, ?_, ?_⟩
  · rintro ⟨sound, -⟩
    exact absurd (sound i64Max (by decide +kernel)).2 (by decide +kernel)
  · rintro ⟨sound, -⟩
    exact absurd (sound 0xFFFFFFFFFFFFFFFF (by decide +kernel)) (by decide +kernel)
  · rintro ⟨sound, -⟩
    exact absurd (sound (Binary64.encode false (2 ^ 63)) (by decide +kernel)) (by decide +kernel)
  · rintro ⟨sound, -⟩
    exact absurd (sound (Binary64.encode false (2 ^ 64)) (by decide +kernel)) (by decide +kernel)

end JemallocPprof
