import JemallocPprof.Dump.Read
import Mathlib.Analysis.Complex.Exponential

/-!
# Weights

Read with exact reals, a weight is the estimate of jeprof's `AdjustSamples`,
between the bytes sampled and one sampling interval more for each object
(`estimate_bounds`). `AdjustSamples` leaves a record without objects alone; the
parser divides by its count, and zero by zero is no number.
-/

namespace JemallocPprof
set_option autoImplicit false
open Lib

/-- The operations of f64 without rounding. -/
noncomputable instance exactF64 : F64 (ExtNum ℝ) where
  toF64Cast := exactCast
  ofRat q := .fin (q : ℝ)
  inf := .inf false
  nan := .nan
  neg := ExtNum.neg
  exp := ExtNum.exp Real.exp
  sub := ExtNum.sub
  mul := ExtNum.mul
  div := ExtNum.div

/-- Ten terms of the exponential. -/
def expTerms (x : ℚ) : ℚ := (List.range 10).foldr (fun n sum => 1 + x / (n + 1) * sum) 1

/-- Rational numbers as f64 values. -/
instance rationalF64 : F64 (ExtNum ℚ) where
  toF64Cast := exactCast
  ofRat := .fin
  inf := .inf false
  nan := .nan
  neg := ExtNum.neg
  exp := ExtNum.exp expTerms
  sub := ExtNum.sub
  mul := ExtNum.mul
  div := ExtNum.div

/-- The bytes that `bytes` sampled in `objs` objects stand for. -/
noncomputable def estimate (rate : ℝ) (objs bytes : Nat) : ℝ :=
  bytes * (1 / (1 - Real.exp (-((bytes : ℝ) / objs / rate))))

section Estimate
variable {rate : ℝ} {objs bytes : Nat}

theorem scale_pos {x : ℝ} (positive : 0 < x) : 0 < 1 - Real.exp (-x) := by
  have below : Real.exp (-x) < 1 := Real.exp_lt_one_iff.2 (neg_lt_zero.2 positive)
  linarith

/-- `x / (1 - e^(-x))` exceeds `x` by at most one. -/
theorem scale_le {x : ℝ} (positive : 0 < x) : 1 / (1 - Real.exp (-x)) ≤ (1 + x) / x := by
  rw [div_le_div_iff₀ (scale_pos positive) positive]
  have growth : x + 1 ≤ Real.exp x := Real.add_one_le_exp x
  have inverse : Real.exp x * Real.exp (-x) = 1 := by rw [← Real.exp_add, add_neg_cancel, Real.exp_zero]
  have bound : (x + 1) * Real.exp (-x) ≤ 1 := by
    calc (x + 1) * Real.exp (-x) ≤ Real.exp x * Real.exp (-x) :=
          mul_le_mul_of_nonneg_right growth (Real.exp_pos _).le
      _ = 1 := inverse
  linarith

/-- **The estimate's bounds.** -/
theorem estimate_bounds (positive : 0 < rate) (sampled : 0 < objs) (sized : objs ≤ bytes) :
    (bytes : ℝ) ≤ estimate rate objs bytes ∧ estimate rate objs bytes ≤ bytes + objs * rate := by
  have objs_pos : (0 : ℝ) < objs := by exact_mod_cast sampled
  have bytes_pos : (0 : ℝ) < bytes := by exact_mod_cast Nat.lt_of_lt_of_le sampled sized
  have ratio_pos : 0 < (bytes : ℝ) / objs / rate := by positivity
  have scale := scale_pos ratio_pos
  constructor
  · have one_le : 1 ≤ 1 / (1 - Real.exp (-((bytes : ℝ) / objs / rate))) := by
      rw [le_div_iff₀ scale]
      linarith [Real.exp_pos (-((bytes : ℝ) / objs / rate))]
    exact le_mul_of_one_le_right bytes_pos.le one_le
  · calc estimate rate objs bytes
        ≤ bytes * ((1 + bytes / objs / rate) / (bytes / objs / rate)) :=
          mul_le_mul_of_nonneg_left (scale_le ratio_pos) bytes_pos.le
      _ = bytes + objs * rate := by
          field_simp
          ring

end Estimate

section Weight
variable {rate : ℝ} {record : Record}

/-- The weight of a record with objects. -/
theorem weight_sampled (positive : 0 < rate) (sampled : 0 < record.counts.objs)
    (sized : record.counts.objs ≤ record.counts.bytes) :
    record.weight (ExtNum.fin rate) = .fin (estimate rate record.counts.objs record.counts.bytes) := by
  have objs_pos : (0 : ℝ) < record.counts.objs := by exact_mod_cast sampled
  have bytes_pos : (0 : ℝ) < record.counts.bytes := by exact_mod_cast Nat.lt_of_lt_of_le sampled sized
  have ratio_pos : 0 < (record.counts.bytes : ℝ) / record.counts.objs / rate := by positivity
  have scale := scale_pos ratio_pos
  simp only [Record.weight, unbias, F64.ofRat, F64.div, F64.sub, F64.exp, F64.neg, F64.mul]
  rw [ExtNum.fin_div_fin (by exact_mod_cast objs_pos.ne'), ExtNum.fin_div_fin positive.ne']
  simp only [ExtNum.neg, ExtNum.exp, ExtNum.fin_sub_fin, Rat.cast_natCast, Rat.cast_one]
  rw [ExtNum.fin_div_fin scale.ne', ExtNum.fin_mul_fin, estimate]

/-- The weight of an empty record. -/
theorem weight_empty (objs : record.counts.objs = 0) (bytes : record.counts.bytes = 0) :
    record.weight (ExtNum.fin rate) = .nan := by
  simp [Record.weight, unbias, F64.ofRat, F64.div, F64.sub, F64.exp, F64.neg, F64.mul, objs, bytes,
    ExtNum.div, ExtNum.neg, ExtNum.exp]

/-- Bytes without objects are taken as they are: infinitely many for each object. -/
theorem weight_unsampled (positive : 0 < rate) (objs : record.counts.objs = 0)
    (bytes : record.counts.bytes ≠ 0) :
    record.weight (ExtNum.fin rate) = .fin (record.counts.bytes : ℝ) := by
  have natural : ¬(record.counts.bytes : ℝ) < 0 := not_lt.2 (Nat.cast_nonneg _)
  simp [Record.weight, unbias, F64.ofRat, F64.div, F64.sub, F64.exp, F64.neg, F64.mul, objs, bytes,
    ExtNum.div, ExtNum.neg, ExtNum.exp, not_lt.2 positive.le, natural]

/-- An estimate below the i64 range's end is inside it. -/
theorem weight_inRange (positive : 0 < rate) (sampled : 0 < record.counts.objs)
    (sized : record.counts.objs ≤ record.counts.bytes)
    (below : estimate rate record.counts.objs record.counts.bytes < 2 ^ 63) :
    InI64Range (record.weight (ExtNum.fin rate)) := by
  have bounds := estimate_bounds positive sampled sized
  refine ⟨_, by rw [weight_sampled positive sampled sized]; rfl, ?_, below⟩
  have natural : (0 : ℝ) ≤ record.counts.bytes := Nat.cast_nonneg _
  have power : (0 : ℝ) ≤ 2 ^ 63 := by positivity
  linarith [bounds.1]

end Weight

/-- The weight is a number that is cast to its truncation, and it is the
record's: nothing for no objects, the estimate's range otherwise. -/
def WeightFaithful (rate : ℝ) (counts : Counts) (weight : ExtNum ℝ) : Prop :=
  ∃ x : ℝ, weight = .fin x ∧ i64TryCastFrom (F64Cast.trunc weight) = some (truncate x) ∧
    (counts.objs = 0 → x = 0) ∧
    (counts.objs ≠ 0 → (counts.bytes : ℝ) ≤ x ∧ x ≤ counts.bytes + counts.objs * rate)

/-- The stacks of a dump's profile are those of its records. -/
theorem Dump.profile_stacks {F : Type} [F64 F] (dump : Dump) (rate : F) (mappings : List Mapping) :
    (dump.profile rate mappings).stacks = dump.records.map fun record => (record.stack rate, none) := by
  have plain := StackProfile.pushStacks_plain StackProfile.default
    (dump.records.map fun record => record.stack rate)
  simpa [Dump.profile, StackProfile.default, Function.comp_def] using plain

/-- **Weights.** Of a dump with a positive rate and estimates below 2^63, every
weight is the record's exactly when every record has objects. -/
theorem weights_faithful_iff (dump : Dump) {rate : ℝ}
    (read : parseF64 dump.rate.chars = some (ExtNum.fin rate)) (positive : 0 < rate)
    (counts : ∀ record ∈ dump.records, record.counts.objs ≤ record.counts.bytes)
    (below : ∀ record ∈ dump.records, record.counts.objs ≠ 0 →
      estimate rate record.counts.objs record.counts.bytes < 2 ^ 63) (mappings : Option (List Mapping)) :
    (∃ profile : StackProfile (ExtNum ℝ), parseJeheap (bufReadLines dump.text) mappings = .ok profile ∧
      List.Forall₂ (fun record entry => WeightFaithful rate record.counts entry.1.weight)
        dump.records profile.stacks) ↔
    ∀ record ∈ dump.records, record.counts.objs ≠ 0 := by
  have parsed := parseJeheap_text dump read mappings
  constructor
  · rintro ⟨profile, parsed', faithful⟩ record mem empty
    obtain rfl := Except.ok.inj (parsed.symm.trans parsed')
    rw [Dump.profile_stacks, List.forall₂_map_right_iff, List.forall₂_same] at faithful
    obtain ⟨x, finite, -, zero, -⟩ := faithful record mem
    rw [zero empty] at finite
    by_cases bytes : record.counts.bytes = 0
    · cases (weight_empty empty bytes).symm.trans finite
    · have weight := ExtNum.fin.inj ((weight_unsampled positive empty bytes).symm.trans finite)
      exact bytes (by exact_mod_cast weight)
  · intro sampled
    refine ⟨_, parsed, ?_⟩
    rw [Dump.profile_stacks, List.forall₂_map_right_iff, List.forall₂_same]
    intro record mem
    have some := sampled record mem
    have sized := counts record mem
    have weight := weight_sampled positive (Nat.pos_of_ne_zero some) sized
    obtain ⟨x, real, lo, hi⟩ := weight_inRange positive (Nat.pos_of_ne_zero some) sized (below record mem some)
    have finite := exactReal_eq_some.1 real
    cases finite.symm.trans weight
    exact ⟨_, finite, cast_trunc real lo hi, fun none => absurd none some,
      fun _ => estimate_bounds positive (Nat.pos_of_ne_zero some) sized⟩

/-- jemalloc's default rate. -/
def defaultRate : RateText := ⟨"524288".toList, by decide⟩

/-- A dump of two records, the second with an empty stack. -/
def busyDump : Dump where
  rate := defaultRate
  summary := ⟨14, 6752, 0, 0⟩
  threads := [(0, ⟨14, 6752, 0, 0⟩)]
  records := [⟨[0x1101, 0x2101, 0x1101], ⟨13, 6688, 0, 0⟩, [(0, ⟨13, 6688, 0, 0⟩)]⟩, ⟨[], ⟨1, 64, 0, 0⟩, []⟩]
  libraries := [⟨"7f0000001000-7f0000003000 r-xp 00001000 /lib/libc.so".toList, by decide, by decide, by decide⟩]

theorem defaultRate_read : parseF64 defaultRate.chars = some (ExtNum.fin (524288 : ℝ)) := by
  have read := parseF64_decimal (F := ExtNum ℝ) 524288
  have digits : decimal 524288 = defaultRate.chars := by decide
  rw [digits] at read
  rw [read]
  simp [F64.ofRat]

theorem busyDump_below : ∀ record ∈ busyDump.records, record.counts.objs ≠ 0 →
    estimate 524288 record.counts.objs record.counts.bytes < 2 ^ 63 := by
  have first : estimate 524288 13 6688 ≤ _ := (estimate_bounds (by norm_num) (by decide) (by decide)).2
  have second : estimate 524288 1 64 ≤ _ := (estimate_bounds (by norm_num) (by decide) (by decide)).2
  simp only [busyDump, List.forall_mem_cons]
  exact ⟨fun _ => first.trans_lt (by norm_num), fun _ => second.trans_lt (by norm_num), by simp⟩

theorem weights_faithful_busyDump : ∃ profile : StackProfile (ExtNum ℝ),
    parseJeheap (bufReadLines busyDump.text) none = .ok profile ∧
    List.Forall₂ (fun record entry => WeightFaithful 524288 record.counts entry.1.weight)
      busyDump.records profile.stacks :=
  (weights_faithful_iff busyDump defaultRate_read (by norm_num) (by decide) busyDump_below none).2 (by decide)

/-- A record with accumulated counts only. -/
def emptyRecord : Dump where
  rate := defaultRate
  summary := ⟨0, 0, 5, 640⟩
  threads := []
  records := [⟨[0x1101], ⟨0, 0, 5, 640⟩, []⟩]
  libraries := []

/-- Its weight is no number, and the cast refuses it. -/
theorem emptyRecord_not_weighed : ∃ profile : StackProfile (ExtNum ℝ),
    parseJeheap (bufReadLines emptyRecord.text) none = .ok profile ∧
    (∃ entry ∈ profile.stacks, i64TryCastFrom (F64Cast.trunc entry.1.weight) = none) ∧
    ¬List.Forall₂ (fun record entry => WeightFaithful 524288 record.counts entry.1.weight)
      emptyRecord.records profile.stacks := by
  refine ⟨_, parseJeheap_text emptyRecord defaultRate_read none, ?_, fun faithful => ?_⟩
  all_goals
    have nan : (⟨[0x1101], ⟨0, 0, 5, 640⟩, []⟩ : Record).weight (ExtNum.fin (524288 : ℝ)) = .nan :=
      weight_empty rfl rfl
  · rw [Dump.profile_stacks]
    exact ⟨_, List.mem_cons_self,
      (congrArg (fun w => i64TryCastFrom (F64Cast.trunc w)) nan).trans nan_not_cast⟩
  · rw [Dump.profile_stacks, List.forall₂_map_right_iff, List.forall₂_same] at faithful
    obtain ⟨x, finite, -⟩ := faithful _ List.mem_cons_self
    cases nan.symm.trans finite

end JemallocPprof
