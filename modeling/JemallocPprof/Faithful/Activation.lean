import JemallocPprof.Control

/-!
# The controller and `prof.active`

`activated` is to say whether jemalloc's `prof.active` is on. Every call keeps
that but one: `deactivate` turns the flag off, and when the write of
`prof.reset` then fails it returns before it clears the start time. From there
on `activate_jemalloc_profiling` takes the profiler for active and does nothing.
`tracks_iff` says that a run goes right exactly when this never happens in it.
-/

namespace JemallocPprof
set_option autoImplicit false
open Lib

namespace Process

/-- The controller, if there is one, knows whether `prof.active` is on. -/
def InSync (p : Process) : Prop := ∀ ctl, p.force = some ctl → ctl.activated = p.jemalloc.profActive

/-- A call that returns an error leaves the flag and the start time as they were. -/
def FailsCleanly (p : Process) (input : Call × Answers) : Prop :=
  ∀ error, p.report input = .activate (.error error) ∨ p.report input = .deactivate (.error error) →
    (p.step input).jemalloc.profActive = p.jemalloc.profActive ∧ (p.step input).startTime = p.startTime

/-- A start time stays unless the call is a deactivation that succeeds. -/
def KeepsStart (p : Process) (input : Call × Answers) : Prop :=
  p.report input ≠ .deactivate (.ok ()) → ∀ t, p.startTime = some t → (p.step input).startTime = some t

/-- What is wanted of a run: the states it reaches are in sync, and each of its
calls fails cleanly and keeps the start time. -/
structure Tracks (p : Process) (inputs : List (Call × Answers)) : Prop where
  inSync : ∀ done, done <+: inputs → (after step p done).InSync
  failsCleanly : Along step FailsCleanly p inputs
  keepsStart : Along step KeepsStart p inputs

/-- The profiler is on and is being deactivated, and of the two writes only the
first succeeds. -/
def ResetFails (p : Process) (input : Call × Answers) : Prop :=
  p.force.isSome = true ∧ p.jemalloc.profActive = true ∧
    (input.1 = .deactivate ∨ input.1 = .deactivateJemallocProfiling) ∧
    input.2.active = none ∧ input.2.reset.isSome = true

variable {p : Process} {input : Call × Answers} {inputs : List (Call × Answers)}

theorem start_inSync (optProf optProfActive : Bool) (lgSample : UInt64) :
    (start optProf optProfActive lgSample).InSync := by
  intro ctl forced
  cases optProf with
  | false => cases forced
  | true =>
    cases optProfActive with
    | false => exact (Option.some.inj forced) ▸ rfl
    | true => exact (Option.some.inj forced) ▸ rfl

/-- A controller that is there stays there, with the start time the call left. -/
theorem startTime_mk (jemalloc : Jemalloc) (ctl : JemallocProfCtl) :
    startTime ⟨jemalloc, some (some ctl)⟩ = ctl.startTime := rfl

theorem inSync_mk {jemalloc : Jemalloc} {ctl : JemallocProfCtl} :
    InSync ⟨jemalloc, some (some ctl)⟩ ↔ ctl.activated = jemalloc.profActive := by
  constructor
  · intro h
    exact h ctl rfl
  · intro h ctl' forced
    exact (Option.some.inj forced) ▸ h

/-- **One call.** Unless the reset fails, a call keeps the two in sync, fails
cleanly and keeps the start time. -/
theorem step_tracks (inSync : p.InSync) (fine : ¬ResetFails p input) :
    (p.step input).InSync ∧ FailsCleanly p input ∧ KeepsStart p input := by
  cases forced : p.force with
  | none =>
    obtain ⟨reported, stepped⟩ := step_disabled input forced
    have held : p.startTime = none := by rw [startTime, forced, Option.bind_none]
    rw [FailsCleanly, KeepsStart, stepped, held]
    refine ⟨?_, ?_, ?_⟩
    · intro ctl none_there
      cases none_there
    · intro error _
      exact ⟨rfl, rfl⟩
    · intro _ t absent
      cases absent
  | some ctl =>
    obtain ⟨s, performed, stepped⟩ := step_enabled input forced
    have held : p.startTime = ctl.startTime := by rw [startTime, forced, Option.bind_some]
    have agreed := inSync ctl forced
    rw [FailsCleanly, KeepsStart, stepped, held, startTime_mk, inSync_mk]
    generalize p.report input = report at performed
    cases performed with
    | nothing => exact ⟨agreed, fun _ _ => ⟨rfl, rfl⟩, fun _ _ kept => kept⟩
    | activateFailed error => exact ⟨agreed, fun _ _ => ⟨rfl, rfl⟩, fun _ _ kept => kept⟩
    | activated startTime kept =>
      refine ⟨rfl, ?_, ?_⟩
      · intro error failed
        rcases failed with failed | failed <;> cases failed
      · intro _ t held
        rw [kept t held]
    | deactivateFailed error => exact ⟨agreed, fun _ _ => ⟨rfl, rfl⟩, fun _ _ kept => kept⟩
    | resetFailed error deactivates written failed =>
      -- the profiler was off, so the first write changed nothing
      have off : p.jemalloc.profActive = false := by
        rw [← Bool.not_eq_true]
        intro on
        apply fine
        refine ⟨by rw [forced]; rfl, on, deactivates.imp_right And.left, written, ?_⟩
        rw [failed]
        rfl
      exact ⟨agreed.trans off, fun _ _ => ⟨off.symm, rfl⟩, fun _ _ kept => kept⟩
    | deactivated =>
      refine ⟨rfl, ?_, ?_⟩
      · intro error failed
        rcases failed with failed | failed <;> cases failed
      · intro other
        exact absurd rfl other

/-- In sync, a reset that fails is no clean failure: the flag goes off. -/
theorem not_failsCleanly_of_resetFails (inSync : p.InSync) (fails : ResetFails p input) :
    ¬FailsCleanly p input := by
  obtain ⟨call, answers⟩ := input
  obtain ⟨there, on, deactivates, written, failed⟩ := fails
  obtain ⟨ctl, forced⟩ := Option.isSome_iff_exists.1 there
  obtain ⟨error, failed⟩ := Option.isSome_iff_exists.1 failed
  have active : ctl.activated = true := (inSync ctl forced).trans on
  have performed : Locked.perform call answers ⟨p.jemalloc, ctl⟩ =
      (.deactivate (.error error), ⟨{ p.jemalloc with profActive := false }, ctl⟩) := by
    rw [← Locked.deactivate_reset_failed (s := ⟨p.jemalloc, ctl⟩) written failed]
    rcases deactivates with direct | wrapped
    · simp only at direct
      rw [direct, Locked.perform]
    · simp only at wrapped
      rw [wrapped, Locked.perform, Locked.deactivateJemallocProfiling, active]
      rfl
  intro clean
  have off := (clean error (.inr (by simp only [report, Process.call, forced, performed]))).1
  simp only [step, Process.call, forced, performed, on] at off
  cases off

/-- **The controller tracks jemalloc** through a run of any length exactly when
no deactivation of an active profiler in it fails between its two writes. -/
theorem tracks_iff (optProf optProfActive : Bool) (lgSample : UInt64) (inputs : List (Call × Answers)) :
    Tracks (start optProf optProfActive lgSample) inputs ↔
      Along step (fun p input => ¬ResetFails p input) (start optProf optProfActive lgSample) inputs := by
  have initial := start_inSync optProf optProfActive lgSample
  generalize start optProf optProfActive lgSample = p at initial
  constructor
  · intro tracks done input rest split fails
    have reached := tracks.inSync done ⟨input :: rest, split.symm⟩
    exact not_failsCleanly_of_resetFails reached fails (tracks.failsCleanly done input rest split)
  · intro fine
    have keeps : ∀ (p : Process) input, p.InSync → ¬ResetFails p input → (p.step input).InSync :=
      fun p input inSync fine => (step_tracks inSync fine).1
    refine ⟨?_, ?_, ?_⟩
    · rintro done ⟨rest, rfl⟩
      apply Along.invariant (fine.of_append rest) initial keeps
    · exact fine.imp initial keeps fun p input inSync fine => (step_tracks inSync fine).2.1
    · exact fine.imp initial keeps fun p input inSync fine => (step_tracks inSync fine).2.2

/-- Profiling is on from the start, the flag is turned off, and `prof.reset` fails. -/
theorem reset_failure_not_tracked :
    ¬Tracks (start true true 19) [(.deactivate, ⟨0, none, some ⟨14⟩⟩)] := by
  intro tracks
  have inSync := tracks.inSync _ List.prefix_rfl ⟨some .timeImmemorial⟩ (by decide)
  revert inSync
  decide

end Process

end JemallocPprof
