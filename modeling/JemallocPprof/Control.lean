import JemallocPprof.Lib.Runs

/-!
# `JemallocProfCtl` and `PROF_CTL`

The controller keeps a start time and takes it for the state of the profiler:
`activated` reads nothing else. jemalloc keeps the flag `prof.active`. A call
writes jemalloc's settings first, gives up at the first write that fails, and
touches the start time last. `PROF_CTL` is initialised by its first use, and its
mutex makes the calls of all tasks one sequence.
-/

namespace JemallocPprof
set_option autoImplicit false
open Lib

/-- `std::time::Instant`: a reading of the monotonic clock. -/
abbrev Instant := Nat

inductive ProfStartTime where
  | instant (now : Instant)
  | timeImmemorial
  deriving DecidableEq

/-- `tikv_jemalloc_ctl::Error`: the errno of a failed `mallctl`. -/
structure CtlError where
  errno : Nat
  deriving DecidableEq

/-- The settings of jemalloc the controller reads and writes. The options and
`prof.lg_sample` are readable, so the `unwrap` of a read returns. -/
structure Jemalloc where
  /-- `opt.prof` -/
  optProf : Bool
  /-- `opt.prof_active` -/
  optProfActive : Bool
  /-- `prof.active` -/
  profActive : Bool
  /-- `prof.lg_sample` -/
  lgSample : UInt64
  deriving DecidableEq

/-- jemalloc at the start of the process: `prof.active` is `opt.prof_active`. -/
def Jemalloc.init (optProf optProfActive : Bool) (lgSample : UInt64) : Jemalloc :=
  ⟨optProf, optProfActive, optProfActive, lgSample⟩

/-- The controller: the `start_time` of its metadata. -/
structure JemallocProfCtl where
  startTime : Option ProfStartTime
  deriving DecidableEq

/-- What the outside world answers to one call: the clock, and for a write of
each setting the error it fails with. -/
structure Answers where
  now : Instant
  active : Option CtlError
  reset : Option CtlError
  deriving DecidableEq

/-- jemalloc and the controller, which a call reaches through the lock. -/
structure Locked where
  jemalloc : Jemalloc
  ctl : JemallocProfCtl
  deriving DecidableEq

/-- A method of the controller: it may return an error, and keeps what it did before. -/
abbrev Method := ExceptT CtlError (StateM Locked)

/-- `raw::write`: the setting is written, or nothing changes. -/
def rawWrite (answer : Option CtlError) (set : Jemalloc → Jemalloc) : Method Unit :=
  match answer with
  | none => modify fun s => { s with jemalloc := set s.jemalloc }
  | some error => throw error

namespace JemallocProfCtl

/-- `JemallocProfCtl::get`. -/
def get (jemalloc : Jemalloc) : Option JemallocProfCtl :=
  if jemalloc.optProf then
    let startTime := if jemalloc.optProfActive then some .timeImmemorial else none
    some ⟨startTime⟩
  else none

/-- `activated`. -/
def activated (ctl : JemallocProfCtl) : Bool := ctl.startTime.isSome

/-- `lg_sample`. -/
def lgSample : Method UInt64 := do
  return (← MonadState.get).jemalloc.lgSample

/-- `activate`. -/
def activate (answers : Answers) : Method Unit := do
  rawWrite answers.active fun j => { j with profActive := true }
  if (← MonadState.get).ctl.startTime.isNone then
    modify fun s => { s with ctl := ⟨some (.instant answers.now)⟩ }

/-- `deactivate`. -/
def deactivate (answers : Answers) : Method Unit := do
  rawWrite answers.active fun j => { j with profActive := false }
  let rate ← lgSample
  rawWrite answers.reset fun j => { j with lgSample := rate }
  modify fun s => { s with ctl := ⟨none⟩ }

end JemallocProfCtl

/-- A use of `PROF_CTL`, atomic under its mutex. -/
inductive Call where
  /-- `PROF_CTL.as_ref()` and no more than reads. -/
  | get
  | activate
  | deactivate
  | activateJemallocProfiling
  | deactivateJemallocProfiling
  deriving DecidableEq

/-- What a call did: which method it called under the lock, and what that returned. -/
inductive Report where
  | nothing
  | activate (result : Except CtlError Unit)
  | deactivate (result : Except CtlError Unit)
  deriving DecidableEq

namespace Locked

/-- `ctl.activate()`. -/
def activate (answers : Answers) (s : Locked) : Report × Locked :=
  let (result, s) := (JemallocProfCtl.activate answers).run.run s
  (.activate result, s)

/-- `ctl.deactivate()`. -/
def deactivate (answers : Answers) (s : Locked) : Report × Locked :=
  let (result, s) := (JemallocProfCtl.deactivate answers).run.run s
  (.deactivate result, s)

/-- `activate_jemalloc_profiling` under the lock. -/
def activateJemallocProfiling (answers : Answers) (s : Locked) : Report × Locked :=
  if s.ctl.activated then (.nothing, s) else s.activate answers

/-- `deactivate_jemalloc_profiling` under the lock. -/
def deactivateJemallocProfiling (answers : Answers) (s : Locked) : Report × Locked :=
  if !s.ctl.activated then (.nothing, s) else s.deactivate answers

/-- A call under the lock. -/
def perform (call : Call) (answers : Answers) (s : Locked) : Report × Locked :=
  match call with
  | .get => (.nothing, s)
  | .activate => s.activate answers
  | .deactivate => s.deactivate answers
  | .activateJemallocProfiling => s.activateJemallocProfiling answers
  | .deactivateJemallocProfiling => s.deactivateJemallocProfiling answers

end Locked

/-- The process: jemalloc, and `PROF_CTL`, which is `none` before its first use. -/
structure Process where
  jemalloc : Jemalloc
  profCtl : Option (Option JemallocProfCtl)
  deriving DecidableEq

namespace Process

/-- A process that has not used `PROF_CTL`. -/
def start (optProf optProfActive : Bool) (lgSample : UInt64) : Process :=
  ⟨.init optProf optProfActive lgSample, none⟩

/-- The value of `PROF_CTL`, initialised when it is not yet. -/
def force (p : Process) : Option JemallocProfCtl := p.profCtl.getD (JemallocProfCtl.get p.jemalloc)

/-- One call with the answers it gets. Without a controller there is nothing to call. -/
def call (p : Process) (input : Call × Answers) : Report × Process :=
  match p.force with
  | none => (.nothing, ⟨p.jemalloc, some none⟩)
  | some ctl =>
    let (report, s) := Locked.perform input.1 input.2 ⟨p.jemalloc, ctl⟩
    (report, ⟨s.jemalloc, some (some s.ctl)⟩)

/-- What the call reports. -/
def report (p : Process) (input : Call × Answers) : Report := (p.call input).1

/-- The process after the call. -/
def step (p : Process) (input : Call × Answers) : Process := (p.call input).2

/-- The start time the controller holds, `none` without a controller. -/
def startTime (p : Process) : Option ProfStartTime := p.force.bind JemallocProfCtl.startTime

end Process

/-! ### What a call does -/

theorem Locked.activate_failed {answers : Answers} {s : Locked} {error : CtlError}
    (failed : answers.active = some error) : s.activate answers = (.activate (.error error), s) := by
  simp only [Locked.activate, JemallocProfCtl.activate, rawWrite, failed]
  rfl

theorem Locked.activate_written {answers : Answers} {s : Locked} (written : answers.active = none) :
    s.activate answers = (.activate (.ok ()),
      ⟨{ s.jemalloc with profActive := true },
        ⟨some (s.ctl.startTime.getD (.instant answers.now))⟩⟩) := by
  obtain ⟨jemalloc, ⟨startTime⟩⟩ := s
  simp only [Locked.activate, JemallocProfCtl.activate, rawWrite, written]
  cases startTime <;> rfl

theorem Locked.deactivate_failed {answers : Answers} {s : Locked} {error : CtlError}
    (failed : answers.active = some error) : s.deactivate answers = (.deactivate (.error error), s) := by
  simp only [Locked.deactivate, JemallocProfCtl.deactivate, rawWrite, failed]
  rfl

/-- When only the second write fails, the first one stays. -/
theorem Locked.deactivate_reset_failed {answers : Answers} {s : Locked} {error : CtlError}
    (written : answers.active = none) (failed : answers.reset = some error) :
    s.deactivate answers =
      (.deactivate (.error error), ⟨{ s.jemalloc with profActive := false }, s.ctl⟩) := by
  simp only [Locked.deactivate, JemallocProfCtl.deactivate, rawWrite, written, failed]
  rfl

theorem Locked.deactivate_written {answers : Answers} {s : Locked}
    (written : answers.active = none) (reset : answers.reset = none) :
    s.deactivate answers =
      (.deactivate (.ok ()), ⟨{ s.jemalloc with profActive := false }, ⟨none⟩⟩) := by
  simp only [Locked.deactivate, JemallocProfCtl.deactivate, rawWrite, written, reset]
  rfl

/-- The effects a call under the lock can have. -/
inductive Locked.Performed (call : Call) (answers : Answers) (s : Locked) : Report × Locked → Prop where
  | nothing : Performed call answers s (.nothing, s)
  | activateFailed (error : CtlError) : Performed call answers s (.activate (.error error), s)
  | activated (startTime : ProfStartTime) (kept : ∀ t, s.ctl.startTime = some t → startTime = t) :
      Performed call answers s
        (.activate (.ok ()), ⟨{ s.jemalloc with profActive := true }, ⟨some startTime⟩⟩)
  | deactivateFailed (error : CtlError) : Performed call answers s (.deactivate (.error error), s)
  /-- `prof.active` was written, `prof.reset` was not. -/
  | resetFailed (error : CtlError)
      (deactivates : call = .deactivate ∨ call = .deactivateJemallocProfiling ∧ s.ctl.activated = true)
      (written : answers.active = none) (failed : answers.reset = some error) :
      Performed call answers s
        (.deactivate (.error error), ⟨{ s.jemalloc with profActive := false }, s.ctl⟩)
  | deactivated : Performed call answers s
        (.deactivate (.ok ()), ⟨{ s.jemalloc with profActive := false }, ⟨none⟩⟩)

theorem Locked.activate_performed (call : Call) (answers : Answers) (s : Locked) :
    Performed call answers s (s.activate answers) := by
  cases outcome : answers.active with
  | some error =>
    rw [activate_failed outcome]
    exact .activateFailed error
  | none =>
    rw [activate_written outcome]
    refine .activated _ fun t held => ?_
    rw [held, Option.getD_some]

theorem Locked.deactivate_performed {call : Call} {answers : Answers} {s : Locked}
    (deactivates : call = .deactivate ∨ call = .deactivateJemallocProfiling ∧ s.ctl.activated = true) :
    Performed call answers s (s.deactivate answers) := by
  cases outcome : answers.active with
  | some error =>
    rw [deactivate_failed outcome]
    exact .deactivateFailed error
  | none =>
    cases outcome' : answers.reset with
    | some error =>
      rw [deactivate_reset_failed outcome outcome']
      exact .resetFailed error deactivates outcome outcome'
    | none =>
      rw [deactivate_written outcome outcome']
      exact .deactivated

/-- **What a call does**, whatever it is and whatever is answered. -/
theorem Locked.perform_performed (call : Call) (answers : Answers) (s : Locked) :
    Performed call answers s (s.perform call answers) := by
  cases call with
  | get => exact .nothing
  | activate => exact activate_performed _ answers s
  | deactivate => exact deactivate_performed (.inl rfl)
  | activateJemallocProfiling =>
    rw [perform, Locked.activateJemallocProfiling]
    split
    · exact .nothing
    · exact activate_performed _ answers s
  | deactivateJemallocProfiling =>
    rw [perform, Locked.deactivateJemallocProfiling]
    split
    · exact .nothing
    · rename_i running
      exact deactivate_performed (.inr ⟨rfl, by simpa using running⟩)

namespace Process

/-- Without a controller a call changes nothing. -/
theorem step_disabled {p : Process} (input : Call × Answers) (disabled : p.force = none) :
    p.report input = .nothing ∧ p.step input = ⟨p.jemalloc, some none⟩ := by
  simp only [report, step, call, disabled, and_self]

/-- With one a call acts under the lock. -/
theorem step_enabled {p : Process} (input : Call × Answers) {ctl : JemallocProfCtl}
    (enabled : p.force = some ctl) :
    ∃ s, Locked.Performed input.1 input.2 ⟨p.jemalloc, ctl⟩ (p.report input, s) ∧
      p.step input = ⟨s.jemalloc, some (some s.ctl)⟩ := by
  have performed := Locked.perform_performed input.1 input.2 ⟨p.jemalloc, ctl⟩
  refine ⟨(Locked.perform input.1 input.2 ⟨p.jemalloc, ctl⟩).2, ?_, ?_⟩
  · simpa only [report, call, enabled] using performed
  · simp only [step, call, enabled]

end Process

end JemallocPprof
