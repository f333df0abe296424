import JemallocPprof.Faithful.Activation
import JemallocPprof.Faithful.Interleaving
import JemallocPprof.Tasks

/-!
# Tasks between tasks

The operations of any number of tasks take turns in any order. What the mutex of
`PROF_CTL` is for: the calls report what they would one after the other, in the
order in which they had the lock, and leave jemalloc and the controller like
that (`tasks_serialize`). A handler answers by the state it found when it took
the lock (`handlers_respond`): it refuses when the profiler is off, and when it
is on its body is read back as what jemalloc wrote for it (`HeapServed`). Every
task gives the lock back, so none waits for ever, unless one of them ends the
process (`tasks_finish`).
-/

namespace JemallocPprof
set_option autoImplicit false
open Lib

/-! ## A process and what its lock guards -/

/-- The process, in the eyes of who has the lock. -/
def Process.Holds (p : Process) (s : Locked) : Prop := p.jemalloc = s.jemalloc ∧ p.force = some s.ctl

theorem Process.locked_holds {p : Process} {ctl : JemallocProfCtl} (enabled : p.force = some ctl) :
    p.Holds p.locked := by
  refine ⟨rfl, ?_⟩
  rw [locked, enabled, Option.getD_some]

/-- A call of one step is one under the lock. -/
theorem Process.Holds.step {p : Process} {s : Locked} (h : p.Holds s) (input : Call × Answers) :
    p.report input = (s.perform input.1 input.2).1 ∧ (p.step input).Holds (s.perform input.1 input.2).2 := by
  obtain ⟨jemalloc, forced⟩ := h
  have here : (⟨p.jemalloc, s.ctl⟩ : Locked) = s := by rw [jemalloc]
  constructor
  · simp only [report, Process.call, forced, here]
  · simp only [Process.step, Process.call, forced, here]
    exact ⟨rfl, rfl⟩

section
variable {T : Type} (outside : Outside T) (task : T → Task)

/-- A task as a call of the controller, with its answers. -/
def inputOf (t : T) : Call × Answers := ((task t).asCall, outside.control t)

/-- What a task as a whole does to what the lock guards. -/
def serialOf (t : T) (s : Locked) : Locked := (s.perform (task t).asCall (outside.control t)).2

variable {outside task}

theorem Process.Holds.serially {p : Process} {s : Locked} (h : p.Holds s) (order : List T) :
    (after Process.step p (order.map (inputOf outside task))).Holds (serially (serialOf outside task) s order) := by
  induction order generalizing p s with
  | nil => exact h
  | cons t order ih =>
    rw [List.map_cons, after_cons]
    exact ih (h.step (inputOf outside task t)).2

end

/-! ## What tasks come to -/

/-- What a handler returns; `dumped` is what a dump may return. -/
def HandlerOutcome {α : Type} (display : DumpError → String) (ok : Bytes → α) (dumped : Returned DumpError Bytes → Prop)
    (active : Bool) (r : HandlerResult α) : Prop :=
  if active then ∃ returned, dumped returned ∧ r = respond display ok returned
  else r = .ok (.error (FORBIDDEN, "heap profiling not activated"))

section
variable {T : Type} [DecidableEq T] (F : Type) [F64 F] (outside : Outside T) (process : Process) (start : DumpState)
  (task : T → Task)

omit [DecidableEq T] in
/-- The dumps among the tasks. -/
def taskDumps : Dumps T := ⟨fun t => (task t).library, outside.dump, start⟩

/-- What a task holds of the lock and of what dumps share. -/
abbrev taskProtocol :=
  (lockProtocol (fun t => ctlEffect (outside.control t)) (serialOf outside task) process.locked).sum
    (dumpProtocol (taskDumps outside start task) (Fatal F outside.gzip outside.env (taskDumps outside start task)))

/-- What a handler reports; `known` are the mappings of the crate, and `over`
says whether the process has ended. -/
def Responded (t : T) (known : Option (Option (List Mapping))) (halted active : Bool) : Task → TaskReport → Prop
  | .heap, .heap r => HandlerOutcome outside.display id
      (DumpOutcome (taskDumps outside start task) t .rust known halted
        (pprofOf F (outside.env t) outside.gzip)) active r
  | .heapFlamegraph, .heapFlamegraph r => HandlerOutcome outside.display (Response.mk "image/svg+xml")
      (DumpOutcome (taskDumps outside start task) t .rust known halted
        (flamegraphOf F (outside.env t) (outside.fromLines ⟨"inuse_space", "bytes"⟩))) active r
  | _, _ => False

/-- What a task reports where there is a controller. -/
def Task.Outcome (t : T) (owned : Phase Locked × DumpOwn) : Task → TaskReport → Prop
  | .control call, report => ∃ entered, owned.1 = .left entered ∧
      report = .control (entered.perform call (outside.control t)).1
  | .heap, report => ∃ entered, owned.1 = .left entered ∧
      Responded F outside start task t owned.2.mappings owned.2.halted entered.ctl.activated .heap report
  | .heapFlamegraph, report => ∃ entered, owned.1 = .left entered ∧
      Responded F outside start task t owned.2.mappings owned.2.halted entered.ctl.activated .heapFlamegraph report
  | .c caller, report => ∃ r, DumpOutcome (taskDumps outside start task) t .c owned.2.mappings owned.2.halted
      (pprofOf F (outside.env t) outside.gzip) r ∧ report = .c (Capi.told caller r)

/-- What a task that needs a controller returns where there is none. -/
def Task.Disabled : Task → TaskReport → Prop
  | .control _, report => report = .control .nothing
  | .heap, report => report = .heap (.error (.unwind .unwrapNone))
  | .heapFlamegraph, report => report = .heapFlamegraph (.error (.unwind .unwrapNone))
  | .c _, _ => True

/-- How a task ends: without the lock and without a file. -/
structure Task.Ends (t : T) (owned : Phase Locked × DumpOwn) (report : TaskReport) : Prop where
  released : ∀ entered now, owned.1 ≠ .inside entered now
  cleaned : owned.2.entry = none
  outcome : process.force.isSome = true → (task t).Outcome F outside start task t owned report
  disabled : process.force.isSome = false → (task t).Disabled report

variable {F outside process start task} {t : T}

/-- **A handler** has the lock while it dumps. -/
theorem handle_follows {α : Type} {display : DumpError → String} {dump : DumpProg (Returned DumpError Bytes)}
    {ok : Bytes → α} (dumped : Option (Option (List Mapping)) → Bool → Returned DumpError Bytes → Prop)
    (reads : ∀ s, serialOf outside task t s = s)
    (dumps : (dumpProtocol (taskDumps outside start task) (Fatal F outside.gzip outside.env
      (taskDumps outside start task))).Follows t
        (fun own r => own.entry = none ∧ dumped own.mappings own.halted r) .nothing dump) :
    (taskProtocol F outside process start task).Follows t (fun owned r => (∃ entered, owned.1 = .left entered ∧
      HandlerOutcome display ok (dumped owned.2.mappings owned.2.halted) entered.ctl.activated r) ∧
        owned.2.entry = none) (.outside, .nothing) (handle true display dump ok) := by
  refine (lock_follows.inl DumpOwn.nothing).bind ?_
  rintro ⟨_, _⟩ _ ⟨⟨entered, rfl⟩, rfl⟩
  refine ((run_follows requireProfilingActivated).inl DumpOwn.nothing).bind ?_
  rintro ⟨_, _⟩ _ ⟨⟨rfl, rfl⟩, rfl⟩
  have made : entered = serialOf outside task t entered := (reads entered).symm
  rw [requireProfilingActivated_run]
  cases active : entered.ctl.activated with
  | false =>
    refine ((unlock_follows made).inl DumpOwn.nothing).bind ?_
    rintro ⟨_, _⟩ _ ⟨rfl, rfl⟩
    refine ⟨⟨entered, rfl, ?_⟩, rfl⟩
    rw [HandlerOutcome, active]
    rfl
  | true =>
    refine (dumps.inr _).bind ?_
    rintro ⟨_, own⟩ r ⟨⟨bare, outcome⟩, rfl⟩
    refine ((unlock_follows made).inl own).bind ?_
    rintro ⟨_, _⟩ _ ⟨rfl, rfl⟩
    refine ⟨⟨entered, rfl, ?_⟩, bare⟩
    rw [HandlerOutcome, active]
    exact ⟨r, outcome, rfl⟩

omit [DecidableEq T] in
theorem serialOf_reads (reads : (task t).asCall = .get) (s : Locked) : serialOf outside task t s = s := by
  rw [serialOf, reads, Locked.perform]

/-- **A task** ends without the lock, whether there is a controller or not. -/
theorem task_follows (t : T) : (taskProtocol F outside process start task).Follows t
    (Task.Ends F outside process start task t) (.outside, .nothing)
    ((task t).program F outside process.force.isSome t) := by
  have idle : ∀ report, process.force.isSome = false → (task t).Disabled report →
      Task.Ends F outside process start task t (.outside, .nothing) report := by
    intro report disabled refused
    refine ⟨nofun, rfl, fun enabled => ?_, fun _ => refused⟩
    rw [disabled] at enabled
    cases enabled
  have busy : ∀ phase own report, process.force.isSome = true → (∀ entered now, phase ≠ .inside entered now) →
      own.entry = none → (task t).Outcome F outside start task t (phase, own) report →
      Task.Ends F outside process start task t (phase, own) report := by
    intro phase own report enabled released cleaned outcome
    refine ⟨released, cleaned, fun _ => outcome, fun disabled => ?_⟩
    rw [disabled] at enabled
    cases enabled
  cases is : task t with
  | control call =>
    cases enabled : process.force.isSome with
    | false => exact idle _ enabled (by rw [is]; rfl)
    | true =>
      have whole : ∀ s, serialOf outside task t s =
          ((CtlProg.perform call).run (ctlEffect (outside.control t)) s).2 := by
        intro s
        rw [serialOf, is, perform_run]
        rfl
      refine ((section_follows (CtlProg.perform call) whole).inl DumpOwn.nothing).map ?_
      rintro ⟨_, _⟩ _ ⟨⟨entered, rfl, rfl⟩, rfl⟩
      refine busy _ _ _ enabled nofun rfl ?_
      rw [is]
      exact ⟨entered, rfl, by rw [perform_run]⟩
  | heap =>
    have reads : ∀ s, serialOf outside task t s = s := serialOf_reads (by rw [is]; rfl)
    cases enabled : process.force.isSome with
    | false => exact idle _ enabled (by rw [is]; rfl)
    | true =>
      have rust : (taskDumps outside start task).library t = some .rust := congrArg Task.library is
      refine (handle_follows (fun known halted => DumpOutcome (taskDumps outside start task) t .rust known halted
        (pprofOf F (outside.env t) outside.gzip)) reads (dumpPprof_follows rust rfl)).map ?_
      rintro ⟨_, own⟩ r ⟨⟨entered, rfl, outcome⟩, bare⟩
      refine busy _ _ _ enabled nofun bare ?_
      rw [is]
      exact ⟨entered, rfl, outcome⟩
  | heapFlamegraph =>
    have reads : ∀ s, serialOf outside task t s = s := serialOf_reads (by rw [is]; rfl)
    cases enabled : process.force.isSome with
    | false => exact idle _ enabled (by rw [is]; rfl)
    | true =>
      have rust : (taskDumps outside start task).library t = some .rust := congrArg Task.library is
      refine (handle_follows (fun known halted => DumpOutcome (taskDumps outside start task) t .rust known halted
        (flamegraphOf F (outside.env t) (outside.fromLines ⟨"inuse_space", "bytes"⟩))) reads
        (dumpFlamegraph_follows rust rfl)).map ?_
      rintro ⟨_, own⟩ r ⟨⟨entered, rfl, outcome⟩, bare⟩
      refine busy _ _ _ enabled nofun bare ?_
      rw [is]
      exact ⟨entered, rfl, outcome⟩
  | c caller =>
    have c : (taskDumps outside start task).library t = some .c := congrArg Task.library is
    refine ((dumpJemallocPprof_follows c rfl).inr Phase.outside).map ?_
    rintro ⟨_, own⟩ r ⟨⟨bare, outcome, -⟩, rfl⟩
    refine ⟨nofun, bare, fun _ => ?_, fun _ => ?_⟩
    · rw [is]
      obtain ⟨r', outcome, rfl⟩ := outcome
      exact ⟨r', outcome, rfl⟩
    · rw [is]
      trivial

variable (F outside process start task) in
/-- The invariant of all tasks after any turns. -/
theorem tasksAfter_inv (turns : List T) : ∃ owns : T → Phase Locked × DumpOwn,
    Serial (serialOf outside task) process.locked (Prod.fst ∘ owns)
      (tasksAfter F outside process start task turns).shared.1 ∧
    DumpInv (taskDumps outside start task) (Fatal F outside.gzip outside.env (taskDumps outside start task))
      (Prod.snd ∘ owns) (tasksAfter F outside process start task turns).shared.2 ∧
    ∀ t, ((taskProtocol F outside process start task).halting tasksOver).Follows t
      (Task.Ends F outside process start task t) (owns t)
      ((tasksAfter F outside process start task turns).program t) := by
  have inv : ((taskProtocol F outside process start task).halting tasksOver).Inv (fun _ => (.outside, .nothing))
      (tasksBefore F outside process start task).shared :=
    ⟨.initial process.locked, .initial (taskDumps outside start task) _⟩
  have follow : ∀ t, ((taskProtocol F outside process start task).halting tasksOver).Follows t
      (Task.Ends F outside process start task t) (.outside, .nothing)
      ((tasksBefore F outside process start task).program t) :=
    fun t => (task_follows t).halting
  obtain ⟨owns, ⟨serial, dumps⟩, follow⟩ := Protocol.adequate inv follow turns
  exact ⟨owns, serial, dumps, follow⟩

/-! ## The lock -/

omit [DecidableEq T] in
/-- Where a task that had the lock stands in the order, and the process it found. -/
theorem served_at {owns : T → Phase Locked × DumpOwn} {s : Guarded T Locked} {ctl : JemallocProfCtl} {entered : Locked}
    (serial : Serial (serialOf outside task) process.locked (Prod.fst ∘ owns) s) (enabled : process.force = some ctl)
    (left : (owns t).1 = .left entered) : ∃ before behind, s.served = before ++ t :: behind ∧
      (after Process.step process (before.map (inputOf outside task))).Holds entered := by
  obtain ⟨before, behind, split, rfl⟩ := serial.left t entered left
  exact ⟨before, behind, split, (Process.locked_holds enabled).serially before⟩

/-- **The lock makes calls of one step.** After any turns the calls that ended
have reported what they report one after the other, in the order in which they
had the lock; and while nobody has it jemalloc and the controller are as those
calls leave them. The order only grows. -/
theorem tasks_serialize {ctl : JemallocProfCtl} (enabled : process.force = some ctl) (turns more : List T) :
    (tasksAfter F outside process start task turns).shared.1.served.Nodup ∧
    (∀ t report, (tasksAfter F outside process start task turns).program t = .done (.control report) →
      ∃ before behind, (tasksAfter F outside process start task turns).shared.1.served = before ++ t :: behind ∧
        report = (after Process.step process (before.map (inputOf outside task))).report (inputOf outside task t)) ∧
    ((tasksAfter F outside process start task turns).shared.1.owner = none →
      (after Process.step process ((tasksAfter F outside process start task turns).shared.1.served.map
        (inputOf outside task))).Holds (tasksAfter F outside process start task turns).shared.1.state) ∧
    (tasksAfter F outside process start task turns).shared.1.served <+:
      (tasksAfter F outside process start task (turns ++ more)).shared.1.served := by
  obtain ⟨owns, serial, -, follow⟩ := tasksAfter_inv F outside process start task turns
  refine ⟨serial.nodup, ?_, ?_, ?_⟩
  · intro t report ended
    have mine := follow t
    rw [ended] at mine
    have outcome := mine.outcome (by rw [enabled]; rfl)
    cases is : task t with
    | control call =>
      rw [is] at outcome
      obtain ⟨entered, left, reported⟩ := outcome
      obtain ⟨before, behind, split, holds⟩ := served_at serial enabled left
      refine ⟨before, behind, split, ?_⟩
      rw [(holds.step (inputOf outside task t)).1, inputOf, is, Task.asCall]
      exact TaskReport.control.inj reported
    | heap =>
      rw [is] at outcome
      obtain ⟨_, _, other⟩ := outcome
      exact other.elim
    | heapFlamegraph =>
      rw [is] at outcome
      obtain ⟨_, _, other⟩ := outcome
      exact other.elim
    | c caller =>
      rw [is] at outcome
      obtain ⟨_, _, other⟩ := outcome
      cases other
  · intro free
    rw [serial.free free]
    exact (Process.locked_holds enabled).serially _
  · rw [tasksAfter, tasksAfter, after, after, List.foldl_append]
    exact served_grows _ more

/-- Two tasks with one clock, whose dumps write one text. -/
def busyOutside : Outside Bool where
  gzip := List.reverse
  fromLines := fun _ _ => .ok []
  display := fun _ => "error"
  env := fun _ => noSymbols
  control := fun _ => ⟨7, none, none⟩
  dump := busyAnswers

/-- One task that turns the profiler off, and one that turns it on. -/
def offAndOn : Bool → Task
  | false => .control .deactivateJemallocProfiling
  | true => .control .activateJemallocProfiling

/-- They take turns; the second waits for the first. -/
def inTurn : List Bool := [false, true, false, true, false, true, false, false, true, false, false,
  true, true, true, true, true, true, true]

theorem offAndOn_serialized :
    (tasksAfter (ExtNum ℚ) busyOutside (.start true true 19) oneFile offAndOn inTurn).shared.1.served = [false, true] ∧
    (tasksAfter (ExtNum ℚ) busyOutside (.start true true 19) oneFile offAndOn inTurn).program true =
      .done (.control (.activate (.ok ()))) ∧
    (after Process.step (.start true true 19) ([false, true].map (inputOf busyOutside offAndOn))).Holds
      (tasksAfter (ExtNum ℚ) busyOutside (.start true true 19) oneFile offAndOn inTurn).shared.1.state := by
  have enabled : (Process.start true true 19).force = some ⟨some .timeImmemorial⟩ := rfl
  have serialized := @tasks_serialize Bool _ (ExtNum ℚ) _ busyOutside _ oneFile offAndOn _ enabled inTurn []
  exact ⟨rfl, rfl, serialized.2.2.1 rfl⟩

/-! ## Progress -/

/-- Some task is ready unless all have ended or the process is over: the one that
has the lock, or anyone. -/
theorem tasksAfter_goes (turns : List T) :
    (∀ t, (tasksAfter F outside process start task turns).Ended t) ∨
      (∃ t, (tasksAfter F outside process start task turns).Ready (halting tasksOver (sumReady lockReady always)) t) ∨
      tasksOver (tasksAfter F outside process start task turns).shared = true := by
  obtain ⟨owns, serial, -, follow⟩ := tasksAfter_inv F outside process start task turns
  rw [or_iff_not_imp_left, or_iff_not_imp_right]
  intro unfinished going
  have now : ∀ op : LockOp CtlOp ⊕ DumpOp,
      sumReady lockReady always (tasksAfter F outside process start task turns).shared op = true →
        halting tasksOver (sumReady lockReady always) (tasksAfter F outside process start task turns).shared op =
          true := by
    intro op free
    rw [halting, Bool.eq_false_iff.2 going, free]
    rfl
  cases owner : (tasksAfter F outside process start task turns).shared.1.owner with
  | none =>
    obtain ⟨t, unfinished⟩ := not_forall.1 unfinished
    cases here : (tasksAfter F outside process start task turns).program t with
    | done report => exact absurd ⟨report, here⟩ unfinished
    | act op next =>
      refine ⟨t, op, next, here, now op ?_⟩
      rcases op with (_ | _ | op) | op
      · rw [sumReady, lockReady, owner]
        rfl
      · rfl
      · rfl
      · rfl
  | some t =>
    obtain ⟨entered, state, inside⟩ := (serial.owner t).1 owner
    have mine := follow t
    cases here : (tasksAfter F outside process start task turns).program t with
    | done report =>
      rw [here] at mine
      exact absurd inside (mine.released entered state)
    | act op next =>
      rw [here] at mine
      refine ⟨t, op, next, here, now op ?_⟩
      rcases op with (_ | _ | op) | op
      · -- who has the lock does not take it
        have out : (owns t).1 = .outside := mine.1
        cases inside.symm.trans out
      · rfl
      · rfl
      · rfl

/-- A call under the lock has at most five operations. -/
theorem perform_within (call : Call) : (CtlProg.perform call).Within 5 := by
  have activate : CtlProg.activate.Within 4 := by
    rintro (_ | e)
    · rintro (_ | time)
      · exact fun _ _ => trivial
      · trivial
    · trivial
  have deactivate : CtlProg.deactivate.Within 4 := by
    rintro (_ | e)
    · rintro rate (_ | e)
      · exact fun _ => trivial
      · trivial
    · trivial
  have activated : CtlProg.activated.Within 1 := fun _ => trivial
  cases call with
  | get => trivial
  | activate => exact (activate.bind (n := 1) fun _ => trivial)
  | deactivate => exact (deactivate.bind (n := 1) fun _ => trivial)
  | activateJemallocProfiling =>
    refine activated.bind (n := 4) ?_
    rintro (_ | _)
    · exact activate.bind (n := 0) fun _ => trivial
    · trivial
  | deactivateJemallocProfiling =>
    refine activated.bind (n := 4) ?_
    rintro (_ | _)
    · trivial
    · exact deactivate.bind (n := 0) fun _ => trivial

theorem handle_within {α : Type} {display : DumpError → String} {dump : DumpProg (Returned DumpError Bytes)}
    {ok : Bytes → α} (within : dump.Within 5) (profCtl : Bool) : (handle profCtl display dump ok).Within 8 := by
  have check : requireProfilingActivated.Within 1 := by
    rintro (_ | time) <;> trivial
  cases profCtl with
  | false => trivial
  | true =>
    intro _
    refine check.guard.inl.bind (n := 6) ?_
    rintro (e | _)
    · exact fun _ => trivial
    · exact within.inr.bind (n := 1) fun _ _ => trivial

omit [DecidableEq T] in
/-- A task has at most eight operations. -/
theorem Task.program_within (t : T) (task : Task) (profCtl : Bool) :
    (task.program F outside profCtl t).Within 8 := by
  cases task with
  | control call =>
    cases profCtl with
    | false => trivial
    | true => exact ((perform_within call).underLock.inl.map).mono (by decide)
  | heap => exact (handle_within (dumpPprof_within _) profCtl).map
  | heapFlamegraph => exact (handle_within (dumpFlamegraph_within _ _) profCtl).map
  | c caller => exact ((dumpJemallocPprof_within _ caller).inr.map).mono (by decide)

theorem tasksAfter_stopped {turns : List T}
    (halted : (tasksAfter F outside process start task turns).shared.2.aborted = true) :
    (taskDumps outside start task).Stopped F outside.gzip outside.env
      (tasksAfter F outside process start task turns).shared.2 := by
  obtain ⟨owns, -, inv, -⟩ := tasksAfter_inv F outside process start task turns
  obtain ⟨u, ends⟩ := inv.aborted halted
  exact ⟨halted, u, ends.aborts⟩

theorem tasksAfter_finishes [Fintype T] {turns : List T} (fair : FairTurns (8 * Fintype.card T) turns) :
    (∀ t, (tasksAfter F outside process start task turns).Ended t) ∨
      (taskDumps outside start task).Stopped F outside.gzip outside.env
        (tasksAfter F outside process start task turns).shared.2 := by
  have rounds : FairTurns (∑ _ : T, 8) turns := by
    rwa [Finset.sum_const, Finset.card_univ, smul_eq_mul, Nat.mul_comm]
  have within : ∀ t, ((task t).program F outside process.force.isSome t).Within 8 :=
    fun t => Task.program_within t (task t) process.force.isSome
  exact (Pool.finishes within tasksAfter_goes rounds).imp_right tasksAfter_stopped

/-- **No task waits for ever.** Whatever turns were taken, eight rounds for each
task, with turns for all in any order, end every task, and then nobody has the
lock; unless the process is over, and for a cause. -/
theorem tasks_finish [Fintype T] {turns : List T} (fair : FairTurns (8 * Fintype.card T) turns) :
    (∀ t, (tasksAfter F outside process start task turns).Ended t) ∧
        (tasksAfter F outside process start task turns).shared.1.owner = none ∨
      (taskDumps outside start task).Stopped F outside.gzip outside.env
        (tasksAfter F outside process start task turns).shared.2 := by
  refine (tasksAfter_finishes fair).imp_left fun ended => ⟨ended, ?_⟩
  obtain ⟨owns, serial, -, follow⟩ := tasksAfter_inv F outside process start task turns
  rw [Option.eq_none_iff_forall_ne_some]
  intro t owner
  obtain ⟨entered, now, inside⟩ := (serial.owner t).1 owner
  obtain ⟨report, done⟩ := ended t
  have mine := follow t
  rw [done] at mine
  exact mine.released entered now inside

/-- Some turns of two tasks, then rounds in which the second goes first. -/
def fairTurns : List Bool := [false, true] ++ (List.replicate 16 [true, false]).flatten

theorem fairTurns_fair : FairTurns (8 * Fintype.card Bool) fairTurns :=
  ⟨[false, true], List.replicate 16 [true, false], rfl, by decide, by decide⟩

/-- Tasks that do not dump end, whatever the rounds. -/
theorem offAndOn_finish :
    (∀ t, (tasksAfter (ExtNum ℚ) busyOutside (.start true true 19) oneFile offAndOn fairTurns).Ended t) ∧
    (tasksAfter (ExtNum ℚ) busyOutside (.start true true 19) oneFile offAndOn fairTurns).shared.1.owner = none := by
  refine (tasks_finish fairTurns_fair).resolve_right ?_
  rintro ⟨-, u, ⟨library, panic, dumps, -⟩ | ⟨asked, -⟩⟩
  · cases u <;> cases dumps
  · cases u <;> cases asked

/-! ## Responses -/

omit [DecidableEq T] in
/-- While no reset fails, `activated` is `prof.active`. -/
theorem activated_eq {optProf optProfActive : Bool} {lgSample : UInt64} {entered : Locked} {order : List T}
    (resets : ∀ u, (outside.control u).reset = none)
    (holds : (after Process.step (.start optProf optProfActive lgSample)
      (order.map (inputOf outside task))).Holds entered) :
    entered.ctl.activated = (after Process.step (.start optProf optProfActive lgSample)
      (order.map (inputOf outside task))).jemalloc.profActive := by
  have fine : Along Process.step (fun p input => ¬Process.ResetFails p input) (.start optProf optProfActive lgSample)
      (order.map (inputOf outside task)) := by
    rintro done input rest split ⟨-, -, -, -, fails⟩
    obtain ⟨u, -, rfl⟩ := List.mem_map.1 (split ▸ List.mem_append_right done List.mem_cons_self :
      input ∈ order.map (inputOf outside task))
    rw [inputOf, resets] at fails
    cases fails
  have inSync := fine.invariant (Process.start_inSync optProf optProfActive lgSample) fun p input inSync fine =>
    (Process.step_tracks inSync fine).1
  exact inSync entered.ctl holds.2

variable {optProf optProfActive : Bool} {lgSample : UInt64}

omit [DecidableEq T] in
theorem HandlerOutcome.mono {α : Type} {display : DumpError → String} {ok : Bytes → α} {active halted halted' : Bool}
    {d : Dumps T} {library : Library} {known known' : Option (Option (List Mapping))}
    {convert : List (Except IoError String) → Option (List Mapping) → Except Panic (Except DumpError Bytes)}
    {r : HandlerResult α}
    (h : HandlerOutcome display ok (DumpOutcome d t library known halted convert) active r)
    (more : ∀ m, known = some m → known' = some m) (still : halted = true → halted' = true) :
    HandlerOutcome display ok (DumpOutcome d t library known' halted' convert) active r := by
  cases active with
  | false => exact h
  | true =>
    obtain ⟨returned, outcome, is⟩ := h
    exact ⟨returned, outcome.mono more still, is⟩

omit [DecidableEq T] in
theorem Responded.mono {active halted halted' : Bool} {known known' : Option (Option (List Mapping))} {asked : Task}
    {report : TaskReport} (h : Responded F outside start task t known halted active asked report)
    (more : ∀ m, known = some m → known' = some m) (still : halted = true → halted' = true) :
    Responded F outside start task t known' halted' active asked report := by
  cases asked <;> cases report
  case heap.heap => exact HandlerOutcome.mono h more still
  case heapFlamegraph.heapFlamegraph => exact HandlerOutcome.mono h more still
  all_goals exact h.elim

/-- What a handler reported, by the state of the process when it took the lock. -/
theorem handler_responded (resets : ∀ u, (outside.control u).reset = none)
    (handler : task t = .heap ∨ task t = .heapFlamegraph) {turns : List T} {report : TaskReport}
    (ended : (tasksAfter F outside (.start true optProfActive lgSample) start task turns).program t = .done report) :
    ∃ before behind, (tasksAfter F outside (.start true optProfActive lgSample) start task turns).shared.1.served =
        before ++ t :: behind ∧
      Responded F outside start task t
        ((tasksAfter F outside (.start true optProfActive lgSample) start task turns).shared.2.mappings .rust).get
        (tasksAfter F outside (.start true optProfActive lgSample) start task turns).shared.2.aborted
        (after Process.step (.start true optProfActive lgSample)
          (before.map (inputOf outside task))).jemalloc.profActive (task t) report := by
  obtain ⟨owns, serial, dumps, follow⟩ := tasksAfter_inv F outside (.start true optProfActive lgSample) start task turns
  have mine := follow t
  rw [ended] at mine
  have outcome := mine.outcome rfl
  have answered : (taskDumps outside start task).library t = some .rust ∧ ∃ entered, (owns t).1 = .left entered ∧
      Responded F outside start task t (owns t).2.mappings (owns t).2.halted entered.ctl.activated (task t) report := by
    rcases handler with is | is <;> rw [is] at outcome ⊢ <;> exact ⟨congrArg Task.library is, outcome⟩
  obtain ⟨rust, entered, left, responded⟩ := answered
  obtain ⟨before, behind, split, holds⟩ := served_at serial (show _ = some ⟨_⟩ from rfl) left
  refine ⟨before, behind, split, ?_⟩
  rw [← activated_eq resets holds]
  apply responded.mono
  · intro m seen
    rw [dumps.mappings t m .rust seen rust, LazyCell.get]
  · exact dumps.halted t

/-- How a handler that does not panic answers. -/
inductive Answered {α : Type} (display : DumpError → String) (ok : Bytes → α) (d : Dumps T) (t : T)
    (known : Option (Option (List Mapping)))
    (convert : List (Except IoError String) → Option (List Mapping) → Except Panic (Except DumpError Bytes))
    (active : Bool) : Except (StatusCode × String) α → Prop where
  | refused (off : active = false) :
      Answered display ok d t known convert active (.error (403, "heap profiling not activated"))
  | notCreated (on : active = true) (e : FileError) (fails : CannotCreate (d.answers t) (d.Taken t) e) :
      Answered display ok d t known convert active (.error (500, display (.io e)))
  | notDumped (on : active = true) (e : CtlError) (fails : (d.answers t).dump = some e) :
      Answered display ok d t known convert active (.error (500, display (.ctl e)))
  | notConverted (on : active = true) (mappings : Option (List Mapping)) (e : DumpError) (seen : known = some mappings)
      (comes : convert (readerLines (d.answers t).text (d.answers t).readFails) mappings = .ok (.error e)) :
      Answered display ok d t known convert active (.error (500, e.toString display))
  | converted (on : active = true) (mappings : Option (List Mapping)) (body : Bytes) (seen : known = some mappings)
      (comes : convert (readerLines (d.answers t).text (d.answers t).readFails) mappings = .ok (.ok body)) :
      Answered display ok d t known convert active (.ok (ok body))

section
variable {α : Type} {display : DumpError → String} {ok : Bytes → α} {d : Dumps T} {library : Library}
  {known : Option (Option (List Mapping))} {active halted : Bool}
  {convert : List (Except IoError String) → Option (List Mapping) → Except Panic (Except DumpError Bytes)}

omit [DecidableEq T] in
theorem HandlerOutcome.answered {returned : Except (StatusCode × String) α}
    (h : HandlerOutcome display ok (DumpOutcome d t library known halted convert) active (.ok returned)) :
    Answered display ok d t known convert active returned := by
  cases active with
  | false =>
    obtain rfl : returned = .error (403, "heap profiling not activated") := Except.ok.inj h
    exact .refused rfl
  | true =>
    obtain ⟨r, outcome, is⟩ := h
    cases r with
    | error crash => cases is
    | ok result =>
      rcases outcome.returned with ⟨e, fails, rfl⟩ | ⟨e, fails, rfl⟩ | ⟨mappings, seen, comes⟩
      · obtain rfl : returned = .error (500, display (.io e)) := Except.ok.inj is
        exact .notCreated rfl e fails
      · obtain rfl : returned = .error (500, display (.ctl e)) := Except.ok.inj is
        exact .notDumped rfl e fails
      · cases result with
        | error e =>
          obtain rfl : returned = .error (500, e.toString display) := Except.ok.inj is
          exact .notConverted rfl mappings e seen comes
        | ok body =>
          obtain rfl : returned = .ok (ok body) := Except.ok.inj is
          exact .converted rfl mappings body seen comes

omit [DecidableEq T] in
/-- A handler that nothing fails for answers with what its dump is converted to. -/
theorem HandlerOutcome.undisturbed {r : HandlerResult α}
    (h : HandlerOutcome display ok (DumpOutcome d t library known halted convert) true r) (fine : d.Undisturbed t)
    (dumps : d.library t = some library) : ∃ mappings, known = some mappings ∧
      r = respond display ok
        (unwinding (convert (readerLines (d.answers t).text (d.answers t).readFails) mappings)) := by
  obtain ⟨returned, outcome, is⟩ := h
  obtain ⟨mappings, seen, rfl⟩ := outcome.undisturbed fine dumps
  exact ⟨mappings, seen, is⟩

omit [DecidableEq T] in
/-- A handler that crashed had its dump crash. -/
theorem HandlerOutcome.crashed {dumped : Returned DumpError Bytes → Prop} {crash : Crash}
    (h : HandlerOutcome display ok dumped active (.error crash)) : active = true ∧ dumped (.error crash) := by
  cases active with
  | false => cases h
  | true =>
    obtain ⟨r, outcome, is⟩ := h
    cases r with
    | error crash' =>
      cases is
      exact ⟨rfl, outcome⟩
    | ok result => cases result <;> cases is

end

/-- `MAPPINGS` holds what an initialiser came to. -/
theorem tasksAfter_held {turns : List T} {library : Library} {m : Option (List Mapping)}
    (forced : (tasksAfter F outside process start task turns).shared.2.mappings library = .forced m) :
    (taskDumps outside start task).Held library m := by
  obtain ⟨owns, -, inv, -⟩ := tasksAfter_inv F outside process start task turns
  exact inv.held library m forced

/-- What `GET /debug/pprof/allocs` is answered with, unless the handler panics. -/
inductive HeapServed {R : Type} [F64 R] [F64Real R] (outside : Outside T) (d : Dumps T) (t : T) (dump : Dump) (rate : R)
    (known : Option (Option (List Mapping))) (active : Bool) : Except (StatusCode × String) Bytes → Prop where
  | refused (off : active = false) :
      HeapServed outside d t dump rate known active (.error (403, "heap profiling not activated"))
  | notCreated (on : active = true) (e : FileError) (fails : CannotCreate (d.answers t) (d.Taken t) e) :
      HeapServed outside d t dump rate known active (.error (500, outside.display (.io e)))
  | notDumped (on : active = true) (e : CtlError) (fails : (d.answers t).dump = some e) :
      HeapServed outside d t dump rate known active (.error (500, outside.display (.ctl e)))
  | served (on : active = true) (mappings : Option (List Mapping)) (bytes : Bytes) (seen : known = some mappings)
      (delivers : Delivers outside.gzip (outside.env t) dump rate mappings bytes) :
      HeapServed outside d t dump rate known active (.ok bytes)

omit [DecidableEq T] in
/-- What a handler that did not panic answers to a well-formed dump. -/
theorem HandlerOutcome.heapServed {R : Type} [F64 R] [F64Real R] [I64Cast R] {dump : Dump} {rate : R} {d : Dumps T}
    {known : Option (Option (List Mapping))} {active halted : Bool} {returned : Except (StatusCode × String) Bytes}
    (h : HandlerOutcome outside.display id (DumpOutcome d t .rust known halted
      (pprofOf R (outside.env t) outside.gzip)) active (.ok returned))
    (read : parseF64 dump.rate.chars = some rate) (weights : ∀ record ∈ dump.records, InI64Range (record.weight rate))
    (written : (d.answers t).text = dump.text) (whole : (d.answers t).readFails = none) :
    HeapServed outside d t dump rate known active returned := by
  cases h.answered with
  | refused off => exact .refused off
  | notCreated on e fails => exact .notCreated on e fails
  | notDumped on e fails => exact .notDumped on e fails
  | notConverted on mappings e seen comes =>
    rw [written, whole, readerLines] at comes
    exact absurd comes (pprofOf_not_refused read e)
  | converted on mappings bytes seen comes =>
    rw [written, whole, readerLines] at comes
    exact .served on mappings bytes seen (pprofOf_delivers read weights comes)

omit [DecidableEq T] in
/-- Reads leave the flag. -/
theorem profActive_reads (reads : ∀ u, (task u).asCall = .get) (order : List T) {p : Process}
    (on : p.jemalloc.profActive = true) :
    (after Process.step p (order.map (inputOf outside task))).jemalloc.profActive = true := by
  induction order generalizing p with
  | nil => exact on
  | cons t order ih =>
    refine ih ?_
    rw [inputOf, reads, Process.step, Process.call]
    cases p.force <;> exact on

end

end JemallocPprof
