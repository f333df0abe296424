import JemallocPprof.Dumping
import JemallocPprof.Lib.Lock

/-!
# Tasks

The tasks of a process: those that call `PROF_CTL`, the handlers of the HTTP
server of the example, and callers of the C API. A task is made of operations,
between which those of other tasks come; what it does with the controller it
does under the lock, from the read of `start_time` to the last write. The C API
takes no lock. `PROF_CTL` is `None` for good or never, so a program is told
which.
-/

namespace JemallocPprof
set_option autoImplicit false
open Lib

/-- What a holder of the lock asks of jemalloc, of the clock and of `md`. -/
inductive CtlOp where
  /-- Reading `self.md.start_time` -/
  | startTime
  /-- `Instant::now` -/
  | now
  /-- `mallctl` of `prof.active` -/
  | writeActive (active : Bool)
  /-- `mallctl` of `prof.lg_sample` -/
  | lgSample
  /-- `mallctl` of `prof.reset` -/
  | writeReset (rate : UInt64)
  /-- Writing `self.md.start_time` -/
  | setStartTime (startTime : Option ProfStartTime)

abbrev CtlOp.Res : CtlOp → Type
  | .startTime => Option ProfStartTime
  | .now => Instant
  | .writeActive _ => Option CtlError
  | .lgSample => UInt64
  | .writeReset _ => Option CtlError
  | .setStartTime _ => Unit

/-- A write of jemalloc: the setting is written, or nothing changes. -/
def Locked.write (s : Locked) (answer : Option CtlError) (set : Jemalloc → Jemalloc) : Option CtlError × Locked :=
  match answer with
  | none => (none, { s with jemalloc := set s.jemalloc })
  | some error => (some error, s)

/-- What an operation returns and does. -/
def ctlEffect (answers : Answers) (s : Locked) : (op : CtlOp) → op.Res × Locked
  | .startTime => (s.ctl.startTime, s)
  | .now => (answers.now, s)
  | .writeActive active => s.write answers.active fun j => { j with profActive := active }
  | .lgSample => (s.jemalloc.lgSample, s)
  | .writeReset rate => s.write answers.reset fun j => { j with lgSample := rate }
  | .setStartTime startTime => ((), { s with ctl := ⟨startTime⟩ })

abbrev CtlProg := Prog CtlOp CtlOp.Res

namespace CtlProg

def startTime : CtlProg (Option ProfStartTime) := .perform CtlOp.startTime

def now : CtlProg Instant := .perform CtlOp.now

def writeActive (active : Bool) : CtlProg (Option CtlError) := .perform (CtlOp.writeActive active)

def lgSample : CtlProg UInt64 := .perform CtlOp.lgSample

def writeReset (rate : UInt64) : CtlProg (Option CtlError) := .perform (CtlOp.writeReset rate)

def setStartTime (startTime : Option ProfStartTime) : CtlProg Unit := .perform (CtlOp.setStartTime startTime)

/-- `activated`. -/
def activated : CtlProg Bool := do
  return (← startTime).isSome

/-- `activate`. -/
def activate : CtlProg (Except CtlError Unit) := do
  match ← writeActive true with
  | some e => return .error e
  | none =>
    if (← startTime).isNone then
      let now ← now
      setStartTime (some (.instant now))
      return .ok ()
    else
      return .ok ()

/-- `deactivate`. -/
def deactivate : CtlProg (Except CtlError Unit) := do
  match ← writeActive false with
  | some e => return .error e
  | none =>
    let rate ← lgSample
    match ← writeReset rate with
    | some e => return .error e
    | none =>
      setStartTime none
      return .ok ()

/-- `activate_jemalloc_profiling` under the lock. -/
def activateJemallocProfiling : CtlProg Report := do
  if ← activated then return .nothing
  else return .activate (← activate)

/-- `deactivate_jemalloc_profiling` under the lock. -/
def deactivateJemallocProfiling : CtlProg Report := do
  if !(← activated) then return .nothing
  else return .deactivate (← deactivate)

/-- A call under the lock. -/
def perform : Call → CtlProg Report
  | .get => return .nothing
  | .activate => return .activate (← activate)
  | .deactivate => return .deactivate (← deactivate)
  | .activateJemallocProfiling => activateJemallocProfiling
  | .deactivateJemallocProfiling => deactivateJemallocProfiling

end CtlProg

/-- Alone, the operations of a call are the call of one step. -/
theorem perform_run (call : Call) (answers : Answers) (s : Locked) :
    (CtlProg.perform call).run (ctlEffect answers) s = s.perform call answers := by
  obtain ⟨jemalloc, ⟨startTime⟩⟩ := s
  obtain ⟨now, active, reset⟩ := answers
  cases call <;> cases startTime <;> cases active <;> cases reset <;> rfl

/-- The operations of a task: under the lock, or of a dump. -/
abbrev TaskProg := Prog (LockOp CtlOp ⊕ DumpOp) (Sum.elim (LockOp.Res CtlOp.Res) DumpOp.Res)

/-! ## Handlers -/

abbrev StatusCode := Nat

def FORBIDDEN : StatusCode := 403
def INTERNAL_SERVER_ERROR : StatusCode := 500

/-- A handler that panics, or returns a response or a status with a text. -/
abbrev HandlerResult (α : Type) := Returned (StatusCode × String) α

/-- A response with a header. -/
structure Response where
  contentType : String
  body : Bytes
  deriving DecidableEq

/-- `to_string` of the `anyhow::Error`; `display` is that of an error of std or of `tikv_jemalloc_ctl`. -/
def DumpError.toString (display : DumpError → String) : DumpError → String
  | .jeheap .empty => "Heap dump file was empty"
  | .jeheap .stackWithoutWeight => "Stack without corresponding weight!"
  | .flamegraph e => e
  | e => display e

/-- `require_profiling_activated`. -/
def requireProfilingActivated : CtlProg (Except (StatusCode × String) Unit) := do
  if ← CtlProg.activated then return .ok ()
  else return .error (FORBIDDEN, "heap profiling not activated")

theorem requireProfilingActivated_run (answers : Answers) (s : Locked) :
    requireProfilingActivated.run (ctlEffect answers) s =
      (if s.ctl.activated then .ok () else .error (FORBIDDEN, "heap profiling not activated"), s) := by
  obtain ⟨jemalloc, ⟨startTime⟩⟩ := s
  cases startTime <;> rfl

/-- What a handler makes of a dump. -/
def respond {α : Type} (display : DumpError → String) (ok : Bytes → α) (returned : Returned DumpError Bytes) :
    HandlerResult α :=
  returned.map fun
    | .ok body => .ok (ok body)
    | .error e => .error (INTERNAL_SERVER_ERROR, e.toString display)

/-- A handler: it takes the lock for as long as it lives, also when it panics. -/
def handle {α : Type} (profCtl : Bool) (display : DumpError → String) (dump : DumpProg (Returned DumpError Bytes))
    (ok : Bytes → α) : TaskProg (HandlerResult α) :=
  if profCtl then do
    Prog.lock.inl
    match ← requireProfilingActivated.guard.inl with
    | .error e => do
      Prog.unlock.inl
      return .ok (.error e)
    | .ok () => do
      let returned ← dump.inr
      Prog.unlock.inl
      return respond display ok returned
  else return .error (.unwind .unwrapNone)

section
variable (F : Type) [F64 F] (env : Env) (profCtl : Bool) (display : DumpError → String)

/-- `handle_get_heap`. -/
def handleGetHeap (gzip : Bytes → Bytes) : TaskProg (HandlerResult Bytes) :=
  handle profCtl display (JemallocProfCtl.dumpPprof F env gzip) id

/-- `handle_get_heap_flamegraph`. -/
def handleGetHeapFlamegraph (fromLines : FlamegraphOptions → List String → Except String Bytes) :
    TaskProg (HandlerResult Response) :=
  handle profCtl display (JemallocProfCtl.dumpFlamegraph F env fromLines) fun svg => ⟨"image/svg+xml", svg⟩

end

/-! ## Tasks -/

inductive Task where
  /-- A use of `PROF_CTL` -/
  | control (call : Call)
  | heap
  | heapFlamegraph
  | c (caller : Capi.Caller)
  deriving DecidableEq

/-- What it returned. -/
inductive TaskReport where
  | control (report : Report)
  | heap (result : HandlerResult Bytes)
  | heapFlamegraph (result : HandlerResult Response)
  | c (returned : Except Panic Capi.Return)

/-- What is around the tasks, and what it answers to each of them. -/
structure Outside (T : Type) where
  gzip : Bytes → Bytes
  fromLines : FlamegraphOptions → List String → Except String Bytes
  display : DumpError → String
  env : T → Env
  control : T → Answers
  dump : T → DumpAnswers

/-- The program of a task. -/
def Task.program {T : Type} (F : Type) [F64 F] (outside : Outside T) (profCtl : Bool) (t : T) :
    Task → TaskProg TaskReport
  | .control call =>
    if profCtl then .control <$> (CtlProg.perform call).underLock.inl
    else return .control .nothing
  | .heap => .heap <$> handleGetHeap F (outside.env t) profCtl outside.display outside.gzip
  | .heapFlamegraph =>
    .heapFlamegraph <$> handleGetHeapFlamegraph F (outside.env t) profCtl outside.display outside.fromLines
  | .c caller => .c <$> (Capi.dumpJemallocPprof F (outside.env t) outside.gzip caller).inr

/-- The call a task is for the controller. -/
def Task.asCall : Task → Call
  | .control call => call
  | _ => .get

/-- The library a task dumps for, if it does. -/
def Task.library : Task → Option Library
  | .control _ => none
  | .heap | .heapFlamegraph => some .rust
  | .c _ => some .c

/-- What tasks share. -/
abbrev TaskState (T : Type) := Guarded T Locked × DumpState

/-- What the lock guards in a process before its tasks: jemalloc and the controller, if there is one. -/
def Process.locked (p : Process) : Locked := ⟨p.jemalloc, p.force.getD ⟨none⟩⟩

/-- The process of the tasks is over. -/
def tasksOver {T : Type} (s : TaskState T) : Bool := s.2.aborted

/-- Tasks under way. -/
abbrev TaskPool (T : Type) :=
  Pool T (TaskState T) (LockOp CtlOp ⊕ DumpOp) (Sum.elim (LockOp.Res CtlOp.Res) DumpOp.Res) TaskReport

section
variable {T : Type} [DecidableEq T] (F : Type) [F64 F] (outside : Outside T) (process : Process) (start : DumpState)
  (task : T → Task)

omit [DecidableEq T] in
/-- The tasks before their turns. -/
def tasksBefore : TaskPool T where
  shared := (⟨none, process.locked, []⟩, { start with aborted := false })
  program t := (task t).program F outside process.force.isSome t

/-- The tasks after some turns; nobody has one when the process is over. -/
def tasksAfter (turns : List T) : TaskPool T :=
  after (Pool.turn (halting tasksOver (sumReady lockReady always))
    (sumEffect (lockEffect fun t => ctlEffect (outside.control t)) fun t => dumpEffect (outside.dump t)))
    (tasksBefore F outside process start task) turns

end

end JemallocPprof
