import JemallocPprof.Dumping.Protocol
import JemallocPprof.Faithful.Dumps
import JemallocPprof.Faithful.Encoding

/-!
# Dumps between dumps

Dumps of any number of threads, of the Rust API and of the C API, take turns in
any order. A dump that nothing fails for converts what jemalloc wrote for it,
as it would have alone (`dumps_succeed`). Together they leave the temporary
directory as it was (`dumps_clean_up`), and what they return is read back as the
records jemalloc wrote for them (`dumps_deliver`). All of this may be cut short
by one of them: a panic that would leave an `extern "C"` function ends the
process, which is `Dumps.Stopped` and has its causes (`Dumps.Aborts`).
-/

namespace JemallocPprof
set_option autoImplicit false
open Lib

/-- What a dump comes to: it stops at the first thing that fails, and otherwise
converts what jemalloc wrote for it with the mappings of its library. -/
inductive DumpOutcome {T α : Type} (d : Dumps T) (t : T) (library : Library)
    (known : Option (Option (List Mapping))) (halted : Bool)
    (convert : List (Except IoError String) → Option (List Mapping) → Except Panic (Except DumpError α)) :
    Returned DumpError α → Prop where
  | notCreated (e : FileError) (fails : CannotCreate (d.answers t) (d.Taken t) e) :
      DumpOutcome d t library known halted convert (.ok (.error (.io e)))
  | notDumped (e : CtlError) (fails : (d.answers t).dump = some e) :
      DumpOutcome d t library known halted convert (.ok (.error (.ctl e)))
  | unmapped (panic : Panic) (why : d.Broken library) :
      DumpOutcome d t library known halted convert (.error (.unwind panic))
  | aborted (panic : Panic) (why : (d.answers t).mappings = .error (.abort panic)) (ended : halted = true) :
      DumpOutcome d t library known halted convert (.error (.abort panic))
  | converted (mappings : Option (List Mapping)) (dumped : (d.answers t).dump = none) (seen : known = some mappings) :
      DumpOutcome d t library known halted convert
        (unwinding (convert (readerLines (d.answers t).text (d.answers t).readFails) mappings))

/-- Why a dump crashes: for `MAPPINGS`, or in the conversion. -/
inductive Dumps.Crashes {T α : Type} (d : Dumps T) (t : T) (library : Library)
    (known : Option (Option (List Mapping)))
    (convert : List (Except IoError String) → Option (List Mapping) → Except Panic (Except DumpError α)) : Prop where
  | callback (panic : Panic) (why : (d.answers t).mappings = .error (.abort panic))
  | unmapped (why : d.Broken library)
  | notConverted (mappings : Option (List Mapping)) (panic : Panic) (seen : known = some mappings)
      (comes : convert (readerLines (d.answers t).text (d.answers t).readFails) mappings = .error panic)

/-- What follows a result. -/
def andThen {κ ε α β : Type} (first : Except κ (Except ε α)) (rest : α → Except κ (Except ε β)) :
    Except κ (Except ε β) :=
  match first with
  | .error crash => .error crash
  | .ok (.error e) => .ok (.error e)
  | .ok (.ok a) => rest a

theorem unwinding_andThen {ε α β : Type} (first : Except Panic (Except ε α)) (rest : α → Except Panic (Except ε β)) :
    unwinding (andThen first rest) = andThen (unwinding first) fun a => unwinding (rest a) := by
  rcases first with panic | e | a <;> rfl

section
variable (F : Type) [F64 F] (env : Env) (gzip : Bytes → Bytes)

def profileOf (lines : List (Except IoError String)) (mappings : Option (List Mapping)) :
    Except Panic (Except DumpError (StackProfile F)) :=
  match parseJeheap lines mappings with
  | .error e => .ok (.error (.jeheap e))
  | .ok profile => .ok (.ok profile)

/-- The drawing of a profile. -/
def svgOf (fromLines : List String → Except String Bytes) (profile : StackProfile F) :
    Except Panic (Except DumpError Bytes) :=
  match toFlamegraph env profile fromLines with
  | .error panic => .error panic
  | .ok (.error e) => .ok (.error (.flamegraph e))
  | .ok (.ok svg) => .ok (.ok svg)

def flamegraphOf (fromLines : List String → Except String Bytes) (lines : List (Except IoError String))
    (mappings : Option (List Mapping)) : Except Panic (Except DumpError Bytes) :=
  andThen (profileOf F lines mappings) (svgOf F env fromLines)

def pprofOf (lines : List (Except IoError String)) (mappings : Option (List Mapping)) :
    Except Panic (Except DumpError Bytes) :=
  andThen (profileOf F lines mappings) fun profile =>
    (toPprof env gzip profile ("inuse_space", "bytes") ("space", "bytes") none).map .ok

end

/-- What the C API keeps of an error. -/
def Capi.Error.of : DumpError → Capi.Error
  | .io e => .io e
  | .ctl e => .mallctl e.errno
  | .jeheap _ | .flamegraph _ => .parseProfile

/-- What the C API tells of a dump. -/
def Capi.told (caller : Capi.Caller) : Returned DumpError Bytes → Except Panic Capi.Return
  | .error crash => .error crash.panic
  | .ok returned => .ok (Capi.finish caller (returned.mapError Capi.Error.of))

section
variable {T α : Type} {d : Dumps T} {t : T} {library : Library} {known : Option (Option (List Mapping))} {halted : Bool}
  {convert : List (Except IoError String) → Option (List Mapping) → Except Panic (Except DumpError α)}
  {r : Returned DumpError α}

theorem DumpOutcome.crashed {crash : Crash} (h : DumpOutcome d t library known halted convert (.error crash)) :
    d.Crashes t library known convert := by
  generalize is : (Except.error crash : Returned DumpError α) = r at h
  cases h with
  | notCreated e fails => cases is
  | notDumped e fails => cases is
  | unmapped panic why => exact .unmapped why
  | aborted panic why ended => exact .callback panic why
  | converted mappings dumped seen =>
    cases comes : convert (readerLines (d.answers t).text (d.answers t).readFails) mappings with
    | error panic => exact .notConverted mappings panic seen comes
    | ok returned =>
      rw [comes] at is
      cases is

/-- What a dump that did not crash returned. -/
theorem DumpOutcome.returned {result : Except DumpError α}
    (h : DumpOutcome d t library known halted convert (.ok result)) :
    (∃ e, CannotCreate (d.answers t) (d.Taken t) e ∧ result = .error (.io e)) ∨
      (∃ e, (d.answers t).dump = some e ∧ result = .error (.ctl e)) ∨
      ∃ mappings, known = some mappings ∧
        convert (readerLines (d.answers t).text (d.answers t).readFails) mappings = .ok result := by
  generalize is : (Except.ok result : Returned DumpError α) = r at h
  cases h with
  | notCreated e fails => exact .inl ⟨e, fails, Except.ok.inj is⟩
  | notDumped e fails => exact .inr (.inl ⟨e, fails, Except.ok.inj is⟩)
  | unmapped panic why => cases is
  | aborted panic why ended => cases is
  | converted mappings dumped seen => exact .inr (.inr ⟨mappings, seen, mapError_ok.1 is.symm⟩)

/-- An abort ends the process. -/
theorem DumpOutcome.ended {crash : Crash} (h : DumpOutcome d t library known halted convert (.error crash)) :
    ∀ panic, crash = .abort panic → halted = true := by
  rintro panic rfl
  generalize is : (Except.error (.abort panic) : Returned DumpError α) = r at h
  cases h with
  | notCreated e fails => cases is
  | notDumped e fails => cases is
  | unmapped panic why => cases is
  | aborted panic why ended => exact ended
  | converted mappings dumped seen =>
    cases comes : convert (readerLines (d.answers t).text (d.answers t).readFails) mappings <;>
      rw [comes] at is <;> cases is

theorem DumpOutcome.andThen {β : Type} (h : DumpOutcome d t library known halted convert r)
    (rest : α → Except Panic (Except DumpError β)) :
    DumpOutcome d t library known halted (fun lines mappings => JemallocPprof.andThen (convert lines mappings) rest)
      (JemallocPprof.andThen r fun a => unwinding (rest a)) := by
  cases h with
  | notCreated e fails => exact .notCreated e fails
  | notDumped e fails => exact .notDumped e fails
  | unmapped panic why => exact .unmapped panic why
  | aborted panic why ended => exact .aborted panic why ended
  | converted mappings dumped seen =>
    rw [← unwinding_andThen]
    exact .converted mappings dumped seen

theorem DumpOutcome.mono {known' : Option (Option (List Mapping))} {halted' : Bool}
    (h : DumpOutcome d t library known halted convert r) (more : ∀ m, known = some m → known' = some m)
    (still : halted = true → halted' = true) : DumpOutcome d t library known' halted' convert r := by
  cases h with
  | notCreated e fails => exact .notCreated e fails
  | notDumped e fails => exact .notDumped e fails
  | unmapped panic why => exact .unmapped panic why
  | aborted panic why ended => exact .aborted panic why (still ended)
  | converted mappings dumped seen => exact .converted mappings dumped (more mappings seen)

theorem Dumps.Crashes.mono {known' : Option (Option (List Mapping))} (h : d.Crashes t library known convert)
    (more : ∀ m, known = some m → known' = some m) : d.Crashes t library known' convert := by
  cases h with
  | callback panic why => exact .callback panic why
  | unmapped why => exact .unmapped why
  | notConverted mappings panic seen comes => exact .notConverted mappings panic (more mappings seen) comes

end

/-- Why a call from C ends the process. -/
def Fatal {T : Type} (F : Type) [F64 F] (gzip : Bytes → Bytes) (env : T → Env) (d : Dumps T) (u : T)
    (known : Option (Option (List Mapping))) : Prop :=
  d.library u = some .c ∧ d.Crashes u .c known (pprofOf F (env u) gzip)

section
variable {T : Type} [DecidableEq T] {d : Dumps T} {fatal : T → Option (Option (List Mapping)) → Prop} {t : T}
  {own : DumpOwn} {F : Type} [F64 F] {env : Env} {gzip : Bytes → Bytes}

/-- What `dump` leaves: a file with what jemalloc wrote, whose name is gone. -/
theorem dump_follows (bare : own.entry = none) :
    (dumpProtocol d fatal).Follows t (fun own r => own.entry = none ∧ match r with
      | .error e => DumpOutcome d t .rust own.mappings own.halted (profileOf F) (.ok (.error e))
      | .ok file => (d.answers t).dump = none ∧ own.file = some (file, (d.answers t).text)) own
      JemallocProfCtl.dump := by
  apply newTempFile_follows bare
  · intro f
    apply profDump_follows rfl
    cases dumped : (d.answers t).dump with
    | some e => exact unlink_follows rfl ⟨rfl, .notDumped e dumped⟩
    | none => exact unlink_follows rfl ⟨rfl, rfl, rfl⟩
  · intro e fails
    exact ⟨bare, .notCreated e fails⟩

theorem dumpProfile_follows (rust : d.library t = some .rust) (bare : own.entry = none) :
    (dumpProtocol d fatal).Follows t (fun own r => own.entry = none ∧
      DumpOutcome d t .rust own.mappings own.halted (profileOf F) r) own (JemallocProfCtl.dumpProfile F) := by
  apply (dump_follows (F := F) bare).bind
  rintro own (e | file) ⟨bare, left⟩
  · exact ⟨bare, left⟩
  · obtain ⟨dumped, held⟩ := left
    apply mappings_follows rust
    · intro m
      refine readLines_follows held ?_
      have converted : DumpOutcome d t .rust (some m) own.halted (profileOf F) _ := .converted m dumped rfl
      unfold profileOf at converted
      split <;> rename_i parsed <;> rw [parsed] at converted <;> exact ⟨bare, converted⟩
    · intro panic why
      exact ⟨bare, .unmapped panic why⟩
    · intro panic why
      exact ⟨bare, .aborted panic why rfl⟩

theorem dumpPprof_follows (rust : d.library t = some .rust) (bare : own.entry = none) :
    (dumpProtocol d fatal).Follows t (fun own r => own.entry = none ∧
      DumpOutcome d t .rust own.mappings own.halted (pprofOf F env gzip) r) own
      (JemallocProfCtl.dumpPprof F env gzip) := by
  apply (dumpProfile_follows rust bare).bind
  rintro own r ⟨bare, outcome⟩
  have converted := outcome.andThen fun profile =>
    (toPprof env gzip profile ("inuse_space", "bytes") ("space", "bytes") none).map Except.ok
  rcases r with crash | e | profile
  · exact ⟨bare, converted⟩
  · exact ⟨bare, converted⟩
  · exact ⟨bare, converted⟩

theorem dumpFlamegraph_follows {opts : FlamegraphOptions}
    {fromLines : FlamegraphOptions → List String → Except String Bytes} (rust : d.library t = some .rust)
    (bare : own.entry = none) :
    (dumpProtocol d fatal).Follows t (fun own r => own.entry = none ∧
      DumpOutcome d t .rust own.mappings own.halted (flamegraphOf F env (fromLines opts)) r) own
      (JemallocProfCtl.dumpFlamegraphWithOptions F env fromLines opts) := by
  apply (dumpProfile_follows rust bare).bind
  rintro own r ⟨bare, outcome⟩
  have converted := outcome.andThen (svgOf F env (fromLines opts))
  rcases r with crash | e | profile
  · exact ⟨bare, converted⟩
  · exact ⟨bare, converted⟩
  · have drawing : andThen (.ok (.ok profile)) (fun a => unwinding (svgOf F env (fromLines opts) a)) =
        unwinding (svgOf F env (fromLines opts) profile) := rfl
    rw [drawing, svgOf] at converted
    simp only
    split <;> rename_i drawn <;> rw [drawn] at converted <;> exact ⟨bare, converted⟩

/-- The C API is the Rust API with its errors told in another way. -/
theorem dumpPprofInner_follows (c : d.library t = some .c) (bare : own.entry = none) :
    (dumpProtocol d fatal).Follows t (fun own r => own.entry = none ∧
      ∃ r', DumpOutcome d t .c own.mappings own.halted (pprofOf F env gzip) r' ∧
        r = r'.map (·.mapError Capi.Error.of)) own (Capi.dumpPprofInner F env gzip) := by
  apply newTempFile_follows bare
  · intro f
    apply profDump_follows rfl
    cases dumped : (d.answers t).dump with
    | some e => exact unlink_follows rfl ⟨rfl, _, .notDumped e dumped, rfl⟩
    | none =>
      apply mappings_follows c
      · intro m
        refine readLines_follows rfl (unlink_follows rfl ?_)
        have converted : DumpOutcome d t .c (some m) own.halted (pprofOf F env gzip) _ := .converted m dumped rfl
        unfold pprofOf profileOf at converted
        split
        · rename_i e parsed
          rw [parsed] at converted
          exact ⟨rfl, _, converted, rfl⟩
        · rename_i profile parsed
          rw [parsed] at converted
          refine ⟨rfl, _, converted, ?_⟩
          simp only [andThen]
          cases toPprof env gzip profile ("inuse_space", "bytes") ("space", "bytes") none <;> rfl
      · intro panic why
        exact unlink_follows rfl ⟨rfl, _, .unmapped panic why, rfl⟩
      · intro panic why
        exact unlink_follows rfl ⟨rfl, _, .aborted panic why rfl, rfl⟩
  · intro e fails
    exact ⟨bare, _, .notCreated e fails, rfl⟩

/-- What a call from C comes to; if it does not return, the process is over. -/
theorem dumpJemallocPprof_follows {caller : Capi.Caller} {env : T → Env} (c : d.library t = some .c)
    (bare : own.entry = none) :
    (dumpProtocol d (Fatal F gzip env d)).Follows t (fun own r => own.entry = none ∧
      (∃ r', DumpOutcome d t .c own.mappings own.halted (pprofOf F (env t) gzip) r' ∧ r = Capi.told caller r') ∧
      ∀ panic, r = .error panic → own.halted = true) own (Capi.dumpJemallocPprof F (env t) gzip caller) := by
  apply (dumpPprofInner_follows c bare).bind
  rintro own r ⟨bare, r', outcome, rfl⟩
  cases r' with
  | error crash =>
    refine abort_follows ⟨c, outcome.crashed⟩ ?_
    exact ⟨bare, ⟨_, outcome.mono (fun _ => id) fun _ => rfl, rfl⟩, fun _ _ => rfl⟩
  | ok returned => exact ⟨bare, ⟨_, outcome, rfl⟩, nofun⟩

end

section
variable (F : Type) [F64 F] (gzip : Bytes → Bytes)
  (fromLines : FlamegraphOptions → List String → Except String Bytes)

/-- What a call may report, given the answers and the mappings of its library. -/
def DumpCall.Outcome {T : Type} (env : Env) (d : Dumps T) (t : T) (known : Option (Option (List Mapping)))
    (halted : Bool) : DumpCall → DumpReport → Prop
  | .pprof, .pprof r => DumpOutcome d t .rust known halted (pprofOf F env gzip) r
  | .flamegraph opts, .flamegraph r => DumpOutcome d t .rust known halted (flamegraphOf F env (fromLines opts)) r
  | .c caller, .c r => (∃ r', DumpOutcome d t .c known halted (pprofOf F env gzip) r' ∧ r = Capi.told caller r') ∧
      ∀ panic, r = .error panic → halted = true
  | _, _ => False

variable {T : Type} [DecidableEq T] (start : DumpState) (call : T → DumpCall) (answers : T → DumpAnswers)
  (env : T → Env)

/-- The dumps that the calls are. -/
def dumpsOf : Dumps T := ⟨fun t => some (call t).library, answers, start⟩

/-- The threads, each with its call, after some turns; nobody has one when the process is over. -/
def dumpsAfter (turns : List T) : Pool T DumpState DumpOp DumpOp.Res DumpReport :=
  after (Pool.turn (halting DumpState.aborted always) fun t => dumpEffect (answers t))
    ⟨{ start with aborted := false }, fun t => (call t).program F (env t) gzip fromLines⟩ turns

/-- Why the process of some dumps is over: in one of them the loader's callback
panicked, or it is a call from C that a panic would have left. -/
inductive Dumps.Aborts (d : Dumps T) (mappings : Library → LazyCell (Option (List Mapping))) (u : T) : Prop where
  | callback (library : Library) (panic : Panic) (dumps : d.library u = some library)
      (why : (d.answers u).mappings = .error (.abort panic))
  | c (asked : d.library u = some .c) (why : d.Crashes u .c (mappings .c).get (pprofOf F (env u) gzip))

variable {F gzip fromLines start call answers env}

omit [DecidableEq T] in
theorem Dumps.Ends.aborts {d : Dumps T} {mappings : Library → LazyCell (Option (List Mapping))} {u : T}
    (h : d.Ends (Fatal F gzip env d) mappings u) : d.Aborts F gzip env mappings u := by
  cases h with
  | callback library panic dumps why => exact .callback library panic dumps why
  | fatal known why seen =>
    obtain ⟨asked, crashes⟩ := why
    refine .c asked (crashes.mono fun m is => ?_)
    rw [seen m .c is asked, LazyCell.get]

theorem program_follows (t : T) :
    (dumpProtocol (dumpsOf start call answers) (Fatal F gzip env (dumpsOf start call answers))).Follows t
      (fun own report => own.entry = none ∧ (call t).Outcome F gzip fromLines (env t) (dumpsOf start call answers) t
        own.mappings own.halted report) .nothing ((call t).program F (env t) gzip fromLines) := by
  have library : (dumpsOf start call answers).library t = some (call t).library := rfl
  cases is : call t with
  | pprof =>
    rw [is] at library
    exact (dumpPprof_follows library rfl).map fun own r outcome => outcome
  | flamegraph opts =>
    rw [is] at library
    exact (dumpFlamegraph_follows library rfl).map fun own r outcome => outcome
  | c caller =>
    rw [is] at library
    exact (dumpJemallocPprof_follows library rfl).map fun own r outcome => outcome

/-- The invariant of the protocol, and what each thread that ended has come to. -/
theorem dumpsAfter_inv (turns : List T) : ∃ owns,
    DumpInv (dumpsOf start call answers) (Fatal F gzip env (dumpsOf start call answers)) owns
      (dumpsAfter F gzip fromLines start call answers env turns).shared ∧
    ∀ t report, (dumpsAfter F gzip fromLines start call answers env turns).program t = .done report →
      (owns t).entry = none ∧ (call t).Outcome F gzip fromLines (env t) (dumpsOf start call answers) t
        (owns t).mappings (owns t).halted report := by
  let d : Dumps T := dumpsOf start call answers
  let pool : Pool T DumpState DumpOp DumpOp.Res DumpReport :=
    ⟨{ start with aborted := false }, fun t => (call t).program F (env t) gzip fromLines⟩
  have follow : ∀ t, ((dumpProtocol d (Fatal F gzip env d)).halting DumpState.aborted).Follows t
      (fun own report => own.entry = none ∧
        (call t).Outcome F gzip fromLines (env t) d t own.mappings own.halted report)
      .nothing (pool.program t) := fun t => (program_follows t).halting
  obtain ⟨owns, inv, follow⟩ := Protocol.adequate (DumpInv.initial d _) follow turns
  refine ⟨owns, inv, fun t report ended => ?_⟩
  have mine := follow t
  have here : (after (Pool.turn (halting DumpState.aborted always) fun t => dumpEffect (d.answers t)) pool
      turns).program t = .done report := ended
  rw [here] at mine
  exact mine

omit [DecidableEq T] in
theorem DumpCall.Outcome.mono {call : DumpCall} {env : Env} {d : Dumps T} {t : T}
    {known known' : Option (Option (List Mapping))} {halted halted' : Bool} {report : DumpReport}
    (h : call.Outcome F gzip fromLines env d t known halted report)
    (more : ∀ m, known = some m → known' = some m) (still : halted = true → halted' = true) :
    call.Outcome F gzip fromLines env d t known' halted' report := by
  cases call <;> cases report
  case pprof.pprof => exact DumpOutcome.mono h more still
  case flamegraph.flamegraph => exact DumpOutcome.mono h more still
  case c.c =>
    obtain ⟨⟨r', outcome, is⟩, ended⟩ := h
    exact ⟨⟨r', outcome.mono more still, is⟩, fun panic is => still (ended panic is)⟩
  all_goals exact h.elim

/-- Whatever turns were taken, a call that ended reports what its own answers
and the mappings of its library make of it. -/
theorem dumpsAfter_outcome {turns : List T} {t : T} {report : DumpReport}
    (ended : (dumpsAfter F gzip fromLines start call answers env turns).program t = .done report) :
    (call t).Outcome F gzip fromLines (env t) (dumpsOf start call answers) t
      ((dumpsAfter F gzip fromLines start call answers env turns).shared.mappings (call t).library).get
      (dumpsAfter F gzip fromLines start call answers env turns).shared.aborted report := by
  obtain ⟨owns, inv, outcomes⟩ := dumpsAfter_inv (F := F) turns
  apply (outcomes t report ended).2.mono
  · intro m seen
    rw [inv.mappings t m _ seen rfl, LazyCell.get]
  · exact inv.halted t

theorem dumpProfile_within : (JemallocProfCtl.dumpProfile F).Within 5 := by
  have dump : JemallocProfCtl.dump.Within 3 := by
    rintro (e | f)
    · trivial
    · rintro (_ | e) <;> exact fun _ => Prog.within_done _ _
  refine dump.bind (n := 2) ?_
  rintro (e | file)
  · trivial
  · rintro (crash | mappings)
    · trivial
    · intro lines
      simp only [Prog.bind]
      split <;> trivial

theorem dumpPprof_within (env : Env) : (JemallocProfCtl.dumpPprof F env gzip).Within 5 := by
  refine dumpProfile_within.bind (n := 0) ?_
  rintro (crash | e | p) <;> trivial

theorem dumpFlamegraph_within (env : Env) (opts : FlamegraphOptions) :
    (JemallocProfCtl.dumpFlamegraphWithOptions F env fromLines opts).Within 5 := by
  refine dumpProfile_within.bind (n := 0) ?_
  rintro (crash | e | p)
  · trivial
  · trivial
  · simp only
    split <;> trivial

theorem dumpJemallocPprof_within (env : Env) (caller : Capi.Caller) :
    (Capi.dumpJemallocPprof F env gzip caller).Within 6 := by
  have inner : (Capi.dumpPprofInner F env gzip).Within 5 := by
    rintro (e | f)
    · trivial
    · rintro (_ | e)
      · rintro (crash | mappings)
        · exact fun _ => Prog.within_done _ _
        · intro lines _
          simp only
          split <;> exact Prog.within_done _ _
      · exact fun _ => Prog.within_done _ _
  refine inner.bind (n := 1) ?_
  rintro (crash | returned)
  · exact fun _ => Prog.within_done _ _
  · trivial

/-- A call is over after six of its own turns. -/
theorem program_within (call : DumpCall) (env : Env) : (call.program F env gzip fromLines).Within 6 := by
  cases call with
  | pprof => exact (dumpPprof_within env).map.mono (by decide)
  | flamegraph opts => exact (dumpFlamegraph_within env opts).map.mono (by decide)
  | c caller => exact (dumpJemallocPprof_within env caller).map

/-- `MAPPINGS` holds what an initialiser came to. -/
theorem dumpsAfter_held {turns : List T} {library : Library} {m : Option (List Mapping)}
    (forced : (dumpsAfter F gzip fromLines start call answers env turns).shared.mappings library = .forced m) :
    (dumpsOf start call answers).Held library m := by
  obtain ⟨owns, inv, -⟩ := dumpsAfter_inv (F := F) turns
  exact inv.held library m forced

variable (F) (gzip) (env) in
/-- The process is over, and for a cause. -/
def Dumps.Stopped (d : Dumps T) (s : DumpState) : Prop := s.aborted = true ∧ ∃ u, d.Aborts F gzip env s.mappings u

theorem dumpsAfter_stopped {turns : List T}
    (halted : (dumpsAfter F gzip fromLines start call answers env turns).shared.aborted = true) :
    (dumpsOf start call answers).Stopped F gzip env
      (dumpsAfter F gzip fromLines start call answers env turns).shared := by
  obtain ⟨owns, inv, -⟩ := dumpsAfter_inv (F := F) turns
  obtain ⟨u, ends⟩ := inv.aborted halted
  exact ⟨halted, u, ends.aborts⟩

theorem dumpsAfter_ends {turns : List T} {t : T} (enough : 6 ≤ turns.count t) :
    (dumpsAfter F gzip fromLines start call answers env turns).Ended t ∨
      (dumpsOf start call answers).Stopped F gzip env
        (dumpsAfter F gzip fromLines start call answers env turns).shared := by
  have within : ((call t).program F (env t) gzip fromLines).Within 6 := program_within (call t) (env t)
  exact (Pool.ends within enough).imp_right dumpsAfter_stopped

variable (F) (gzip) (fromLines) in
/-- The report of a call on what was read for it. -/
def DumpCall.report (env : Env) (lines : List (Except IoError String)) (mappings : Option (List Mapping)) :
    DumpCall → DumpReport
  | .pprof => .pprof (unwinding (pprofOf F env gzip lines mappings))
  | .flamegraph opts => .flamegraph (unwinding (flamegraphOf F env (fromLines opts) lines mappings))
  | .c caller => .c (Capi.told caller (unwinding (pprofOf F env gzip lines mappings)))

/-- Nothing fails for the dump: one of its names is free and nobody else's,
jemalloc writes, and the mappings can be had. -/
structure Dumps.Undisturbed (d : Dumps T) (t : T) : Prop where
  free : ∃ names, (d.answers t).tempFile = .ok names ∧ ∃ name ∈ names, ¬d.Taken t name
  dumped : (d.answers t).dump = none
  mapped : ∀ library, d.library t = some library → ¬d.Broken library
  loaded : ∀ panic, (d.answers t).mappings ≠ .error (.abort panic)

omit [DecidableEq T] in
theorem DumpOutcome.undisturbed {α : Type} {d : Dumps T} {t : T} {library : Library}
    {known : Option (Option (List Mapping))} {halted : Bool}
    {convert : List (Except IoError String) → Option (List Mapping) → Except Panic (Except DumpError α)}
    {r : Returned DumpError α} (h : DumpOutcome d t library known halted convert r) (fine : d.Undisturbed t)
    (dumps : d.library t = some library) : ∃ mappings, known = some mappings ∧
      r = unwinding (convert (readerLines (d.answers t).text (d.answers t).readFails) mappings) := by
  cases h with
  | notCreated e fails =>
    obtain ⟨names, drawn, name, mem, free⟩ := fine.free
    rw [CannotCreate, drawn] at fails
    exact absurd (fails.2 name mem) free
  | notDumped e fails =>
    rw [fine.dumped] at fails
    cases fails
  | unmapped panic why => exact absurd why (fine.mapped library dumps)
  | aborted panic why ended => exact absurd why (fine.loaded panic)
  | converted mappings dumped seen => exact ⟨mappings, seen, rfl⟩

omit [DecidableEq T] in
theorem DumpCall.Outcome.undisturbed {call : DumpCall} {env : Env} {d : Dumps T} {t : T}
    {known : Option (Option (List Mapping))} {halted : Bool} {report : DumpReport}
    (h : call.Outcome F gzip fromLines env d t known halted report) (fine : d.Undisturbed t)
    (dumps : d.library t = some call.library) : ∃ mappings, known = some mappings ∧
      report = call.report F gzip fromLines env (readerLines (d.answers t).text (d.answers t).readFails) mappings := by
  cases call <;> cases report
  case pprof.pprof =>
    obtain ⟨mappings, seen, rfl⟩ := DumpOutcome.undisturbed h fine dumps
    exact ⟨mappings, seen, rfl⟩
  case flamegraph.flamegraph =>
    obtain ⟨mappings, seen, rfl⟩ := DumpOutcome.undisturbed h fine dumps
    exact ⟨mappings, seen, rfl⟩
  case c.c =>
    obtain ⟨⟨r', outcome, rfl⟩, -⟩ := h
    obtain ⟨mappings, seen, rfl⟩ := outcome.undisturbed fine dumps
    exact ⟨mappings, seen, rfl⟩
  all_goals exact h.elim

/-! ## Two dumps -/

/-- Two dumps that draw a name that is taken, and then one each. -/
def busyAnswers (t : Bool) : DumpAnswers where
  tempFile := .ok [⟨[0x61], by decide⟩, ⟨[if t then 0x62 else 0x63], by cases t <;> decide⟩]
  text := busyDump.text
  dump := none
  mappings := .ok (some [libraryAt 0x400])
  readFails := none

/-- A directory with one file. -/
def oneFile : DumpState where
  files := ⟨fun path => if path.bytes = [0x61] then some 0 else none, [[]]⟩
  mappings := fun _ => .unforced
  aborted := false

/-- One call from Rust and one from C. -/
def oneOfEach : Bool → DumpCall
  | false => .pprof
  | true => .c ⟨some none, none⟩

/-- They take turns. -/
def alternately : List Bool := [false, true, true, false, false, true, true, false, false, true, true, false]

/-- The two dumps after some turns. -/
def busyAfter (turns : List Bool) : Pool Bool DumpState DumpOp DumpOp.Res DumpReport :=
  dumpsAfter (ExtNum ℚ) List.reverse (fun _ _ => .ok []) oneFile oneOfEach busyAnswers (fun _ => noSymbols) turns

theorem busyDump_read : parseF64 busyDump.rate.chars = some (ExtNum.fin (524288 : ℚ)) := by decide +kernel

/-- Their text is converted to bytes. -/
theorem busyDump_bytes : ∃ bytes, pprofOf (ExtNum ℚ) noSymbols List.reverse (bufReadLines busyDump.text)
    (some [libraryAt 0x400]) = .ok (.ok bytes) := by
  obtain ⟨bytes, converted⟩ := exists_ok (x := toPprof noSymbols List.reverse
    (busyDump.profile (ExtNum.fin (524288 : ℚ)) [libraryAt 0x400]) ("inuse_space", "bytes") ("space", "bytes") none)
    (by decide +kernel)
  rw [pprofOf, profileOf, parseJeheap_text busyDump busyDump_read]
  exact ⟨bytes, congrArg (Except.map Except.ok) converted⟩

theorem busyAnswers_text (t : Bool) : (busyAnswers t).text = busyDump.text := by
  rw [busyAnswers]

theorem busyAnswers_lines (t : Bool) :
    readerLines (busyAnswers t).text (busyAnswers t).readFails = bufReadLines busyDump.text := by
  rw [busyAnswers_text, busyAnswers, readerLines]

section
variable {d : Dumps Bool} (busy : d.answers = busyAnswers) (one : d.start = oneFile)
include busy one

/-- The two have one value of `MAPPINGS`. -/
theorem busyAnswers_held {library : Library} {mappings : Option (List Mapping)} (held : d.Held library mappings) :
    mappings = some [libraryAt 0x400] := by
  rcases held with forced | ⟨u, -, fails⟩
  · rw [one] at forced
    cases forced
  · rw [busy] at fails
    cases fails
    rfl

theorem busyAnswers_mapped (library : Library) : ¬d.Broken library := by
  rintro (poisoned | ⟨u, panic, -, fails⟩)
  · rw [one] at poisoned
    cases poisoned
  · rw [busy] at fails
    cases fails

theorem busyAnswers_undisturbed (t : Bool) : d.Undisturbed t where
  free := by
    rw [busy]
    refine ⟨_, rfl, _, List.mem_cons_of_mem _ List.mem_cons_self, ?_⟩
    rintro (there | ⟨u, other, names, drawn, mem⟩)
    · rw [one] at there
      cases t <;> exact there rfl
    · rw [busy] at drawn
      cases drawn
      revert t u
      decide
  dumped := by rw [busy, busyAnswers]
  mapped := fun library _ => busyAnswers_mapped busy one library
  loaded := by
    rw [busy]
    nofun

/-- Neither ends the process. -/
theorem busyAnswers_goes {s : DumpState} (held : ∀ m, s.mappings .c = .forced m → d.Held .c m) :
    ¬d.Stopped (ExtNum ℚ) List.reverse (fun _ => noSymbols) s := by
  rintro ⟨-, u, ⟨library, panic, -, why⟩ | ⟨-, ⟨panic, why⟩ | why | ⟨mappings, panic, seen, comes⟩⟩⟩
  · rw [busy] at why
    cases why
  · rw [busy] at why
    cases why
  · exact busyAnswers_mapped busy one .c why
  · obtain ⟨bytes, converted⟩ := busyDump_bytes
    obtain rfl := busyAnswers_held busy one (held mappings (LazyCell.get_eq_some.1 seen))
    rw [busy, busyAnswers_lines, converted] at comes
    cases comes

end

theorem busyAfter_goes (turns : List Bool) : ¬(dumpsOf oneFile oneOfEach busyAnswers).Stopped (ExtNum ℚ) List.reverse
    (fun _ => noSymbols) (busyAfter turns).shared :=
  busyAnswers_goes rfl rfl fun _ => dumpsAfter_held

theorem alternately_enough (t : Bool) : 6 ≤ alternately.count t := by
  cases t <;> decide

/-! ## What holds of dumps -/

/-- **Dumps succeed.** After six turns of its own, a dump that nothing fails for
has converted what jemalloc wrote for it with the one value that its library has
for `MAPPINGS`, whatever the other dumps did between, unless one of them ended
the process. -/
theorem dumps_succeed {turns : List T} {t : T} (fine : (dumpsOf start call answers).Undisturbed t)
    (enough : 6 ≤ turns.count t) :
    ((dumpsAfter F gzip fromLines start call answers env turns).Ended t ∨
      (dumpsOf start call answers).Stopped F gzip env
        (dumpsAfter F gzip fromLines start call answers env turns).shared) ∧
    ∀ report, (dumpsAfter F gzip fromLines start call answers env turns).program t = .done report → ∃ mappings,
      (dumpsOf start call answers).Held (call t).library mappings ∧
      (dumpsAfter F gzip fromLines start call answers env turns).shared.mappings (call t).library = .forced mappings ∧
      report = (call t).report F gzip fromLines (env t) (readerLines (answers t).text (answers t).readFails)
        mappings := by
  refine ⟨dumpsAfter_ends enough, fun report ended => ?_⟩
  obtain ⟨mappings, seen, rfl⟩ := (dumpsAfter_outcome ended).undisturbed fine rfl
  have forced := LazyCell.get_eq_some.1 seen
  exact ⟨mappings, dumpsAfter_held forced, forced, rfl⟩

theorem busyDumps_succeed : ∃ mappings, (dumpsOf oneFile oneOfEach busyAnswers).Held .c mappings ∧
    (busyAfter alternately).shared.mappings .c = .forced mappings ∧
    (busyAfter alternately).program true = .done ((oneOfEach true).report (ExtNum ℚ) List.reverse (fun _ _ => .ok [])
      noSymbols (readerLines (busyAnswers true).text none) mappings) := by
  have fine : (dumpsOf oneFile oneOfEach busyAnswers).Undisturbed true := busyAnswers_undisturbed rfl rfl true
  have enough := alternately_enough true
  generalize alternately = turns at enough ⊢
  obtain ⟨ends, reports⟩ : ((busyAfter turns).Ended true ∨ (dumpsOf oneFile oneOfEach busyAnswers).Stopped (ExtNum ℚ)
      List.reverse (fun _ => noSymbols) (busyAfter turns).shared) ∧
      ∀ report, (busyAfter turns).program true = .done report → _ := dumps_succeed fine enough
  obtain ⟨report, ended⟩ := ends.resolve_right (busyAfter_goes turns)
  obtain ⟨mappings, held, forced, rfl⟩ := reports report ended
  exact ⟨mappings, held, forced, ended⟩

/-- **Dumps clean up.** Names and files that were there are never touched. A name
that is new was drawn for a dump that has not ended; so when every call has had
its turns the directory is what it was, unless one of them ended the process. -/
theorem dumps_clean_up (turns : List T) :
    (∀ path file, start.files.file path = some file →
      (dumpsAfter F gzip fromLines start call answers env turns).shared.files.file path = some file) ∧
    (∀ (file : Nat) c, start.files.contents[file]? = some c →
      (dumpsAfter F gzip fromLines start call answers env turns).shared.files.contents[file]? = some c) ∧
    (∀ path, (dumpsAfter F gzip fromLines start call answers env turns).shared.files.file path ≠
        start.files.file path → ∃ t, ¬(dumpsAfter F gzip fromLines start call answers env turns).Ended t ∧
      Drawn (answers t) path) ∧
    ((∀ t, 6 ≤ turns.count t) →
      (∀ t, (dumpsAfter F gzip fromLines start call answers env turns).Ended t) ∧
        (dumpsAfter F gzip fromLines start call answers env turns).shared.files.file = start.files.file ∨
      (dumpsOf start call answers).Stopped F gzip env
        (dumpsAfter F gzip fromLines start call answers env turns).shared) := by
  obtain ⟨owns, inv, outcomes⟩ : ∃ owns, DumpInv (dumpsOf start call answers) _ owns
      (dumpsAfter F gzip fromLines start call answers env turns).shared ∧ _ := dumpsAfter_inv turns
  have left : ∀ path, (dumpsAfter F gzip fromLines start call answers env turns).shared.files.file path ≠
      start.files.file path → ∃ t, ¬(dumpsAfter F gzip fromLines start call answers env turns).Ended t ∧
        Drawn (answers t) path := by
    intro path changed
    by_contra nobody
    refine changed (inv.others path fun t file held => nobody ⟨t, ?_, (inv.entry t path file held).2.2.2⟩)
    rintro ⟨report, has⟩
    have bare := (outcomes t report has).1
    rw [bare] at held
    cases held
  refine ⟨?_, inv.kept, left, fun enough => ?_⟩
  · intro path file there
    refine (inv.others path fun t file' held => ?_).trans there
    have new := (inv.entry t path file' held).2.1
    cases there.symm.trans new
  · by_cases halted : (dumpsAfter F gzip fromLines start call answers env turns).shared.aborted = true
    · exact .inr (dumpsAfter_stopped halted)
    · left
      have ended : ∀ t, (dumpsAfter F gzip fromLines start call answers env turns).Ended t :=
        fun t => (dumpsAfter_ends (enough t)).resolve_right fun stopped => halted stopped.1
      refine ⟨ended, funext fun path => ?_⟩
      by_contra changed
      obtain ⟨t, going, -⟩ := left path changed
      exact going (ended t)

theorem busyDumps_cleaned_up : (busyAfter alternately).shared.files.file = oneFile.files.file := by
  have enough := alternately_enough
  generalize alternately = turns at enough ⊢
  obtain ⟨-, -, -, ends⟩ : _ ∧ _ ∧ _ ∧ (_ → (∀ t, (busyAfter turns).Ended t) ∧
      (busyAfter turns).shared.files.file = oneFile.files.file ∨ (dumpsOf oneFile oneOfEach busyAnswers).Stopped
        (ExtNum ℚ) List.reverse (fun _ => noSymbols) (busyAfter turns).shared) := dumps_clean_up turns
  exact ((ends enough).resolve_right (busyAfter_goes turns)).2

/-- A call from C that finds `MAPPINGS` poisoned ends the process, and the file of the other dump stays. -/
example :
    let stopped := (dumpsAfter (ExtNum ℚ) List.reverse (fun _ _ => .ok [])
      { oneFile with mappings := fun _ => .poisoned } oneOfEach busyAnswers (fun _ => noSymbols)
      [false, true, true, true, true, true, false]).shared
    stopped.aborted = true ∧ stopped.files.file ⟨[0x63], by decide⟩ = some 1 := ⟨rfl, rfl⟩

end

/-! ## What the bytes hold -/

/-- The real a rational value is. -/
def rationalReal : ExtNum ℚ → Option ℝ
  | .fin q => some q
  | _ => none

theorem rationalReal_eq_some {w : ExtNum ℚ} {v : ℝ} : rationalReal w = some v ↔ ∃ q : ℚ, w = .fin q ∧ q = v := by
  cases w <;> simp [rationalReal]

noncomputable instance realRational : F64Real (ExtNum ℚ) where
  real := rationalReal
  real_trunc := by
    intro w v read
    obtain ⟨q, rfl, rfl⟩ := rationalReal_eq_some.1 read
    refine rationalReal_eq_some.2 ⟨_, rfl, ?_⟩
    simp only [truncate, Rat.cast_nonneg, Rat.floor_cast, Rat.ceil_cast, Rat.cast_intCast]
  toI64_int := by
    intro w i read lo hi
    obtain ⟨q, rfl, same⟩ := rationalReal_eq_some.1 read
    obtain rfl : q = i := by exact_mod_cast same
    exact ExtNum.saturate_intCast lo (Int.le_sub_one_of_lt hi)
  real_ofI64 := fun w i _ => rationalReal_eq_some.2 ⟨i, rfl, Rat.cast_intCast i⟩
  eq_of_real := by
    intro w w' v read read'
    obtain ⟨q, rfl, same⟩ := rationalReal_eq_some.1 read
    obtain ⟨q', rfl, same'⟩ := rationalReal_eq_some.1 read'
    obtain rfl : q = q' := by exact_mod_cast same.trans same'.symm
    exact ExtNum.eq_fin.2 rfl

theorem rational_inI64Range {w : ExtNum ℚ} (within : (match w with
    | .fin q => decide (-2 ^ 63 ≤ q ∧ q < 2 ^ 63)
    | _ => false) = true) : InI64Range w := by
  cases w with
  | fin q =>
    obtain ⟨lo, hi⟩ := of_decide_eq_true within
    exact ⟨q, rfl, by exact_mod_cast lo, by exact_mod_cast hi⟩
  | nan => cases within
  | inf negative => cases within

/-- Frames at one address lie in one mapping. -/
def Separate (frames : List Frame) : Prop :=
  ∀ f ∈ frames, ∀ g ∈ frames, f.address = g.address → f.mapping = g.mapping

/-- The bytes are a compressed profile whose samples are the records of the dump,
with locations that describe their frames if the dump does not have one address
of two files. -/
def Delivers {F : Type} [F64 F] [F64Real F] (gzip : Bytes → Bytes) (env : Env) (dump : Dump) (rate : F)
    (mappings : Option (List Mapping)) (bytes : Bytes) : Prop :=
  ∃ p encoded, bytes = gzip encoded ∧ Proto.Profile.decode encoded = some p ∧
    List.Forall₂ (RecordFaithful rate (mappings.getD []) p) p.sample dump.records ∧
    (Separate (dump.profile rate (mappings.getD [])).frames →
      LocationsFaithful env (dump.profile rate (mappings.getD [])) p)

section
variable {F : Type} [F64 F] [F64Real F] [I64Cast F] {env : Env} {gzip : Bytes → Bytes} {dump : Dump} {rate : F}
  {mappings : Option (List Mapping)} {bytes : Bytes}

/-- A dump's text that was converted is delivered. -/
theorem pprofOf_delivers (read : parseF64 dump.rate.chars = some rate)
    (weights : ∀ record ∈ dump.records, InI64Range (record.weight rate))
    (run : pprofOf F env gzip (bufReadLines dump.text) mappings = .ok (.ok bytes)) :
    Delivers gzip env dump rate mappings bytes := by
  rw [pprofOf, profileOf, parseJeheap_text dump read] at run
  cases converted : toPprof env gzip (dump.profile rate (mappings.getD [])) ("inuse_space", "bytes")
      ("space", "bytes") none with
  | error panic =>
    simp only [andThen, converted, Except.map] at run
    cases run
  | ok bytes' =>
    simp only [andThen, converted, Except.map] at run
    cases run
    obtain ⟨p, built, compressed, size, fitting⟩ := toPprof_encoded converted
    obtain ⟨items, annotated, h⟩ := toPprofProto_describes built
    obtain rfl := (dump.profile_annotated rate (mappings.getD [])).unique annotated
    refine ⟨p, p.encode, compressed, p.decode_encode fitting size, ?_, h.locations_faithful annotated⟩
    have samples := h.sample
    rw [List.forall₂_map_right_iff, List.forall₂_iff_zip] at samples
    refine List.forall₂_iff_zip.2 ⟨samples.1, fun {sample record} pair => ?_⟩
    exact (samples.2 pair).recordFaithful h (weights record (List.of_mem_zip pair).2)

omit [F64Real F] [I64Cast F] in
/-- A dump's text is never refused. -/
theorem pprofOf_not_refused (read : parseF64 dump.rate.chars = some rate) (e : DumpError) :
    pprofOf F env gzip (bufReadLines dump.text) mappings ≠ .ok (.error e) := by
  rw [pprofOf, profileOf, parseJeheap_text dump read]
  intro run
  cases converted : toPprof env gzip (dump.profile rate (mappings.getD [])) ("inuse_space", "bytes")
      ("space", "bytes") none with
  | error panic =>
    simp only [andThen, converted, Except.map] at run
    cases run
  | ok bytes' =>
    simp only [andThen, converted, Except.map] at run
    cases run

/-- What a call from C that returned says: success where the delivered bytes are,
failure what failed, as far as `errno` can say it, with the caller's pointers
left alone. -/
inductive Capi.Kept {T : Type} (gzip : Bytes → Bytes) (env : Env) (dump : Dump) (rate : F) (d : Dumps T) (t : T)
    (known : Option (Option (List Mapping))) (caller : Caller) : Return → Prop where
  | delivered (mappings : Option (List Mapping)) (bytes : Bytes) (seen : known = some mappings)
      (delivers : Delivers gzip env dump rate mappings bytes) : Kept gzip env dump rate d t known caller {
        ret := JP_SUCCESS
        errno := none
        bufOut := caller.bufOut.map fun _ => if bytes = [] then none else some bytes
        nOut := caller.nOut.map fun _ => bytes.length }
  | refused (e : CtlError) (fails : (d.answers t).dump = some e) :
      Kept gzip env dump rate d t known caller ⟨JP_FAILURE, some e.errno, caller.bufOut, caller.nOut⟩
  | notCreated (e : FileError) (fails : CannotCreate (d.answers t) (d.Taken t) e) :
      Kept gzip env dump rate d t known caller ⟨JP_FAILURE, e.rawOsError, caller.bufOut, caller.nOut⟩

/-- What the C API tells of a well-formed dump that did not crash. -/
theorem DumpOutcome.kept {T : Type} {d : Dumps T} {t : T} {known : Option (Option (List Mapping))} {halted : Bool}
    {returned : Except DumpError Bytes} (h : DumpOutcome d t .c known halted (pprofOf F env gzip) (.ok returned))
    (read : parseF64 dump.rate.chars = some rate) (weights : ∀ record ∈ dump.records, InI64Range (record.weight rate))
    (written : (d.answers t).text = dump.text) (whole : (d.answers t).readFails = none) (caller : Capi.Caller) :
    Capi.Kept gzip env dump rate d t known caller (Capi.finish caller (returned.mapError Capi.Error.of)) := by
  rcases h.returned with ⟨e, fails, rfl⟩ | ⟨e, fails, rfl⟩ | ⟨mappings, seen, converted⟩
  · exact Capi.finish_io caller e ▸ .notCreated e fails
  · exact .refused e fails
  · rw [written, whole, readerLines] at converted
    cases returned with
    | error e => exact absurd converted (pprofOf_not_refused read e)
    | ok bytes =>
      have told : Capi.finish caller (Except.mapError Capi.Error.of (.ok bytes)) = _ := Capi.finish_ok caller bytes
      rw [told]
      exact .delivered mappings bytes seen (pprofOf_delivers read weights converted)

variable {T : Type} [DecidableEq T] {fromLines : FlamegraphOptions → List String → Except String Bytes}
  {start : DumpState} {call : T → DumpCall} {answers : T → DumpAnswers} {envs : T → Env} {turns : List T} {t : T}

/-- **Dumps deliver.** Bytes returned in any interleaving are read back as the
records jemalloc wrote for that very call. -/
theorem dumps_deliver (read : parseF64 dump.rate.chars = some rate)
    (weights : ∀ record ∈ dump.records, InI64Range (record.weight rate)) (written : (answers t).text = dump.text)
    (whole : (answers t).readFails = none) (asked : call t = .pprof)
    (ended : (dumpsAfter F gzip fromLines start call answers envs turns).program t = .done (.pprof (.ok (.ok bytes)))) :
    ∃ mappings,
      (dumpsAfter F gzip fromLines start call answers envs turns).shared.mappings .rust = .forced mappings ∧
      Delivers gzip (envs t) dump rate mappings bytes := by
  have outcome := dumpsAfter_outcome ended
  rw [asked] at outcome
  rcases DumpOutcome.returned outcome with ⟨e, -, is⟩ | ⟨e, -, is⟩ | ⟨mappings, seen, converted⟩
  · cases is
  · cases is
  · have lines : readerLines ((dumpsOf start call answers).answers t).text
        ((dumpsOf start call answers).answers t).readFails = bufReadLines dump.text := by
      rw [dumpsOf, written, whole, readerLines]
    rw [lines] at converted
    exact ⟨mappings, LazyCell.get_eq_some.1 seen, pprofOf_delivers read weights converted⟩

theorem busyDump_rational : ∀ record ∈ busyDump.records, InI64Range (record.weight (ExtNum.fin (524288 : ℚ))) :=
  fun record mem => rational_inI64Range ((by decide +kernel : ∀ record ∈ busyDump.records,
    (match record.weight (ExtNum.fin (524288 : ℚ)) with
      | .fin q => decide (-2 ^ 63 ≤ q ∧ q < 2 ^ 63)
      | _ => false) = true) record mem)

theorem busyDump_separate :
    Separate (busyDump.profile (ExtNum.fin (524288 : ℚ)) [libraryAt 0x400]).frames := by
  unfold Separate
  decide +kernel

/-- Both dumps convert their text. -/
theorem busyAfter_report {turns : List Bool} {t : Bool} (enough : 6 ≤ turns.count t) :
    (busyAfter turns).program t = .done ((oneOfEach t).report (ExtNum ℚ) List.reverse
      (fun _ _ => .ok []) noSymbols (bufReadLines busyDump.text) (some [libraryAt 0x400])) := by
  have fine : (dumpsOf oneFile oneOfEach busyAnswers).Undisturbed t := busyAnswers_undisturbed rfl rfl t
  obtain ⟨report, ended⟩ : (busyAfter turns).Ended t := (dumpsAfter_ends enough).resolve_right (busyAfter_goes turns)
  obtain ⟨mappings, seen, rfl⟩ := (dumpsAfter_outcome ended).undisturbed fine rfl
  obtain rfl := busyAnswers_held rfl rfl (dumpsAfter_held (LazyCell.get_eq_some.1 seen))
  have lines : readerLines ((dumpsOf oneFile oneOfEach busyAnswers).answers t).text
      ((dumpsOf oneFile oneOfEach busyAnswers).answers t).readFails = bufReadLines busyDump.text := busyAnswers_lines t
  rw [ended, lines]

theorem busyDump_delivered : ∃ bytes mappings p,
    (busyAfter alternately).program false = .done (.pprof (.ok (.ok bytes))) ∧
    (busyAfter alternately).shared.mappings .rust = .forced mappings ∧
    Delivers List.reverse noSymbols busyDump (ExtNum.fin (524288 : ℚ)) mappings bytes ∧
    Proto.Profile.decode bytes.reverse = some p ∧
    LocationsFaithful noSymbols (busyDump.profile (ExtNum.fin (524288 : ℚ)) [libraryAt 0x400]) p := by
  have enough := alternately_enough false
  generalize alternately = turns at enough ⊢
  obtain ⟨bytes, converted⟩ := busyDump_bytes
  have ended : (busyAfter turns).program false = .done (.pprof (.ok (.ok bytes))) := by
    rw [busyAfter_report enough, oneOfEach, DumpCall.report, converted]
    rfl
  obtain ⟨mappings, seen, delivers⟩ :=
    dumps_deliver busyDump_read busyDump_rational (busyAnswers_text false) rfl rfl ended
  obtain rfl := busyAnswers_held (d := dumpsOf oneFile oneOfEach busyAnswers) rfl rfl (dumpsAfter_held seen)
  obtain ⟨p, encoded, rfl, decoded, records, described⟩ := id delivers
  refine ⟨_, _, p, ended, seen, delivers, ?_, described busyDump_separate⟩
  rwa [List.reverse_reverse]

end

end JemallocPprof
