import JemallocPprof.Faithful.Builds
import JemallocPprof.Faithful.Drawing

/-!
# Every request is answered

A conversion may panic. For a well-formed dump with weights in range there are
few causes (`ConversionPanics`): the clock, the number of strings, or an address
that does not fit where somebody checks; a file also for the size of its message.
So calls of the C API that had their turns have answered, or the process is over
for one of these or because of `MAPPINGS` (`capi_answered`), and in fair turns the
requests of the HTTP server are answered alike (`heap_answered`,
`flamegraph_answered`).
-/

namespace JemallocPprof
set_option autoImplicit false
open Lib

section Conversion
variable {F : Type} [F64 F] [F64Real F] {env : Env}

/-- Why the conversion of a profile panics whose weights are in range. -/
inductive ConversionPanics (env : Env) (self : StackProfile F) (sampleType periodType : String × String) : Prop where
  | clock (off : ¬ env.ClockFits)
  | strings (many : ¬ StringsFit env self sampleType periodType none)
  | address (on : env.overflowChecks = true) (misfit : Misfit self)

theorem toPprofProto_panics {self : StackProfile F} {items : List (WeightedStack F × Option String)}
    {sampleType periodType : String × String} {panic : Panic} (annotated : self.Annotated items)
    (weights : ∀ item ∈ items, InI64Range item.1.weight)
    (run : toPprofProto env self sampleType periodType none = .error panic) :
    ConversionPanics env self sampleType periodType := by
  by_contra fine
  have clock : env.ClockFits := by_contra fun off => fine (.clock off)
  have fits : StringsFit env self sampleType periodType none := by_contra fun many => fine (.strings many)
  have converts : ∀ item ∈ items, Converts env.overflowChecks self.mappings item.1 := by
    intro item mem
    obtain ⟨x, real, lo, hi⟩ := weights item mem
    refine ⟨⟨_, cast_trunc real lo hi⟩, fun on addr here => ?_⟩
    by_contra refused
    obtain ⟨entry, inside, same, -⟩ := exists_of_mem_right annotated mem
    exact fine (.address on ⟨entry, inside, addr, same ▸ here, refused⟩)
  obtain ⟨p, returns⟩ := (toPprofProto_returns annotated clock fits).2 converts
  cases run.symm.trans returns

variable {dump : Dump} {rate : F} {mappings : Option (List Mapping)} {panic : Panic}

/-- The profile of a dump whose conversion panicked. -/
theorem dump_panics {sampleType periodType : String × String} {mappings : List Mapping}
    (weights : ∀ record ∈ dump.records, InI64Range (record.weight rate))
    (run : toPprofProto env (dump.profile rate mappings) sampleType periodType none = .error panic) :
    ConversionPanics env (dump.profile rate mappings) sampleType periodType := by
  refine toPprofProto_panics (dump.profile_annotated rate mappings) (fun item mem => ?_) run
  obtain ⟨record, inside, rfl⟩ := List.mem_map.1 mem
  exact weights record inside

/-- Why the pprof file of a profile cannot be made. -/
inductive PprofPanics (env : Env) (self : StackProfile F) : Prop where
  | conversion (why : ConversionPanics env self ("inuse_space", "bytes") ("space", "bytes"))
  | size (p : Proto.Profile)
      (converted : toPprofProto env self ("inuse_space", "bytes") ("space", "bytes") none = .ok p)
      (long : 2 ^ 63 ≤ p.encode.length)

theorem pprofOf_panics {gzip : Bytes → Bytes} (read : parseF64 dump.rate.chars = some rate)
    (weights : ∀ record ∈ dump.records, InI64Range (record.weight rate))
    (run : pprofOf F env gzip (bufReadLines dump.text) mappings = .error panic) :
    PprofPanics env (dump.profile rate (mappings.getD [])) := by
  rw [pprofOf, profileOf, parseJeheap_text dump read] at run
  cases converted : toPprofProto env (dump.profile rate (mappings.getD [])) ("inuse_space", "bytes")
      ("space", "bytes") none with
  | error panic' => exact .conversion (dump_panics weights converted)
  | ok p =>
    refine .size p converted ?_
    by_contra short
    simp only [andThen, toPprof, converted, ok_bind, Proto.Profile.encodeToVec, if_pos (Nat.not_le.1 short),
      Except.map] at run
    cases run

end Conversion

section Dumps
variable {T : Type} {F : Type} [F64 F] [F64Real F] (gzip : Bytes → Bytes) (dump : Dump) (rate : F) (d : Dumps T)
  (library : Library) (t : T) (known : Option (Option (List Mapping))) (halted : Bool)

/-- Why a dump crashes; `fails` are the profiles whose conversion does. -/
inductive DumpPanics (fails : StackProfile F → Prop) : Prop where
  | callback (panic : Panic) (why : (d.answers t).mappings = .error (.abort panic))
  | unmapped (why : d.Broken library)
  | notConverted (mappings : Option (List Mapping)) (seen : known = some mappings)
      (why : fails (dump.profile rate (mappings.getD [])))

variable {gzip dump rate d library t known halted} in
omit [F64Real F] in
theorem Dumps.Crashes.dumpPanics {α : Type} {fails : StackProfile F → Prop}
    {convert : List (Except IoError String) → Option (List Mapping) → Except Panic (Except DumpError α)}
    (h : d.Crashes t library known convert) (written : (d.answers t).text = dump.text)
    (whole : (d.answers t).readFails = none)
    (converts : ∀ mappings panic, convert (bufReadLines dump.text) mappings = .error panic →
      fails (dump.profile rate (mappings.getD []))) : DumpPanics dump rate d library t known fails := by
  cases h with
  | callback panic why => exact .callback panic why
  | unmapped why => exact .unmapped why
  | notConverted mappings panic seen comes =>
    rw [written, whole, readerLines] at comes
    exact .notConverted mappings seen (converts mappings panic comes)

/-- How `dump_jemalloc_pprof` ends. If it does not return the process is over. -/
def CapiEnds (env : Env) (caller : Capi.Caller) : Except Panic Capi.Return → Prop
  | .ok returned => Capi.Kept gzip env dump rate d t known caller returned
  | .error _ => halted = true ∧ DumpPanics dump rate d .c t known (PprofPanics env)

variable {dump rate t} [DecidableEq T] [I64Cast F]
  (fromLines : FlamegraphOptions → List String → Except String Bytes) (start : DumpState) {answers : T → DumpAnswers}
  (envs : T → Env) {call : T → DumpCall} {turns : List T}

/-- **The C API answers.** In any interleaving of dumps, a call that had six
turns has delivered what jemalloc wrote for it or said what failed, unless the
process is over; and that it is for a cause. -/
theorem capi_answered (read : parseF64 dump.rate.chars = some rate)
    (weights : ∀ record ∈ dump.records, InI64Range (record.weight rate)) (written : (answers t).text = dump.text)
    (whole : (answers t).readFails = none) {caller : Capi.Caller} (asked : call t = .c caller)
    (enough : 6 ≤ turns.count t) :
    ((dumpsAfter F gzip fromLines start call answers envs turns).Ended t ∨
      (dumpsOf start call answers).Stopped F gzip envs
        (dumpsAfter F gzip fromLines start call answers envs turns).shared) ∧
    ∀ report, (dumpsAfter F gzip fromLines start call answers envs turns).program t = .done report →
      ∃ result, report = .c result ∧ CapiEnds gzip dump rate (dumpsOf start call answers) t
        ((dumpsAfter F gzip fromLines start call answers envs turns).shared.mappings .c).get
        (dumpsAfter F gzip fromLines start call answers envs turns).shared.aborted (envs t) caller result := by
  refine ⟨dumpsAfter_ends enough, fun report ended => ?_⟩
  have outcome := dumpsAfter_outcome ended
  rw [asked] at outcome
  cases report with
  | c result =>
    refine ⟨result, rfl, ?_⟩
    obtain ⟨⟨r, came, rfl⟩, stops⟩ := outcome
    cases r with
    | error crash =>
      refine ⟨stops _ rfl, came.crashed.dumpPanics written whole fun mappings panic comes => ?_⟩
      exact pprofOf_panics read weights comes
    | ok returned => exact came.kept read weights written whole caller
  | pprof r => exact outcome.elim
  | flamegraph r => exact outcome.elim

/-- The call from C of the two dumps. -/
theorem busyDump_answered : ∃ returned, (busyAfter alternately).program true = .done (.c (.ok returned)) ∧
    Capi.Kept List.reverse noSymbols busyDump (ExtNum.fin (524288 : ℚ)) (dumpsOf oneFile oneOfEach busyAnswers) true
      ((busyAfter alternately).shared.mappings .c).get ⟨some none, none⟩ returned := by
  have enough := alternately_enough true
  generalize alternately = turns at enough ⊢
  obtain ⟨bytes, converted⟩ := busyDump_bytes
  have delivered : (busyAfter turns).program true =
      .done (.c (.ok (Capi.finish ⟨some none, none⟩ (.ok bytes)))) := by
    rw [busyAfter_report enough, oneOfEach, DumpCall.report, converted]
    rfl
  have asked : oneOfEach true = .c ⟨some none, none⟩ := rfl
  obtain ⟨-, reports⟩ := capi_answered List.reverse (fun _ _ => .ok []) oneFile (fun _ => noSymbols)
    busyDump_read busyDump_rational (busyAnswers_text true) rfl asked enough
  obtain ⟨result, is, ends⟩ := reports _ delivered
  obtain rfl : .ok (Capi.finish ⟨some none, none⟩ (.ok bytes)) = result := DumpReport.c.inj is
  exact ⟨_, delivered, ends⟩

end Dumps

section Requests
variable {T : Type} {R : Type} [F64 R] [F64Real R] (outside : Outside T) (d : Dumps T) (t : T) (dump : Dump)
  (rate : R) (known : Option (Option (List Mapping))) (halted active : Bool)

/-- How `GET /debug/pprof/allocs` ends. -/
def HeapEnds : HandlerResult Bytes → Prop
  | .ok returned => HeapServed outside d t dump rate known active returned
  | .error crash => active = true ∧ (∀ panic, crash = .abort panic → halted = true) ∧
      DumpPanics dump rate d .rust t known (PprofPanics (outside.env t))

variable {outside t dump rate} [DecidableEq T] [Fintype T] {task : T → Task} (start : DumpState)
  (optProfActive : Bool) (lgSample : UInt64) {turns : List T}

/-- **The heap profile is served.** In fair turns, among any other tasks, every
request is refused if the profiler was off when it took the lock, and otherwise
answered with the records that jemalloc wrote for it, unless one of its two
operations that can fail did, or it panicked for a cause that is listed. It has
ended, or the process is over for a cause. -/
theorem heap_answered [I64Cast R] (read : parseF64 dump.rate.chars = some rate)
    (weights : ∀ record ∈ dump.records, InI64Range (record.weight rate)) (written : (outside.dump t).text = dump.text)
    (whole : (outside.dump t).readFails = none) (resets : ∀ u, (outside.control u).reset = none)
    (handler : task t = .heap) (fair : FairTurns (8 * Fintype.card T) turns) :
    ((tasksAfter R outside (.start true optProfActive lgSample) start task turns).Ended t ∨
      (taskDumps outside start task).Stopped R outside.gzip outside.env
        (tasksAfter R outside (.start true optProfActive lgSample) start task turns).shared.2) ∧
    ∀ report, (tasksAfter R outside (.start true optProfActive lgSample) start task turns).program t = .done report →
      ∃ result before behind, report = .heap result ∧
        (tasksAfter R outside (.start true optProfActive lgSample) start task turns).shared.1.served =
          before ++ t :: behind ∧
        HeapEnds outside (taskDumps outside start task) t dump rate
          ((tasksAfter R outside (.start true optProfActive lgSample) start task turns).shared.2.mappings .rust).get
          (tasksAfter R outside (.start true optProfActive lgSample) start task turns).shared.2.aborted
          (after Process.step (.start true optProfActive lgSample)
            (before.map (inputOf outside task))).jemalloc.profActive result := by
  refine ⟨(tasksAfter_finishes fair).imp_left fun ended => ended t, fun report ended => ?_⟩
  obtain ⟨before, behind, split, responded⟩ := handler_responded resets (.inl handler) ended
  rw [handler] at responded
  cases report with
  | heap result =>
    refine ⟨result, before, behind, rfl, split, ?_⟩
    cases result with
    | ok returned => exact HandlerOutcome.heapServed responded read weights written whole
    | error crash =>
      obtain ⟨on, came⟩ := HandlerOutcome.crashed responded
      refine ⟨on, came.ended, came.crashed.dumpPanics written whole fun mappings panic comes => ?_⟩
      exact pprofOf_panics read weights comes
  | heapFlamegraph r => exact responded.elim
  | control report => exact responded.elim
  | c returned => exact responded.elim

/-- A handler among the two dumps, if the profiler is on and the text converts. -/
theorem HandlerOutcome.busy {α : Type} {display : DumpError → String} {ok : Bytes → α} {d : Dumps Bool} {t : Bool}
    {cell : LazyCell (Option (List Mapping))} {halted : Bool} {r : HandlerResult α} {body : Bytes}
    {convert : List (Except IoError String) → Option (List Mapping) → Except Panic (Except DumpError Bytes)}
    (h : HandlerOutcome display ok (DumpOutcome d t .rust cell.get halted convert) true r)
    (busy : d.answers = busyAnswers) (one : d.start = oneFile) (rust : d.library t = some .rust)
    (held : ∀ m, cell = .forced m → d.Held .rust m)
    (comes : convert (bufReadLines busyDump.text) (some [libraryAt 0x400]) = .ok (.ok body)) :
    cell.get = some (some [libraryAt 0x400]) ∧ r = .ok (.ok (ok body)) := by
  obtain ⟨mappings, seen, rfl⟩ := h.undisturbed (busyAnswers_undisturbed busy one t) rust
  obtain rfl := busyAnswers_held busy one (held mappings (LazyCell.get_eq_some.1 seen))
  rw [busy, busyAnswers_lines, comes]
  exact ⟨seen, rfl⟩

/-- A request, and a caller from C. -/
def heapAndC : Bool → Task
  | false => .heap
  | true => .c ⟨some none, none⟩

/-- In fair turns the body is what jemalloc wrote. -/
theorem heapAndC_answered : ∃ turns bytes mappings, FairTurns (8 * Fintype.card Bool) turns ∧
    (tasksAfter (ExtNum ℚ) busyOutside (.start true true 19) oneFile heapAndC turns).program false =
      .done (.heap (.ok (.ok bytes))) ∧
    Delivers List.reverse noSymbols busyDump (ExtNum.fin (524288 : ℚ)) mappings bytes := by
  obtain ⟨turns, fair⟩ : ∃ turns, FairTurns (8 * Fintype.card Bool) turns := ⟨_, fairTurns_fair⟩
  have asked : heapAndC false = .heap := rfl
  have resets : ∀ u, (busyOutside.control u).reset = none := fun _ => rfl
  have reads : ∀ u, (heapAndC u).asCall = .get := by decide
  have written : (busyOutside.dump false).text = busyDump.text := busyAnswers_text false
  have whole : (busyOutside.dump false).readFails = none := rfl
  obtain ⟨ends, reports⟩ :=
    heap_answered oneFile true 19 busyDump_read busyDump_rational written whole resets asked fair
  obtain ⟨report, ended⟩ := ends.resolve_right (busyAnswers_goes rfl rfl fun m => tasksAfter_held)
  obtain ⟨result, before, behind, rfl, -, served⟩ := reports report ended
  obtain ⟨before', behind', -, responded⟩ := handler_responded resets (.inl rfl) ended
  rw [profActive_reads reads before' rfl] at responded
  obtain ⟨bytes, converted⟩ := busyDump_bytes
  obtain ⟨-, rfl⟩ := HandlerOutcome.busy responded rfl rfl rfl (fun m => tasksAfter_held) converted
  cases served with
  | served on mappings bytes seen delivers => exact ⟨turns, bytes, mappings, fair, ended, delivers⟩

end Requests

end JemallocPprof
