import JemallocPprof.Faithful.Order
import JemallocPprof.Lib.Checks
import JemallocPprof.ProgramHeaders

/-!
# Debug and release builds

A debug build checks the arithmetic on addresses and totals, a release build
wraps. The difference shows only as a panic: what a debug build returns, a
release build returns too (`builds_agree`, `mappings_builds_agree`). A
conversion panics so just for an address that cannot be decremented and rebased,
and a flamegraph also for a total that leaves the i64 range.
-/

namespace JemallocPprof
set_option autoImplicit false
open Lib

/-- The same run in a build with or without overflow checks. -/
def Env.build (env : Env) (overflowChecks : Bool) : Env := { env with overflowChecks }

section Arithmetic
variable {stop : Panic → Prop} {a b : UInt64}

theorem u64Sub_builds (overflow : a < b → stop .arithmeticOverflow) :
    StopsOr stop (u64Sub true a b) (u64Sub false a b) := by
  unfold u64Sub
  split
  · rename_i under
    exact .stopped (overflow (by simpa using under)) _
  · exact .refl _

theorem u64Add_builds (overflow : 2 ^ 64 ≤ a.toNat + b.toNat → stop .arithmeticOverflow) :
    StopsOr stop (u64Add true a b) (u64Add false a b) := by
  unfold u64Add
  split
  · rename_i past
    exact .stopped (overflow (by simpa using past)) _
  · exact .refl _

theorem i64Add_builds (overflow : stop .arithmeticOverflow) (a b : Int) :
    StopsOr stop (i64Add true a b) (i64Add false a b) := by
  unfold i64Add
  split
  · exact .refl _
  · exact .stopped overflow _

end Arithmetic

section Loading
variable (memory : Memory)

/-- The only failure that checks add. -/
abbrev overflows : Panic → Prop := (· = .arithmeticOverflow)

theorem u64Add_overflows (a b : UInt64) : StopsOr overflows (u64Add true a b) (u64Add false a b) :=
  u64Add_builds fun _ => rfl

theorem alignUp_builds (n p : UInt64) : StopsOr overflows (alignUp true n p) (alignUp false n p) := by
  unfold alignUp
  split
  · exact .refl _
  · exact u64Add_overflows p (n - p % n)

theorem matchNote_builds (nh : NoteHeader) (offset : UInt64) :
    StopsOr overflows (matchNote true memory nh offset) (matchNote false memory nh offset) := by
  unfold matchNote
  split
  · refine (u64Add_overflows offset 12).bind fun pName _ => .bind (.refl _) fun _ _ => ?_
    split
    · exact (u64Add_overflows pName 4).bind fun pDesc _ => .refl _
    · exact .refl _
  · exact .refl _

theorem nextOffset_builds (nh : NoteHeader) (offset : UInt64) :
    StopsOr overflows (nextOffset true nh offset) (nextOffset false nh offset) := by
  refine (u64Add_overflows offset 12).bind fun behindHeader _ => ?_
  refine (alignUp_builds _ _).bind fun nameSize _ => ?_
  refine (u64Add_overflows behindHeader nameSize).bind fun behindName _ => ?_
  exact (alignUp_builds _ _).bind fun descSize _ => u64Add_overflows behindName descSize

theorem noteTurn_builds (origOffset pMemsz : UInt64) (s : NoteWalk) :
    StopsOr overflows (noteTurn true memory origOffset pMemsz s) (noteTurn false memory origOffset pMemsz s) := by
  refine (u64Add_overflows s.offset 12).bind fun first _ => (u64Add_overflows first 4).bind fun first _ => ?_
  refine (u64Add_overflows origOffset pMemsz).bind fun limit _ => ?_
  split
  · refine .bind (.refl _) fun _ _ => (matchNote_builds memory _ s.offset).bind fun (found, reads) _ => ?_
    cases found with
    | some buildId => exact .refl _
    | none => exact (nextOffset_builds _ s.offset).bind fun offset _ => .refl _
  · exact .refl _

/-- The same, of runs that may also run out of fuel. -/
abbrev overflowStops : Stop Panic → Prop := (· = .error .arithmeticOverflow)

theorem walkHeader_builds (dlpiAddr : UInt64) (fuel : Nat) (s : Walked) (ph : ProgramHeader) :
    StopsOr overflowStops (walkHeader true memory dlpiAddr fuel s ph) (walkHeader false memory dlpiAddr fuel s ph) := by
  unfold walkHeader
  split
  · exact .refl _
  · split
    · refine .bind ?_ fun walk _ => .refl _
      exact .loop (noteTurn_builds memory _ ph.pMemsz) (fun _ => congrArg Stop.error) fuel _
    · exact .refl _

theorem iterateCb_builds (answers : ExeAnswers) (info : DlPhdrInfo) (state : CallbackState) (fuel : Nat) :
    StopsOr overflowStops (iterateCb true answers memory info state fuel)
      (iterateCb false answers memory info state fuel) := by
  unfold iterateCb
  split
  · exact .refl _
  · exact .refl _
  · have walk := StopsOr.foldlM info.dlpiPhdr fun ph _ s => walkHeader_builds memory info.dlpiAddr fuel s ph
    exact (walk ⟨[], none, []⟩).bind fun walked _ => .refl _

/-- Such a panic unwinds, or it aborts the process on its way out of the callback. -/
abbrev overflowCrashes : Stop Crash → Prop := fun stop =>
  stop = .error (.unwind .arithmeticOverflow) ∨ stop = .error (.abort .arithmeticOverflow)

/-- The loader makes calls that agree on the same objects. -/
theorem dlIteratePhdr_builds {stop : Stop Crash → Prop}
    {callback callback' : DlPhdrInfo → CallbackState → Except (Stop Crash) (Int × CallbackState)}
    (calls : ∀ info state, StopsOr stop (callback info state) (callback' info state)) (infos : List DlPhdrInfo)
    (state : CallbackState) :
    StopsOr stop (dlIteratePhdr callback infos state) (dlIteratePhdr callback' infos state) := by
  induction infos generalizing state with
  | nil => exact .refl _
  | cons info infos ih =>
    refine (calls info state).bind fun (code, state') _ => ?_
    show StopsOr stop (if code = 0 then dlIteratePhdr callback infos state' else .ok state')
      (if code = 0 then dlIteratePhdr callback' infos state' else .ok state')
    split
    · exact ih state'
    · exact .refl _

theorem buildMappings_builds (objects : List SharedObject) :
    StopsOr overflows (buildMappings true objects) (buildMappings false objects) := by
  refine StopsOr.foldlM objects (fun object _ mappings => ?_) []
  refine StopsOr.foldlM object.loadedSegments (fun segment _ mappings => ?_) mappings
  have ends := u64Add_overflows (object.baseAddress + segment.memoryOffset) segment.memorySize
  exact ends.bind fun memoryEnd _ => .refl _

/-- **The mappings of both builds.** Whatever the loader passes and the notes
hold, `MAPPINGS` under overflow checks is what it is without, or an overflow
stops it. -/
theorem mappings_builds_agree (answers : ExeAnswers) (infos : List DlPhdrInfo) (fuel : Nat) :
    StopsOr overflowCrashes (MAPPINGS true answers memory infos fuel)
      (MAPPINGS false answers memory infos fuel) := by
  have calls : ∀ info state, StopsOr overflowCrashes (externC (iterateCb true answers memory info state fuel))
      (externC (iterateCb false answers memory info state fuel)) := fun info state =>
    (iterateCb_builds memory answers info state fuel).mapError fun _ overflow => overflow ▸ .inr rfl
  have walk := dlIteratePhdr_builds calls infos ⟨.ok []⟩
  refine (walk.bind fun state _ => .refl _).bind fun result _ => ?_
  cases result with
  | error e => exact .refl _
  | ok objects =>
    refine .bind ?_ fun mappings _ => .refl _
    have built : StopsOr (· = Crash.unwind .arithmeticOverflow) _ _ :=
      (buildMappings_builds objects).mapError fun _ => congrArg Crash.unwind
    exact built.lift fun _ overflow => .inl (congrArg Stop.error overflow)

end Loading

section Conversion
variable {F : Type} {env : Env} {mappings : List Mapping} {annoKey : String} {stop : Panic → Prop}

/-- An address of the profile that cannot be decremented and rebased in u64. -/
def Misfit (self : StackProfile F) : Prop :=
  ∃ entry ∈ self.stacks, ∃ addr ∈ entry.1.addrs, ¬ FrameFits self.mappings addr

theorem pushFrame_builds {addr : UInt64} (misfit : ¬ FrameFits mappings addr → stop .arithmeticOverflow)
    (anno : Option String) (state : Builder × Proto.Sample) :
    StopsOr stop (Builder.pushFrame (env.build true) mappings annoKey anno state addr)
      (Builder.pushFrame (env.build false) mappings annoKey anno state addr) := by
  have decrement : StopsOr stop (u64Sub true addr 1) (u64Sub false addr 1) := by
    refine u64Sub_builds fun under => misfit fun fits => fits.decrement ?_
    exact UInt64.toNat_inj.1 (Nat.lt_one_iff.1 (UInt64.lt_iff_toNat_lt.1 under))
  refine decrement.bind fun runtime run => .bind ?_ fun address _ => .refl _
  obtain rfl := u64Sub_ok run
  cases found : mappingInfo mappings (addr - 1) with
  | none => exact .refl _
  | some info =>
    obtain ⟨m, idx⟩ := info
    -- the start of the mapping found is no higher than the address
    have inside : StopsOr stop (u64Sub true (addr - 1) m.memoryStart) (u64Sub false (addr - 1) m.memoryStart) :=
      u64Sub_builds fun under => absurd (mappingInfo_some found).2.1 (UInt64.not_le.2 under)
    refine inside.bind fun inMapping run => u64Add_builds fun past => misfit fun fits => ?_
    obtain rfl := u64Sub_ok run
    exact absurd (fits.rebase m idx found) (Nat.not_lt.2 past)

variable [F64Cast F] {self : StackProfile F} {sampleType periodType : String × String} {key : Option String}

theorem toPprofProto_builds (misfit : Misfit self → stop .arithmeticOverflow) :
    StopsOr stop (toPprofProto (env.build true) self sampleType periodType key)
      (toPprofProto (env.build false) self sampleType periodType key) := by
  refine .bind (.refl _) fun _ _ => .bind (.refl _) fun _ _ => .bind (.refl _) fun _ _ => .bind (.refl _) fun _ _ => ?_
  -- neither the clock nor the mappings are checked
  refine .bind (.refl _) fun nanos _ => .bind (.refl _) fun b _ => .bind ?_ fun _ _ => .refl _
  refine StopsOr.foldlM self.stacks (fun entry mem b => .bind (.refl _) fun anno _ => ?_) b
  refine .bind (.refl _) fun value _ => .bind ?_ fun _ _ => .refl _
  refine StopsOr.foldlM entry.1.addrs.reverse (fun addr inside state => ?_) _
  exact pushFrame_builds (fun refused => misfit ⟨entry, mem, addr, List.mem_reverse.1 inside, refused⟩) anno state

/-- A profile that a debug build converted has no misfit. -/
theorem toPprofProto_no_misfit {p : Proto.Profile}
    (run : toPprofProto (env.build true) self sampleType periodType key = .ok p) : ¬ Misfit self := by
  rintro ⟨entry, mem, addr, inside, refused⟩
  obtain ⟨items, annotated, -⟩ := toPprofProto_describes run
  obtain ⟨item, here, same, -⟩ := exists_of_mem_left annotated mem
  have converts := toPprofProto_converts annotated run item here
  exact refused (converts.frames rfl addr (same ▸ inside))

theorem stackTotals_builds (overflow : stop .arithmeticOverflow) (p : Proto.Profile) :
    StopsOr stop (Flamegraph.stackTotals true p) (Flamegraph.stackTotals false p) := by
  refine StopsOr.foldlM p.sample (fun sample _ totals => ?_) ∅
  refine .bind (.refl _) fun stack _ => .bind (.refl _) fun value _ => ?_
  exact (i64Add_builds overflow _ value).bind fun total _ => .refl _

variable (env self sampleType periodType key)

/-- **The files and drawings of both builds.** A debug build makes the pprof
file a release build makes, or panics for an address that does not fit; with
such an address it makes none. It draws the flamegraph a release build draws,
or panics for such an address or for a total past an i64. -/
theorem builds_agree {R : Type} (gzip : Bytes → Bytes) (fromLines : List String → R) :
    StopsOr (fun panic => panic = .arithmeticOverflow ∧ Misfit self)
        (toPprof (env.build true) gzip self sampleType periodType key)
        (toPprof (env.build false) gzip self sampleType periodType key) ∧
      (Misfit self → ∀ file, toPprof (env.build true) gzip self sampleType periodType key ≠ .ok file) ∧
      StopsOr (fun panic => panic = .arithmeticOverflow ∧ (Misfit self ∨
          ∃ p, toPprofProto (env.build false) self ("", "") ("", "") none = .ok p ∧ ¬ TotalsFit p))
        (toFlamegraph (env.build true) self fromLines) (toFlamegraph (env.build false) self fromLines) := by
  refine ⟨?_, ?_, ?_⟩
  · exact (toPprofProto_builds fun misfit => ⟨rfl, misfit⟩).bind fun p _ => .bind (.refl _) fun _ _ => .refl _
  · intro misfit file run
    obtain ⟨p, converted, -⟩ := bind_ok.1 run
    exact toPprofProto_no_misfit converted misfit
  · refine (toPprofProto_builds fun misfit => ⟨rfl, .inl misfit⟩).bind fun p converted => .bind ?_ fun _ _ => .refl _
    by_cases fit : TotalsFit p
    · obtain ⟨items, -, h⟩ := toPprofProto_describes converted
      obtain ⟨totals, loop, -⟩ := h.stackTotals fit true
      have builds : StopsOr overflows (Flamegraph.stackTotals true p) (Flamegraph.stackTotals false p) := by
        refine stackTotals_builds ?_ p
        rfl
      exact .inr (loop.trans (builds.returned loop).symm)
    · exact stackTotals_builds ⟨rfl, .inr ⟨p, converted, fit⟩⟩ p

end Conversion

end JemallocPprof
