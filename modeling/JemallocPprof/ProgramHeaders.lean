import JemallocPprof.Lib.Memory
import JemallocPprof.Lib.While
import JemallocPprof.SharedObject

/-!
# `collect_shared_objects`

The loader calls `iterate_cb` for each object, with its program headers. The
first one is the program, whose path the callback finds out by itself
(`current_exe`): it asks `dladdr` where its own code is from, which is the
program only where the crate is linked into it. A
`PT_LOAD` header is a loaded segment. A `PT_NOTE` header is a piece of memory
full of notes, which the callback walks for the one with the build id: it follows
the sizes the notes claim and reads through raw pointers. Those reads are kept
in `reads`. The loader's own pointers are valid, as its manual says.
-/

namespace JemallocPprof
set_option autoImplicit false
open Lib

/-- `Elf64_Phdr`. -/
structure ProgramHeader where
  pType : UInt32
  pOffset : UInt64
  pVaddr : UInt64
  pMemsz : UInt64
  deriving DecidableEq

/-- `dl_phdr_info`. -/
structure DlPhdrInfo where
  dlpiAddr : UInt64
  /-- `none` when the pointer is null. -/
  dlpiName : Option Bytes
  dlpiPhdr : List ProgramHeader
  deriving DecidableEq

/-- What the system answers about the running program. -/
structure ExeAnswers where
  /-- `dli_fname` for a function of this crate, the path of the object it was
  linked into; `none` when `dladdr` returns 0. -/
  dladdr : Option Bytes
  /-- `std::env::current_exe()` -/
  envCurrentExe : Except String Bytes

/-- Why `current_exe_from_dladdr` failed. -/
inductive DladdrError where
  /-- `dladdr failed` -/
  | failed
  | utf8Error
  deriving DecidableEq

/-- The error of `std::env::current_exe`, in the contexts it was given. -/
structure ExeError where
  dladdr : DladdrError
  source : String
  deriving DecidableEq

/-- `current_exe_from_dladdr`. -/
def currentExeFromDladdr (answers : ExeAnswers) : Except DladdrError Bytes :=
  match answers.dladdr with
  | none => .error .failed
  | some progname => if (fromUtf8 progname).isSome then .ok progname else .error .utf8Error

/-- `current_exe`. -/
def currentExe (answers : ExeAnswers) : Except ExeError Bytes :=
  match currentExeFromDladdr answers with
  | .ok path => .ok path
  | .error e => answers.envCurrentExe.mapError (ExeError.mk e)

/-- `current_exe` failed, in the context of the callback. -/
structure CallbackError where
  context : String
  source : ExeError
  deriving DecidableEq

structure CallbackState where
  result : Except CallbackError (List SharedObject)

/-- `is_first`. -/
def CallbackState.isFirst (state : CallbackState) : Bool :=
  match state.result with
  | .ok v => v.isEmpty
  | .error _ => false

def CB_RESULT_OK : Int := 0
def CB_RESULT_ERROR : Int := -1

def PT_LOAD : UInt32 := 1
def PT_NOTE : UInt32 := 4

/-- `Elf64_Nhdr`. -/
structure NoteHeader where
  nNamesz : UInt32
  nDescsz : UInt32
  nType : UInt32
  deriving DecidableEq

def NT_GNU_BUILD_ID : UInt32 := 3

/-- `b"GNU\0"`. -/
def GNU_NOTE_NAME : Bytes := [0x47, 0x4E, 0x55, 0x00]

def ELF_NOTE_STRING_ALIGN : UInt64 := 4

/-- A read through a raw pointer. -/
inductive Read where
  | header (addr : UInt64)
  | name (addr : UInt64)
  | desc (addr : UInt64) (size : UInt32)
  deriving DecidableEq

/-- `assert_pointer_valid` for a pointer to a type of this alignment. -/
def assertPointerValid (align : UInt64) (address : UInt64) : Except Panic Unit :=
  if address = 0 then .error (.assertFailed "assertion failed: !ptr.is_null()")
  else if address % align = 0 then .ok ()
  else .error (.assertFailed "unaligned pointer")

/-- Increases `p` as little as possible such that it becomes a multiple of `n`. -/
def alignUp (overflowChecks : Bool) (n p : UInt64) : Except Panic UInt64 :=
  if p % n = 0 then .ok p else u64Add overflowChecks p (n - p % n)

/-- The header behind a pointer. -/
def noteHeaderAt (memory : Memory) (addr : UInt64) : NoteHeader where
  nNamesz := wordAt memory addr
  nDescsz := wordAt memory (addr + 4)
  nType := wordAt memory (addr + 8)

/-- The `if` of the note loop: the build id if this is its note, and the reads
it takes to see that. -/
def matchNote (overflowChecks : Bool) (memory : Memory) (nh : NoteHeader) (offset : UInt64) :
    Except Panic (Option BuildId × List Read) :=
  if nh.nType = NT_GNU_BUILD_ID ∧ nh.nDescsz ≠ 0 ∧ nh.nNamesz.toNat = GNU_NOTE_NAME.length then do
    let pName ← u64Add overflowChecks offset 12
    assertPointerValid 1 pName
    if bytesAt memory pName 4 = GNU_NOTE_NAME then do
      let pDesc ← u64Add overflowChecks pName 4
      assertPointerValid 1 pDesc
      .ok (some ⟨bytesAt memory pDesc nh.nDescsz.toNat⟩, [.name pName, .desc pDesc nh.nDescsz])
    else .ok (none, [.name pName])
  else .ok (none, [])

/-- The offset of the next note. -/
def nextOffset (overflowChecks : Bool) (nh : NoteHeader) (offset : UInt64) : Except Panic UInt64 := do
  let offset ← u64Add overflowChecks offset 12
  let offset ← u64Add overflowChecks offset (← alignUp overflowChecks ELF_NOTE_STRING_ALIGN nh.nNamesz.toUInt64)
  u64Add overflowChecks offset (← alignUp overflowChecks ELF_NOTE_STRING_ALIGN nh.nDescsz.toUInt64)

/-- The variables of the note loop. -/
structure NoteWalk where
  offset : UInt64
  buildId : Option BuildId
  reads : List Read
  deriving DecidableEq

/-- A turn of the note loop. -/
def noteTurn (overflowChecks : Bool) (memory : Memory) (origOffset pMemsz : UInt64) (s : NoteWalk) :
    Except Panic (Turn NoteWalk) := do
  let first ← u64Add overflowChecks s.offset 12
  let first ← u64Add overflowChecks first 4
  let limit ← u64Add overflowChecks origOffset pMemsz
  if first ≤ limit then do
    assertPointerValid 4 s.offset
    let nh := noteHeaderAt memory s.offset
    let (found, reads) ← matchNote overflowChecks memory nh s.offset
    let reads := s.reads ++ .header s.offset :: reads
    match found with
    | some buildId => .ok (.stop { s with buildId := some buildId, reads })
    | none => do
      let offset ← nextOffset overflowChecks nh s.offset
      .ok (.next { s with offset, reads })
  else .ok (.stop s)

/-- What the callback has collected from the headers. -/
structure Walked where
  loadedSegments : List LoadedSegment
  buildId : Option BuildId
  reads : List Read
  deriving DecidableEq

/-- The body of the loop over `program_headers`. -/
def walkHeader (overflowChecks : Bool) (memory : Memory) (dlpiAddr : UInt64) (fuel : Nat) (s : Walked)
    (ph : ProgramHeader) : Except (Stop Panic) Walked :=
  if ph.pType = PT_LOAD then
    .ok { s with loadedSegments := s.loadedSegments ++ [⟨ph.pOffset, ph.pVaddr, ph.pMemsz⟩] }
  else if ph.pType = PT_NOTE then do
    let offset := ph.pVaddr + dlpiAddr
    let walk ← loop (noteTurn overflowChecks memory offset ph.pMemsz) fuel ⟨offset, s.buildId, s.reads⟩
    .ok { s with buildId := walk.buildId, reads := walk.reads }
  else .ok s

/-- The loop over `program_headers`. -/
def walkHeaders (overflowChecks : Bool) (memory : Memory) (info : DlPhdrInfo) (fuel : Nat) :
    Except (Stop Panic) Walked :=
  info.dlpiPhdr.foldlM (walkHeader overflowChecks memory info.dlpiAddr fuel) ⟨[], none, []⟩

/-- `path_name`: `none` for an object to skip. -/
def pathName (answers : ExeAnswers) (info : DlPhdrInfo) (state : CallbackState) :
    Except CallbackError (Option Bytes) :=
  if state.isFirst then
    match currentExe answers with
    | .ok path => .ok (some path)
    | .error source => .error ⟨"failed to read the name of the current executable", source⟩
  else .ok info.dlpiName

/-- `iterate_cb`. -/
def iterateCb (overflowChecks : Bool) (answers : ExeAnswers) (memory : Memory) (info : DlPhdrInfo)
    (state : CallbackState) (fuel : Nat) : Except (Stop Panic) (Int × CallbackState) :=
  match pathName answers info state with
  | .error e => .ok (CB_RESULT_ERROR, ⟨.error e⟩)
  | .ok none => .ok (CB_RESULT_OK, state)
  | .ok (some path) => do
    let walked ← walkHeaders overflowChecks memory info fuel
    let objects ← lift (expect "we return early on errors" state.result.toOption)
    .ok (CB_RESULT_OK, ⟨.ok (objects ++ [{
      baseAddress := info.dlpiAddr
      pathName := path
      buildId := walked.buildId
      loadedSegments := walked.loadedSegments }])⟩)

/-- A call of an `extern "C"` function, which no panic leaves. -/
def externC {α : Type} (x : Except (Stop Panic) α) : Except (Stop Crash) α :=
  x.mapError fun
    | .outOfFuel => .outOfFuel
    | .error panic => .error (.abort panic)

/-- `dl_iterate_phdr`: the callback for each object until one returns other than zero. -/
def dlIteratePhdr (callback : DlPhdrInfo → CallbackState → Except (Stop Crash) (Int × CallbackState)) :
    List DlPhdrInfo → CallbackState → Except (Stop Crash) CallbackState
  | [], state => .ok state
  | info :: infos, state => do
    let (code, state) ← callback info state
    if code = 0 then dlIteratePhdr callback infos state else .ok state

/-- `collect_shared_objects`. -/
def collectSharedObjects (overflowChecks : Bool) (answers : ExeAnswers) (memory : Memory)
    (infos : List DlPhdrInfo) (fuel : Nat) : Except (Stop Crash) (Except CallbackError (List SharedObject)) := do
  let state ← dlIteratePhdr (fun info state => externC (iterateCb overflowChecks answers memory info state fuel))
    infos ⟨.ok []⟩
  .ok state.result

/-- `MAPPINGS`. -/
def MAPPINGS (overflowChecks : Bool) (answers : ExeAnswers) (memory : Memory)
    (infos : List DlPhdrInfo) (fuel : Nat) : Except (Stop Crash) (Option (List Mapping)) := do
  match ← collectSharedObjects overflowChecks answers memory infos fuel with
  | .ok objects => do
    let mappings ← lift ((buildMappings overflowChecks objects).mapError .unwind)
    .ok (some mappings)
  | .error _ => .ok none

end JemallocPprof
