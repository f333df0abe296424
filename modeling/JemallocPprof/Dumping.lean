import JemallocPprof.Control
import JemallocPprof.Flamegraph
import JemallocPprof.Jeheap
import JemallocPprof.Lib.Files
import JemallocPprof.Lib.Threads

/-!
# Dumps

A dump makes a temporary file, has jemalloc write to it, reads it back and
converts what it reads. It touches the temporary directory and the `MAPPINGS` of
its library, which is initialised by its first use, and nothing else. Dumps of
the C API take no lock, so a dump is a program whose operations others may come
between. A panic unwinds the thread that dumps, unless it is on its way out of an
`extern "C"` function: then the process is over, for all of them.
-/

namespace JemallocPprof
set_option autoImplicit false
open Lib

/-- The path of a file that could be opened has no NUL: `CString::new` takes it. -/
structure FilePath where
  bytes : Bytes
  noNul : 0 ∉ bytes
  deriving DecidableEq

/-- `std::io::Error` from making a file. -/
structure FileError where
  rawOsError : Option Nat
  deriving DecidableEq

structure NamedTempFile where
  path : FilePath
  /-- The open file. -/
  file : Nat
  deriving DecidableEq

/-- `once_cell::sync::Lazy`. -/
inductive LazyCell (α : Type) where
  | unforced
  | forced (a : α)
  | poisoned
  deriving DecidableEq

/-- The value, and the cell after its use; `init` is what the initialiser comes to if it is run. -/
def LazyCell.force {α : Type} (cell : LazyCell α) (init : Except Crash α) : Except Crash α × LazyCell α :=
  match cell with
  | .forced a => (.ok a, .forced a)
  | .poisoned => (.error (.unwind (.assertFailed "Lazy instance has previously been poisoned")), .poisoned)
  | .unforced =>
    match init with
    | .ok a => (.ok a, .forced a)
    | .error (.unwind panic) => (.error (.unwind panic), .poisoned)
    | .error (.abort panic) => (.error (.abort panic), .unforced)

/-- The value, if the cell has been initialised. -/
def LazyCell.get {α : Type} : LazyCell α → Option α
  | .forced a => some a
  | _ => none

theorem LazyCell.get_eq_some {α : Type} {cell : LazyCell α} {a : α} : cell.get = some a ↔ cell = .forced a := by
  cases cell <;> simp [LazyCell.get]

/-- Where code of the repository is linked into a process: the crates into the
program, and the C API with what it uses into `libjemalloc_pprof.so`. Statics of
the two are apart. -/
inductive Library where
  | rust
  | c
  deriving DecidableEq

/-- What a dump asks of the world. -/
inductive DumpOp where
  /-- `NamedTempFile::new` -/
  | newTempFile
  /-- `mallctl` of `prof.dump` with a path -/
  | profDump (path : FilePath)
  /-- Dropping a path, or `into_file` -/
  | unlink (path : FilePath)
  /-- `MAPPINGS.as_deref()` -/
  | mappings (library : Library)
  /-- The lines of a `BufReader` -/
  | read (file : Nat)
  /-- A panic on its way out of an `extern "C"` function -/
  | abort

abbrev DumpOp.Res : DumpOp → Type
  | .newTempFile => Except FileError NamedTempFile
  | .profDump _ => Option CtlError
  | .unlink _ => Unit
  | .mappings _ => Except Crash (Option (List Mapping))
  | .read _ => List (Except IoError String)
  | .abort => Unit

/-- What dumps share. -/
structure DumpState where
  files : Files FilePath Bytes
  /-- `MAPPINGS`, of each library. -/
  mappings : Library → LazyCell (Option (List Mapping))
  /-- The process is over. -/
  aborted : Bool

/-- What the outside world answers to one dump. -/
structure DumpAnswers where
  /-- The names drawn for the file, or why none can be made. -/
  tempFile : Except FileError (List FilePath)
  /-- What jemalloc writes. -/
  text : Bytes
  dump : Option CtlError
  /-- What the initialiser of `MAPPINGS` comes to, in the library of the dump. -/
  mappings : Except Crash (Option (List Mapping))
  /-- How many lines are read before reading fails. -/
  readFails : Option Nat

/-- The lines of a file, up to the one that cannot be read. -/
def readerLines (contents : Bytes) (readFails : Option Nat) : List (Except IoError String) :=
  match readFails with
  | none => bufReadLines contents
  | some n => (bufReadLines contents).take n ++ [.error .other]

/-- The process does not outlive it. -/
def aborts {α : Type} : Except Crash α → Bool
  | .error (.abort _) => true
  | _ => false

/-- What an operation returns and does. -/
def dumpEffect (answers : DumpAnswers) (s : DumpState) : (op : DumpOp) → op.Res × DumpState
  | .newTempFile =>
    match answers.tempFile with
    | .error e => (.error e, s)
    | .ok names =>
      match s.files.createFirst names [] with
      | some (path, file, files) => (.ok ⟨path, file⟩, { s with files })
      -- "too many temporary files exist"
      | none => (.error ⟨none⟩, s)
  | .profDump path => (answers.dump, { s with files := s.files.write path answers.text })
  | .unlink path => ((), { s with files := s.files.unlink path })
  | .mappings library =>
    let (value, cell) := (s.mappings library).force answers.mappings
    (value, { s with mappings := Function.update s.mappings library cell, aborted := s.aborted || aborts value })
  | .read file => (readerLines (s.files.contents.getD file []) answers.readFails, s)
  | .abort => ((), { s with aborted := true })

/-- A dump under way. -/
abbrev DumpProg := Prog DumpOp DumpOp.Res

/-- `NamedTempFile::new`. -/
def NamedTempFile.new : DumpProg (Except FileError NamedTempFile) := .perform DumpOp.newTempFile

/-- `raw::write(b"prof.dump\0", ..)`, and `mallctl` of it. -/
def profDump (path : FilePath) : DumpProg (Option CtlError) := .perform (DumpOp.profDump path)

def unlink (path : FilePath) : DumpProg Unit := .perform (DumpOp.unlink path)

/-- `MAPPINGS.as_deref()`. -/
def mappingsAsDeref (library : Library) : DumpProg (Except Crash (Option (List Mapping))) :=
  .perform (DumpOp.mappings library)

/-- What a `BufReader` of the file reads. -/
def readLines (file : Nat) : DumpProg (List (Except IoError String)) := .perform (DumpOp.read file)

/-- No panic leaves an `extern "C"` function. -/
def abort : DumpProg Unit := .perform DumpOp.abort

/-- A call that crashes, or returns a `Result`. -/
abbrev Returned (ε α : Type) := Except Crash (Except ε α)

/-- A panic unwinds. -/
def unwinding {α : Type} (x : Except Panic α) : Except Crash α := x.mapError .unwind

/-- What the `anyhow::Error` of a dump was. -/
inductive DumpError where
  | io (error : FileError)
  | ctl (error : CtlError)
  | jeheap (error : JeheapError)
  | flamegraph (error : String)
  deriving DecidableEq

/-- The options of inferno that the crate sets. -/
structure FlamegraphOptions where
  title : String
  countName : String
  deriving DecidableEq

namespace JemallocProfCtl

/-- `dump`: the file, no longer under its name. -/
def dump : DumpProg (Except DumpError Nat) := do
  match ← NamedTempFile.new with
  | .error e => return .error (.io e)
  | .ok f =>
    match ← profDump f.path with
    | some e => do
      unlink f.path
      return .error (.ctl e)
    | none => do
      unlink f.path
      return .ok f.file

variable (F : Type) [F64 F] (env : Env)

/-- `dump_profile`. -/
def dumpProfile : DumpProg (Returned DumpError (StackProfile F)) := do
  match ← dump with
  | .error e => return .ok (.error e)
  | .ok file =>
    match ← mappingsAsDeref .rust with
    | .error crash => return .error crash
    | .ok mappings => do
      let lines ← readLines file
      match parseJeheap lines mappings with
      | .error e => return .ok (.error (.jeheap e))
      | .ok profile => return .ok (.ok profile)

/-- `dump_pprof`. -/
def dumpPprof (gzip : Bytes → Bytes) : DumpProg (Returned DumpError Bytes) := do
  match ← dumpProfile F with
  | .error crash => return .error crash
  | .ok (.error e) => return .ok (.error e)
  | .ok (.ok profile) =>
    return unwinding ((toPprof env gzip profile ("inuse_space", "bytes") ("space", "bytes") none).map .ok)

/-- `dump_flamegraph_with_options`; `fromLines` is inferno's. -/
def dumpFlamegraphWithOptions (fromLines : FlamegraphOptions → List String → Except String Bytes)
    (opts : FlamegraphOptions) : DumpProg (Returned DumpError Bytes) := do
  match ← dumpProfile F with
  | .error crash => return .error crash
  | .ok (.error e) => return .ok (.error e)
  | .ok (.ok profile) =>
    match toFlamegraph env profile (fromLines opts) with
    | .error panic => return .error (.unwind panic)
    | .ok (.error e) => return .ok (.error (.flamegraph e))
    | .ok (.ok svg) => return .ok (.ok svg)

/-- `dump_flamegraph`. -/
def dumpFlamegraph (fromLines : FlamegraphOptions → List String → Except String Bytes) :
    DumpProg (Returned DumpError Bytes) :=
  dumpFlamegraphWithOptions F env fromLines { title := "inuse_space", countName := "bytes" }

end JemallocProfCtl

/-! ## The C API -/

namespace Capi

def JP_SUCCESS : Int := 0
def JP_FAILURE : Int := -1

/-- `enum Error`. -/
inductive Error where
  | io (error : FileError)
  | mallctl (ret : Nat)
  | parseProfile
  deriving DecidableEq

variable (F : Type) [F64 F] (env : Env) (gzip : Bytes → Bytes)

/-- `dump_pprof_inner`: the parser drops the reader, and with it the file and its name. -/
def dumpPprofInner : DumpProg (Returned Error Bytes) := do
  match ← NamedTempFile.new with
  | .error e => return .ok (.error (.io e))
  | .ok f =>
    match ← profDump f.path with
    | some e => do
      unlink f.path
      return .ok (.error (.mallctl e.errno))
    | none =>
      match ← mappingsAsDeref .c with
      | .error crash => do
        unlink f.path
        return .error crash
      | .ok mappings => do
        let lines ← readLines f.file
        unlink f.path
        match parseJeheap lines mappings with
        | .error _ => return .ok (.error .parseProfile)
        | .ok (profile : StackProfile F) =>
          return unwinding ((toPprof env gzip profile ("inuse_space", "bytes") ("space", "bytes") none).map .ok)

/-- A pointer to bytes: null, or to a buffer of its own. -/
abbrev Pointer := Option Bytes

/-- The arguments of a call from C: null, or what they point to. -/
structure Caller where
  bufOut : Option Pointer
  nOut : Option Nat
  deriving DecidableEq

/-- What a call returns, with what is then behind its arguments. -/
structure Return where
  ret : Int
  /-- What `set_errno` wrote. Where it is not called `errno` is what the calls of
  libc on the way have left there, whatever that is. -/
  errno : Option Nat
  bufOut : Option Pointer
  nOut : Option Nat
  deriving DecidableEq

/-- `dump_jemalloc_pprof` after `dump_pprof_inner`. -/
def finish (caller : Caller) : Except Error Bytes → Return
  | .ok buf =>
    let len := buf.length
    let p : Pointer := if len > 0 then some buf else none
    { ret := JP_SUCCESS, errno := none, bufOut := caller.bufOut.map fun _ => p, nOut := caller.nOut.map fun _ => len }
  | .error (.io e) =>
    match e.rawOsError with
    | some code => ⟨JP_FAILURE, some code, caller.bufOut, caller.nOut⟩
    | none => ⟨JP_FAILURE, none, caller.bufOut, caller.nOut⟩
  | .error (.mallctl i) => ⟨JP_FAILURE, some i, caller.bufOut, caller.nOut⟩
  | .error .parseProfile => ⟨JP_FAILURE, none, caller.bufOut, caller.nOut⟩

theorem finish_ok (caller : Caller) (buf : Bytes) : finish caller (.ok buf) = {
    ret := JP_SUCCESS
    errno := none
    bufOut := caller.bufOut.map fun _ => if buf = [] then none else some buf
    nOut := caller.nOut.map fun _ => buf.length } := by
  cases buf <;> rfl

theorem finish_io (caller : Caller) (e : FileError) :
    finish caller (.error (.io e)) = ⟨JP_FAILURE, e.rawOsError, caller.bufOut, caller.nOut⟩ := by
  obtain ⟨code⟩ := e
  cases code <;> rfl

/-- `dump_jemalloc_pprof`. A panic of its own does not leave it: the process
aborts, and an error is all there is to say of the call. -/
def dumpJemallocPprof (caller : Caller) : DumpProg (Except Panic Return) := do
  match ← dumpPprofInner F env gzip with
  | .error crash => do
    abort
    return .error crash.panic
  | .ok returned => return .ok (finish caller returned)

end Capi

/-! ## Calls -/

/-- A call that dumps. -/
inductive DumpCall where
  | pprof
  | flamegraph (opts : FlamegraphOptions)
  | c (caller : Capi.Caller)
  deriving DecidableEq

/-- What it returned. -/
inductive DumpReport where
  | pprof (returned : Returned DumpError Bytes)
  | flamegraph (returned : Returned DumpError Bytes)
  | c (returned : Except Panic Capi.Return)

/-- The library a call is for. -/
def DumpCall.library : DumpCall → Library
  | .c _ => .c
  | _ => .rust

/-- The program of a call. -/
def DumpCall.program (F : Type) [F64 F] (env : Env) (gzip : Bytes → Bytes)
    (fromLines : FlamegraphOptions → List String → Except String Bytes) : DumpCall → DumpProg DumpReport
  | .pprof => .pprof <$> JemallocProfCtl.dumpPprof F env gzip
  | .flamegraph opts => .flamegraph <$> JemallocProfCtl.dumpFlamegraphWithOptions F env fromLines opts
  | .c caller => .c <$> Capi.dumpJemallocPprof F env gzip caller

end JemallocPprof
