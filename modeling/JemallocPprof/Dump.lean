import JemallocPprof.Parser

/-!
# Heap dumps

The text jemalloc writes: a header with the sampling rate, a summary over all
stacks, a record for each stack and the libraries mapped. `Dump.profile` is
what a dump means: one stack for each record, weighted from its counts.
-/

namespace JemallocPprof
set_option autoImplicit false
open Lib

/-- `objs: bytes [accumulated objs: accumulated bytes]`. -/
structure Counts where
  objs : Nat
  bytes : Nat
  accumObjs : Nat
  accumBytes : Nat
  deriving DecidableEq

/-- A stack, leaf first, with its counts over all threads and by thread. -/
structure Record where
  addrs : List UInt64
  counts : Counts
  threads : List (Nat × Counts)
  deriving DecidableEq

/-- The rate's text, on the header's line. -/
structure RateText where
  chars : List Char
  oneLine : ∀ c ∈ chars, c ≠ '\n' ∧ c ≠ '\r'

/-- A line that is neither a stack line nor starts like a total line. -/
structure ForeignLine where
  chars : List Char
  oneLine : '\n' ∉ chars
  noStack : (lineWords (String.ofList chars)).head? ≠ some ['@']
  noTotal : (lineWords (String.ofList chars)).head? ≠ some ['t', '*', ':']

structure Dump where
  rate : RateText
  summary : Counts
  threads : List (Nat × Counts)
  records : List Record
  libraries : List ForeignLine

/-! ## The text -/

/-- An address as `%p` prints it. -/
def pointer (addr : UInt64) : List Char := ['0', 'x'] ++ Nat.toDigits 16 addr.toNat

def Counts.words (c : Counts) : List (List Char) :=
  [decimal c.objs ++ [':'], decimal c.bytes, '[' :: decimal c.accumObjs ++ [':'],
    decimal c.accumBytes ++ [']']]

def stackWords (addrs : List UInt64) : List (List Char) := ['@'] :: addrs.map pointer

def totalWords (c : Counts) : List (List Char) := ['t', '*', ':'] :: c.words

def threadWords (thread : Nat × Counts) : List (List Char) :=
  ('t' :: decimal thread.1 ++ [':']) :: thread.2.words

def spaced (ws : List (List Char)) : List Char := List.intercalate [' '] ws

def indented (ws : List (List Char)) : List Char := ' ' :: ' ' :: spaced ws

namespace Record
variable (record : Record)

/-- The lines of a record. -/
def lines : List (List Char) :=
  spaced (stackWords record.addrs) :: indented (totalWords record.counts) ::
    record.threads.map fun thread => indented (threadWords thread)

/-- The weight the counts stand for at a sampling rate. -/
def weight {F : Type} [F64 F] (rate : F) : F :=
  unbias (F64.ofRat record.counts.objs) (F64.ofRat record.counts.bytes) rate

/-- The stack, root first, with its weight. -/
def stack {F : Type} [F64 F] (rate : F) : WeightedStack F := ⟨record.addrs.reverse, record.weight rate⟩

end Record

namespace Dump
variable (dump : Dump)

/-- The lines after the header. -/
def body : List (List Char) :=
  indented (totalWords dump.summary) :: (dump.threads.map fun thread => indented (threadWords thread)) ++
    dump.records.flatMap Record.lines ++
    [] :: "MAPPED_LIBRARIES:".toList :: dump.libraries.map ForeignLine.chars

/-- The bytes of the dump. -/
def text : Bytes :=
  utf8Bytes (String.ofList ((("heap_v2/".toList ++ dump.rate.chars) :: dump.body).flatMap (· ++ ['\n'])))

/-- What the dump says. -/
def profile {F : Type} [F64 F] (rate : F) (mappings : List Mapping) : StackProfile F :=
  { StackProfile.default.pushStacks (dump.records.map fun record => (record.stack rate, none)) with
    mappings }

end Dump

end JemallocPprof
