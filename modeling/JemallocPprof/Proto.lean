import JemallocPprof.Runtime

/-!
# `perftools.profiles.rs`: the pprof messages

The messages of `profile.proto` with the fields the converter sets; the fields
it leaves at their default are omitted. Ids and string-table indices are counts
and so natural numbers; values and the timestamp are i64 and so integers.
-/

namespace JemallocPprof.Proto
set_option autoImplicit false

structure ValueType where
  type : Nat
  unit : Nat
  deriving DecidableEq

structure Label where
  key : Nat
  str : Nat
  deriving DecidableEq

structure Sample where
  locationId : List Nat
  value : List Int
  label : List Label
  deriving DecidableEq

structure Mapping where
  id : Nat
  memoryStart : UInt64
  memoryLimit : UInt64
  fileOffset : UInt64
  filename : Nat
  buildId : Nat
  hasFunctions : Bool
  hasFilenames : Bool
  hasLineNumbers : Bool
  hasInlineFrames : Bool
  deriving DecidableEq

structure Line where
  functionId : Nat
  line : Nat
  deriving DecidableEq

structure Location where
  id : Nat
  mappingId : Nat
  address : UInt64
  line : List Line
  deriving DecidableEq

structure Function where
  id : Nat
  name : Nat
  systemName : Nat
  filename : Nat
  deriving DecidableEq

structure Profile where
  sampleType : List ValueType
  sample : List Sample
  mapping : List Mapping
  location : List Location
  function : List Function
  stringTable : List String
  timeNanos : Int
  periodType : Option ValueType
  deriving DecidableEq

end JemallocPprof.Proto
