import JemallocPprof.Lib.Utf8
import JemallocPprof.Lib.Wire
import JemallocPprof.Proto

/-!
# The pprof messages on the wire

A `#[prost(..)]` attribute gives a field its number and its kind; a table here
has one entry for each attribute of a field the converter sets, in the order of
the numbers. The other fields are at their default and write nothing. `decode`
reads a message by the same schema and passes over numbers it does not know.
-/

namespace JemallocPprof.Proto
set_option autoImplicit false
open Lib

/-- An index into the string table, an int64. -/
def index (i : Nat) : List Payload := int64 i

def readIndex (ps : List Payload) : Option Nat := (readInt64 ps).bind fun i => if 0 ≤ i then some i.toNat else none

theorem readIndex_index {i : Nat} (fits : i < 2 ^ 63) : readIndex (index i) = some i := by
  rw [readIndex, index, readInt64_int64 (by omega) (by omega), Option.bind_some, if_pos (by omega), Int.toNat_natCast]

namespace ValueType

def table (a : ValueType) : FieldTable := [(1, index a.type), (2, index a.unit)]

def encode (a : ValueType) : Bytes := writeFields a.table.fields

def read (fields : List Field) : Option ValueType := do
  let type ← readIndex (payloads 1 fields)
  let unit ← readIndex (payloads 2 fields)
  some { type, unit }

def decode (bytes : Bytes) : Option ValueType := (readFields bytes).bind read

end ValueType

namespace Label

def table (a : Label) : FieldTable := [(1, index a.key), (2, index a.str)]

def encode (a : Label) : Bytes := writeFields a.table.fields

def read (fields : List Field) : Option Label := do
  let key ← readIndex (payloads 1 fields)
  let str ← readIndex (payloads 2 fields)
  some { key, str }

def decode (bytes : Bytes) : Option Label := (readFields bytes).bind read

end Label

namespace Sample

def table (a : Sample) : FieldTable :=
  [(1, packed a.locationId), (2, packed (a.value.map twos)), (3, repeated Label.encode a.label)]

def encode (a : Sample) : Bytes := writeFields a.table.fields

def read (fields : List Field) : Option Sample := do
  let locationId ← readPacked (payloads 1 fields)
  let value ← readPacked (payloads 2 fields)
  let label ← readRepeated Label.decode (payloads 3 fields)
  some { locationId, value := value.map ofTwos, label }

def decode (bytes : Bytes) : Option Sample := (readFields bytes).bind read

end Sample

namespace Mapping

def table (a : Mapping) : FieldTable :=
  [(1, uint64 a.id), (2, uint64 a.memoryStart.toNat), (3, uint64 a.memoryLimit.toNat),
    (4, uint64 a.fileOffset.toNat), (5, index a.filename), (6, index a.buildId), (7, bool a.hasFunctions),
    (8, bool a.hasFilenames), (9, bool a.hasLineNumbers), (10, bool a.hasInlineFrames)]

def encode (a : Mapping) : Bytes := writeFields a.table.fields

def read (fields : List Field) : Option Mapping := do
  let id ← readUint64 (payloads 1 fields)
  let memoryStart ← readUint64 (payloads 2 fields)
  let memoryLimit ← readUint64 (payloads 3 fields)
  let fileOffset ← readUint64 (payloads 4 fields)
  let filename ← readIndex (payloads 5 fields)
  let buildId ← readIndex (payloads 6 fields)
  let hasFunctions ← readBool (payloads 7 fields)
  let hasFilenames ← readBool (payloads 8 fields)
  let hasLineNumbers ← readBool (payloads 9 fields)
  let hasInlineFrames ← readBool (payloads 10 fields)
  some {
    id
    memoryStart := .ofNat memoryStart
    memoryLimit := .ofNat memoryLimit
    fileOffset := .ofNat fileOffset
    filename
    buildId
    hasFunctions
    hasFilenames
    hasLineNumbers
    hasInlineFrames }

def decode (bytes : Bytes) : Option Mapping := (readFields bytes).bind read

end Mapping

namespace Line

def table (a : Line) : FieldTable := [(1, uint64 a.functionId), (2, int64 a.line)]

def encode (a : Line) : Bytes := writeFields a.table.fields

def read (fields : List Field) : Option Line := do
  let functionId ← readUint64 (payloads 1 fields)
  let line ← readIndex (payloads 2 fields)
  some { functionId, line }

def decode (bytes : Bytes) : Option Line := (readFields bytes).bind read

end Line

namespace Location

def table (a : Location) : FieldTable :=
  [(1, uint64 a.id), (2, uint64 a.mappingId), (3, uint64 a.address.toNat), (4, repeated Line.encode a.line)]

def encode (a : Location) : Bytes := writeFields a.table.fields

def read (fields : List Field) : Option Location := do
  let id ← readUint64 (payloads 1 fields)
  let mappingId ← readUint64 (payloads 2 fields)
  let address ← readUint64 (payloads 3 fields)
  let line ← readRepeated Line.decode (payloads 4 fields)
  some { id, mappingId, address := .ofNat address, line }

def decode (bytes : Bytes) : Option Location := (readFields bytes).bind read

end Location

namespace Function

def table (a : Function) : FieldTable :=
  [(1, uint64 a.id), (2, index a.name), (3, index a.systemName), (4, index a.filename)]

def encode (a : Function) : Bytes := writeFields a.table.fields

def read (fields : List Field) : Option Function := do
  let id ← readUint64 (payloads 1 fields)
  let name ← readIndex (payloads 2 fields)
  let systemName ← readIndex (payloads 3 fields)
  let filename ← readIndex (payloads 4 fields)
  some { id, name, systemName, filename }

def decode (bytes : Bytes) : Option Function := (readFields bytes).bind read

end Function

namespace Profile

def table (a : Profile) : FieldTable :=
  [(1, repeated ValueType.encode a.sampleType), (2, repeated Sample.encode a.sample),
    (3, repeated Mapping.encode a.mapping), (4, repeated Location.encode a.location),
    (5, repeated Function.encode a.function), (6, repeated utf8Bytes a.stringTable), (9, int64 a.timeNanos),
    (11, optionalMessage ValueType.encode a.periodType)]

def encode (a : Profile) : Bytes := writeFields a.table.fields

def read (fields : List Field) : Option Profile := do
  let sampleType ← readRepeated ValueType.decode (payloads 1 fields)
  let sample ← readRepeated Sample.decode (payloads 2 fields)
  let mapping ← readRepeated Mapping.decode (payloads 3 fields)
  let location ← readRepeated Location.decode (payloads 4 fields)
  let function ← readRepeated Function.decode (payloads 5 fields)
  let stringTable ← readRepeated fromUtf8 (payloads 6 fields)
  let timeNanos ← readInt64 (payloads 9 fields)
  let periodType ← readOptional ValueType.decode (payloads 11 fields)
  some { sampleType, sample, mapping, location, function, stringTable, timeNanos, periodType }

def decode (bytes : Bytes) : Option Profile := (readFields bytes).bind read

/-- `encode_to_vec`: the buffer is allocated at its full length, which a `Vec` bounds. -/
def encodeToVec (a : Profile) : Except Panic Bytes :=
  if a.encode.length < 2 ^ 63 then .ok a.encode else .error (.expectFailed "capacity overflow")

end Profile

/-! ## What fits the fields' types -/

structure ValueType.Fits (a : ValueType) : Prop where
  type : a.type < 2 ^ 63
  unit : a.unit < 2 ^ 63

structure Label.Fits (a : Label) : Prop where
  key : a.key < 2 ^ 63
  str : a.str < 2 ^ 63

structure Sample.Fits (a : Sample) : Prop where
  locationId : ∀ id ∈ a.locationId, id < 2 ^ 64
  value : ∀ v ∈ a.value, InI64 v
  label : ∀ l ∈ a.label, l.Fits

structure Mapping.Fits (a : Mapping) : Prop where
  id : a.id < 2 ^ 64
  filename : a.filename < 2 ^ 63
  buildId : a.buildId < 2 ^ 63

structure Line.Fits (a : Line) : Prop where
  functionId : a.functionId < 2 ^ 64
  line : a.line < 2 ^ 63

structure Location.Fits (a : Location) : Prop where
  id : a.id < 2 ^ 64
  mappingId : a.mappingId < 2 ^ 64
  line : ∀ l ∈ a.line, l.Fits

structure Function.Fits (a : Function) : Prop where
  id : a.id < 2 ^ 64
  name : a.name < 2 ^ 63
  systemName : a.systemName < 2 ^ 63
  filename : a.filename < 2 ^ 63

structure Profile.Fits (a : Profile) : Prop where
  sampleType : ∀ t ∈ a.sampleType, t.Fits
  sample : ∀ s ∈ a.sample, s.Fits
  mapping : ∀ m ∈ a.mapping, m.Fits
  location : ∀ l ∈ a.location, l.Fits
  function : ∀ f ∈ a.function, f.Fits
  timeNanos : InI64 a.timeNanos
  periodType : ∀ t ∈ a.periodType, t.Fits

/-! ## Round trips -/

theorem ValueType.decode_encode {a : ValueType} (fits : a.Fits) (size : a.encode.length < 2 ^ 64) :
    decode a.encode = some a := by
  refine FieldTable.read_write ?_ size ?_
  · exact .cons (by decide) (fun _ => int64_fits) (.cons (by decide) (fun _ => int64_fits) .nil)
  · simp [read, table, readIndex_index fits.type, readIndex_index fits.unit]

theorem Label.decode_encode {a : Label} (fits : a.Fits) (size : a.encode.length < 2 ^ 64) :
    decode a.encode = some a := by
  refine FieldTable.read_write ?_ size ?_
  · exact .cons (by decide) (fun _ => int64_fits) (.cons (by decide) (fun _ => int64_fits) .nil)
  · simp [read, table, readIndex_index fits.key, readIndex_index fits.str]

theorem values_read {vs : List Int} (fits : ∀ v ∈ vs, InI64 v) : (vs.map twos).map ofTwos = vs := by
  have each : ∀ v ∈ vs, (ofTwos ∘ twos) v = id v := by
    intro v mem
    obtain ⟨lo, hi⟩ := fits v mem
    rw [Function.comp_apply, ofTwos_twos lo hi, id]
  rw [List.map_map, List.map_congr_left each, List.map_id]

theorem Sample.decode_encode {a : Sample} (fits : a.Fits) (size : a.encode.length < 2 ^ 64) :
    decode a.encode = some a := by
  have value : readPacked (packed (a.value.map twos)) = some (a.value.map twos) :=
    readPacked_packed (List.forall_mem_map.2 fun v _ => twos_lt v)
  have label : readRepeated Label.decode (repeated Label.encode a.label) = some a.label :=
    FieldTable.read_parts 3 (by simp [table]) size fun l mem => Label.decode_encode (fits.label l mem)
  refine FieldTable.read_write ?_ size ?_
  · exact .cons (by decide) (fun _ => packed_fits) (.cons (by decide) (fun _ => packed_fits)
      (.cons (by decide) (fun _ => repeated_fits) .nil))
  · simp [read, table, readPacked_packed fits.locationId, value, label, values_read fits.value]

theorem Mapping.decode_encode {a : Mapping} (fits : a.Fits) (size : a.encode.length < 2 ^ 64) :
    decode a.encode = some a := by
  refine FieldTable.read_write ?_ size ?_
  · refine .cons (by decide) (fun _ => uint64_fits fits.id) (.cons (by decide) (fun _ => uint64_fits ?_)
      (.cons (by decide) (fun _ => uint64_fits ?_) (.cons (by decide) (fun _ => uint64_fits ?_)
      (.cons (by decide) (fun _ => int64_fits) (.cons (by decide) (fun _ => int64_fits)
      (.cons (by decide) (fun _ => bool_fits) (.cons (by decide) (fun _ => bool_fits)
      (.cons (by decide) (fun _ => bool_fits) (.cons (by decide) (fun _ => bool_fits) .nil)))))))))
    all_goals exact UInt64.toNat_lt _
  · simp [read, table, readIndex_index fits.filename, readIndex_index fits.buildId]

theorem Line.decode_encode {a : Line} (fits : a.Fits) (size : a.encode.length < 2 ^ 64) :
    decode a.encode = some a := by
  have line : readIndex (int64 a.line) = some a.line := readIndex_index fits.line
  refine FieldTable.read_write ?_ size ?_
  · exact .cons (by decide) (fun _ => uint64_fits fits.functionId) (.cons (by decide) (fun _ => int64_fits) .nil)
  · simp [read, table, line]

theorem Location.decode_encode {a : Location} (fits : a.Fits) (size : a.encode.length < 2 ^ 64) :
    decode a.encode = some a := by
  have line : readRepeated Line.decode (repeated Line.encode a.line) = some a.line :=
    FieldTable.read_parts 4 (by simp [table]) size fun l mem => Line.decode_encode (fits.line l mem)
  refine FieldTable.read_write ?_ size ?_
  · exact .cons (by decide) (fun _ => uint64_fits fits.id) (.cons (by decide) (fun _ => uint64_fits fits.mappingId)
      (.cons (by decide) (fun _ => uint64_fits (UInt64.toNat_lt _)) (.cons (by decide) (fun _ => repeated_fits) .nil)))
  · simp [read, table, line]

theorem Function.decode_encode {a : Function} (fits : a.Fits) (size : a.encode.length < 2 ^ 64) :
    decode a.encode = some a := by
  refine FieldTable.read_write ?_ size ?_
  · exact .cons (by decide) (fun _ => uint64_fits fits.id) (.cons (by decide) (fun _ => int64_fits)
      (.cons (by decide) (fun _ => int64_fits) (.cons (by decide) (fun _ => int64_fits) .nil)))
  · simp [read, table, readIndex_index fits.name, readIndex_index fits.systemName, readIndex_index fits.filename]

/-- **A profile is read back** from its bytes. -/
theorem Profile.decode_encode {a : Profile} (fits : a.Fits) (size : a.encode.length < 2 ^ 64) :
    decode a.encode = some a := by
  have sampleType : readRepeated ValueType.decode (repeated ValueType.encode a.sampleType) = some a.sampleType :=
    FieldTable.read_parts 1 (by simp [table]) size fun t mem => ValueType.decode_encode (fits.sampleType t mem)
  have sample : readRepeated Sample.decode (repeated Sample.encode a.sample) = some a.sample :=
    FieldTable.read_parts 2 (by simp [table]) size fun s mem => Sample.decode_encode (fits.sample s mem)
  have mapping : readRepeated Mapping.decode (repeated Mapping.encode a.mapping) = some a.mapping :=
    FieldTable.read_parts 3 (by simp [table]) size fun m mem => Mapping.decode_encode (fits.mapping m mem)
  have location : readRepeated Location.decode (repeated Location.encode a.location) = some a.location :=
    FieldTable.read_parts 4 (by simp [table]) size fun l mem => Location.decode_encode (fits.location l mem)
  have function : readRepeated Function.decode (repeated Function.encode a.function) = some a.function :=
    FieldTable.read_parts 5 (by simp [table]) size fun f mem => Function.decode_encode (fits.function f mem)
  have stringTable : readRepeated fromUtf8 (repeated utf8Bytes a.stringTable) = some a.stringTable :=
    readRepeated_repeated fun s _ => fromUtf8_utf8Bytes s
  have timeNanos : readInt64 (int64 a.timeNanos) = some a.timeNanos :=
    readInt64_int64 fits.timeNanos.1 fits.timeNanos.2
  have periodType : readOptional ValueType.decode (optionalMessage ValueType.encode a.periodType) = some a.periodType :=
    FieldTable.read_part 11 (by simp [table]) size fun t mem => ValueType.decode_encode (fits.periodType t mem)
  refine FieldTable.read_write ?_ size ?_
  · exact .cons (by decide) (fun _ => repeated_fits) (.cons (by decide) (fun _ => repeated_fits)
      (.cons (by decide) (fun _ => repeated_fits) (.cons (by decide) (fun _ => repeated_fits)
      (.cons (by decide) (fun _ => repeated_fits) (.cons (by decide) (fun _ => repeated_fits)
      (.cons (by decide) (fun _ => int64_fits) (.cons (by decide) (fun _ => optionalMessage_fits) .nil)))))))
  · simp [read, table, sampleType, sample, mapping, location, function, stringTable, timeNanos, periodType]

end JemallocPprof.Proto
