import JemallocPprof.Double
import JemallocPprof.Faithful.Integrity

/-!
# From a profile to its bytes

Every number the converter puts in a message fits the type its field has on the
wire (`toPprofProto_fits`): ids and string indices are no larger than tables
that fit in a buffer, line numbers are u32 and values come out of a cast to
i64. So what `to_pprof` compresses is read back as the profile, and no two
profiles give the same bytes.
-/

namespace JemallocPprof
set_option autoImplicit false
open Lib

/-- `as i64` gives an i64. -/
class I64Cast (F : Type) [F64Cast F] : Prop where
  inI64 : ∀ w : F, InI64 (F64Cast.toI64 w)

instance binary64InI64 : I64Cast Binary64 where
  inI64 := by
    intro w
    obtain ⟨lo, hi⟩ := saturate_within i64Bounds w.value
    exact ⟨lo, Int.lt_of_le_sub_one hi⟩

instance exactInI64 {R : Type} [CommRing R] [LinearOrder R] [FloorRing R] : I64Cast (ExtNum R) where
  inI64 := by
    have ordered : i64Min ≤ i64Max := by decide
    intro w
    cases w with
    | nan => exact ⟨(by decide : i64Min ≤ 0), (by decide : 0 < (2 : Int) ^ 63)⟩
    | inf negative =>
      cases negative with
      | true => exact ⟨le_refl i64Min, Int.lt_of_le_sub_one ordered⟩
      | false => exact ⟨ordered, Int.lt_of_le_sub_one (le_refl i64Max)⟩
    | fin x => exact ⟨le_max_left .., Int.lt_of_le_sub_one (max_le ordered (min_le_left ..))⟩

theorem i64TryCastFrom_inI64 {F : Type} [F64Cast F] [I64Cast F] {w : F} {v : Int}
    (cast : i64TryCastFrom w = some v) : InI64 v := by
  obtain ⟨rfl, -⟩ := tryCastFrom_eq_some.1 cast
  exact I64Cast.inI64 w

/-! ## What bounds the numbers -/

theorem Reads.lt {strings : List String} {i : Nat} {s : String} (h : Reads strings i s) : i < strings.length :=
  (List.getElem?_eq_some_iff.1 h).1

/-- An id that names an entry of a table numbered from one is no larger than the table. -/
theorem id_le_of_namesOne {α : Type} {id : α → Nat} {as : List α} {k : Nat}
    (ids : as.map id = List.range' 1 as.length) (names : NamesOne id as k) : k ≤ as.length := by
  obtain ⟨a, mem, is⟩ := List.countP_pos_iff.1 (names ▸ Nat.one_pos)
  have there : k ∈ List.range' 1 as.length := ids ▸ List.mem_map.2 ⟨a, mem, of_decide_eq_true is⟩
  rw [List.mem_range'_1] at there
  omega

theorem id_le_of_mem {α : Type} {id : α → Nat} {as : List α} {a : α}
    (ids : as.map id = List.range' 1 as.length) (mem : a ∈ as) : id a ≤ as.length := by
  have there : id a ∈ List.range' 1 as.length := ids ▸ List.mem_map_of_mem mem
  rw [List.mem_range'_1] at there
  omega

theorem namedSymbol_lineno {mapping : Option Nat} {symbol : Symbol} {e : Named}
    (is : namedSymbol mapping symbol = some e) : e.lineno < 2 ^ 32 := by
  obtain ⟨name, -, rfl⟩ := Option.map_eq_some_iff.1 is
  cases symbol.lineno with
  | none => exact Nat.two_pow_pos 32
  | some n => exact n.toNat_lt

section
variable {F : Type} [F64Cast F] {env : Env} {self : StackProfile F} {sampleType periodType : String × String}
  {annoKey : Option String} {p : Proto.Profile}

/-- The timestamp is the clock's. -/
theorem toPprofProto_timeNanos (run : toPprofProto env self sampleType periodType annoKey = .ok p) :
    env.timeNanos = .ok p.timeNanos := by
  obtain ⟨_, -, run⟩ := bind_ok.1 run
  obtain ⟨_, -, run⟩ := bind_ok.1 run
  obtain ⟨_, -, run⟩ := bind_ok.1 run
  obtain ⟨_, -, run⟩ := bind_ok.1 run
  obtain ⟨nanos, time, run⟩ := bind_ok.1 run
  obtain ⟨_, -, run⟩ := bind_ok.1 run
  obtain ⟨_, -, run⟩ := bind_ok.1 run
  cases run
  exact time

theorem clockFits_of_timeNanos {nanos : Int} (time : env.timeNanos = .ok nanos) : env.ClockFits ∧ nanos = env.now := by
  obtain ⟨since, past, time⟩ := bind_ok.1 time
  rw [expect_ok, Option.ite_none_right_eq_some] at past time
  obtain ⟨after, same⟩ := past
  obtain ⟨before, same'⟩ := time
  cases same
  cases same'
  exact ⟨⟨after, before⟩, rfl⟩

theorem timeNanos_inI64 {nanos : Int} (time : env.timeNanos = .ok nanos) : InI64 nanos := by
  obtain ⟨⟨after, before⟩, rfl⟩ := clockFits_of_timeNanos time
  exact ⟨by omega, before⟩

/-- **Every number fits its field** in a profile whose encoding fits in a buffer. -/
theorem toPprofProto_fits [I64Cast F] (run : toPprofProto env self sampleType periodType annoKey = .ok p)
    (size : p.encode.length < 2 ^ 63) : p.Fits := by
  obtain ⟨items, annotated, h⟩ := toPprofProto_describes run
  have linked := h.tables_linked annotated
  have strings := h.strings_linked
  have count {α : Type} {number : Nat} {write : α → Bytes} {as : List α}
      (entry : (number, repeated write as) ∈ p.table) : as.length < 2 ^ 63 :=
    Nat.lt_of_le_of_lt (FieldTable.parts_le entry) size
  have mappings : p.mapping.length < 2 ^ 63 := @count _ 3 Proto.Mapping.encode _ (by simp [Proto.Profile.table])
  have locations : p.location.length < 2 ^ 63 := @count _ 4 Proto.Location.encode _ (by simp [Proto.Profile.table])
  have functions : p.function.length < 2 ^ 63 := @count _ 5 Proto.Function.encode _ (by simp [Proto.Profile.table])
  have texts : p.stringTable.length < 2 ^ 63 := @count _ 6 utf8Bytes _ (by simp [Proto.Profile.table])
  have index {i : Nat} {s : String} (reads : Reads p.stringTable i s) : i < 2 ^ 63 := reads.lt.trans texts
  constructor
  case sampleType =>
    obtain ⟨t, u, types, type, unit⟩ := strings.sampleType
    rw [types, List.forall_mem_singleton]
    exact ⟨index type, index unit⟩
  case sample =>
    intro sample mem
    obtain ⟨item, -, told⟩ := exists_of_mem_left h.sample mem
    obtain ⟨item', -, labels⟩ := exists_of_mem_left strings.labels mem
    constructor
    · intro id here
      have le := id_le_of_namesOne linked.locationIds (linked.sampleLocations sample mem id here)
      omega
    · obtain ⟨v, cast, value⟩ := told.value
      rw [value, List.forall_mem_singleton]
      exact i64TryCastFrom_inI64 cast
    · intro label here
      obtain ⟨text, -, key, str⟩ := labels label here
      exact ⟨index key, index str⟩
  case mapping =>
    intro m mem
    obtain ⟨m', -, filename, buildId⟩ := exists_of_mem_left strings.mappings mem
    have le := id_le_of_mem linked.mappingIds mem
    exact ⟨by omega, index filename, index buildId⟩
  case location =>
    intro loc mem
    have le := id_le_of_mem linked.locationIds mem
    refine ⟨by omega, ?_, ?_⟩
    · by_cases zero : loc.mappingId = 0
      · omega
      · have le := id_le_of_namesOne linked.mappingIds (linked.locationMappings loc mem zero)
        omega
    · intro line here
      have le := id_le_of_namesOne linked.functionIds (linked.lineFunctions loc mem line here)
      obtain ⟨i, at_i⟩ := List.mem_iff_getElem?.1 mem
      obtain ⟨f, -, told⟩ := h.location.right at_i
      obtain ⟨e, named, matched⟩ := exists_of_mem_left told.line here
      obtain ⟨symbol, -, is⟩ := List.mem_filterMap.1 named
      have lineno := namedSymbol_lineno is
      refine ⟨by omega, ?_⟩
      rw [matched.lineno]
      omega
  case function =>
    intro fn mem
    obtain ⟨e, -, name, systemName, filename⟩ := strings.functions fn mem
    have le := id_le_of_mem linked.functionIds mem
    exact ⟨by omega, index name, index systemName, index filename⟩
  case timeNanos => exact timeNanos_inI64 (toPprofProto_timeNanos run)
  case periodType =>
    obtain ⟨t, u, types, type, unit⟩ := strings.periodType
    intro v is
    rw [types] at is
    cases is
    exact ⟨index type, index unit⟩

/-- The bytes are the encoding of a profile that fits its fields. -/
theorem toPprof_encoded [I64Cast F] {gzip : Bytes → Bytes} {bytes : Bytes}
    (run : toPprof env gzip self sampleType periodType annoKey = .ok bytes) :
    ∃ p, toPprofProto env self sampleType periodType annoKey = .ok p ∧ bytes = gzip p.encode ∧
      p.encode.length < 2 ^ 64 ∧ p.Fits := by
  obtain ⟨p, converted, run⟩ := bind_ok.1 run
  obtain ⟨encoded, written, run⟩ := bind_ok.1 run
  cases run
  unfold Proto.Profile.encodeToVec at written
  split at written
  · rename_i size
    cases written
    exact ⟨p, converted, rfl, size.trans (by decide), toPprofProto_fits converted size⟩
  · cases written

/-- **What `to_pprof` compresses is read back** as one profile, whoever else's
encoding it is: its tables are linked to each other, its string indices to the
strings they were made for. -/
theorem toPprof_read_back [I64Cast F] {gzip : Bytes → Bytes} {bytes : Bytes}
    (run : toPprof env gzip self sampleType periodType annoKey = .ok bytes) :
    ∃ p encoded, bytes = gzip encoded ∧ Proto.Profile.decode encoded = some p ∧
      toPprofProto env self sampleType periodType annoKey = .ok p ∧ TablesLinked p ∧
      (∃ items, self.Annotated items ∧
        StringsLinked env self items sampleType periodType (annoKey.getD "annotation") p) ∧
      ∀ q : Proto.Profile, q.Fits → q.encode = encoded → q = p := by
  obtain ⟨p, converted, compressed, size, fits⟩ := toPprof_encoded run
  obtain ⟨items, annotated, h⟩ := toPprofProto_describes converted
  have decoded := p.decode_encode fits size
  refine ⟨p, p.encode, compressed, decoded, converted, h.tables_linked annotated,
    ⟨items, annotated, h.strings_linked⟩, ?_⟩
  intro q fitting same
  have decoded' := q.decode_encode fitting (same ▸ size)
  rw [same] at decoded'
  exact Option.some.inj (decoded'.symm.trans decoded)

theorem annotatedCalls_read_back : ∃ bytes p encoded, bytes = encoded.reverse ∧
    Proto.Profile.decode encoded = some p ∧
    toPprofProto oneSymbol annotatedCalls ("inuse", "bytes") ("space", "bytes") (some "phase") = .ok p ∧
    TablesLinked p ∧
    (∃ items, annotatedCalls.Annotated items ∧
      StringsLinked oneSymbol annotatedCalls items ("inuse", "bytes") ("space", "bytes") "phase" p) ∧
    ∀ q : Proto.Profile, q.Fits → q.encode = encoded → q = p := by
  obtain ⟨bytes, run⟩ := exists_ok (x := toPprof oneSymbol List.reverse annotatedCalls ("inuse", "bytes")
    ("space", "bytes") (some "phase")) (by decide +kernel)
  exact ⟨bytes, toPprof_read_back run⟩

end

end JemallocPprof
