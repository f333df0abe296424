import JemallocPprof.Lib.Loop
import Mathlib.Algebra.Group.Int.Defs
import Mathlib.Algebra.Group.Nat.Defs
import Mathlib.Data.List.Basic

/-!
# The wire format of protocol buffers

A message is a sequence of fields, each a number and a payload: a varint, or a
byte string with its length before it. `readFields` reads back what
`writeFields` writes (`readFields_writeFields`). A message type is a table of
payloads by field number; scalars that are zero are left out, repeated scalars
are packed, and a reader picks the payloads of a number wherever they stand.
-/

namespace Lib
set_option autoImplicit false

/-! ## Varints -/

/-- Seven bits a byte, lowest first, in at most `n` bytes; every byte but the
last has its top bit set. -/
def varintN : Nat → Nat → List UInt8
  | 0, _ => []
  | n + 1, v => if v < 0x80 then [UInt8.ofNat v] else UInt8.ofNat (v % 0x80 + 0x80) :: varintN n (v / 0x80)

/-- A 64-bit number. -/
def varint (v : Nat) : List UInt8 := varintN 10 v

/-- A number of at most `n` bytes, and the bytes after it. -/
def takeVarintN : Nat → List UInt8 → Option (Nat × List UInt8)
  | 0, _ => none
  | _ + 1, [] => none
  | n + 1, b :: bytes =>
    if b.toNat < 0x80 then some (b.toNat, bytes)
    else (takeVarintN n bytes).map fun (v, rest) => (b.toNat - 0x80 + 0x80 * v, rest)

def takeVarint (bytes : List UInt8) : Option (Nat × List UInt8) :=
  (takeVarintN 10 bytes).filter fun (v, _) => v < 2 ^ 64

theorem takeVarintN_varintN {n v : Nat} (fits : v < 0x80 ^ (n + 1)) (rest : List UInt8) :
    takeVarintN (n + 1) (varintN (n + 1) v ++ rest) = some (v, rest) := by
  induction n generalizing v with
  | zero =>
    have small : v < 0x80 := fits
    have byte : (UInt8.ofNat v).toNat = v := UInt8.toNat_ofNat_of_lt' (Nat.lt_trans small (by decide))
    rw [varintN, if_pos small, List.singleton_append, takeVarintN, byte, if_pos small]
  | succ n ih =>
    rw [varintN]
    split
    · rename_i small
      have byte : (UInt8.ofNat v).toNat = v := UInt8.toNat_ofNat_of_lt' (Nat.lt_trans small (by decide))
      rw [List.singleton_append, takeVarintN, byte, if_pos small]
    · have low : v % 0x80 + 0x80 < 2 ^ 8 := by omega
      have byte : (UInt8.ofNat (v % 0x80 + 0x80)).toNat = v % 0x80 + 0x80 := UInt8.toNat_ofNat_of_lt' low
      have shorter : v / 0x80 < 0x80 ^ (n + 1) := by
        rw [Nat.div_lt_iff_lt_mul (by decide), ← Nat.pow_succ]
        exact fits
      rw [List.cons_append, takeVarintN, byte, if_neg (by omega), ih shorter, Option.map_some]
      simp only [Nat.add_sub_cancel, Nat.mod_add_div]

/-- **A varint is read back**, whatever follows it. -/
theorem takeVarint_varint {v : Nat} (fits : v < 2 ^ 64) (rest : List UInt8) :
    takeVarint (varint v ++ rest) = some (v, rest) := by
  have seventy : v < 0x80 ^ 10 := Nat.lt_trans fits (by decide)
  rw [takeVarint, varint, takeVarintN_varintN seventy, Option.filter_some, if_pos (by simpa using fits)]

theorem varint_ne_nil (v : Nat) : varint v ≠ [] := by
  rw [varint, varintN]
  split <;> simp

/-- A 64-bit number in two's complement. -/
def twos (i : Int) : Nat := (i % 2 ^ 64).toNat

/-- The signed number behind it. -/
def ofTwos (v : Nat) : Int := (v : Int).bmod (2 ^ 64)

theorem twos_lt (i : Int) : twos i < 2 ^ 64 := by
  unfold twos
  omega

theorem ofTwos_twos {i : Int} (lo : -2 ^ 63 ≤ i) (hi : i < 2 ^ 63) : ofTwos (twos i) = i := by
  unfold ofTwos twos
  rw [Int.bmod_def]
  omega

/-! ## Fields -/

inductive Payload where
  | varint (value : Nat)
  | bytes (value : List UInt8)
  deriving DecidableEq

namespace Payload

def wireType : Payload → Nat
  | .varint _ => 0
  | .bytes _ => 2

def write : Payload → List UInt8
  | .varint v => Lib.varint v
  | .bytes bs => Lib.varint bs.length ++ bs

/-- The bytes it takes are no more than a length can say. -/
def Fits : Payload → Prop
  | .varint v => v < 2 ^ 64
  | .bytes bs => bs.length < 2 ^ 64

theorem wireType_lt (payload : Payload) : payload.wireType < 8 := by
  cases payload <;> simp [wireType]

def value? : Payload → Option Nat
  | .varint v => some v
  | .bytes _ => none

def bytes? : Payload → Option (List UInt8)
  | .varint _ => none
  | .bytes bs => some bs

end Payload

structure Field where
  number : Nat
  payload : Payload
  deriving DecidableEq

namespace Field

/-- The key, which says the number and the kind of the payload, and the payload. -/
def write (field : Field) : List UInt8 :=
  Lib.varint (8 * field.number + field.payload.wireType) ++ field.payload.write

structure Fits (field : Field) : Prop where
  number : field.number < 2 ^ 29
  payload : field.payload.Fits

end Field

def writeFields (fields : List Field) : List UInt8 := fields.flatMap Field.write

def takePayload (wireType : Nat) (bytes : List UInt8) : Option (Payload × List UInt8) :=
  match wireType with
  | 0 => (takeVarint bytes).map fun (v, rest) => (.varint v, rest)
  | 2 => (takeVarint bytes).bind fun (length, rest) =>
    if length ≤ rest.length then some (.bytes (rest.take length), rest.drop length) else none
  | _ => none

def takeField (bytes : List UInt8) : Option (Field × List UInt8) :=
  (takeVarint bytes).bind fun (key, rest) =>
    (takePayload (key % 8) rest).map fun (payload, rest) => (⟨key / 8, payload⟩, rest)

/-- At most `n` fields, up to the end of the bytes. -/
def readFieldsN : Nat → List UInt8 → Option (List Field)
  | _, [] => some []
  | 0, _ :: _ => none
  | n + 1, b :: bytes =>
    (takeField (b :: bytes)).bind fun (field, rest) => (readFieldsN n rest).map (field :: ·)

def readFields (bytes : List UInt8) : Option (List Field) := readFieldsN bytes.length bytes

theorem takePayload_write {payload : Payload} (fits : payload.Fits) (rest : List UInt8) :
    takePayload payload.wireType (payload.write ++ rest) = some (payload, rest) := by
  cases payload with
  | varint v => rw [Payload.wireType, takePayload, Payload.write, takeVarint_varint fits, Option.map_some]
  | bytes bs =>
    have there : bs.length ≤ (bs ++ rest).length := by simp
    rw [Payload.wireType, takePayload, Payload.write, List.append_assoc, takeVarint_varint fits, Option.bind_some]
    simp only [if_pos there, List.take_left, List.drop_left]

theorem takeField_write {field : Field} (fits : field.Fits) (rest : List UInt8) :
    takeField (field.write ++ rest) = some (field, rest) := by
  have kind := field.payload.wireType_lt
  have key : 8 * field.number + field.payload.wireType < 2 ^ 64 := by
    have number := fits.number
    omega
  have low : (8 * field.number + field.payload.wireType) % 8 = field.payload.wireType := by omega
  have high : (8 * field.number + field.payload.wireType) / 8 = field.number := by omega
  rw [takeField, Field.write, List.append_assoc, takeVarint_varint key, Option.bind_some]
  simp only [low, high, takePayload_write fits.payload, Option.map_some]

theorem Field.write_ne_nil (field : Field) : field.write ≠ [] := by
  rw [Field.write, Ne, List.append_eq_nil_iff]
  exact fun empty => varint_ne_nil _ empty.1

/-- **Fields are read back.** -/
theorem readFields_writeFields {fields : List Field} (fits : ∀ field ∈ fields, field.Fits) :
    readFields (writeFields fields) = some fields := by
  have go : ∀ n, (writeFields fields).length ≤ n → readFieldsN n (writeFields fields) = some fields := by
    induction fields with
    | nil =>
      intro n _
      rw [writeFields, List.flatMap_nil, readFieldsN]
    | cons field fields ih =>
      intro n enough
      have split : writeFields (field :: fields) = field.write ++ writeFields fields := List.flatMap_cons
      have taken := takeField_write (fits field List.mem_cons_self) (writeFields fields)
      rw [split] at enough ⊢
      obtain ⟨b, bytes, cons⟩ := List.exists_cons_of_ne_nil field.write_ne_nil
      rw [cons] at enough taken ⊢
      rw [List.cons_append, List.length_cons, List.length_append] at enough
      rw [List.cons_append] at taken ⊢
      obtain ⟨n, rfl⟩ := Nat.exists_eq_add_of_le' (Nat.le_trans (Nat.le_add_left 1 _) enough)
      have later := ih (fun f mem => fits f (List.mem_cons_of_mem _ mem)) n (by omega)
      rw [readFieldsN, taken, Option.bind_some]
      simp only [later, Option.map_some]
  exact go _ (Nat.le_refl _)

/-- A byte string among the fields is no longer than all of them. -/
theorem length_le_writeFields {fields : List Field} {number : Nat} {bs : List UInt8}
    (mem : ⟨number, .bytes bs⟩ ∈ fields) : bs.length ≤ (writeFields fields).length := by
  obtain ⟨before, behind, rfl⟩ := List.append_of_mem mem
  rw [writeFields, List.flatMap_append, List.flatMap_cons, Field.write, Payload.write]
  simp only [List.length_append]
  omega

/-! ## Message types -/

/-- The fields of a message, by number. -/
abbrev FieldTable := List (Nat × List Payload)

def FieldTable.fields (table : FieldTable) : List Field :=
  table.flatMap fun (number, payloads) => payloads.map (Field.mk number)

/-- The payloads of a number, wherever they stand. -/
def payloads (number : Nat) (fields : List Field) : List Payload :=
  (fields.filter fun field => field.number = number).map Field.payload

@[simp] theorem payloads_nil (number : Nat) : payloads number (FieldTable.fields []) = [] := rfl

@[simp] theorem payloads_cons (number m : Nat) (ps : List Payload) (table : FieldTable) :
    payloads number (FieldTable.fields ((m, ps) :: table)) =
      (if m = number then ps else []) ++ payloads number table.fields := by
  have here : payloads number (ps.map (Field.mk m)) = if m = number then ps else [] := by
    unfold payloads
    split
    · rename_i same
      rw [List.filter_eq_self.2 (by simp [same]), List.map_map]
      exact List.map_id ps
    · rename_i other
      rw [List.filter_eq_nil_iff.2 (by simp [other]), List.map_nil]
  rw [← here, FieldTable.fields, List.flatMap_cons, payloads, List.filter_append, List.map_append]
  rfl

/-! ### Writing a field -/

def uint64 (v : Nat) : List Payload := if v = 0 then [] else [.varint v]

def int64 (i : Int) : List Payload := uint64 (twos i)

def bool (b : Bool) : List Payload := uint64 b.toNat

def packed (vs : List Nat) : List Payload := if vs = [] then [] else [.bytes (vs.flatMap varint)]

variable {α : Type}

def repeated (write : α → List UInt8) (as : List α) : List Payload := as.map fun a => .bytes (write a)

def optionalMessage (write : α → List UInt8) (a : Option α) : List Payload := repeated write a.toList

/-! ### Reading a field -/

/-- The last number there is, or the default. -/
def readUint64 (ps : List Payload) : Option Nat := (ps.mapM Payload.value?).map (·.getLastD 0)

def readInt64 (ps : List Payload) : Option Int := (readUint64 ps).map ofTwos

def readBool (ps : List Payload) : Option Bool := (readUint64 ps).map (· != 0)

/-- At most `n` numbers, up to the end of the bytes. -/
def readVarintsN : Nat → List UInt8 → Option (List Nat)
  | _, [] => some []
  | 0, _ :: _ => none
  | n + 1, b :: bytes => (takeVarint (b :: bytes)).bind fun (v, rest) => (readVarintsN n rest).map (v :: ·)

/-- Repeated numbers may come packed or one by one. -/
def Payload.values? : Payload → Option (List Nat)
  | .varint v => some [v]
  | .bytes bs => readVarintsN bs.length bs

def readPacked (ps : List Payload) : Option (List Nat) := (ps.mapM Payload.values?).map List.flatten

def readRepeated (read : List UInt8 → Option α) (ps : List Payload) : Option (List α) :=
  ps.mapM fun p => p.bytes?.bind read

/-- Parts of one message are read as one. -/
def readOptional (read : List UInt8 → Option α) (ps : List Payload) : Option (Option α) :=
  if ps = [] then some none
  else (ps.mapM Payload.bytes?).bind fun parts => (read parts.flatten).map some

/-! ### Round trips -/

@[simp] theorem readUint64_uint64 (v : Nat) : readUint64 (uint64 v) = some v := by
  unfold readUint64 uint64
  split
  · rename_i zero
    simp [zero]
  · simp [Payload.value?]

theorem readInt64_int64 {i : Int} (lo : -2 ^ 63 ≤ i) (hi : i < 2 ^ 63) : readInt64 (int64 i) = some i := by
  rw [readInt64, int64, readUint64_uint64, Option.map_some, ofTwos_twos lo hi]

@[simp] theorem readBool_bool (b : Bool) : readBool (bool b) = some b := by
  cases b <;> simp [readBool, bool]

theorem readVarintsN_flatMap {vs : List Nat} (fits : ∀ v ∈ vs, v < 2 ^ 64) {n : Nat}
    (enough : (vs.flatMap varint).length ≤ n) : readVarintsN n (vs.flatMap varint) = some vs := by
  induction vs generalizing n with
  | nil => rw [List.flatMap_nil, readVarintsN]
  | cons v vs ih =>
    have taken := takeVarint_varint (fits v List.mem_cons_self) (vs.flatMap varint)
    obtain ⟨b, bytes, cons⟩ := List.exists_cons_of_ne_nil (varint_ne_nil v)
    rw [List.flatMap_cons, cons, List.cons_append, List.length_cons, List.length_append] at enough
    rw [cons, List.cons_append] at taken
    obtain ⟨n, rfl⟩ := Nat.exists_eq_add_of_le' (Nat.le_trans (Nat.le_add_left 1 _) enough)
    have later := ih (fun w mem => fits w (List.mem_cons_of_mem _ mem)) (n := n) (by omega)
    rw [List.flatMap_cons, cons, List.cons_append, readVarintsN, taken, Option.bind_some]
    simp only [later, Option.map_some]

theorem readPacked_packed {vs : List Nat} (fits : ∀ v ∈ vs, v < 2 ^ 64) : readPacked (packed vs) = some vs := by
  unfold readPacked packed
  split
  · rename_i empty
    simp [empty]
  · have values : Payload.values? (.bytes (vs.flatMap varint)) = some vs := readVarintsN_flatMap fits (Nat.le_refl _)
    simp [values]

theorem readRepeated_repeated {read : List UInt8 → Option α} {write : α → List UInt8} {as : List α}
    (each : ∀ a ∈ as, read (write a) = some a) : readRepeated read (repeated write as) = some as := by
  rw [readRepeated, repeated, mapM_some, List.forall₂_map_left_iff, List.forall₂_same]
  exact each

theorem readOptional_optionalMessage {read : List UInt8 → Option α} {write : α → List UInt8} {a : Option α}
    (each : ∀ b ∈ a, read (write b) = some b) : readOptional read (optionalMessage write a) = some a := by
  cases a with
  | none => rfl
  | some b => simp [readOptional, optionalMessage, repeated, Payload.bytes?, each b rfl]

/-! ### What fits -/

/-- The numbers of a table are field numbers, and its scalars are 64-bit. -/
def FieldTable.Fits (table : FieldTable) : Prop :=
  ∀ entry ∈ table, entry.1 < 2 ^ 29 ∧ ∀ v, .varint v ∈ entry.2 → v < 2 ^ 64

theorem FieldTable.Fits.nil : FieldTable.Fits [] := by
  intro entry mem
  cases mem

theorem FieldTable.Fits.cons {number : Nat} {ps : List Payload} {table : FieldTable} (small : number < 2 ^ 29)
    (scalars : ∀ v, .varint v ∈ ps → v < 2 ^ 64) (rest : table.Fits) :
    FieldTable.Fits ((number, ps) :: table) :=
  List.forall_mem_cons.2 ⟨⟨small, scalars⟩, rest⟩

/-- A part of a message is no longer than the message. -/
theorem FieldTable.part_le {table : FieldTable} {number : Nat} {write : α → List UInt8} {as : List α} {a : α}
    (entry : (number, repeated write as) ∈ table) (mem : a ∈ as) :
    (write a).length ≤ (writeFields table.fields).length := by
  have payload : .bytes (write a) ∈ repeated write as := List.mem_map_of_mem mem
  exact length_le_writeFields (List.mem_flatMap.2 ⟨_, entry, List.mem_map_of_mem payload⟩)

theorem length_le_of_fields (fields : List Field) : fields.length ≤ (writeFields fields).length := by
  induction fields with
  | nil => exact Nat.zero_le _
  | cons field fields ih =>
    have one : 0 < field.write.length := List.length_pos_iff.2 field.write_ne_nil
    rw [writeFields, List.flatMap_cons, List.length_append, List.length_cons, ← writeFields]
    omega

/-- There are no more parts than bytes. -/
theorem FieldTable.parts_le {table : FieldTable} {number : Nat} {write : α → List UInt8} {as : List α}
    (entry : (number, repeated write as) ∈ table) : as.length ≤ (writeFields table.fields).length := by
  refine Nat.le_trans ?_ (length_le_of_fields _)
  obtain ⟨before, behind, rfl⟩ := List.append_of_mem entry
  rw [fields, List.flatMap_append, List.flatMap_cons]
  simp only [List.length_append, List.length_map, repeated]
  omega

/-- The parts of a message are read back when each is, as no part is too long. -/
theorem FieldTable.read_parts {table : FieldTable} {read : List UInt8 → Option α} {write : α → List UInt8}
    {as : List α} (number : Nat) (entry : (number, repeated write as) ∈ table)
    (size : (writeFields table.fields).length < 2 ^ 64)
    (each : ∀ a ∈ as, (write a).length < 2 ^ 64 → read (write a) = some a) :
    readRepeated read (repeated write as) = some as :=
  readRepeated_repeated fun a mem => each a mem (Nat.lt_of_le_of_lt (part_le entry mem) size)

theorem FieldTable.read_part {table : FieldTable} {read : List UInt8 → Option α} {write : α → List UInt8}
    {a : Option α} (number : Nat) (entry : (number, optionalMessage write a) ∈ table)
    (size : (writeFields table.fields).length < 2 ^ 64)
    (each : ∀ b ∈ a, (write b).length < 2 ^ 64 → read (write b) = some b) :
    readOptional read (optionalMessage write a) = some a :=
  readOptional_optionalMessage fun b mem =>
    each b mem (Nat.lt_of_le_of_lt (part_le entry (Option.mem_toList.2 mem)) size)

/-- **A message is read back** when its reader takes back its table's fields. -/
theorem FieldTable.read_write {table : FieldTable} {read : List Field → Option α} {a : α} (fits : table.Fits)
    (size : (writeFields table.fields).length < 2 ^ 64) (takes : read table.fields = some a) :
    (readFields (writeFields table.fields)).bind read = some a := by
  rw [readFields_writeFields, Option.bind_some, takes]
  intro field mem
  have short : ∀ bs, field.payload = .bytes bs → bs.length < 2 ^ 64 := by
    intro bs is
    have there : (⟨field.number, .bytes bs⟩ : Field) ∈ table.fields := is ▸ mem
    exact Nat.lt_of_le_of_lt (length_le_writeFields there) size
  obtain ⟨entry, there, mem⟩ := List.mem_flatMap.1 mem
  obtain ⟨payload, here, rfl⟩ := List.mem_map.1 mem
  obtain ⟨number, scalars⟩ := fits entry there
  refine ⟨number, ?_⟩
  cases payload with
  | varint v => exact scalars v here
  | bytes bs => exact short bs rfl

theorem uint64_fits {v w : Nat} (fits : v < 2 ^ 64) (mem : .varint w ∈ uint64 v) : w < 2 ^ 64 := by
  unfold uint64 at mem
  split at mem
  · cases mem
  · obtain rfl := Payload.varint.inj (List.mem_singleton.1 mem)
    exact fits

theorem int64_fits {i : Int} {w : Nat} (mem : .varint w ∈ int64 i) : w < 2 ^ 64 := uint64_fits (twos_lt i) mem

theorem bool_fits {b : Bool} {w : Nat} (mem : .varint w ∈ bool b) : w < 2 ^ 64 := by
  apply uint64_fits _ mem
  cases b <;> decide

theorem packed_fits {vs : List Nat} {w : Nat} (mem : .varint w ∈ packed vs) : w < 2 ^ 64 := by
  unfold packed at mem
  split at mem <;> simp at mem

theorem repeated_fits {write : α → List UInt8} {as : List α} {w : Nat} (mem : .varint w ∈ repeated write as) :
    w < 2 ^ 64 := by
  simp [repeated] at mem

theorem optionalMessage_fits {write : α → List UInt8} {a : Option α} {w : Nat}
    (mem : .varint w ∈ optionalMessage write a) : w < 2 ^ 64 := repeated_fits mem

end Lib
