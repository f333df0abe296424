import JemallocPprof.Cast
import JemallocPprof.StackProfile
import JemallocPprof.StringTable
import JemallocPprof.Wire

/-!
# `StackProfile::to_pprof_proto`

The converter fills four tables while it walks the stacks: strings, mappings,
locations and functions. `Builder` is its state (the tables of the unfinished
profile and the two maps that cache ids); each closure and each loop body of
the source is a function from state to state.
-/

namespace JemallocPprof
set_option autoImplicit false

/-- `strings`, `profile`, `location_ids` and `function_ids`. -/
structure Builder where
  strings : StringTable
  mapping : List Proto.Mapping
  location : List Proto.Location
  function : List Proto.Function
  sample : List Proto.Sample
  locationIds : Std.TreeMap UInt64 Nat
  functionIds : Std.TreeMap String Nat

/-- The first mapping that contains `addr`, with its index. -/
def mappingInfo (mappings : List Mapping) (addr : UInt64) : Option (Mapping × Nat) :=
  mappings.zipIdx.find? fun (mapping, _) => mapping.memoryStart ≤ addr && mapping.memoryEnd > addr

/-- Convert a runtime address to a file-relative address. -/
def fileRelativeAddr (overflowChecks : Bool) (mappingInfo : Option (Mapping × Nat)) (addr : UInt64) :
    Except Panic UInt64 :=
  match mappingInfo with
  | some (mapping, _) => do
    let inMapping ← u64Sub overflowChecks addr mapping.memoryStart
    u64Add overflowChecks inMapping mapping.memoryOffset
  | none => .ok addr

namespace Builder

/-- `build_id_idx`: index 0, the empty string, when there is no build id. -/
def buildIdIdx (strings : StringTable) (buildId : Option BuildId) : Except Panic (Nat × StringTable) :=
  match buildId with
  | some buildId => strings.insert buildId.toString
  | none => .ok (0, strings)

/-- The body of the loop over `self.mappings`. -/
def pushMapping (b : Builder) (entry : Mapping × Nat) : Except Panic Builder := do
  let (mapping, mappingId) := entry
  let pathname := Lib.fromUtf8Lossy mapping.pathname
  let (filenameIdx, strings) ← b.strings.insert pathname
  let (buildIdIdx, strings) ← buildIdIdx strings mapping.buildId
  .ok { b with
    strings
    mapping := b.mapping ++ [{
      id := mappingId
      memoryStart := 0
      memoryLimit := 0xFFFFFFFFFFFFFFFF
      fileOffset := 0
      filename := filenameIdx
      buildId := buildIdIdx
      hasFunctions := false
      hasFilenames := false
      hasLineNumbers := false
      hasInlineFrames := false }] }

/-- `if let Some(ref mut mapping) = mapping { f(mapping) }`. -/
def updateMapping (b : Builder) (mapping : Option Nat) (f : Proto.Mapping → Proto.Mapping) : Builder :=
  match mapping with
  | some idx => { b with mapping := b.mapping.modify idx f }
  | none => b

/-- `function_ids.entry(function_name).or_insert_with_key(..)`. -/
def functionId (b : Builder) (mapping : Option Nat) (symbol : Symbol) (symbolName : SymbolName)
    (lineno : Nat) : Except Panic (Nat × Builder) :=
  let functionName := symbolName.demangled
  match b.functionIds[functionName]? with
  | some functionId => .ok (functionId, b)
  | none => do
    let functionId := b.function.length + 1
    let systemName := Lib.fromUtf8Lossy symbolName.bytes
    let filename := (symbol.filename.map Lib.fromUtf8Lossy).getD ""
    let b := b.updateMapping mapping fun m => { m with
      hasFunctions := true
      hasFilenames := m.hasFilenames || filename != ""
      hasLineNumbers := m.hasLineNumbers || decide (lineno > 0) }
    let (nameIdx, strings) ← b.strings.insert functionName
    let (systemNameIdx, strings) ← strings.insert systemName
    let (filenameIdx, strings) ← strings.insert filename
    .ok (functionId, { b with
      strings
      function := b.function ++ [{
        id := functionId
        name := nameIdx
        systemName := systemNameIdx
        filename := filenameIdx }]
      functionIds := b.functionIds.insert functionName functionId })

/-- The callback of `backtrace::resolve`; the state includes the lines so far. -/
def pushLine (mapping : Option Nat) (state : Builder × List Proto.Line) (symbol : Symbol) :
    Except Panic (Builder × List Proto.Line) :=
  let (b, line) := state
  match symbol.name with
  | none => .ok (b, line)
  | some symbolName => do
    let lineno := (symbol.lineno.map UInt32.toNat).getD 0
    let (functionId, b) ← b.functionId mapping symbol symbolName lineno
    let line := line ++ [{ functionId, line := lineno }]
    let b := b.updateMapping mapping fun m =>
      { m with hasInlineFrames := m.hasInlineFrames || decide (line.length > 1) }
    .ok (b, line)

/-- `location_ids.entry(file_relative_addr).or_insert_with(..)`. -/
def locationId (env : Env) (b : Builder) (mappingInfo : Option (Mapping × Nat))
    (addr fileRelativeAddr : UInt64) : Except Panic (Nat × Builder) :=
  match b.locationIds[fileRelativeAddr]? with
  | some id => .ok (id, b)
  | none => do
    let id := b.location.length + 1
    -- `get_mut(idx)`, the index of a message that exists
    let mapping := (mappingInfo.map Prod.snd).filter (· < b.mapping.length)
    let (b, line) ← (env.resolve addr).foldlM (pushLine mapping) (b, [])
    .ok (id, { b with
      location := b.location ++ [{
        id
        mappingId := ((mapping.bind (b.mapping[·]?)).map Proto.Mapping.id).getD 0
        address := fileRelativeAddr
        line }]
      locationIds := b.locationIds.insert fileRelativeAddr id })

/-- The body of the loop over `stack.addrs`. -/
def pushFrame (env : Env) (mappings : List Mapping) (annoKey : String) (anno : Option String)
    (state : Builder × Proto.Sample) (addr : UInt64) : Except Panic (Builder × Proto.Sample) := do
  let (b, sample) := state
  let addr ← u64Sub env.overflowChecks addr 1
  let mappingInfo := mappingInfo mappings addr
  let fileRelativeAddr ← fileRelativeAddr env.overflowChecks mappingInfo addr
  let (locId, b) ← b.locationId env mappingInfo addr fileRelativeAddr
  let sample := { sample with locationId := sample.locationId ++ [locId] }
  match anno with
  | some anno => do
    let (key, strings) ← b.strings.insert annoKey
    let (str, strings) ← strings.insert anno
    .ok ({ b with strings }, { sample with label := sample.label ++ [{ key, str }] })
  | none => .ok (b, sample)

/-- The body of the loop over `self.iter()`. -/
def pushSample {F : Type} [F64Cast F] (env : Env) (mappings : List Mapping) (annoKey : String)
    (b : Builder) (item : WeightedStack F × Option String) : Except Panic Builder := do
  let (stack, anno) := item
  let value ← expect "no exabyte heap sizes" (i64TryCastFrom (F64Cast.trunc stack.weight))
  let sample : Proto.Sample := { locationId := [], value := [value], label := [] }
  let (b, sample) ← stack.addrs.reverse.foldlM (pushFrame env mappings annoKey anno) (b, sample)
  .ok { b with sample := b.sample ++ [sample] }

end Builder

/-- `to_pprof_proto`. -/
def toPprofProto {F : Type} [F64Cast F] (env : Env) (self : StackProfile F)
    (sampleType periodType : String × String) (annoKey : Option String) :
    Except Panic Proto.Profile := do
  let annoKey := annoKey.getD "annotation"
  let (sampleTypeIdx, strings) ← StringTable.new.insert sampleType.1
  let (sampleUnitIdx, strings) ← strings.insert sampleType.2
  let (periodTypeIdx, strings) ← strings.insert periodType.1
  let (periodUnitIdx, strings) ← strings.insert periodType.2
  let timeNanos ← env.timeNanos
  let b : Builder := ⟨strings, [], [], [], [], ∅, ∅⟩
  let b ← (self.mappings.zipIdx 1).foldlM Builder.pushMapping b
  let b ← self.forEach (Builder.pushSample env self.mappings annoKey) b
  .ok {
    sampleType := [{ type := sampleTypeIdx, unit := sampleUnitIdx }]
    sample := b.sample
    mapping := b.mapping
    location := b.location
    function := b.function
    stringTable := b.strings.finish
    timeNanos
    periodType := some { type := periodTypeIdx, unit := periodUnitIdx } }

/-- `to_pprof`, with the compression of `GzEncoder`; writing to a vector never fails. -/
def toPprof {F : Type} [F64Cast F] (env : Env) (gzip : Bytes → Bytes) (self : StackProfile F)
    (sampleType periodType : String × String) (annoKey : Option String) : Except Panic Bytes := do
  let profile ← toPprofProto env self sampleType periodType annoKey
  let encoded ← profile.encodeToVec
  .ok (gzip encoded)

end JemallocPprof
