import JemallocPprof.StackProfile

/-!
# `SharedObject` and `build_mappings`

An object loaded into the process, with the segments the loader mapped. Every
segment becomes a mapping. On very old systems a segment's offset is negative,
as a wrapped usize, so its start is computed with wrapping addition; its end is
not.
-/

namespace JemallocPprof
set_option autoImplicit false
open Lib

/-- A segment of a shared object that's loaded into memory. -/
structure LoadedSegment where
  fileOffset : UInt64
  /-- Offset to the object's base address. -/
  memoryOffset : UInt64
  memorySize : UInt64
  deriving DecidableEq

structure SharedObject where
  baseAddress : UInt64
  pathName : Bytes
  buildId : Option BuildId
  loadedSegments : List LoadedSegment
  deriving DecidableEq

/-- The body of the loop over `object.loaded_segments`. -/
def pushSegment (overflowChecks : Bool) (object : SharedObject) (mappings : List Mapping)
    (segment : LoadedSegment) : Except Panic (List Mapping) := do
  let memoryStart := object.baseAddress + segment.memoryOffset
  let memoryEnd ← u64Add overflowChecks memoryStart segment.memorySize
  .ok (mappings ++ [{
    memoryStart
    memoryEnd
    memoryOffset := segment.memoryOffset
    fileOffset := segment.fileOffset
    pathname := object.pathName
    buildId := object.buildId }])

/-- Build a list of mappings for the passed shared objects. -/
def buildMappings (overflowChecks : Bool) (objects : List SharedObject) : Except Panic (List Mapping) :=
  objects.foldlM (fun mappings object =>
    object.loadedSegments.foldlM (pushSegment overflowChecks object) mappings) []

/-- The mapping of a segment whose end stays in u64. -/
def SharedObject.mapping (object : SharedObject) (segment : LoadedSegment) : Mapping where
  memoryStart := object.baseAddress + segment.memoryOffset
  memoryEnd := object.baseAddress + segment.memoryOffset + segment.memorySize
  memoryOffset := segment.memoryOffset
  fileOffset := segment.fileOffset
  pathname := object.pathName
  buildId := object.buildId

/-- The segment's end stays in u64. -/
def SharedObject.Fits (object : SharedObject) (segment : LoadedSegment) : Prop :=
  (object.baseAddress + segment.memoryOffset).toNat + segment.memorySize.toNat < 2 ^ 64

/-- The segments of all objects, each with its object. -/
def segmentsOf (objects : List SharedObject) : List (SharedObject × LoadedSegment) :=
  objects.flatMap fun object => object.loadedSegments.map (Prod.mk object)

section
variable {checks : Bool} {object : SharedObject} {objects : List SharedObject} {mappings mappings' : List Mapping}

theorem pushSegments_ok {segments : List LoadedSegment}
    (run : segments.foldlM (pushSegment checks object) mappings = .ok mappings') :
    mappings' = mappings ++ segments.map object.mapping := by
  refine foldlM_run (I := fun done pushed => pushed = mappings ++ done.map object.mapping) ?_ ?_ run
  · rw [List.map_nil, List.append_nil]
  · rintro done segment rest s s' - rfl step
    obtain ⟨memoryEnd, add, last⟩ := bind_ok.1 step
    obtain rfl := u64Add_ok add
    rw [← Except.ok.inj last, List.map_append, List.map_singleton, ← List.append_assoc]
    rfl

/-- **One mapping for each segment**, in order, with its object's path and build id. -/
theorem buildMappings_ok (built : buildMappings checks objects = .ok mappings) :
    mappings = (segmentsOf objects).map fun entry => entry.1.mapping entry.2 := by
  refine foldlM_run (I := fun done pushed =>
    pushed = (segmentsOf done).map fun entry => entry.1.mapping entry.2) rfl ?_ built
  rintro done object rest s s' - rfl step
  rw [pushSegments_ok step, segmentsOf, segmentsOf, List.flatMap_append, List.map_append,
    List.flatMap_singleton, List.map_map]
  rfl

/-- The mappings are built unless somebody checks and a segment ends past u64. -/
theorem buildMappings_returns : (∃ mappings, buildMappings checks objects = .ok mappings) ↔
    (checks = true → ∀ entry ∈ segmentsOf objects, entry.1.Fits entry.2) := by
  constructor
  · rintro ⟨mappings, run⟩ checked ⟨object, segment⟩ mem
    obtain ⟨_, inside, mem⟩ := List.mem_flatMap.1 mem
    obtain ⟨segment, here, ⟨⟩⟩ := List.mem_map.1 mem
    by_contra long
    refine foldlM_refused inside (fun s s' => foldlM_refused here (fun s s' step => long ?_) s s') [] mappings run
    obtain ⟨memoryEnd, add, -⟩ := bind_ok.1 step
    obtain rfl := u64Add_ok add
    exact u64Add_total.1 add checked
  · intro fit
    obtain ⟨mappings, run, -⟩ := foldlM_total (I := fun _ _ => True) objects (b := ([] : List Mapping))
      (f := fun mappings object => object.loadedSegments.foldlM (pushSegment checks object) mappings) trivial
      fun done object rest s split _ => by
        have inside : object ∈ objects := split ▸ by simp
        obtain ⟨s', run, -⟩ := foldlM_total (I := fun _ _ => True) object.loadedSegments (b := s)
          (f := pushSegment checks object) trivial
          fun done segment rest s split _ => by
            have mem : segment ∈ object.loadedSegments := split ▸ by simp
            have fits := fun checked =>
              fit checked (object, segment) (List.mem_flatMap.2 ⟨object, inside, List.mem_map_of_mem mem⟩)
            exact ⟨_, bind_ok.2 ⟨_, u64Add_total.2 fits, rfl⟩, trivial⟩
        exact ⟨s', run, trivial⟩
    exact ⟨mappings, run⟩

end

end JemallocPprof
