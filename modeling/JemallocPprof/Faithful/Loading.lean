import JemallocPprof.Faithful.BuildIds
import JemallocPprof.Faithful.Frames
import JemallocPprof.Faithful.Rebasing
import Mathlib.Data.List.Pairwise

/-!
# From the loader to the mappings

`dl_iterate_phdr` hands the objects to a callback that keeps its results in a
state and can stop the iteration. What comes of it is a traversal: the first
object is recorded under what `current_exe` finds, of the others those without a
name are left out, and each of the rest gives an object
(`collectSharedObjects_eq`). So `MAPPINGS` has one mapping for each loaded
segment of the process, with the path recorded and the build id of its object
(`mappings_loaded`). When no two segments overlap, an address
is attributed to its own segment and rebased to its own object
(`addresses_attributed`).
-/

namespace JemallocPprof
set_option autoImplicit false
open Lib

/-- The objects that are recorded, each with its path. -/
def recorded {α : Type} (name : α → Option Bytes) (exe : Bytes) : List α → List (Bytes × α)
  | [] => []
  | first :: rest => (exe, first) :: rest.filterMap fun other => (name other).map fun path => (path, other)

theorem recorded_map {α β : Type} (f : β → α) (name : α → Option Bytes) (exe : Bytes) (bs : List β) :
    recorded name exe (bs.map f) = (recorded (name ∘ f) exe bs).map (Prod.map id f) := by
  cases bs with
  | nil => rfl
  | cons first rest =>
    simp only [List.map_cons, recorded, List.filterMap_map, List.map_filterMap, Option.map_map]
    rfl

section
variable {checks : Bool} {memory : Memory} {fuel : Nat}

/-- The path of the program is what `dladdr` answers in UTF-8, or else what
`std::env::current_exe` does. -/
theorem currentExe_ok {answers : ExeAnswers} {exe : Bytes} : currentExe answers = .ok exe ↔
    (answers.dladdr = some exe ∧ (fromUtf8 exe).isSome = true) ∨
      ((∀ progname ∈ answers.dladdr, fromUtf8 progname = none) ∧ answers.envCurrentExe = .ok exe) := by
  unfold currentExe currentExeFromDladdr
  cases answers.dladdr with
  | none => simp
  | some progname =>
    cases text : fromUtf8 progname with
    | none =>
      simp only [text, Option.isSome_none, Bool.false_eq_true, if_false, mapError_ok, Option.some.injEq]
      constructor
      · exact fun found => .inr ⟨fun _ same => Option.some.inj same ▸ text, found⟩
      · rintro (⟨rfl, valid⟩ | ⟨-, found⟩)
        · rw [text] at valid
          cases valid
        · exact found
    | some valid =>
      simp only [text, Option.isSome_some, if_true, Except.ok.injEq, Option.some.injEq]
      constructor
      · rintro rfl
        exact .inl ⟨rfl, by rw [text]; rfl⟩
      · rintro (⟨same, -⟩ | ⟨invalid, -⟩)
        · exact same
        · cases text.symm.trans (invalid progname rfl)

/-- What the callback makes of an object with a path. -/
def recordedObject (checks : Bool) (memory : Memory) (fuel : Nat) (entry : Bytes × DlPhdrInfo) :
    Except (Stop Crash) SharedObject := externC do
  let walked ← walkHeaders checks memory entry.2 fuel
  .ok ⟨entry.2.dlpiAddr, entry.1, walked.buildId, walked.loadedSegments⟩

/-- A callback for an object with a path. -/
theorem iterateCb_named {answers : ExeAnswers} {info : DlPhdrInfo} {path : Bytes}
    {objects : List SharedObject} (named : pathName answers info ⟨.ok objects⟩ = .ok (some path)) :
    externC (iterateCb checks answers memory info ⟨.ok objects⟩ fuel) =
      (recordedObject checks memory fuel (path, info)).map fun object =>
        (CB_RESULT_OK, ⟨.ok (objects ++ [object])⟩) := by
  simp only [iterateCb, named, recordedObject]
  cases walkHeaders checks memory info fuel <;> rfl

/-- After the first object the names decide. -/
theorem pathName_later (answers : ExeAnswers) (info : DlPhdrInfo) {objects : List SharedObject}
    (more : objects ≠ []) : pathName answers info ⟨.ok objects⟩ = .ok info.dlpiName := by
  cases objects with
  | nil => exact absurd rfl more
  | cons object objects => rfl

variable (checks memory fuel) in
/-- **The later objects.** -/
theorem iterate_later (answers : ExeAnswers) (infos : List DlPhdrInfo) {objects : List SharedObject}
    (more : objects ≠ []) :
    dlIteratePhdr (fun info state => externC (iterateCb checks answers memory info state fuel)) infos ⟨.ok objects⟩ =
      ((infos.filterMap fun info => info.dlpiName.map fun name => (name, info)).mapM
        (recordedObject checks memory fuel)).map fun later => ⟨.ok (objects ++ later)⟩ := by
  induction infos generalizing objects with
  | nil => simp [dlIteratePhdr, pure, Except.pure, Except.map]
  | cons info infos ih =>
    have path := pathName_later answers info more
    rw [dlIteratePhdr]
    cases name : info.dlpiName with
    | none =>
      rw [List.filterMap_cons_none (by rw [name, Option.map_none]), ← ih more]
      rw [name] at path
      simp only [iterateCb, path]
      rfl
    | some name' =>
      rw [List.filterMap_cons_some (by rw [name, Option.map_some]), List.mapM_cons]
      rw [name] at path
      rw [iterateCb_named path]
      cases recordedObject checks memory fuel (name', info) with
      | error stop => rfl
      | ok object =>
        have next := @ih (objects ++ [object]) (by simp)
        simp only [Except.map, ok_bind]
        rw [if_pos (show CB_RESULT_OK = 0 from rfl), next]
        cases List.mapM (recordedObject checks memory fuel) _ with
        | error stop => rfl
        | ok later => simp [Except.map, pure, Except.pure, bind, Except.bind]

/-- **The iteration is a traversal** of the objects recorded. -/
theorem collectSharedObjects_eq (checks : Bool) {answers : ExeAnswers} {exe : Bytes}
    (known : currentExe answers = .ok exe) (memory : Memory) (infos : List DlPhdrInfo) (fuel : Nat) :
    collectSharedObjects checks answers memory infos fuel =
      ((recorded DlPhdrInfo.dlpiName exe infos).mapM (recordedObject checks memory fuel)).map .ok := by
  cases infos with
  | nil => rfl
  | cons first rest =>
    have path : pathName answers first ⟨.ok []⟩ = .ok (some exe) := by
      simp only [pathName, known]
      rfl
    rw [collectSharedObjects, dlIteratePhdr, iterateCb_named path, recorded, List.mapM_cons]
    cases recordedObject checks memory fuel (exe, first) with
    | error stop => rfl
    | ok object =>
      have later := iterate_later checks memory fuel answers rest (List.cons_ne_nil object [])
      simp only [Except.map, ok_bind, List.nil_append]
      rw [if_pos (show CB_RESULT_OK = 0 from rfl), later]
      cases List.mapM (recordedObject checks memory fuel) _ with
      | error stop => rfl
      | ok later => simp [Except.map, pure, Except.pure, bind, Except.bind]

/-- Without the path of the executable the iteration ends at its first object. -/
theorem collectSharedObjects_no_exe (checks : Bool) {answers : ExeAnswers} {source : ExeError}
    (unknown : currentExe answers = .error source) (memory : Memory) {infos : List DlPhdrInfo}
    (some_object : infos ≠ []) (fuel : Nat) :
    collectSharedObjects checks answers memory infos fuel =
      .ok (.error ⟨"failed to read the name of the current executable", source⟩) := by
  cases infos with
  | nil => exact absurd rfl some_object
  | cons first rest =>
    have path : pathName answers first ⟨.ok []⟩ =
        .error ⟨"failed to read the name of the current executable", source⟩ := by
      simp only [pathName, unknown]
      rfl
    simp only [collectSharedObjects, dlIteratePhdr, iterateCb, path]
    rfl

end

/-! ## The process -/

/-- An object of the process, with the notes that its headers hold. -/
structure Image (memory : Memory) where
  info : DlPhdrInfo
  segments : List (ProgramHeader × List Note)
  headers : info.dlpiPhdr = segments.map Prod.fst
  holds : ∀ entry ∈ segments, HoldsNotes memory info.dlpiAddr entry.1 entry.2
  one : (buildIdNotes (segments.flatMap Prod.snd)).length ≤ 1

/-- A loaded segment of an object at a path. -/
structure Part (memory : Memory) where
  path : Bytes
  image : Image memory
  ph : ProgramHeader

section
variable {memory : Memory}

def Image.name (image : Image memory) : Option Bytes := image.info.dlpiName

/-- The desc of the note that has one. -/
def Image.buildId (image : Image memory) : Option BuildId :=
  (buildIdNotes (image.segments.flatMap Prod.snd)).head?.map fun n => ⟨n.desc⟩

/-- The loaded segments of the objects that are recorded. -/
def parts (exe : Bytes) (images : List (Image memory)) : List (Part memory) :=
  (recorded Image.name exe images).flatMap fun entry =>
    (entry.2.info.dlpiPhdr.filter fun ph => ph.pType = PT_LOAD).map (Part.mk entry.1 entry.2)

/-- Where the segment begins; the offset is negative on very old systems. -/
def Part.start (part : Part memory) : UInt64 := part.image.info.dlpiAddr + part.ph.pVaddr

/-- The address is inside the segment. -/
def Part.Holds (part : Part memory) (addr : UInt64) : Prop :=
  part.start ≤ addr ∧ addr.toNat < part.start.toNat + part.ph.pMemsz.toNat

instance (part : Part memory) (addr : UInt64) : Decidable (part.Holds addr) := inferInstanceAs (Decidable (_ ∧ _))

/-- The segment's end is a u64. -/
def Part.Ends (part : Part memory) : Prop := part.start.toNat + part.ph.pMemsz.toNat < 2 ^ 64

instance (part : Part memory) : Decidable part.Ends := inferInstanceAs (Decidable (_ < _))

def Part.mapping (part : Part memory) : Mapping where
  memoryStart := part.start
  memoryEnd := part.start + part.ph.pMemsz
  memoryOffset := part.ph.pVaddr
  fileOffset := part.ph.pOffset
  pathname := part.path
  buildId := part.image.buildId

/-- No two segments hold one address. -/
def Apart (parts : List (Part memory)) : Prop :=
  parts.Pairwise fun part other => ∀ addr, part.Holds addr → ¬other.Holds addr

/-- The objects that are recorded. -/
def objectsOf (exe : Bytes) (images : List (Image memory)) : List SharedObject :=
  (recorded Image.name exe images).map fun entry =>
    entry.2.info.object entry.1 (entry.2.segments.flatMap Prod.snd)

theorem segmentsOf_objectsOf (exe : Bytes) (images : List (Image memory)) :
    segmentsOf (objectsOf exe images) = (parts exe images).map fun part =>
      (part.image.info.object part.path (part.image.segments.flatMap Prod.snd), part.ph.segment) := by
  simp only [segmentsOf, objectsOf, parts, DlPhdrInfo.object, List.flatMap_map, List.map_flatMap, List.map_map]
  rfl

variable {checks : Bool} {answers : ExeAnswers} {exe : Bytes} {images : List (Image memory)}

/-- An image gives its object. -/
theorem Image.returns (checks : Bool) (path : Bytes) (image : Image memory) :
    Returns (fun fuel => recordedObject checks memory fuel (path, image.info))
      (image.info.object path (image.segments.flatMap Prod.snd)) := by
  obtain ⟨walked, run, reached⟩ := walkHeaders_returns checks image.headers image.holds
  have object : (⟨image.info.dlpiAddr, path, walked.buildId, walked.loadedSegments⟩ : SharedObject) =
      image.info.object path (image.segments.flatMap Prod.snd) := by
    rw [DlPhdrInfo.object, image.headers, reached.buildId image.one, reached.loadedSegments]
  rw [← object]
  have made : Returns (fun fuel => walkHeaders checks memory image.info fuel >>= fun walked =>
      .ok (⟨image.info.dlpiAddr, path, walked.buildId, walked.loadedSegments⟩ : SharedObject)) _ := run.bind (.ok _)
  exact made.mapError _

theorem collectSharedObjects_images (checks : Bool) (known : currentExe answers = .ok exe)
    (images : List (Image memory)) :
    Returns (collectSharedObjects checks answers memory (images.map Image.info)) (.ok (objectsOf exe images)) := by
  have each : List.Forall₂ (fun entry object => Returns (fun fuel => recordedObject checks memory fuel entry) object)
      (recorded DlPhdrInfo.dlpiName exe (images.map Image.info)) (objectsOf exe images) := by
    rw [recorded_map, objectsOf, List.forall₂_map_left_iff, List.forall₂_map_right_iff]
    exact List.forall₂_same.2 fun entry _ => entry.2.returns checks entry.1
  obtain ⟨enough, run⟩ := Returns.mapM each
  refine ⟨enough, fun fuel le => ?_⟩
  rw [collectSharedObjects_eq checks known]
  exact congrArg (Except.map Except.ok) (run fuel le)

/-- What remains once the objects are collected. -/
theorem MAPPINGS_images (checks : Bool) (known : currentExe answers = .ok exe) (images : List (Image memory)) :
    ∃ enough, ∀ fuel, enough ≤ fuel → MAPPINGS checks answers memory (images.map Image.info) fuel =
      (lift ((buildMappings checks (objectsOf exe images)).mapError Crash.unwind)).map some := by
  obtain ⟨enough, run⟩ := collectSharedObjects_images checks known images
  refine ⟨enough, fun fuel le => ?_⟩
  rw [MAPPINGS, run fuel le, ok_bind]
  dsimp only
  cases lift ((buildMappings checks (objectsOf exe images)).mapError Crash.unwind) <;> rfl

/-- The mappings are those of the segments. -/
theorem built_parts {mappings : List Mapping} (built : buildMappings checks (objectsOf exe images) = .ok mappings) :
    mappings = (parts exe images).map Part.mapping := by
  rw [buildMappings_ok built, segmentsOf_objectsOf, List.map_map]
  rfl

theorem built_of_loaded {result : Option (List Mapping)} (known : currentExe answers = .ok exe)
    (loaded : Returns (MAPPINGS checks answers memory (images.map Image.info)) result) :
    ∃ mappings, result = some mappings ∧ buildMappings checks (objectsOf exe images) = .ok mappings := by
  obtain ⟨n, loaded⟩ := loaded
  obtain ⟨m, run⟩ := MAPPINGS_images checks known images
  have both := (run _ (Nat.le_max_right n m)).symm.trans (loaded _ (Nat.le_max_left n m))
  cases built : buildMappings checks (objectsOf exe images) with
  | error panic =>
    rw [built] at both
    cases both
  | ok mappings =>
    rw [built] at both
    cases both
    exact ⟨mappings, rfl, rfl⟩

/-- **`MAPPINGS`** has one mapping for each loaded segment of the objects that are
recorded, in order, with the path recorded and the build id of the object. It
stops only where somebody checks that the end of each is a u64, and one is not;
and it is `None` when no path is found for the program. That is the one `dladdr`
answers, if it is UTF-8, and otherwise the one of `std::env::current_exe`. -/
theorem mappings_loaded (checks : Bool) (answers : ExeAnswers) (images : List (Image memory)) :
    (∀ exe, currentExe answers = .ok exe →
      ∀ result, Returns (MAPPINGS checks answers memory (images.map Image.info)) result ↔
        (checks = true → ∀ part ∈ parts exe images, part.Ends) ∧
          result = some ((parts exe images).map Part.mapping)) ∧
    (∀ source, currentExe answers = .error source → ∀ infos, infos ≠ [] → ∀ fuel,
      MAPPINGS checks answers memory infos fuel = .ok none) ∧
    ∀ exe, currentExe answers = .ok exe ↔
      (answers.dladdr = some exe ∧ (fromUtf8 exe).isSome = true) ∨
        ((∀ progname ∈ answers.dladdr, fromUtf8 progname = none) ∧ answers.envCurrentExe = .ok exe) := by
  refine ⟨?_, ?_, fun exe => currentExe_ok⟩
  · intro exe known result
    have ends : (checks = true → ∀ part ∈ parts exe images, part.Ends) ↔
        ∃ mappings, buildMappings checks (objectsOf exe images) = .ok mappings := by
      rw [buildMappings_returns, segmentsOf_objectsOf]
      simp only [List.forall_mem_map]
      rfl
    rw [ends]
    constructor
    · intro loaded
      obtain ⟨mappings, rfl, built⟩ := built_of_loaded known loaded
      exact ⟨⟨mappings, built⟩, congrArg some (built_parts built)⟩
    · rintro ⟨⟨mappings, built⟩, rfl⟩
      obtain ⟨enough, run⟩ := MAPPINGS_images checks known images
      refine ⟨enough, fun fuel le => ?_⟩
      rw [run fuel le, built, ← built_parts built]
      rfl
  · intro source unknown infos some_object fuel
    rw [MAPPINGS, collectSharedObjects_no_exe checks unknown memory some_object fuel]
    rfl

end

/-- An object with one loaded segment and no notes. -/
def Image.plain (memory : Memory) (dlpiAddr : UInt64) (dlpiName : Option Bytes) : Image memory where
  info := ⟨dlpiAddr, dlpiName, [⟨PT_LOAD, 0, 0, 0x1000⟩]⟩
  segments := [(⟨PT_LOAD, 0, 0, 0x1000⟩, [])]
  headers := rfl
  holds := List.forall_mem_singleton.2 ⟨fun note => absurd note (by decide), fun _ => rfl⟩
  one := by decide

/-- The memory of the object with two notes. -/
def noteMemory : Memory := memoryOf 0x10200 (abiTag.bytes ++ shortBuildId.core)

/-- A program with a build id, a library and an object without a name. -/
def threeImages : List (Image noteMemory) :=
  [⟨⟨0x10000, some [], twoNotes.map Prod.fst⟩, twoNotes, rfl, twoNotes_held, by decide⟩,
    .plain noteMemory 0x40000 (some [0x62]), .plain noteMemory 0x80000 none]

/-- The mappings of the program and the library. -/
def twoMappings : List Mapping :=
  [⟨0x10000, 0x11000, 0, 0, [0x61], some ⟨[0xAB, 0xCD]⟩⟩, ⟨0x40000, 0x41000, 0, 0, [0x62], none⟩]

/-- The program found by `dladdr`, by `std::env::current_exe`, and not at all. -/
theorem threeImages_loaded :
    Returns (MAPPINGS true ⟨some [0x61], .error ""⟩ noteMemory (threeImages.map Image.info)) (some twoMappings) ∧
      Returns (MAPPINGS true ⟨some [0xFF], .ok [0x61]⟩ noteMemory (threeImages.map Image.info)) (some twoMappings) ∧
      MAPPINGS true ⟨none, .error "not found"⟩ noteMemory (threeImages.map Image.info) 0 = .ok none := by
  refine ⟨?_, ?_, ?_⟩
  · exact ((mappings_loaded true ⟨some [0x61], .error ""⟩ threeImages).1 [0x61] (by decide +kernel) _).2
      ⟨fun _ => by decide, by decide⟩
  · exact ((mappings_loaded true ⟨some [0xFF], .ok [0x61]⟩ threeImages).1 [0x61] (by decide +kernel) _).2
      ⟨fun _ => by decide, by decide⟩
  · exact (mappings_loaded true ⟨none, .error "not found"⟩ threeImages).2.1 _ rfl _ (by decide) 0

/-! ## Attribution -/

section
variable {memory : Memory} {checks : Bool} {answers : ExeAnswers} {exe : Bytes} {images : List (Image memory)}

theorem Part.mapping_holds {part : Part memory} {addr : UInt64} (start : part.mapping.memoryStart ≤ addr)
    (below : addr < part.mapping.memoryEnd) : part.Holds addr := by
  refine ⟨start, ?_⟩
  have := UInt64.lt_iff_toNat_lt.1 below
  simp only [Part.mapping, UInt64.toNat_add] at this
  omega

theorem Part.holds_mapping {part : Part memory} {addr : UInt64} (ends : part.Ends) (held : part.Holds addr) :
    part.mapping.memoryStart ≤ addr ∧ addr < part.mapping.memoryEnd := by
  refine ⟨held.1, UInt64.lt_iff_toNat_lt.2 ?_⟩
  have := held.2
  unfold Part.Ends at ends
  simp only [Part.mapping, UInt64.toNat_add]
  omega

/-- Where segments are apart the one that holds an address is found. -/
theorem mappingInfo_parts {part : Part memory} {addr : UInt64} (apart : Apart (parts exe images))
    (mem : part ∈ parts exe images) (ends : part.Ends) (held : part.Holds addr) :
    ∃ idx, mappingInfo ((parts exe images).map Part.mapping) addr = some (part.mapping, idx) := by
  obtain ⟨start, below⟩ := part.holds_mapping ends held
  have somewhere : (mappingInfo ((parts exe images).map Part.mapping) addr).isSome := by
    obtain ⟨idx, there⟩ := List.mem_iff_getElem?.1 (List.mem_map_of_mem (f := Part.mapping) mem)
    rw [mappingInfo, List.find?_isSome]
    exact ⟨(part.mapping, idx), List.mem_zipIdx_iff_getElem?.2 there, by simp [start, below]⟩
  obtain ⟨⟨m, idx⟩, found⟩ := Option.isSome_iff_exists.1 somewhere
  obtain ⟨there, start', below'⟩ := mappingInfo_some found
  rw [List.getElem?_map] at there
  obtain ⟨other, at_idx, rfl⟩ := Option.map_eq_some_iff.1 there
  have at_other := List.mem_of_getElem? at_idx
  have one : other = part := by
    by_contra two
    have symm : Std.Symm fun part other : Part memory => ∀ addr, part.Holds addr → ¬other.Holds addr :=
      ⟨fun _ _ h addr held' held => h addr held held'⟩
    exact apart.forall at_other mem two addr (other.mapping_holds start' below') held
  exact ⟨idx, one ▸ found⟩

/-- Where a stack holds the return address, its location is in the segment's
file: with the address there, and the object's path and build id. -/
def AttributedTo {F : Type} (profile : StackProfile F) (p : Proto.Profile) (r : UInt64) (part : Part memory) :
    Prop :=
  List.Forall₂ (fun sample stack => List.Forall₂ (fun id addr => addr = r → ∃ loc pm,
    p.locationOf id = some loc ∧ loc.address = r - 1 - part.image.info.dlpiAddr ∧
    p.mappingOf loc.mappingId = some pm ∧ Reads p.stringTable pm.filename (fromUtf8Lossy part.path) ∧
    Reads p.stringTable pm.buildId part.mapping.buildIdText)
    sample.locationId stack.addrs.reverse) p.sample (profile.stacks.map Prod.fst)

/-- The frame of a return address is in the file of its segment. -/
theorem frameOf_part {part : Part memory} {r : UInt64} {idx : Nat} {mappings : List Mapping}
    (found : mappingInfo mappings (r - 1) = some (part.mapping, idx)) :
    (frameOf mappings r).address = r - 1 - part.image.info.dlpiAddr ∧
      (frameOf mappings r).mapping = some idx ∧ mappings[idx]? = some part.mapping := by
  have segment : part.mapping = (part.image.info.object part.path (part.image.segments.flatMap Prod.snd)).mapping
    part.ph.segment := rfl
  refine ⟨?_, ?_, (mappingInfo_some found).1⟩
  · rw [frameOf, found, segment]
    show rebased (some (_, idx)) (r - 1) = _
    exact rebased_segment (r - 1)
  · rw [frameOf, found]
    rfl

/-- **Attribution.** When no two segments of the process hold one address, a
call inside a segment is found in that segment's mapping. Every conversion
rebases it to the segment's object; and unless frames of one address lie in
different mappings, it refers the call to the object's path and build id. -/
theorem addresses_attributed {part : Part memory} {mappings : List Mapping} {r : UInt64}
    (known : currentExe answers = .ok exe)
    (loaded : Returns (MAPPINGS checks answers memory (images.map Image.info)) (some mappings))
    (apart : Apart (parts exe images)) (mem : part ∈ parts exe images) (ends : part.Ends)
    (held : part.Holds (r - 1)) :
    (∃ idx, mappingInfo mappings (r - 1) = some (part.mapping, idx)) ∧
    ∀ {F : Type} [F64Cast F] (env : Env) (profile : StackProfile F) (sampleType periodType : String × String)
      (annoKey : Option String) (p : Proto.Profile), profile.mappings = mappings →
      toPprofProto env profile sampleType periodType annoKey = .ok p →
        AddressedAt profile p r (r - 1 - part.image.info.dlpiAddr) ∧
        ((∀ f ∈ profile.frames, ∀ g ∈ profile.frames, f.address = g.address → f.mapping = g.mapping) →
          AttributedTo profile p r part) := by
  obtain ⟨_, ⟨⟩, built⟩ := built_of_loaded known loaded
  rw [built_parts built]
  obtain ⟨idx, found⟩ := mappingInfo_parts apart mem ends held
  obtain ⟨address, mapping, there⟩ := frameOf_part found
  refine ⟨⟨idx, found⟩, ?_⟩
  intro F cast env profile sampleType periodType annoKey p here run
  constructor
  · have located := addressedAt_of_run run r
    rwa [here, address] at located
  · intro separate
    obtain ⟨items, annotated, h⟩ := toPprofProto_describes run
    refine (h.locations_faithful annotated separate).described.imp fun sample stack frames => ?_
    rw [framesOf, List.forall₂_map_right_iff] at frames
    refine frames.imp ?_
    rintro id _ ⟨loc, follow, described⟩ rfl
    rw [here] at described
    obtain ⟨-, m, pm, at_idx, follow', filename, buildId⟩ := described.mapped idx mapping
    obtain rfl := Option.some.inj (there.symm.trans at_idx)
    exact ⟨loc, pm, follow, described.address.trans address, follow', filename, buildId⟩

end

/-- Segments in order are apart. -/
theorem Part.apart_of_le {memory : Memory} {part other : Part memory}
    (le : part.start.toNat + part.ph.pMemsz.toNat ≤ other.start.toNat) (addr : UInt64) (held : part.Holds addr) :
    ¬other.Holds addr := by
  intro held'
  have := UInt64.le_iff_toNat_le.1 held'.1
  have := held.2
  omega

/-- A call in the program and one at another offset of the library. -/
def programAndLibrary : StackProfile (ExtNum ℤ) where
  annotations := []
  «stacks» := [(⟨[0x10101], .fin 8⟩, none), (⟨[0x40201, 0x10101], .fin 16⟩, none)]
  mappings := twoMappings

theorem program_known : currentExe ⟨some [0x61], .error ""⟩ = .ok [0x61] := by decide +kernel

theorem threeImages_mappings :
    Returns (MAPPINGS true ⟨some [0x61], .error ""⟩ noteMemory (threeImages.map Image.info))
      (some programAndLibrary.mappings) := by
  obtain ⟨enough, run⟩ := MAPPINGS_images true program_known threeImages
  exact ⟨enough, run⟩

theorem library_call_attributed : ∃ part ∈ parts [0x61] threeImages, part.path = [0x62] ∧ ∃ p,
    toPprofProto oneSymbol programAndLibrary ("inuse", "bytes") ("space", "bytes") none = .ok p ∧
    AddressedAt programAndLibrary p 0x40201 0x200 ∧ AttributedTo programAndLibrary p 0x40201 part := by
  obtain ⟨part, mem, path, ends, held, base⟩ : ∃ part ∈ parts [0x61] threeImages, part.path = [0x62] ∧ part.Ends ∧
      part.Holds (0x40201 - 1) ∧ part.image.info.dlpiAddr = 0x40000 := by decide
  have apart : Apart (parts [0x61] threeImages) :=
    List.Pairwise.imp Part.apart_of_le (by decide : (parts [0x61] threeImages).Pairwise fun part other =>
      part.start.toNat + part.ph.pMemsz.toNat ≤ other.start.toNat)
  obtain ⟨p, run⟩ := exists_ok (x := toPprofProto oneSymbol programAndLibrary ("inuse", "bytes")
    ("space", "bytes") none) (by decide +kernel)
  obtain ⟨-, attribution⟩ := addresses_attributed program_known threeImages_mappings apart mem ends held
  obtain ⟨address, attributed⟩ :=
    attribution oneSymbol programAndLibrary ("inuse", "bytes") ("space", "bytes") none p rfl run
  rw [base] at address
  exact ⟨part, mem, path, p, run, address, attributed (by decide +kernel)⟩

end JemallocPprof
