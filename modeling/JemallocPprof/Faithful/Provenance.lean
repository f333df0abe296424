import JemallocPprof.Faithful.Encoding
import JemallocPprof.Faithful.Loading
import JemallocPprof.Lib.Numeral

/-!
# What a file says of the objects

A consumer of the compressed profile symbolizes it offline: it looks an object
up by its path, and trusts what it finds by the build id. The mappings of the
file are the loaded segments of the process in order, and the texts there are
read back as the objects' paths and build ids. An object without a build id has
the empty text, which no build id has, since the loader's are not empty
(`objects_read_back`).
-/

namespace JemallocPprof
set_option autoImplicit false
open Lib

/-- The build id that a text stands for. -/
def buildIdOf (text : String) : Option BuildId :=
  if text = "" then none else (readHex text.toList).map BuildId.mk

theorem readHex_buildId (buildId : BuildId) : readHex buildId.toString.toList = some buildId.bytes := by
  rw [BuildId.toString, String.toList_ofList]
  exact readHex_hexDigits buildId.bytes

/-- Only an empty build id is written as the empty text. -/
theorem BuildId.toString_ne_empty {buildId : BuildId} (proper : buildId.bytes ≠ []) : buildId.toString ≠ "" := by
  intro empty
  have read := readHex_buildId buildId
  rw [empty] at read
  exact proper (Option.some.inj read).symm

/-- Texts of mappings are read back, where no build id is empty. -/
theorem buildIdOf_text {mapping : Mapping} (proper : ∀ buildId ∈ mapping.buildId, buildId.bytes ≠ []) :
    buildIdOf mapping.buildIdText = mapping.buildId := by
  unfold Mapping.buildIdText
  cases known : mapping.buildId with
  | none => rfl
  | some buildId =>
    have written := BuildId.toString_ne_empty (proper buildId known)
    rw [Option.map_some, Option.getD_some, buildIdOf, if_neg written, readHex_buildId]
    rfl

section
variable {memory : Memory} {checks : Bool} {answers : ExeAnswers} {exe : Bytes} {images : List (Image memory)}

/-- The build ids that are recorded are not empty. -/
theorem Image.buildId_proper (image : Image memory) : ∀ buildId ∈ image.buildId, buildId.bytes ≠ [] := by
  intro buildId known
  obtain ⟨note, first, rfl⟩ := Option.map_eq_some_iff.1 known
  have mem : note ∈ buildIdNotes _ := List.mem_of_mem_head? first
  exact (of_decide_eq_true (List.mem_filter.1 mem).2).2.2

/-- The text is empty just where there is no build id. -/
theorem Part.buildIdText_eq_empty (part : Part memory) :
    part.mapping.buildIdText = "" ↔ part.image.buildId = none := by
  show (part.image.buildId.map _).getD _ = "" ↔ _
  cases known : part.image.buildId with
  | none => exact ⟨fun _ => rfl, fun _ => rfl⟩
  | some buildId =>
    have written := BuildId.toString_ne_empty (part.image.buildId_proper buildId known)
    exact ⟨fun empty => absurd empty written, nofun⟩

/-- The mapping says where the segment is from. -/
structure ReadsObject (strings : List String) (pm : Proto.Mapping) (part : Part memory) : Prop where
  filename : Reads strings pm.filename (fromUtf8Lossy part.path)
  buildId : ∃ text, Reads strings pm.buildId text ∧ buildIdOf text = part.image.buildId ∧
    (text = "" ↔ part.image.buildId = none)

/-- **Objects are read back** from the file: each loaded segment with its path
and its build id, and segments share the index of a build id only when it is
the same. -/
theorem objects_read_back {F : Type} [F64Cast F] [I64Cast F] {env : Env} {gzip : Bytes → Bytes}
    {profile : StackProfile F} {sampleType periodType : String × String} {annoKey : Option String} {bytes : Bytes}
    (known : currentExe answers = .ok exe)
    (loaded : Returns (MAPPINGS checks answers memory (images.map Image.info)) (some profile.mappings))
    (run : toPprof env gzip profile sampleType periodType annoKey = .ok bytes) :
    ∃ p encoded, bytes = gzip encoded ∧ Proto.Profile.decode encoded = some p ∧
      List.Forall₂ (ReadsObject p.stringTable) p.mapping (parts exe images) ∧
      ∀ pm part pm' part', (pm, part) ∈ p.mapping.zip (parts exe images) →
        (pm', part') ∈ p.mapping.zip (parts exe images) →
          (pm.buildId = pm'.buildId ↔ part.image.buildId = part'.image.buildId) := by
  obtain ⟨p, converted, compressed, size, fitting⟩ := toPprof_encoded run
  obtain ⟨items, -, h⟩ := toPprofProto_describes converted
  obtain ⟨_, ⟨⟩, built⟩ := built_of_loaded known loaded
  have matched := h.mapping.forall₂ (T := fun pm m => Reads p.stringTable pm.filename (fromUtf8Lossy m.pathname) ∧
    Reads p.stringTable pm.buildId m.buildIdText) fun i pm m told => ⟨told.filename, told.buildId⟩
  rw [built_parts built, List.forall₂_map_right_iff] at matched
  have text : ∀ part : Part memory, buildIdOf part.mapping.buildIdText = part.image.buildId :=
    fun part => buildIdOf_text part.image.buildId_proper
  refine ⟨p, p.encode, compressed, p.decode_encode fitting size, ?_, ?_⟩
  · exact matched.imp fun pm part told => ⟨told.1, _, told.2, text part, part.buildIdText_eq_empty⟩
  · intro pm part pm' part' mem mem'
    have reads := ((List.forall₂_iff_zip.1 matched).2 mem).2
    have reads' := ((List.forall₂_iff_zip.1 matched).2 mem').2
    constructor
    · intro same
      rw [same] at reads
      rw [← text part, ← text part', Option.some.inj (reads.symm.trans reads')]
    · intro same
      -- one build id has one text, and the table has no string twice
      have one : part.mapping.buildIdText = part'.mapping.buildIdText := by
        show (part.image.buildId.map _).getD _ = (part'.image.buildId.map _).getD _
        rw [same]
      rw [one] at reads
      exact (List.getElem?_inj (List.getElem?_eq_some_iff.1 reads).1 h.nodup).1 (reads.trans reads'.symm)

end

theorem programAndLibrary_read_back : ∃ bytes p encoded,
    toPprof oneSymbol List.reverse programAndLibrary ("inuse", "bytes") ("space", "bytes") none = .ok bytes ∧
    bytes = encoded.reverse ∧ Proto.Profile.decode encoded = some p ∧
    List.Forall₂ (ReadsObject p.stringTable) p.mapping (parts [0x61] threeImages) := by
  obtain ⟨bytes, run⟩ := exists_ok (x := toPprof oneSymbol List.reverse programAndLibrary ("inuse", "bytes")
    ("space", "bytes") none) (by decide +kernel)
  obtain ⟨p, encoded, compressed, decoded, objects, -⟩ := objects_read_back program_known threeImages_mappings run
  exact ⟨bytes, p, encoded, run, compressed, decoded, objects⟩

end JemallocPprof
