import JemallocPprof.Notes

/-!
# Build ids

The notes of a segment as they are written: a header with both sizes, the name
and the desc, each padded to four bytes. The walk comes to every note in turn
(`Stands.runs`), so it finds the one with the build id wherever it stands, and
no other note passes for it. `iterate_cb` records its desc for the object, and
`build_mappings` hands it to each mapping (`build_id_recorded`).
-/

namespace JemallocPprof
set_option autoImplicit false
open Lib

/-- An ELF note with the padding behind its name and its desc. -/
structure Note where
  type : UInt32
  name : Bytes
  namePad : Bytes
  desc : Bytes
  descPad : Bytes
  name_size : name.length < 2 ^ 32
  desc_size : desc.length < 2 ^ 32
  name_padded : name.length + namePad.length = align4 name.length
  desc_padded : desc.length + descPad.length = align4 desc.length

namespace Note
variable (n : Note)

/-- `Elf64_Nhdr`. -/
def header : Bytes := toLe 4 n.name.length ++ (toLe 4 n.desc.length ++ toLe 4 n.type.toNat)

/-- The note without the padding at its end. -/
def core : Bytes := n.header ++ (n.name ++ if n.desc = [] then [] else n.namePad ++ n.desc)

/-- The padding at its end. -/
def trailing : Bytes := if n.desc = [] then n.namePad ++ n.descPad else n.descPad

/-- The note as it is written. -/
def bytes : Bytes := n.header ++ (n.name ++ (n.namePad ++ (n.desc ++ n.descPad)))

/-- A note with a build id. -/
def IsBuildId : Prop := n.type = NT_GNU_BUILD_ID ∧ n.name = GNU_NOTE_NAME ∧ n.desc ≠ []

instance : DecidablePred IsBuildId := fun _ => inferInstanceAs (Decidable (_ ∧ _ ∧ _))

theorem bytes_eq : n.bytes = n.core ++ n.trailing := by
  unfold bytes core trailing
  split <;> simp [*]

@[simp] theorem length_header : n.header.length = 12 := by simp [header]

theorem length_bytes : n.bytes.length = 12 + align4 n.name.length + align4 n.desc.length := by
  have := n.name_padded
  have := n.desc_padded
  simp only [bytes, List.length_append, length_header]
  omega

theorem length_trailing_le : n.trailing.length ≤ 3 := by
  have named := n.name_padded
  have described := n.desc_padded
  unfold align4 at named described
  unfold trailing
  split
  · rename_i empty
    rw [empty, List.length_nil] at described
    rw [List.length_append]
    omega
  · omega

theorem twelve_le_core : 12 ≤ n.core.length := by simp [core]

end Note

/-- The notes that have a build id. -/
def buildIdNotes (notes : List Note) : List Note := notes.filter fun n => n.IsBuildId

/-- The content of a segment of notes: the padding after the last may be missing. -/
def LaidOut (notes : List Note) (content : Bytes) : Prop :=
  ∃ missing, content ++ missing = notes.flatMap Note.bytes ∧
    ∀ last ∈ notes.getLast?, missing.length ≤ last.trailing.length

/-- The segment of a `PT_NOTE` header holds the notes. -/
structure NoteSegment (memory : Memory) (dlpiAddr : UInt64) (ph : ProgramHeader) (notes : List Note) : Prop where
  nonzero : ph.pVaddr + dlpiAddr ≠ 0
  aligned : (ph.pVaddr + dlpiAddr) % 4 = 0
  /-- It ends at least 64 bytes below the top of the address space. -/
  room : (ph.pVaddr + dlpiAddr).toNat + ph.pMemsz.toNat + 64 ≤ 2 ^ 64
  content : ∃ content, LaidOut notes content ∧ content.length = ph.pMemsz.toNat ∧
    Holds memory (ph.pVaddr + dlpiAddr) content

/-- The notes of a header: those of its segment, or none for a header of another type. -/
def HoldsNotes (memory : Memory) (dlpiAddr : UInt64) (ph : ProgramHeader) (notes : List Note) : Prop :=
  (ph.pType = PT_NOTE → NoteSegment memory dlpiAddr ph notes) ∧ (ph.pType ≠ PT_NOTE → notes = [])

/-- Every header was read at an aligned address. -/
def AlignedReads (reads : List Read) : Prop := ∀ addr, .header addr ∈ reads → addr % 4 = 0

/-! ### Notes at their addresses -/

/-- The parts of a note in memory. -/
structure NoteAt (memory : Memory) (a : UInt64) (n : Note) : Prop where
  nNamesz : (noteHeaderAt memory a).nNamesz.toNat = n.name.length
  nDescsz : (noteHeaderAt memory a).nDescsz.toNat = n.desc.length
  nType : (noteHeaderAt memory a).nType = n.type
  name : Holds memory (a + 12) n.name
  desc : n.desc ≠ [] → Holds memory (a + 12 + UInt64.ofNat (align4 n.name.length)) n.desc

/-- The notes stand one behind the other from `a` on, in a segment that ends at
`limit`; the last one's padding may reach over it. -/
inductive Stands (memory : Memory) (limit : Nat) : UInt64 → List Note → Prop where
  | past {a : UInt64} (behind : limit ≤ a.toNat) (near : a.toNat ≤ limit + 3) : Stands memory limit a []
  | note {a b : UInt64} {n : Note} {rest : List Note} (here : NoteAt memory a n)
      (inside : a.toNat + n.core.length ≤ limit) (distance : b.toNat = a.toNat + n.bytes.length)
      (room : rest ≠ [] → a.toNat + 16 ≤ limit) (later : Stands memory limit b rest) :
      Stands memory limit a (n :: rest)

section
variable {memory : Memory} {a origOffset pMemsz : UInt64} {n : Note} {notes : List Note} {limit : Nat}
  {content missing : Bytes} {checks : Bool}

theorem word_of_holds {n : Nat} (fits : n < 2 ^ 32) (held : Holds memory a (toLe 4 n)) :
    (wordAt memory a).toNat = n := by
  rw [wordAt_toLe fits held, UInt32.toNat_ofNat_of_lt' fits]

theorem noteAt_of_core (held : Holds memory a n.core) : NoteAt memory a n := by
  obtain ⟨header, behind⟩ := holds_append.1 held
  obtain ⟨namesz, sizes⟩ := holds_append.1 header
  obtain ⟨descsz, type⟩ := holds_append.1 sizes
  obtain ⟨name, padded⟩ := holds_append.1 behind
  rw [length_toLe] at descsz type
  rw [length_toLe, UInt64.add_assoc] at type
  rw [n.length_header] at name padded
  refine ⟨word_of_holds n.name_size namesz, word_of_holds n.desc_size descsz, ?_, name, ?_⟩
  · exact UInt32.toNat_inj.1 (word_of_holds n.type.toNat_lt type)
  · intro nonempty
    rw [if_neg nonempty] at padded
    have desc := (holds_append.1 padded).2
    rwa [UInt64.add_assoc, ← UInt64.ofNat_add, n.name_padded] at desc

/-- The walk sees at a note what the note says. -/
theorem NoteAt.buildIdNote_iff (h : NoteAt memory a n) : BuildIdNote memory a ↔ n.IsBuildId := by
  have empty : (noteHeaderAt memory a).nDescsz = 0 ↔ n.desc = [] := by
    rw [← UInt32.toNat_inj, h.nDescsz, ← List.length_eq_zero_iff]
    rfl
  unfold BuildIdNote Note.IsBuildId
  rw [h.nType, h.nNamesz, Ne, empty]
  have held := h.name
  unfold Holds at held
  constructor
  · rintro ⟨type, nonempty, length, name⟩
    rw [length] at held
    exact ⟨type, held.symm.trans name, nonempty⟩
  · rintro ⟨type, name, nonempty⟩
    rw [name] at held
    exact ⟨type, nonempty, by rw [name], held⟩

theorem NoteAt.descAt_eq (h : NoteAt memory a n) (buildId : n.IsBuildId) : descAt memory a = n.desc := by
  have desc := h.desc buildId.2.2
  have four : align4 n.name.length = 4 := by
    rw [buildId.2.1]
    rfl
  rw [four] at desc
  rw [descAt, h.nDescsz, ← add_sixteen]
  exact desc

theorem NoteAt.stride_eq (h : NoteAt memory a n) : stride (noteHeaderAt memory a) = n.bytes.length := by
  rw [stride, h.nNamesz, h.nDescsz, n.length_bytes]

/-- A build id reaches past the sixteenth byte. -/
theorem Note.IsBuildId.core_long (h : n.IsBuildId) : 16 < n.core.length := by
  have desc := List.length_pos_of_ne_nil h.2.2
  have name : n.name.length = 4 := by
    rw [h.2.1]
    rfl
  rw [core, if_neg h.2.2]
  simp only [List.length_append, n.length_header]
  omega

/-- A turn reads one header, where it stands. -/
theorem AlignedReads.turn {reads steps : List Read} (sofar : AlignedReads reads) (aligned : a % 4 = 0)
    (once : ∀ addr, .header addr ∉ steps) : AlignedReads (reads ++ .header a :: steps) := by
  intro addr mem
  rcases List.mem_append.1 mem with old | new
  · exact sofar addr old
  · rcases List.mem_cons.1 new with first | later
    · rw [Read.header.inj first]
      exact aligned
    · exact absurd later (once addr)

/-- **The walk over notes** stops at the first with a build id, or past the end. -/
theorem Stands.runs (h : Stands memory (origOffset.toNat + pMemsz.toNat) a notes) (checks : Bool)
    (room : origOffset.toNat + pMemsz.toNat + 64 ≤ 2 ^ 64) (positive : 0 < a.toNat) (aligned : a.toNat % 4 = 0)
    (buildId : Option BuildId) {reads : List Read} (sofar : AlignedReads reads) :
    ∃ walk, Runs (noteTurn checks memory origOffset pMemsz) ⟨a, buildId, reads⟩ walk ∧
      walk.buildId = ((buildIdNotes notes).head?.map fun n => ⟨n.desc⟩).or buildId ∧ AlignedReads walk.reads := by
  induction h generalizing reads with
  | @past a behind near =>
    have walkable : Room origOffset pMemsz a := ⟨by omega, by omega⟩
    have outside : ¬a.toNat + 16 ≤ origOffset.toNat + pMemsz.toNat := by omega
    exact ⟨_, .stop (noteTurn_past checks (s := ⟨a, buildId, reads⟩) walkable outside), rfl, sofar⟩
  | @note a b n rest here inside distance more later ih =>
    have walkable : Room origOffset pMemsz a := by
      have := n.twelve_le_core
      constructor <;> omega
    have nonzero := ne_zero_of_toNat positive
    by_cases fits : a.toNat + 16 ≤ origOffset.toNat + pMemsz.toNat
    · by_cases wanted : n.IsBuildId
      · have found := noteTurn_found checks (s := ⟨a, buildId, reads⟩) walkable fits nonzero
          (mod_four_iff.2 aligned) (here.buildIdNote_iff.2 wanted)
        refine ⟨_, .stop found, ?_, ?_⟩
        · rw [here.descAt_eq wanted, buildIdNotes, List.filter_cons_of_pos (by simpa using wanted)]
          rfl
        · exact sofar.turn (mod_four_iff.2 aligned) (by simp)
      · have stride_fits : a.toNat + stride (noteHeaderAt memory a) < 2 ^ 64 := by
          have := b.toNat_lt
          rw [here.stride_eq]
          omega
        obtain ⟨next, steps, distance', few, step⟩ := noteTurn_next checks (s := ⟨a, buildId, reads⟩)
          walkable fits nonzero (mod_four_iff.2 aligned) (mt here.buildIdNote_iff.1 wanted) stride_fits
        have same : next = b := by
          apply UInt64.toNat_inj.1
          rw [distance', distance]
          exact congrArg (a.toNat + ·) here.stride_eq
        have long := n.length_bytes
        unfold align4 at long
        have sofar' : AlignedReads (reads ++ .header a :: steps) := by
          apply sofar.turn (mod_four_iff.2 aligned)
          intro addr mem
          cases List.mem_singleton.1 (few mem)
        obtain ⟨walk, run, found, last⟩ := ih (by omega) (by omega) sofar'
        rw [same] at step
        refine ⟨walk, .next step run, ?_, last⟩
        rw [found, buildIdNotes, buildIdNotes, List.filter_cons_of_neg (by simpa using wanted)]
    · -- a last note too short to be read has no build id
      have alone : rest = [] := by
        by_contra others
        exact fits (more others)
      have other : ¬n.IsBuildId := by
        intro wanted
        have := wanted.core_long
        omega
      refine ⟨_, .stop (noteTurn_past checks walkable fits), ?_, sofar⟩
      rw [alone, buildIdNotes, List.filter_cons_of_neg (by simpa using other)]
      rfl

theorem holds_initial {more : Bytes} (held : Holds memory a content) (part : more <+: content) :
    Holds memory a more := by
  obtain ⟨tail, rfl⟩ := part
  exact (holds_append.1 held).1

/-- The padding at the end is shorter than the notes. -/
theorem trailing_lt {last : Note} (mem : last ∈ notes.getLast?) :
    last.trailing.length + 12 ≤ (notes.flatMap Note.bytes).length := by
  obtain ⟨before, behind, rfl⟩ := List.append_of_mem (List.mem_of_getLast? mem)
  have := last.twelve_le_core
  rw [List.flatMap_append, List.flatMap_cons, last.bytes_eq]
  simp only [List.length_append]
  omega

/-- Notes that are laid out stand one behind the other. -/
theorem stands_of_content (held : Holds memory a content) (all : content ++ missing = notes.flatMap Note.bytes)
    (few : ∀ last ∈ notes.getLast?, missing.length ≤ last.trailing.length)
    (ends : a.toNat + content.length = limit) (room : limit + 64 ≤ 2 ^ 64) : Stands memory limit a notes := by
  induction notes generalizing a content with
  | nil =>
    obtain ⟨rfl, -⟩ := List.append_eq_nil_iff.1 all
    rw [List.length_nil] at ends
    exact .past (by omega) (by omega)
  | cons n rest ih =>
    rw [List.flatMap_cons] at all
    have lengths := congrArg List.length all
    have whole := congrArg List.length n.bytes_eq
    have small := n.length_trailing_le
    have long := n.twelve_le_core
    rw [List.length_append] at whole
    rw [List.length_append, List.length_append] at lengths
    cases rest with
    | nil =>
      have short := few n rfl
      rw [List.flatMap_nil, List.length_nil] at lengths
      rw [List.flatMap_nil, List.append_nil, n.bytes_eq] at all
      have part : n.core <+: content :=
        List.prefix_of_prefix_length_le (List.prefix_append _ _) ⟨missing, all⟩ (by omega)
      have next := toNat_add_ofNat (a := a) (n := n.bytes.length) (by omega)
      exact .note (noteAt_of_core (holds_initial held part)) (by omega) next (fun more => absurd rfl more)
        (.past (by omega) (by omega))
    | cons m rest =>
      have some_last : ∃ last, last ∈ (m :: rest).getLast? := ⟨_, List.getLast?_eq_some_getLast (by simp)⟩
      obtain ⟨last, is_last⟩ := some_last
      have short := few last (by rwa [List.getLast?_cons_cons])
      have shorter := trailing_lt is_last
      obtain ⟨behind, rfl⟩ : n.bytes <+: content :=
        List.prefix_of_prefix_length_le (List.prefix_append _ _) ⟨missing, all⟩ (by omega)
      rw [List.append_assoc] at all
      rw [List.length_append] at ends lengths
      obtain ⟨here, held⟩ := holds_append.1 held
      have part : n.core <+: n.bytes := ⟨n.trailing, n.bytes_eq.symm⟩
      have next := toNat_add_ofNat (a := a) (n := n.bytes.length) (by omega)
      refine .note (noteAt_of_core (holds_initial here part)) (by omega) next (fun _ => by omega) ?_
      exact ih held (List.append_cancel_left all) (fun last mem => few last (by rwa [List.getLast?_cons_cons]))
        (by omega)

/-- The walk over a segment of notes. -/
theorem NoteSegment.runs {dlpiAddr : UInt64} {ph : ProgramHeader} (h : NoteSegment memory dlpiAddr ph notes)
    (checks : Bool) (buildId : Option BuildId) {reads : List Read} (sofar : AlignedReads reads) :
    ∃ walk, Runs (noteTurn checks memory (ph.pVaddr + dlpiAddr) ph.pMemsz)
        ⟨ph.pVaddr + dlpiAddr, buildId, reads⟩ walk ∧
      walk.buildId = ((buildIdNotes notes).head?.map fun n => ⟨n.desc⟩).or buildId ∧ AlignedReads walk.reads := by
  obtain ⟨content, ⟨missing, all, few⟩, size, held⟩ := h.content
  have positive : 0 < (ph.pVaddr + dlpiAddr).toNat :=
    Nat.pos_of_ne_zero fun zero => h.nonzero (UInt64.toNat_inj.1 zero)
  have stands := stands_of_content held all few (by rw [size]) h.room
  exact stands.runs checks h.room positive (mod_four_iff.1 h.aligned) buildId sofar

end

/-! ### The callback -/

/-- The loaded segment of a `PT_LOAD` header. -/
def ProgramHeader.segment (ph : ProgramHeader) : LoadedSegment := ⟨ph.pOffset, ph.pVaddr, ph.pMemsz⟩

/-- The object whose headers hold the notes. -/
def DlPhdrInfo.object (info : DlPhdrInfo) (path : Bytes) (notes : List Note) : SharedObject where
  baseAddress := info.dlpiAddr
  pathName := path
  buildId := (buildIdNotes notes).head?.map fun n => ⟨n.desc⟩
  loadedSegments := (info.dlpiPhdr.filter fun ph => ph.pType = PT_LOAD).map ProgramHeader.segment

section
variable {checks : Bool} {memory : Memory} {info : DlPhdrInfo} {segments : List (ProgramHeader × List Note)}

/-- What the headers passed have given. -/
structure WalkedTo (done : List (ProgramHeader × List Note)) (s : Walked) : Prop where
  loadedSegments : s.loadedSegments =
    ((done.map Prod.fst).filter fun ph => ph.pType = PT_LOAD).map ProgramHeader.segment
  buildId : (buildIdNotes (done.flatMap Prod.snd)).length ≤ 1 →
    s.buildId = (buildIdNotes (done.flatMap Prod.snd)).head?.map fun n => ⟨n.desc⟩
  aligned : AlignedReads s.reads

theorem buildIdNotes_snoc (done : List (ProgramHeader × List Note)) (ph : ProgramHeader) (notes : List Note) :
    buildIdNotes ((done ++ [(ph, notes)]).flatMap Prod.snd) =
      buildIdNotes (done.flatMap Prod.snd) ++ buildIdNotes notes := by
  simp [buildIdNotes]

/-- A loaded segment, which holds no notes, is added to the segments. -/
theorem WalkedTo.load {done : List (ProgramHeader × List Note)} {s : Walked} {ph : ProgramHeader}
    (h : WalkedTo done s) (load : ph.pType = PT_LOAD) :
    WalkedTo (done ++ [(ph, [])]) { s with loadedSegments := s.loadedSegments ++ [ph.segment] } := by
  refine ⟨?_, ?_, h.aligned⟩
  · rw [List.map_append, List.filter_append, List.map_append, h.loadedSegments]
    simp [load]
  · rw [buildIdNotes_snoc]
    simpa [buildIdNotes] using h.buildId

/-- Any other header gives the build id of its notes, if one of them has one. -/
theorem WalkedTo.pass {done : List (ProgramHeader × List Note)} {s : Walked} {ph : ProgramHeader} {notes : List Note}
    {buildId : Option BuildId} {reads : List Read} (h : WalkedTo done s) (other : ph.pType ≠ PT_LOAD)
    (found : buildId = ((buildIdNotes notes).head?.map fun n => ⟨n.desc⟩).or s.buildId) (aligned : AlignedReads reads) :
    WalkedTo (done ++ [(ph, notes)]) { s with buildId, reads } := by
  refine ⟨?_, ?_, aligned⟩
  · rw [List.map_append, List.filter_append, List.map_append, h.loadedSegments]
    simp [other]
  · rw [buildIdNotes_snoc, List.length_append]
    intro one
    simp only [found, List.head?_append]
    -- the note is among these or was among the ones before
    cases here : buildIdNotes notes with
    | nil =>
      rw [h.buildId (by omega)]
      simp
    | cons n rest =>
      rw [here, List.length_cons] at one
      have before : buildIdNotes (done.flatMap Prod.snd) = [] := List.eq_nil_of_length_eq_zero (by omega)
      rw [before]
      simp

/-- **One header.** -/
theorem walkHeader_step {done : List (ProgramHeader × List Note)} {entry : ProgramHeader × List Note} {s : Walked}
    (holds : HoldsNotes memory info.dlpiAddr entry.1 entry.2) (h : WalkedTo done s) :
    ∃ s', Returns (fun fuel => walkHeader checks memory info.dlpiAddr fuel s entry.1) s' ∧
      WalkedTo (done ++ [entry]) s' := by
  obtain ⟨ph, notes⟩ := entry
  obtain ⟨segment, none_else⟩ := holds
  by_cases load : ph.pType = PT_LOAD
  · have other : ph.pType ≠ PT_NOTE := by
      rw [load]
      decide
    obtain rfl := none_else other
    refine ⟨_, ⟨0, fun fuel _ => ?_⟩, h.load load⟩
    simp only [walkHeader, if_pos load]
    rfl
  · by_cases note : ph.pType = PT_NOTE
    · obtain ⟨walk, run, found, aligned⟩ := (segment note).runs checks s.buildId h.aligned
      refine ⟨_, ?_, h.pass load found aligned⟩
      simp only [walkHeader, if_neg load, if_pos note]
      exact run.returns.bind (.ok _)
    · obtain rfl := none_else note
      refine ⟨s, ⟨0, fun fuel _ => ?_⟩, h.pass load rfl h.aligned⟩
      simp only [walkHeader, if_neg load, if_neg note]

/-- **All headers.** -/
theorem walkHeaders_returns (checks : Bool) (headers : info.dlpiPhdr = segments.map Prod.fst)
    (holds : ∀ entry ∈ segments, HoldsNotes memory info.dlpiAddr entry.1 entry.2) :
    ∃ walked, Returns (walkHeaders checks memory info) walked ∧ WalkedTo segments walked := by
  have run := Returns.foldlM (I := WalkedTo)
    (f := fun fuel s entry => walkHeader checks memory info.dlpiAddr fuel s entry.1) segments (b := ⟨[], none, []⟩)
    ⟨rfl, fun _ => rfl, fun _ mem => by cases mem⟩
    fun done entry rest s split inv => walkHeader_step (holds entry (split ▸ by simp)) inv
  obtain ⟨walked, run, last⟩ := run
  refine ⟨walked, ?_, last⟩
  unfold walkHeaders
  simpa only [headers, List.foldlM_map] using run

/-- **Build-id extraction.** When the note segments of an object hold notes at
most one of which has a build id, the callback records the object with the desc
of that note, or without a build id if there is none. It reads every header at
an aligned address, and each mapping of the object gets its build id. -/
theorem build_id_recorded {path : Bytes} {answers : ExeAnswers} {state : CallbackState}
    {objects : List SharedObject} (checks : Bool) (headers : info.dlpiPhdr = segments.map Prod.fst)
    (holds : ∀ entry ∈ segments, HoldsNotes memory info.dlpiAddr entry.1 entry.2)
    (one : (buildIdNotes (segments.flatMap Prod.snd)).length ≤ 1)
    (named : pathName answers info state = .ok (some path)) (going : state.result = .ok objects) :
    (∃ walked, Returns (walkHeaders checks memory info) walked ∧ AlignedReads walked.reads) ∧
      Returns (iterateCb checks answers memory info state)
        (CB_RESULT_OK, ⟨.ok (objects ++ [info.object path (segments.flatMap Prod.snd)])⟩) ∧
      ∀ (all : List SharedObject) (mappings : List Mapping) (idx : Nat) (segment : LoadedSegment),
        buildMappings checks all = .ok mappings →
        (segmentsOf all)[idx]? = some (info.object path (segments.flatMap Prod.snd), segment) →
        ∃ m, mappings[idx]? = some m ∧
          m.buildId = (buildIdNotes (segments.flatMap Prod.snd)).head?.map fun n => ⟨n.desc⟩ := by
  obtain ⟨walked, run, reached⟩ := walkHeaders_returns checks headers holds
  refine ⟨⟨walked, run, reached.aligned⟩, ?_, ?_⟩
  · have object : (⟨info.dlpiAddr, path, walked.buildId, walked.loadedSegments⟩ : SharedObject) =
        info.object path (segments.flatMap Prod.snd) := by
      rw [DlPhdrInfo.object, headers, reached.buildId one, reached.loadedSegments]
    unfold iterateCb
    rw [named]
    apply run.bind
    rw [going, object]
    exact .ok _
  · intro all mappings idx segment built origin
    refine ⟨(info.object path (segments.flatMap Prod.snd)).mapping segment, ?_, rfl⟩
    rw [buildMappings_ok built, List.getElem?_map, origin]
    rfl

end

/-- A note of the right name and another type. -/
def abiTag : Note := ⟨1, GNU_NOTE_NAME, [], [2, 0, 0, 0], [], by decide, by decide, rfl, rfl⟩

def shortBuildId : Note := ⟨3, GNU_NOTE_NAME, [], [0xAB, 0xCD], [0, 0], by decide, by decide, rfl, rfl⟩

/-- An object with both notes, the last one without its padding. -/
def twoNotes : List (ProgramHeader × List Note) :=
  [(⟨PT_LOAD, 0, 0, 0x1000⟩, []), (⟨PT_NOTE, 0x200, 0x200, 38⟩, [abiTag, shortBuildId])]

theorem twoNotes_held : ∀ entry ∈ twoNotes,
    HoldsNotes (memoryOf 0x10200 (abiTag.bytes ++ shortBuildId.core)) 0x10000 entry.1 entry.2 := by
  refine List.forall_mem_cons.2 ⟨⟨fun note => absurd note (by decide), fun _ => rfl⟩,
    List.forall_mem_singleton.2 ⟨fun _ => ?_, fun other => absurd rfl other⟩⟩
  refine ⟨by decide, by decide, by decide, abiTag.bytes ++ shortBuildId.core, ⟨[0, 0], by decide, ?_⟩, by decide,
    by decide⟩
  rintro last ⟨⟩
  decide

theorem build_id_recorded_twoNotes :
    Returns (iterateCb true ⟨some [0x61], .error ""⟩ (memoryOf 0x10200 (abiTag.bytes ++ shortBuildId.core))
        ⟨0x10000, none, twoNotes.map Prod.fst⟩ ⟨.ok []⟩)
      (CB_RESULT_OK, ⟨.ok [⟨0x10000, [0x61], some ⟨[0xAB, 0xCD]⟩, [⟨0, 0, 0x1000⟩]⟩]⟩) := by
  have one : (buildIdNotes (twoNotes.flatMap Prod.snd)).length ≤ 1 := by decide
  exact (build_id_recorded true rfl twoNotes_held one rfl rfl).2.1

end JemallocPprof
