import JemallocPprof.Notes

/-!
# The note walk and the bounds of its segment

Whatever the bytes of a segment are, the walk over it ends, and the headers and
names it reads lie in the segment: the loop's condition asks for sixteen bytes.
It says nothing about the build id behind them, whose size the note claims.
`note_walk_inside_iff` says that all reads lie in the segment exactly when the
build id of the note the walk ends at does.
-/

namespace JemallocPprof
set_option autoImplicit false
open Lib

def Read.addr : Read → UInt64
  | .header addr => addr
  | .name addr => addr
  | .desc addr _ => addr

/-- The bytes read. -/
def Read.size : Read → Nat
  | .header _ => 12
  | .name _ => 4
  | .desc _ size => size.toNat

/-- A stride is at most a header and two aligned sizes of 32 bits. -/
def maxStride : Nat := 12 + 2 ^ 33

section
variable (memory : Memory) (origOffset pMemsz : UInt64)

/-- The read lies in the segment. -/
def Read.Inside (read : Read) : Prop :=
  origOffset.toNat ≤ read.addr.toNat ∧ read.addr.toNat + read.size ≤ origOffset.toNat + pMemsz.toNat

instance : DecidablePred (Read.Inside origOffset pMemsz) := fun _ => inferInstanceAs (Decidable (_ ∧ _))

/-- An aligned segment whose end lies one stride below the top of the address space. -/
structure Walkable : Prop where
  nonzero : origOffset ≠ 0
  aligned : origOffset % 4 = 0
  room : origOffset.toNat + pMemsz.toNat + maxStride < 2 ^ 64

/-- The offset leaves room for a header and a name in the segment. -/
def HeaderFits (a : UInt64) : Prop := a.toNat + 16 ≤ origOffset.toNat + pMemsz.toNat

/-- The strides from the segment's start lead to `a`, over no note with a build id. -/
inductive StridesTo : UInt64 → Prop where
  | start : StridesTo origOffset
  | step {a b : UInt64} (before : StridesTo a) (fits : HeaderFits origOffset pMemsz a)
      (other : ¬BuildIdNote memory a) (distance : b.toNat = a.toNat + stride (noteHeaderAt memory a)) :
      StridesTo b

/-- The build id of the first note that has one ends in the segment. -/
def DescFits : Prop :=
  ∀ a, StridesTo memory origOffset pMemsz a → HeaderFits origOffset pMemsz a → BuildIdNote memory a →
    a.toNat + 16 + (noteHeaderAt memory a).nDescsz.toNat ≤ origOffset.toNat + pMemsz.toNat

end

variable {memory : Memory} {origOffset pMemsz a : UInt64} {checks : Bool} {buildId : Option BuildId}

/-- Where the strides lead stays aligned, at or behind the start, and in u64. -/
structure Placed (origOffset pMemsz a : UInt64) : Prop where
  aligned : a.toNat % 4 = 0
  behind : origOffset.toNat ≤ a.toNat
  below : a.toNat + 16 ≤ origOffset.toNat + pMemsz.toNat + maxStride

theorem stride_aligned (nh : NoteHeader) : stride nh % 4 = 0 := by
  unfold stride align4
  omega

theorem StridesTo.placed (walkable : Walkable origOffset pMemsz) (h : StridesTo memory origOffset pMemsz a) :
    Placed origOffset pMemsz a := by
  induction h with
  | start =>
    refine ⟨mod_four_iff.1 walkable.aligned, Nat.le_refl _, ?_⟩
    unfold maxStride
    omega
  | @step a b before fits other distance ih =>
    obtain ⟨aligned, behind, -⟩ := ih
    have multiple := stride_aligned (noteHeaderAt memory a)
    have most := stride_le (noteHeaderAt memory a)
    unfold HeaderFits at fits
    refine ⟨by omega, by omega, ?_⟩
    unfold maxStride
    omega

theorem Placed.room (walkable : Walkable origOffset pMemsz) (h : Placed origOffset pMemsz a) :
    Room origOffset pMemsz a := by
  have := walkable.room
  have := h.below
  constructor <;> omega

theorem Placed.nonzero (walkable : Walkable origOffset pMemsz) (h : Placed origOffset pMemsz a) : a ≠ 0 := by
  rintro rfl
  apply walkable.nonzero
  apply UInt64.toNat_inj.1
  exact Nat.le_zero.1 h.behind

theorem Placed.mod_four (h : Placed origOffset pMemsz a) : a % 4 = 0 := mod_four_iff.2 h.aligned

theorem Placed.stride_fits (walkable : Walkable origOffset pMemsz) (fits : HeaderFits origOffset pMemsz a) :
    a.toNat + stride (noteHeaderAt memory a) < 2 ^ 64 := by
  have := walkable.room
  have := stride_le (noteHeaderAt memory a)
  unfold HeaderFits at fits
  unfold maxStride at *
  omega

/-- The header and the name at such an offset lie in the segment. -/
theorem Placed.reads_inside (walkable : Walkable origOffset pMemsz) (h : Placed origOffset pMemsz a)
    (fits : HeaderFits origOffset pMemsz a) :
    Read.Inside origOffset pMemsz (.header a) ∧ Read.Inside origOffset pMemsz (.name (a + 12)) := by
  have room := h.room walkable
  have sum := (u64Add_small true (n := 12) (by decide) room.first).2
  have twelve : (12 : UInt64).toNat = 12 := rfl
  have behind := h.behind
  unfold HeaderFits at fits
  refine ⟨⟨behind, ?_⟩, ?_, ?_⟩ <;> simp only [Read.addr, Read.size] <;> omega

/-- Every read made lies in the segment, or is the build id of a note the strides lead to. -/
def ReadsKnown (memory : Memory) (origOffset pMemsz : UInt64) (reads : List Read) : Prop :=
  ∀ read ∈ reads, read.Inside origOffset pMemsz ∨
    ∃ a, StridesTo memory origOffset pMemsz a ∧ HeaderFits origOffset pMemsz a ∧ BuildIdNote memory a ∧
      read = .desc (a + 16) (noteHeaderAt memory a).nDescsz

/-- **The walk ends**, whatever the bytes are, and its reads are known. -/
theorem note_walk_runs (memory : Memory) (checks : Bool) (buildId : Option BuildId)
    (walkable : Walkable origOffset pMemsz) :
    ∃ walk, Runs (noteTurn checks memory origOffset pMemsz) ⟨origOffset, buildId, []⟩ walk ∧
      ReadsKnown memory origOffset pMemsz walk.reads := by
  refine runs_total
    (I := fun s => StridesTo memory origOffset pMemsz s.offset ∧ ReadsKnown memory origOffset pMemsz s.reads)
    (fun s => origOffset.toNat + pMemsz.toNat - s.offset.toNat) ⟨.start, fun read mem => by cases mem⟩ ?_
  rintro s ⟨leads, known⟩
  have placed := leads.placed walkable
  have room := placed.room walkable
  by_cases fits : HeaderFits origOffset pMemsz s.offset
  · obtain ⟨header, name⟩ := placed.reads_inside walkable fits
    by_cases wanted : BuildIdNote memory s.offset
    · refine .inl ⟨_, noteTurn_found checks room fits (placed.nonzero walkable) placed.mod_four wanted, ?_⟩
      apply List.forall_mem_append.2 ⟨known, ?_⟩
      intro read mem
      simp only [List.mem_cons, List.not_mem_nil, or_false] at mem
      rcases mem with rfl | rfl | rfl
      · exact .inl header
      · exact .inl name
      · exact .inr ⟨s.offset, leads, fits, wanted, rfl⟩
    · obtain ⟨next, reads, distance, few, step⟩ := noteTurn_next checks room fits (placed.nonzero walkable)
        placed.mod_four wanted (Placed.stride_fits walkable fits)
      refine .inr ⟨_, step, ⟨.step leads fits wanted distance, ?_⟩, ?_⟩
      · apply List.forall_mem_append.2 ⟨known, List.forall_mem_cons.2 ⟨.inl header, ?_⟩⟩
        intro read mem
        rw [List.mem_singleton.1 (few mem)]
        exact .inl name
      · unfold HeaderFits at fits
        simp only [distance, stride]
        omega
  · exact .inl ⟨s, noteTurn_past checks room fits, known⟩

/-- The walk goes where the strides lead. -/
theorem StridesTo.runs (h : StridesTo memory origOffset pMemsz a) (checks : Bool) (buildId : Option BuildId)
    (walkable : Walkable origOffset pMemsz) :
    ∃ reads, ∀ walk, Runs (noteTurn checks memory origOffset pMemsz) ⟨a, buildId, reads⟩ walk →
      Runs (noteTurn checks memory origOffset pMemsz) ⟨origOffset, buildId, []⟩ walk := by
  induction h with
  | start => exact ⟨[], fun walk run => run⟩
  | @step a b before fits other distance ih =>
    obtain ⟨reads, from_a⟩ := ih
    have placed := before.placed walkable
    obtain ⟨next, more, distance', -, step⟩ := noteTurn_next checks (s := ⟨a, buildId, reads⟩)
      (placed.room walkable) fits (placed.nonzero walkable) placed.mod_four other (Placed.stride_fits walkable fits)
    have same : next = b := UInt64.toNat_inj.1 (distance'.trans distance.symm)
    rw [same] at step
    exact ⟨_, fun walk run => from_a walk (.next step run)⟩

/-- **The reads of a walk.** It ends, and all it reads lies in the segment
exactly when the build id of the first note that has one does. -/
theorem note_walk_inside_iff (checks : Bool) (memory : Memory) (buildId : Option BuildId)
    (walkable : Walkable origOffset pMemsz) :
    (∃ walk, Returns (fun fuel => loop (noteTurn checks memory origOffset pMemsz) fuel ⟨origOffset, buildId, []⟩)
      walk ∧ ∀ read ∈ walk.reads, read.Inside origOffset pMemsz) ↔ DescFits memory origOffset pMemsz := by
  obtain ⟨walk, run, known⟩ := note_walk_runs memory checks buildId walkable
  have sixteen : (16 : UInt64).toNat = 16 := rfl
  constructor
  · rintro ⟨walk', returned, inside⟩ a leads fits wanted
    obtain rfl := run.returns.unique returned
    obtain ⟨reads, from_a⟩ := leads.runs checks buildId walkable
    have placed := leads.placed walkable
    have room := placed.room walkable
    have last := from_a _ (.stop (noteTurn_found checks (s := ⟨a, buildId, reads⟩) room fits
      (placed.nonzero walkable) placed.mod_four wanted))
    have desc := (inside (.desc (a + 16) (noteHeaderAt memory a).nDescsz) (by rw [run.unique last]; simp)).2
    rw [Read.addr, Read.size, (u64Add_small true (n := 16) (by decide) room.first).2] at desc
    exact desc
  · intro descFits
    refine ⟨walk, run.returns, fun read mem => ?_⟩
    rcases known read mem with inside | ⟨a, leads, fits, wanted, rfl⟩
    · exact inside
    · have placed := leads.placed walkable
      have sum := (u64Add_small true (n := 16) (by decide) (placed.room walkable).first).2
      have behind := placed.behind
      have below := descFits a leads fits wanted
      constructor <;> simp only [Read.addr, Read.size] <;> omega

/-- A note with a build id of `size` bytes, of which four are there. -/
def buildIdNote (size : UInt8) : Bytes :=
  [4, 0, 0, 0, size, 0, 0, 0, 3, 0, 0, 0, 0x47, 0x4E, 0x55, 0, 0xAA, 0xBB, 0xCC, 0xDD]

theorem note_walk_inside_small :
    ∃ walk, Returns (fun fuel =>
      loop (noteTurn true (memoryOf 0x1000 (buildIdNote 4)) 0x1000 20) fuel ⟨0x1000, none, []⟩) walk ∧
      ∀ read ∈ walk.reads, read.Inside 0x1000 20 := by
  have walkable : Walkable 0x1000 20 := ⟨by decide, by decide, by decide +kernel⟩
  apply (note_walk_inside_iff true (memoryOf 0x1000 (buildIdNote 4)) none walkable).2
  have wanted : BuildIdNote (memoryOf 0x1000 (buildIdNote 4)) 0x1000 := by decide
  have here : ∀ a, StridesTo (memoryOf 0x1000 (buildIdNote 4)) 0x1000 20 a → a = 0x1000 := by
    intro a leads
    induction leads with
    | start => rfl
    | step before fits other distance ih =>
      rw [ih] at other
      exact absurd wanted other
  intro a leads _ _
  rw [here a leads]
  decide

/-- A note that claims 32 bytes where its segment has four. -/
theorem note_walk_reads_past_end :
    ∃ walk, Returns (fun fuel =>
      loop (noteTurn true (memoryOf 0x1000 (buildIdNote 32)) 0x1000 20) fuel ⟨0x1000, none, []⟩) walk ∧
      .desc 0x1010 32 ∈ walk.reads ∧ ¬Read.Inside 0x1000 20 (.desc 0x1010 32) := by
  have wanted : BuildIdNote (memoryOf 0x1000 (buildIdNote 32)) 0x1000 := by decide
  have room : Room 0x1000 20 0x1000 := ⟨by decide, by decide⟩
  have last := noteTurn_found true (s := ⟨0x1000, none, []⟩) room (by decide) (by decide) (by decide) wanted
  exact ⟨_, (Runs.stop last).returns, by decide, by decide⟩

end JemallocPprof
