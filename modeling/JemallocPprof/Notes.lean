import JemallocPprof.ProgramHeaders

/-!
# What the note walk does at an offset

The loop stops past the segment's end, stops at a note with a build id, and
steps over any other note by the sizes in its header. One lemma for each, for
offsets that stay in u64; whatever is proved about a walk comes from these.
-/

namespace JemallocPprof
set_option autoImplicit false
open Lib

/-! ### Arithmetic that stays in u64 -/

section Arithmetic
variable {checks : Bool} {a b p : UInt64}

/-- `n` rounded up to a multiple of four. -/
def align4 (n : Nat) : Nat := (n + 3) / 4 * 4

theorem toNat_add_of_lt (fits : a.toNat + b.toNat < 2 ^ 64) : (a + b).toNat = a.toNat + b.toNat := by
  rw [UInt64.toNat_add, Nat.mod_eq_of_lt fits]

theorem u64Add_of_lt (fits : a.toNat + b.toNat < 2 ^ 64) : u64Add checks a b = .ok (a + b) :=
  u64Add_total.2 fun _ => fits

theorem toNat_add_ofNat {n : Nat} (fits : a.toNat + n < 2 ^ 64) : (a + UInt64.ofNat n).toNat = a.toNat + n := by
  have small : (UInt64.ofNat n).toNat = n := UInt64.toNat_ofNat_of_lt' (by show n < 2 ^ 64; omega)
  rw [toNat_add_of_lt (by rw [small]; exact fits), small]

theorem mod_four_iff : a % 4 = 0 ↔ a.toNat % 4 = 0 := by
  rw [← UInt64.toNat_inj, UInt64.toNat_mod]
  rfl

theorem alignUp_ok (checks : Bool) (fits : p.toNat + 3 < 2 ^ 64) :
    ∃ q, alignUp checks ELF_NOTE_STRING_ALIGN p = .ok q ∧ q.toNat = align4 p.toNat := by
  have rest : (p % ELF_NOTE_STRING_ALIGN).toNat = p.toNat % 4 := by
    rw [UInt64.toNat_mod]
    rfl
  unfold alignUp align4
  split
  · rename_i multiple
    rw [multiple] at rest
    have zero : p.toNat % 4 = 0 := rest.symm
    exact ⟨p, rfl, by omega⟩
  · rename_i off
    have nonzero : p.toNat % 4 ≠ 0 := by
      rw [← rest]
      intro zero
      exact off (UInt64.toNat_inj.1 zero)
    have gap : (ELF_NOTE_STRING_ALIGN - p % ELF_NOTE_STRING_ALIGN).toNat = 4 - p.toNat % 4 := by
      have four : ELF_NOTE_STRING_ALIGN.toNat = 4 := rfl
      rw [UInt64.toNat_sub_of_le, rest, four]
      rw [UInt64.le_iff_toNat_le, rest, four]
      omega
    have bound : p.toNat + (ELF_NOTE_STRING_ALIGN - p % ELF_NOTE_STRING_ALIGN).toNat < 2 ^ 64 := by
      rw [gap]
      omega
    refine ⟨_, u64Add_of_lt bound, ?_⟩
    rw [toNat_add_of_lt bound, gap]
    omega

end Arithmetic

section Turns

variable (memory : Memory)

/-- The note at `a` is the one with the build id. -/
def BuildIdNote (a : UInt64) : Prop :=
  (noteHeaderAt memory a).nType = NT_GNU_BUILD_ID ∧ (noteHeaderAt memory a).nDescsz ≠ 0 ∧
    (noteHeaderAt memory a).nNamesz.toNat = GNU_NOTE_NAME.length ∧ bytesAt memory (a + 12) 4 = GNU_NOTE_NAME

instance : DecidablePred (BuildIdNote memory) := fun _ => inferInstanceAs (Decidable (_ ∧ _ ∧ _ ∧ _))

/-- The bytes of the build id in the note at `a`. -/
def descAt (a : UInt64) : Bytes := bytesAt memory (a + 16) (noteHeaderAt memory a).nDescsz.toNat

/-- The distance to the next note. -/
def stride (nh : NoteHeader) : Nat := 12 + align4 nh.nNamesz.toNat + align4 nh.nDescsz.toNat

variable {memory} {checks : Bool} {nh : NoteHeader} {a origOffset pMemsz : UInt64} {s : NoteWalk}

theorem stride_le (nh : NoteHeader) : stride nh ≤ 12 + 2 ^ 33 := by
  have := nh.nNamesz.toNat_lt
  have := nh.nDescsz.toNat_lt
  unfold stride align4
  omega

theorem assertPointerValid_ok {align : UInt64} (nonzero : a ≠ 0) (aligned : a % align = 0) :
    assertPointerValid align a = .ok () := by
  rw [assertPointerValid, if_neg nonzero, if_pos aligned]

theorem assertByteValid_ok (nonzero : a ≠ 0) : assertPointerValid 1 a = .ok () := by
  apply assertPointerValid_ok nonzero
  apply UInt64.toNat_inj.1
  rw [UInt64.toNat_mod]
  exact Nat.mod_one _

/-- **The next offset** is the header and both aligned sizes further. -/
theorem nextOffset_ok (checks : Bool) (fits : a.toNat + stride nh < 2 ^ 64) :
    ∃ next, nextOffset checks nh a = .ok next ∧ next.toNat = a.toNat + stride nh := by
  obtain ⟨name, name_up, name_size⟩ := alignUp_ok checks (p := nh.nNamesz.toUInt64)
    (by have := nh.nNamesz.toNat_lt; rw [UInt32.toNat_toUInt64]; omega)
  obtain ⟨desc, desc_up, desc_size⟩ := alignUp_ok checks (p := nh.nDescsz.toUInt64)
    (by have := nh.nDescsz.toNat_lt; rw [UInt32.toNat_toUInt64]; omega)
  rw [UInt32.toNat_toUInt64] at name_size desc_size
  have twelve : (12 : UInt64).toNat = 12 := rfl
  unfold stride at fits ⊢
  have fits₁ : a.toNat + (12 : UInt64).toNat < 2 ^ 64 := by omega
  have sum₁ := toNat_add_of_lt fits₁
  have fits₂ : (a + 12).toNat + name.toNat < 2 ^ 64 := by omega
  have sum₂ := toNat_add_of_lt fits₂
  have fits₃ : (a + 12 + name).toNat + desc.toNat < 2 ^ 64 := by omega
  have sum₃ := toNat_add_of_lt fits₃
  refine ⟨a + 12 + name + desc, ?_, by omega⟩
  simp only [nextOffset, name_up, desc_up, u64Add_of_lt fits₁, u64Add_of_lt fits₂, u64Add_of_lt fits₃, ok_bind]

theorem ne_zero_of_toNat (positive : 0 < a.toNat) : a ≠ 0 := by
  rintro rfl
  exact absurd positive (by decide)

/-- A pointer past the header. -/
theorem u64Add_small (checks : Bool) {n : UInt64} (small : n.toNat ≤ 16) (fits : a.toNat + 16 < 2 ^ 64) :
    u64Add checks a n = .ok (a + n) ∧ (a + n).toNat = a.toNat + n.toNat :=
  have below : a.toNat + n.toNat < 2 ^ 64 := by omega
  ⟨u64Add_of_lt below, toNat_add_of_lt below⟩

theorem add_sixteen (a : UInt64) : a + 12 + 4 = a + 16 := by
  rw [UInt64.add_assoc]
  rfl

/-- What the `if` finds at a note: its build id, or at most a name to compare. -/
theorem matchNote_ok (checks : Bool) (nonzero : a ≠ 0) (fits : a.toNat + 16 < 2 ^ 64) :
    (BuildIdNote memory a → matchNote checks memory (noteHeaderAt memory a) a =
      .ok (some ⟨descAt memory a⟩, [.name (a + 12), .desc (a + 16) (noteHeaderAt memory a).nDescsz])) ∧
    (¬BuildIdNote memory a → ∃ reads, reads ⊆ [Read.name (a + 12)] ∧
      matchNote checks memory (noteHeaderAt memory a) a = .ok (none, reads)) := by
  have positive : 0 < a.toNat := Nat.pos_of_ne_zero fun zero => nonzero (UInt64.toNat_inj.1 zero)
  obtain ⟨add, sum⟩ := u64Add_small checks (n := 12) (by decide) fits
  obtain ⟨add', sum'⟩ := u64Add_small checks (n := 16) (by decide) fits
  have twelve : (12 : UInt64).toNat = 12 := rfl
  have sixteen : (16 : UInt64).toNat = 16 := rfl
  have add'' : u64Add checks (a + 12) 4 = .ok (a + 16) := by
    rw [← add_sixteen]
    apply u64Add_of_lt
    have four : (4 : UInt64).toNat = 4 := rfl
    omega
  have name_valid : assertPointerValid 1 (a + 12) = .ok () := assertByteValid_ok (ne_zero_of_toNat (by omega))
  have desc_valid : assertPointerValid 1 (a + 16) = .ok () := assertByteValid_ok (ne_zero_of_toNat (by omega))
  constructor
  · rintro ⟨type, nonempty, length, name⟩
    rw [matchNote, if_pos ⟨type, nonempty, length⟩, add, ok_bind, name_valid, ok_bind, if_pos name, add'', ok_bind,
      desc_valid, ok_bind, descAt]
  · intro other
    unfold matchNote
    split
    · rename_i candidate
      have differs : bytesAt memory (a + 12) 4 ≠ GNU_NOTE_NAME := by
        intro name
        exact other ⟨candidate.1, candidate.2.1, candidate.2.2, name⟩
      refine ⟨[.name (a + 12)], List.Subset.refl _, ?_⟩
      rw [add, ok_bind, name_valid, ok_bind, if_neg differs]
    · exact ⟨[], List.nil_subset _, rfl⟩

/-- The segment ends in u64, and the offset leaves room for a header and a name. -/
structure Room (origOffset pMemsz offset : UInt64) : Prop where
  limit : origOffset.toNat + pMemsz.toNat < 2 ^ 64
  first : offset.toNat + 16 < 2 ^ 64

/-- The loop's condition. -/
theorem condition_ok (checks : Bool) (room : Room origOffset pMemsz a) :
    ∃ first limit, (u64Add checks a 12 >>= fun first => u64Add checks first 4) = .ok first ∧
      u64Add checks origOffset pMemsz = .ok limit ∧
      (first ≤ limit ↔ a.toNat + 16 ≤ origOffset.toNat + pMemsz.toNat) := by
  obtain ⟨limit, fits⟩ := room
  obtain ⟨add, sum⟩ := u64Add_small checks (n := 12) (by decide) fits
  have twelve : (12 : UInt64).toNat = 12 := rfl
  have four : (4 : UInt64).toNat = 4 := rfl
  have below : (a + 12).toNat + (4 : UInt64).toNat < 2 ^ 64 := by omega
  refine ⟨a + 12 + 4, origOffset + pMemsz, ?_, u64Add_of_lt limit, ?_⟩
  · rw [add, ok_bind, u64Add_of_lt below]
  · rw [UInt64.le_iff_toNat_le, toNat_add_of_lt below, toNat_add_of_lt limit, sum]
    omega

/-- Past the last header that fits the loop stops. -/
theorem noteTurn_past (checks : Bool) (room : Room origOffset pMemsz s.offset)
    (past : ¬s.offset.toNat + 16 ≤ origOffset.toNat + pMemsz.toNat) :
    noteTurn checks memory origOffset pMemsz s = .ok (.stop s) := by
  obtain ⟨first, limit, sum, sum', iff⟩ := condition_ok checks room
  obtain ⟨twelve, add, sum⟩ := bind_ok.1 sum
  simp only [noteTurn, add, sum, sum', ok_bind, if_neg (mt iff.1 past)]

/-- At the note with the build id it stops with the build id. -/
theorem noteTurn_found (checks : Bool) (room : Room origOffset pMemsz s.offset)
    (inside : s.offset.toNat + 16 ≤ origOffset.toNat + pMemsz.toNat) (nonzero : s.offset ≠ 0)
    (aligned : s.offset % 4 = 0) (wanted : BuildIdNote memory s.offset) :
    noteTurn checks memory origOffset pMemsz s = .ok (.stop {
      s with
      buildId := some ⟨descAt memory s.offset⟩
      reads := s.reads ++ [.header s.offset, .name (s.offset + 12),
        .desc (s.offset + 16) (noteHeaderAt memory s.offset).nDescsz] }) := by
  obtain ⟨first, limit, sum, sum', iff⟩ := condition_ok checks room
  obtain ⟨twelve, add, sum⟩ := bind_ok.1 sum
  simp only [noteTurn, add, sum, sum', ok_bind, if_pos (iff.2 inside), assertPointerValid_ok nonzero aligned,
    (matchNote_ok checks nonzero room.first).1 wanted]

/-- Over any other note it steps. -/
theorem noteTurn_next (checks : Bool) (room : Room origOffset pMemsz s.offset)
    (inside : s.offset.toNat + 16 ≤ origOffset.toNat + pMemsz.toNat) (nonzero : s.offset ≠ 0)
    (aligned : s.offset % 4 = 0) (other : ¬BuildIdNote memory s.offset)
    (fits : s.offset.toNat + stride (noteHeaderAt memory s.offset) < 2 ^ 64) :
    ∃ next reads, next.toNat = s.offset.toNat + stride (noteHeaderAt memory s.offset) ∧
      reads ⊆ [Read.name (s.offset + 12)] ∧
      noteTurn checks memory origOffset pMemsz s =
        .ok (.next ⟨next, s.buildId, s.reads ++ .header s.offset :: reads⟩) := by
  obtain ⟨first, limit, sum, sum', iff⟩ := condition_ok checks room
  obtain ⟨twelve, add, sum⟩ := bind_ok.1 sum
  obtain ⟨next, step, distance⟩ := nextOffset_ok checks fits
  obtain ⟨reads, few, found⟩ := (matchNote_ok checks nonzero room.first).2 other
  refine ⟨next, reads, distance, few, ?_⟩
  simp only [noteTurn, add, sum, sum', ok_bind, if_pos (iff.2 inside), assertPointerValid_ok nonzero aligned,
    found, step]

end Turns

end JemallocPprof
