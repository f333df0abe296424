import JemallocPprof.Faithful.Frames

/-!
# Lines, functions and flags

Functions are interned by demangled name alone, while a function also holds a
system name and a file, and three of the flags of a mapping are set only when a
name is new. `lines_faithful_iff` and `flags_faithful_iff` say exactly which
symbols this is harmless for.
-/

namespace JemallocPprof
set_option autoImplicit false
open Lib

/-- The line leads to its symbol: number, names and file. -/
def LeadsTo (p : Proto.Profile) (line : Proto.Line) (e : Named) : Prop :=
  line.line = e.lineno ∧ ∃ fn, p.functionOf line.functionId = some fn ∧
    Reads p.stringTable fn.name e.name ∧ Reads p.stringTable fn.systemName e.systemName ∧
    Reads p.stringTable fn.filename e.filename

/-- Every location has one line for each named symbol of the frame it was
created for, in order, leading to the symbol. -/
def LinesFaithful {F : Type} (env : Env) (profile : StackProfile F) (p : Proto.Profile) : Prop :=
  List.Forall₂ (fun loc f => List.Forall₂ (LeadsTo p) loc.line (namedSymbols env f))
    p.location (located profile.frames)

/-- The flags of a mapping message say what the locations of the mapping have. -/
structure FlagsFaithful (p : Proto.Profile) (pm : Proto.Mapping) : Prop where
  hasFunctions : pm.hasFunctions = true ↔ ∃ loc ∈ p.location, loc.mappingId = pm.id ∧ loc.line ≠ []
  hasFilenames : pm.hasFilenames = true ↔ ∃ loc ∈ p.location, loc.mappingId = pm.id ∧
    ∃ line ∈ loc.line, ∃ fn s, p.functionOf line.functionId = some fn ∧
      Reads p.stringTable fn.filename s ∧ s ≠ ""
  hasLineNumbers : pm.hasLineNumbers = true ↔ ∃ loc ∈ p.location, loc.mappingId = pm.id ∧
    ∃ line ∈ loc.line, 0 < line.line
  hasInlineFrames : pm.hasInlineFrames = true ↔ ∃ loc ∈ p.location, loc.mappingId = pm.id ∧
    2 ≤ loc.line.length

/-- Where a symbol of mapping `i` has what a flag reports, so has a symbol of
the mapping whose name is the first of its kind in the profile. -/
structure FlagsSeen (es : List Named) (i : Nat) : Prop where
  functions : (∃ e ∈ es, e.mapping = some i) → ∃ e ∈ firsts Named.name es, e.mapping = some i
  filenames : (∃ e ∈ es, e.mapping = some i ∧
      ∃ e' ∈ firsts Named.name es, e'.name = e.name ∧ e'.filename ≠ "") →
    ∃ e ∈ firsts Named.name es, e.mapping = some i ∧ e.filename ≠ ""
  lineNumbers : (∃ e ∈ es, e.mapping = some i ∧ 0 < e.lineno) →
    ∃ e ∈ firsts Named.name es, e.mapping = some i ∧ 0 < e.lineno

instance (es : List Named) (i : Nat) : Decidable (FlagsSeen es i) :=
  decidable_of_iff
    (((∃ e ∈ es, e.mapping = some i) → ∃ e ∈ firsts Named.name es, e.mapping = some i) ∧
      ((∃ e ∈ es, e.mapping = some i ∧
          ∃ e' ∈ firsts Named.name es, e'.name = e.name ∧ e'.filename ≠ "") →
        ∃ e ∈ firsts Named.name es, e.mapping = some i ∧ e.filename ≠ "") ∧
      ((∃ e ∈ es, e.mapping = some i ∧ 0 < e.lineno) →
        ∃ e ∈ firsts Named.name es, e.mapping = some i ∧ 0 < e.lineno))
    ⟨fun ⟨a, b, c⟩ => ⟨a, b, c⟩, fun ⟨a, b, c⟩ => ⟨a, b, c⟩⟩

section
variable {env : Env} {frames : List Frame} {e : Named} {i : Nat}

theorem mem_named : e ∈ named env frames ↔ ∃ f ∈ located frames, e ∈ namedSymbols env f := by
  simp [named]

theorem mapping_of_mem_namedSymbols {f : Frame} (h : e ∈ namedSymbols env f) : e.mapping = f.mapping := by
  obtain ⟨symbol, -, made⟩ := List.mem_filterMap.1 h
  obtain ⟨name, -, rfl⟩ := Option.map_eq_some_iff.1 made
  rfl

variable {F : Type} [F64Cast F] {mappings : List Mapping}
  {items : List (WeightedStack F × Option String)} {sampleType periodType : String × String}
  {key : String} {p : Proto.Profile}

/-- The line of a symbol leads to the function of the first symbol with its name. -/
theorem Describes.line_function (h : Describes env mappings frames items sampleType periodType key p)
    {line : Proto.Line} (matched : LineMatches (named env frames) line e) :
    ∃ fn e', p.functionOf line.functionId = some fn ∧ e' ∈ firsts Named.name (named env frames) ∧
      e'.name = e.name ∧ Reads p.stringTable fn.name e'.name ∧
      Reads p.stringTable fn.systemName e'.systemName ∧ Reads p.stringTable fn.filename e'.filename := by
  obtain ⟨_, fn, e', -, -, follow, first, name, entry⟩ := h.functionOf_hasId matched.function
  exact ⟨fn, e', follow, first, name, entry.name, entry.systemName, entry.filename⟩

/-- What a location of mapping `i` has, a located frame of it has. -/
theorem Describes.some_location (h : Describes env mappings frames items sampleType periodType key p)
    {P : Proto.Location → Prop} {Q : Frame → Prop}
    (same : ∀ j loc f, LocationMatches env (named env frames) j loc f → (P loc ↔ Q f)) :
    (∃ loc ∈ p.location, loc.mappingId = i + 1 ∧ P loc) ↔
      ∃ f ∈ located frames, f.mapping = some i ∧ Q f := by
  have mapping : ∀ j loc f, LocationMatches env (named env frames) j loc f →
      (loc.mappingId = i + 1 ↔ f.mapping = some i) := by
    intro j loc f told
    rw [told.mappingId]
    cases f.mapping <;> simp
  constructor
  · rintro ⟨loc, mem, id, holds⟩
    obtain ⟨j, at_j⟩ := List.mem_iff_getElem?.1 mem
    obtain ⟨f, there, told⟩ := h.location.right at_j
    exact ⟨f, List.mem_of_getElem? there, (mapping j loc f told).1 id, (same j loc f told).1 holds⟩
  · rintro ⟨f, mem, mapped, holds⟩
    obtain ⟨j, at_j⟩ := List.mem_iff_getElem?.1 mem
    obtain ⟨loc, there, told⟩ := h.location.left at_j
    exact ⟨loc, List.mem_of_getElem? there, (mapping j loc f told).2 mapped, (same j loc f told).2 holds⟩

/-- What a line in mapping `i` has, a symbol of it has. -/
theorem Describes.some_line (h : Describes env mappings frames items sampleType periodType key p)
    {P : Proto.Line → Prop} {Q : Named → Prop}
    (same : ∀ line e, LineMatches (named env frames) line e → (P line ↔ Q e)) :
    (∃ loc ∈ p.location, loc.mappingId = i + 1 ∧ ∃ line ∈ loc.line, P line) ↔
      ∃ e ∈ named env frames, e.mapping = some i ∧ Q e := by
  rw [h.some_location (Q := fun f => ∃ e ∈ namedSymbols env f, Q e)]
  · constructor
    · rintro ⟨f, hf, mapped, e, he, holds⟩
      exact ⟨e, mem_named.2 ⟨f, hf, he⟩, (mapping_of_mem_namedSymbols he).trans mapped, holds⟩
    · rintro ⟨e, mem, mapped, holds⟩
      obtain ⟨f, hf, he⟩ := mem_named.1 mem
      exact ⟨f, hf, (mapping_of_mem_namedSymbols he).symm.trans mapped, e, he, holds⟩
  · intro j loc f told
    constructor
    · rintro ⟨line, mem, holds⟩
      obtain ⟨e, he, matched⟩ := exists_of_mem_left told.line mem
      exact ⟨e, he, (same line e matched).1 holds⟩
    · rintro ⟨e, mem, holds⟩
      obtain ⟨line, hl, matched⟩ := exists_of_mem_right told.line mem
      exact ⟨line, hl, (same line e matched).2 holds⟩

/-- Where lines are faithful, symbols of one name agree: their lines lead to one function. -/
theorem Describes.symbols_agree {self : StackProfile F}
    (h : Describes env self.mappings self.frames items sampleType periodType key p)
    (faithful : LinesFaithful env self p) {e e' : Named} (he : e ∈ named env self.frames)
    (he' : e' ∈ named env self.frames) (name : e.name = e'.name) :
    e.systemName = e'.systemName ∧ e.filename = e'.filename := by
  have both := (h.location.forall₂ fun i loc f told => told.line).mp
    (S := fun loc f => List.Forall₂ (fun line e => LineMatches (named env self.frames) line e ∧
      LeadsTo p line e) loc.line (namedSymbols env f))
    (fun _ _ matched leads => matched.mp (fun _ _ => And.intro) leads) faithful
  have line : ∀ e ∈ named env self.frames, ∃ line, LineMatches (named env self.frames) line e ∧
      LeadsTo p line e := by
    intro e he
    obtain ⟨f, hf, mem⟩ := mem_named.1 he
    obtain ⟨loc, -, lines⟩ := exists_of_mem_right both hf
    obtain ⟨line, -, told⟩ := exists_of_mem_right lines mem
    exact ⟨line, told⟩
  obtain ⟨l, matched, -, fn, follow, -, system, file⟩ := line e he
  obtain ⟨l', matched', -, fn', follow', -, system', file'⟩ := line e' he'
  obtain ⟨j, ranked, id⟩ := matched.function
  obtain ⟨j', ranked', id'⟩ := matched'.function
  rw [name, ranked'] at ranked
  obtain rfl := Option.some.inj ranked
  rw [id, ← id'] at follow
  obtain rfl := Option.some.inj (follow.symm.trans follow')
  exact ⟨Option.some.inj (system.symm.trans system'), Option.some.inj (file.symm.trans file')⟩

/-- Where symbols of one name agree, the first stands for all. -/
theorem Describes.lines_faithful {self : StackProfile F}
    (h : Describes env self.mappings self.frames items sampleType periodType key p)
    (agree : ∀ e ∈ named env self.frames, ∀ e' ∈ named env self.frames, e.name = e'.name →
      e.systemName = e'.systemName ∧ e.filename = e'.filename) : LinesFaithful env self p := by
  have inside : List.Forall₂ (fun loc f => f ∈ located self.frames ∧
      List.Forall₂ (LineMatches (named env self.frames)) loc.line (namedSymbols env f))
      p.location (located self.frames) := by
    have lines := h.location.forall₂ fun i loc f told => told.line
    rw [List.forall₂_iff_zip] at lines ⊢
    exact ⟨lines.1, fun {loc f} pair => ⟨(List.of_mem_zip pair).2, lines.2 pair⟩⟩
  apply inside.imp
  rintro loc f ⟨hf, lines⟩
  rw [List.forall₂_iff_zip] at lines ⊢
  refine ⟨lines.1, fun {line e} pair => ?_⟩
  have matched := lines.2 pair
  have he : e ∈ named env self.frames := mem_named.2 ⟨f, hf, (List.of_mem_zip pair).2⟩
  obtain ⟨fn, e', follow, first, name, reads, system, file⟩ := h.line_function matched
  obtain ⟨same, file_same⟩ := agree e' (mem_of_mem_firsts first) e he name
  exact ⟨matched.lineno, fn, follow, name ▸ reads, same ▸ system, file_same ▸ file⟩

/-- **Symbolized lines.** Of a profile returned, the lines lead to their symbols
exactly when symbols of one name have one system name and one file. -/
theorem lines_faithful_iff {self : StackProfile F} {annoKey : Option String}
    (run : toPprofProto env self sampleType periodType annoKey = .ok p) :
    LinesFaithful env self p ↔ ∀ e ∈ named env self.frames, ∀ e' ∈ named env self.frames,
      e.name = e'.name → e.systemName = e'.systemName ∧ e.filename = e'.filename := by
  obtain ⟨items, -, h⟩ := toPprofProto_describes run
  exact ⟨fun faithful _ he _ he' name => h.symbols_agree faithful he he' name, h.lines_faithful⟩

theorem lines_faithful_recursiveCall : ∃ p,
    toPprofProto oneSymbol recursiveCall ("inuse", "bytes") ("space", "bytes") none = .ok p ∧
    LinesFaithful oneSymbol recursiveCall p := by
  obtain ⟨p, run⟩ := recursiveCall_returns
  exact ⟨p, run, (lines_faithful_iff run).2 (by decide +kernel)⟩

/-- Two instances of a generic function, with one demangled name. -/
def twoInstances : Env where
  overflowChecks := true
  now := 0
  symbolize := some fun addr =>
    [⟨some ⟨"new", if addr = 0x1100 then [0x61] else [0x62]⟩, some 7, none⟩]

/-- The second instance's line leads to the function of the first. -/
theorem twoInstances_share_function : ∃ p,
    toPprofProto twoInstances recursiveCall ("inuse", "bytes") ("space", "bytes") none = .ok p ∧
    ¬LinesFaithful twoInstances recursiveCall p := by
  obtain ⟨p, run⟩ := exists_ok (x := toPprofProto twoInstances recursiveCall ("inuse", "bytes")
    ("space", "bytes") none) (by decide +kernel)
  obtain ⟨items, -, h⟩ := toPprofProto_describes run
  refine ⟨p, run, fun faithful => ?_⟩
  have one : (⟨some 0, "new", "a", "", 7⟩ : Named) ∈ named twoInstances recursiveCall.frames := by
    decide +kernel
  have other : (⟨none, "new", "b", "", 7⟩ : Named) ∈ named twoInstances recursiveCall.frames := by
    decide +kernel
  have same := (h.symbols_agree faithful one other rfl).1
  exact absurd same (by decide)

/-! ## What the tables say of a mapping -/

theorem Describes.some_lines (h : Describes env mappings frames items sampleType periodType key p) :
    (∃ loc ∈ p.location, loc.mappingId = i + 1 ∧ loc.line ≠ []) ↔
      ∃ e ∈ named env frames, e.mapping = some i := by
  have := h.some_line (i := i) (P := fun _ => True) (Q := fun _ => True) fun _ _ _ => Iff.rfl
  simpa [List.eq_nil_iff_forall_not_mem] using this

theorem Describes.some_filename (h : Describes env mappings frames items sampleType periodType key p) :
    (∃ loc ∈ p.location, loc.mappingId = i + 1 ∧ ∃ line ∈ loc.line, ∃ fn s,
      p.functionOf line.functionId = some fn ∧ Reads p.stringTable fn.filename s ∧ s ≠ "") ↔
      ∃ e ∈ named env frames, e.mapping = some i ∧
        ∃ e' ∈ firsts Named.name (named env frames), e'.name = e.name ∧ e'.filename ≠ "" := by
  apply h.some_line
  intro line e matched
  obtain ⟨fn, e', follow, first, name, -, -, file⟩ := h.line_function matched
  constructor
  · rintro ⟨fn', s, follow', reads, nonempty⟩
    obtain rfl := Option.some.inj (follow.symm.trans follow')
    exact ⟨e', first, name, Option.some.inj (file.symm.trans reads) ▸ nonempty⟩
  · rintro ⟨e'', first', name', nonempty⟩
    obtain rfl := firsts_key_inj first first' (name.trans name'.symm)
    exact ⟨fn, _, follow, file, nonempty⟩

theorem Describes.some_lineNumber (h : Describes env mappings frames items sampleType periodType key p) :
    (∃ loc ∈ p.location, loc.mappingId = i + 1 ∧ ∃ line ∈ loc.line, 0 < line.line) ↔
      ∃ e ∈ named env frames, e.mapping = some i ∧ 0 < e.lineno :=
  h.some_line fun line e matched => by rw [matched.lineno]

theorem Describes.some_inline (h : Describes env mappings frames items sampleType periodType key p) :
    (∃ loc ∈ p.location, loc.mappingId = i + 1 ∧ 2 ≤ loc.line.length) ↔ Inlined env frames i :=
  h.some_location fun j loc f told => by rw [told.line.length_eq]

/-- **One mapping's flags** are right exactly when the symbols seen first show them. -/
theorem Describes.flags_faithful (h : Describes env mappings frames items sampleType periodType key p)
    {pm : Proto.Mapping} (at_i : p.mapping[i]? = some pm) :
    FlagsFaithful p pm ↔ FlagsSeen (named env frames) i := by
  have id : pm.id = i + 1 := h.mapping_numbered i pm at_i
  have flags := h.flags i pm at_i
  have functions := id ▸ h.some_lines (i := i)
  have filenames := id ▸ h.some_filename (i := i)
  have lineNumbers := id ▸ h.some_lineNumber (i := i)
  have inlined := id ▸ h.some_inline (i := i)
  constructor
  · intro faithful
    exact ⟨fun seen => flags.hasFunctions.1 (faithful.hasFunctions.2 (functions.2 seen)),
      fun seen => flags.hasFilenames.1 (faithful.hasFilenames.2 (filenames.2 seen)),
      fun seen => flags.hasLineNumbers.1 (faithful.hasLineNumbers.2 (lineNumbers.2 seen))⟩
  · -- a first symbol is a symbol, so only the direction of `FlagsSeen` can fail
    intro seen
    refine ⟨flags.hasFunctions.trans (Iff.trans ⟨?_, seen.functions⟩ functions.symm),
      flags.hasFilenames.trans (Iff.trans ⟨?_, seen.filenames⟩ filenames.symm),
      flags.hasLineNumbers.trans (Iff.trans ⟨?_, seen.lineNumbers⟩ lineNumbers.symm),
      flags.hasInlineFrames.trans inlined.symm⟩
    · rintro ⟨e, first, mapped⟩
      exact ⟨e, mem_of_mem_firsts first, mapped⟩
    · rintro ⟨e, first, mapped, file⟩
      exact ⟨e, mem_of_mem_firsts first, mapped, e, first, rfl, file⟩
    · rintro ⟨e, first, mapped, number⟩
      exact ⟨e, mem_of_mem_firsts first, mapped, number⟩

/-- **Mapping flags.** Of a profile returned, the flags agree with the tables
exactly when in every mapping the symbols seen first show them. -/
theorem flags_faithful_iff {self : StackProfile F} {annoKey : Option String}
    (run : toPprofProto env self sampleType periodType annoKey = .ok p) :
    (∀ pm ∈ p.mapping, FlagsFaithful p pm) ↔
      ∀ i < self.mappings.length, FlagsSeen (named env self.frames) i := by
  obtain ⟨items, -, h⟩ := toPprofProto_describes run
  constructor
  · intro faithful i lt
    obtain ⟨pm, at_i, -⟩ := h.mapping.left (List.getElem?_eq_getElem lt)
    exact (h.flags_faithful at_i).1 (faithful pm (List.mem_of_getElem? at_i))
  · intro seen pm mem
    obtain ⟨i, at_i⟩ := List.mem_iff_getElem?.1 mem
    exact (h.flags_faithful at_i).2 (seen i (h.mapping.length ▸ (List.getElem?_eq_some_iff.1 at_i).1))

theorem flags_faithful_recursiveCall : ∃ p,
    toPprofProto oneSymbol recursiveCall ("inuse", "bytes") ("space", "bytes") none = .ok p ∧
    ∀ pm ∈ p.mapping, FlagsFaithful p pm := by
  obtain ⟨p, run⟩ := recursiveCall_returns
  exact ⟨p, run, (flags_faithful_iff run).2 (by decide +kernel)⟩

/-- Calls into two libraries that have a function of one name. -/
def sharedName : StackProfile (ExtNum ℤ) where
  annotations := []
  «stacks» := [(⟨[0x1101], .fin 8⟩, none), (⟨[0x5201], .fin 16⟩, none)]
  mappings := [library 0x1000 [0x61], library 0x5000 [0x62]]

/-- The second library has lines and no flag for them. -/
theorem sharedName_unflagged : ∃ p,
    toPprofProto oneSymbol sharedName ("inuse", "bytes") ("space", "bytes") none = .ok p ∧
    ¬∀ pm ∈ p.mapping, FlagsFaithful p pm := by
  obtain ⟨p, run⟩ := exists_ok (x := toPprofProto oneSymbol sharedName ("inuse", "bytes")
    ("space", "bytes") none) (by decide +kernel)
  obtain ⟨items, -, h⟩ := toPprofProto_describes run
  obtain ⟨pm, at_1, -⟩ := h.mapping.left (i := 1) (b := library 0x5000 [0x62]) rfl
  refine ⟨p, run, fun faithful => ?_⟩
  have seen := (h.flags_faithful at_1).1 (faithful pm (List.mem_of_getElem? at_1))
  exact absurd seen (by decide +kernel)

end

end JemallocPprof
