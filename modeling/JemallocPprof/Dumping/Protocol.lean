import JemallocPprof.Dumping

/-!
# What dumps hold

A dump holds the name and the file it made and knows the mappings it saw. No
operation of another dump disturbs these (`dumpEffect_keeps`), so dumps follow
a protocol, with one rule for each operation. The process does not end without a
reason: `fatal` says for what a dump may end it.
-/

namespace JemallocPprof
set_option autoImplicit false
open Lib

/-- What a dump holds. -/
structure DumpOwn where
  /-- A name it made, and the file it leads to. -/
  entry : Option (FilePath × Nat)
  /-- Its file, with what is in it. -/
  file : Option (Nat × Bytes)
  /-- The mappings it saw. -/
  mappings : Option (Option (List Mapping))
  /-- It ended the process. -/
  halted : Bool

def DumpOwn.nothing : DumpOwn := ⟨none, none, none, false⟩

/-- Dumps of one process: the library each is for, if it is one, what each is
answered, and what they find at first. -/
structure Dumps (T : Type) where
  library : T → Option Library
  answers : T → DumpAnswers
  start : DumpState

/-- The name is one of those drawn for the dump. -/
def Drawn (answers : DumpAnswers) (path : FilePath) : Prop :=
  ∃ names, answers.tempFile = .ok names ∧ path ∈ names

section
variable {T : Type} (d : Dumps T)

namespace Dumps

/-- A name that a dump may find taken. -/
def Taken (t : T) (path : FilePath) : Prop :=
  d.start.files.file path ≠ none ∨ ∃ u, u ≠ t ∧ Drawn (d.answers u) path

/-- Mappings that `MAPPINGS` of a library may come to hold. -/
def Held (library : Library) (m : Option (List Mapping)) : Prop :=
  d.start.mappings library = .forced m ∨ ∃ u, d.library u = some library ∧ (d.answers u).mappings = .ok m

/-- `MAPPINGS` of a library may be found poisoned. -/
def Broken (library : Library) : Prop :=
  d.start.mappings library = .poisoned ∨
    ∃ u panic, d.library u = some library ∧ (d.answers u).mappings = .error (.unwind panic)

/-- Why the process is over: the loader's callback panicked for a dump, or what
is `fatal` for one that knows the mappings happened. -/
inductive Ends (fatal : T → Option (Option (List Mapping)) → Prop)
    (mappings : Library → LazyCell (Option (List Mapping))) (u : T) : Prop where
  | callback (library : Library) (panic : Panic) (dumps : d.library u = some library)
      (why : (d.answers u).mappings = .error (.abort panic))
  | fatal (known : Option (Option (List Mapping))) (why : fatal u known)
      (seen : ∀ m library, known = some m → d.library u = some library → mappings library = .forced m)

end Dumps

variable (fatal : T → Option (Option (List Mapping)) → Prop) (owns : T → DumpOwn) (s : DumpState)

/-- The state that the one at first has become while the threads hold what they hold. -/
structure DumpInv : Prop where
  entry : ∀ t path file, (owns t).entry = some (path, file) → s.files.file path = some file ∧
    d.start.files.file path = none ∧ (∃ c, (owns t).file = some (file, c)) ∧ Drawn (d.answers t) path
  file : ∀ t file c, (owns t).file = some (file, c) →
    s.files.contents[file]? = some c ∧ d.start.files.contents.length ≤ file
  apart : ∀ t u file c d, (owns t).file = some (file, c) → (owns u).file = some (file, d) → t = u
  /-- Names that no dump holds lead where they led. -/
  others : ∀ path, (∀ t file, (owns t).entry ≠ some (path, file)) → s.files.file path = d.start.files.file path
  /-- Files that were there keep their contents. -/
  kept : ∀ (file : Nat) c, d.start.files.contents[file]? = some c → s.files.contents[file]? = some c
  mappings : ∀ t m library, (owns t).mappings = some m → d.library t = some library → s.mappings library = .forced m
  held : ∀ library m, s.mappings library = .forced m → d.Held library m
  poisoned : ∀ library, s.mappings library = .poisoned → d.Broken library
  halted : ∀ t, (owns t).halted = true → s.aborted = true
  aborted : s.aborted = true → ∃ u, d.Ends fatal s.mappings u

end

/-- What an operation needs its dump to hold. -/
def DumpNeeds (library : Option Library) (fatal : Option (Option (List Mapping)) → Prop) (own : DumpOwn) : DumpOp → Prop
  | .newTempFile => own.entry = none
  | .profDump path | .unlink path => ∃ file, own.entry = some (path, file)
  | .mappings l => library = some l
  | .read file => ∃ c, own.file = some (file, c)
  | .abort => fatal own.mappings

/-- No file can be made: none of the names drawn is free. -/
def CannotCreate (answers : DumpAnswers) (taken : FilePath → Prop) (e : FileError) : Prop :=
  match answers.tempFile with
  | .error e' => e' = e
  | .ok names => e = ⟨none⟩ ∧ ∀ name ∈ names, taken name

/-- What it returns, and what the dump holds after it. -/
inductive DumpLeaves (answers : DumpAnswers) (taken : FilePath → Prop) (broken : Library → Prop) (own : DumpOwn) :
    (op : DumpOp) → op.Res → DumpOwn → Prop where
  | created (f : NamedTempFile) : DumpLeaves answers taken broken own .newTempFile (.ok f)
      { own with entry := some (f.path, f.file), file := some (f.file, []) }
  | notCreated (e : FileError) (fails : CannotCreate answers taken e) :
      DumpLeaves answers taken broken own .newTempFile (.error e) own
  | dumped (path : FilePath) (file : Nat) (held : own.entry = some (path, file)) :
      DumpLeaves answers taken broken own (.profDump path) answers.dump { own with file := some (file, answers.text) }
  | unlinked (path : FilePath) : DumpLeaves answers taken broken own (.unlink path) () { own with entry := none }
  | known (library : Library) (m : Option (List Mapping)) :
      DumpLeaves answers taken broken own (.mappings library) (.ok m) { own with mappings := some m }
  | panicked (library : Library) (panic : Panic) (why : broken library) :
      DumpLeaves answers taken broken own (.mappings library) (.error (.unwind panic)) own
  | aborted (library : Library) (panic : Panic) (why : answers.mappings = .error (.abort panic)) :
      DumpLeaves answers taken broken own (.mappings library) (.error (.abort panic))
        { own with halted := true }
  | read (file : Nat) (c : Bytes) (held : own.file = some (file, c)) :
      DumpLeaves answers taken broken own (.read file) (readerLines c answers.readFails) own
  | halted : DumpLeaves answers taken broken own .abort () { own with halted := true }

namespace DumpInv
variable {T : Type} [DecidableEq T] {d : Dumps T} {fatal : T → Option (Option (List Mapping)) → Prop}
  {s : DumpState} {owns : T → DumpOwn} {t : T}

omit [DecidableEq T] in
theorem initial (d : Dumps T) (fatal : T → Option (Option (List Mapping)) → Prop) :
    DumpInv d fatal (fun _ : T => DumpOwn.nothing) { d.start with aborted := false } where
  entry := by simp [DumpOwn.nothing]
  file := by simp [DumpOwn.nothing]
  apart := by simp [DumpOwn.nothing]
  others := fun _ _ => rfl
  kept := fun _ _ => id
  mappings := by simp [DumpOwn.nothing]
  held := fun _ _ => .inl
  poisoned := fun _ => .inl
  halted := nofun
  aborted := nofun

omit [DecidableEq T] in
theorem length_le (inv : DumpInv d fatal owns s) : d.start.files.contents.length ≤ s.files.contents.length := by
  by_contra shorter
  have last : s.files.contents.length < d.start.files.contents.length := Nat.lt_of_not_le shorter
  have there := inv.kept _ _ (List.getElem?_eq_getElem last)
  rw [List.getElem?_eq_none (Nat.le_refl _)] at there
  cases there

omit [DecidableEq T] in
/-- No two dumps hold one name. -/
theorem entry_apart (inv : DumpInv d fatal owns s) {u : T} {path : FilePath} {i j : Nat}
    (held : (owns t).entry = some (path, i)) (held' : (owns u).entry = some (path, j)) : t = u := by
  obtain ⟨leads, -, ⟨c, file⟩, -⟩ := inv.entry t path i held
  obtain ⟨leads', -, ⟨d, file'⟩, -⟩ := inv.entry u path j held'
  rw [leads] at leads'
  obtain rfl := Option.some.inj leads'
  exact inv.apart t u i c d file file'

/-- **One dump's change.** It names and unnames only what it holds, writes only
to its own file, and what it holds after is nobody else's. -/
theorem change (inv : DumpInv d fatal owns s) {own : DumpOwn} {s' : DumpState}
    (names : ∀ path, (∀ i, (owns t).entry ≠ some (path, i)) → (∀ i, own.entry ≠ some (path, i)) →
      s'.files.file path = s.files.file path)
    (dropped : ∀ path i, (owns t).entry = some (path, i) → (∀ j, own.entry ≠ some (path, j)) →
      s'.files.file path = none)
    (entry : ∀ path i, own.entry = some (path, i) → s'.files.file path = some i ∧ d.start.files.file path = none ∧
      ((∃ c, own.file = some (i, c)) ∧ Drawn (d.answers t) path) ∧ ∀ u, u ≠ t → ∀ j, (owns u).entry ≠ some (path, j))
    (contents : ∀ (i : Nat) c, s.files.contents[i]? = some c → (∀ d, (owns t).file ≠ some (i, d)) →
      s'.files.contents[i]? = some c)
    (file : ∀ i c, own.file = some (i, c) → s'.files.contents[i]? = some c ∧ d.start.files.contents.length ≤ i ∧
      ∀ u, u ≠ t → ∀ d, (owns u).file ≠ some (i, d))
    (cell : ∀ library m, s.mappings library = .forced m → s'.mappings library = .forced m)
    (mappings : ∀ m library, own.mappings = some m → d.library t = some library → s'.mappings library = .forced m)
    (origin : ∀ library m, s'.mappings library = .forced m → d.Held library m)
    (poison : ∀ library, s'.mappings library = .poisoned → d.Broken library)
    (halted : own.halted = true → s'.aborted = true) (still : s.aborted = true → s'.aborted = true)
    (abort : s'.aborted = true → ∃ u, d.Ends fatal s'.mappings u) :
    DumpInv d fatal (Function.update owns t own) s' where
  entry := by
    intro u path i held
    by_cases same : u = t
    · subst same
      rw [Function.update_self] at held ⊢
      obtain ⟨leads, new, here, -⟩ := entry path i held
      exact ⟨leads, new, here⟩
    · rw [Function.update_of_ne same] at held ⊢
      obtain ⟨leads, new, here⟩ := inv.entry u path i held
      refine ⟨(names path ?_ ?_).trans leads, new, here⟩
      · intro j held'
        exact same (inv.entry_apart held held')
      · intro j held'
        exact (entry path j held').2.2.2 u same i held
  file := by
    intro u i c held
    by_cases same : u = t
    · subst same
      rw [Function.update_self] at held
      obtain ⟨there, beyond, -⟩ := file i c held
      exact ⟨there, beyond⟩
    · rw [Function.update_of_ne same] at held
      obtain ⟨there, beyond⟩ := inv.file u i c held
      exact ⟨contents i c there fun d held' => same (inv.apart u t i c d held held'), beyond⟩
  apart := by
    intro u v i c d held held'
    by_cases mine : u = t
    · by_cases mine' : v = t
      · exact mine.trans mine'.symm
      · subst mine
        rw [Function.update_self] at held
        rw [Function.update_of_ne mine'] at held'
        exact absurd held' ((file i c held).2.2 v mine' d)
    · rw [Function.update_of_ne mine] at held
      by_cases mine' : v = t
      · subst mine'
        rw [Function.update_self] at held'
        exact absurd held ((file i d held').2.2 u mine c)
      · rw [Function.update_of_ne mine'] at held'
        exact inv.apart u v i c d held held'
  others := by
    intro path free
    have free_t : ∀ i, own.entry ≠ some (path, i) := by
      intro i held
      have mine := free t i
      rw [Function.update_self] at mine
      exact mine held
    have free_u : ∀ u, u ≠ t → ∀ i, (owns u).entry ≠ some (path, i) := by
      intro u other i held
      have theirs := free u i
      rw [Function.update_of_ne other] at theirs
      exact theirs held
    by_cases held : ∃ i, (owns t).entry = some (path, i)
    · obtain ⟨i, held⟩ := held
      rw [dropped path i held free_t, (inv.entry t path i held).2.1]
    · have unheld : ∀ i, (owns t).entry ≠ some (path, i) := fun i here => held ⟨i, here⟩
      rw [names path unheld free_t]
      apply inv.others
      intro u i held'
      by_cases same : u = t
      · exact unheld i (same ▸ held')
      · exact free_u u same i held'
  kept := by
    intro i c there
    refine contents i c (inv.kept i c there) fun d held => ?_
    have beyond := (inv.file t i d held).2
    have inside := (List.getElem?_eq_some_iff.1 there).1
    omega
  mappings := by
    intro u m library known dumps
    by_cases same : u = t
    · subst same
      rw [Function.update_self] at known
      exact mappings m library known dumps
    · rw [Function.update_of_ne same] at known
      exact cell library m (inv.mappings u m library known dumps)
  held := origin
  poisoned := poison
  halted := by
    intro u ended
    by_cases same : u = t
    · subst same
      rw [Function.update_self] at ended
      exact halted ended
    · rw [Function.update_of_ne same] at ended
      exact still (inv.halted u ended)
  aborted := abort

/-- **A new file** is nobody else's. -/
theorem create (inv : DumpInv d fatal owns s) (bare : (owns t).entry = none) {path : FilePath} {i : Nat}
    {files : Files FilePath Bytes} (drawn : Drawn (d.answers t) path)
    (created : s.files.create path [] = some (i, files)) :
    DumpInv d fatal (Function.update owns t { owns t with entry := some (path, i), file := some (i, []) })
      { s with files } := by
  obtain ⟨free, rfl, rfl⟩ := Files.create_eq_some created
  have unheld : ∀ u j, (owns u).entry ≠ some (path, j) := by
    intro u j held
    have leads := (inv.entry u path j held).1
    rw [free] at leads
    cases leads
  apply inv.change
  case names =>
    intro name _ other
    apply Function.update_of_ne
    rintro rfl
    exact other _ rfl
  case dropped =>
    intro name j held
    rw [bare] at held
    cases held
  case entry =>
    intro name j held
    cases held
    exact ⟨Function.update_self .., (inv.others path unheld).symm.trans free, ⟨⟨[], rfl⟩, drawn⟩, fun u _ => unheld u⟩
  case contents =>
    intro j c there _
    exact (List.getElem?_append_left (List.getElem?_eq_some_iff.1 there).1).trans there
  case file =>
    intro j c held
    cases held
    refine ⟨List.getElem?_concat_length, inv.length_le, fun u _ d held => ?_⟩
    have there := (inv.file u _ d held).1
    rw [List.getElem?_eq_none (Nat.le_refl _)] at there
    cases there
  case cell => exact fun _ _ => id
  case mappings => exact inv.mappings t
  case origin => exact inv.held
  case poison => exact inv.poisoned
  case halted => exact inv.halted t
  case still => exact id
  case abort => exact inv.aborted

/-- **A write** under a name a dump holds reaches its own file. -/
theorem write (inv : DumpInv d fatal owns s) {path : FilePath} {i : Nat} (held : (owns t).entry = some (path, i))
    (text : Bytes) :
    DumpInv d fatal (Function.update owns t { owns t with file := some (i, text) })
      { s with files := s.files.write path text } := by
  obtain ⟨leads, new, ⟨c, mine⟩, drawn⟩ := inv.entry t path i held
  have inside := (List.getElem?_eq_some_iff.1 (inv.file t i c mine).1).1
  rw [Files.write_of_file leads]
  apply inv.change
  case names => exact fun _ _ _ => rfl
  case dropped => exact fun name j here gone => absurd here (gone j)
  case entry =>
    intro name j here
    obtain ⟨same, -⟩ := Prod.mk.inj (Option.some.inj (held.symm.trans here))
    subst same
    obtain ⟨leads', new', -⟩ := inv.entry t path j here
    rw [leads] at leads'
    obtain rfl := Option.some.inj leads'
    exact ⟨leads, new, ⟨⟨text, rfl⟩, drawn⟩, fun u other k theirs => other (inv.entry_apart theirs held)⟩
  case contents =>
    intro j d there other
    have apart : i ≠ j := by
      rintro rfl
      exact other c mine
    exact (List.getElem?_set_ne apart).trans there
  case file =>
    intro j d here
    cases here
    exact ⟨List.getElem?_set_self inside, (inv.file t i c mine).2,
      fun u other d theirs => other (inv.apart u t i d c theirs mine)⟩
  case cell => exact fun _ _ => id
  case mappings => exact inv.mappings t
  case origin => exact inv.held
  case poison => exact inv.poisoned
  case halted => exact inv.halted t
  case still => exact id
  case abort => exact inv.aborted

/-- **A name removed** was the dump's own. -/
theorem remove (inv : DumpInv d fatal owns s) {path : FilePath} {i : Nat}
    (held : (owns t).entry = some (path, i)) :
    DumpInv d fatal (Function.update owns t { owns t with entry := none })
      { s with files := s.files.unlink path } := by
  apply inv.change
  case names =>
    intro name other _
    apply Function.update_of_ne
    rintro rfl
    exact other i held
  case dropped =>
    intro name j here _
    obtain ⟨same, -⟩ := Prod.mk.inj (Option.some.inj (held.symm.trans here))
    subst same
    exact Function.update_self ..
  case entry =>
    intro name j here
    cases here
  case contents => exact fun _ _ there _ => there
  case file =>
    intro j c mine
    obtain ⟨there, beyond⟩ := inv.file t j c mine
    exact ⟨there, beyond, fun u other d theirs => other (inv.apart u t j d c theirs mine)⟩
  case cell => exact fun _ _ => id
  case mappings => exact inv.mappings t
  case origin => exact inv.held
  case poison => exact inv.poisoned
  case halted => exact inv.halted t
  case still => exact id
  case abort => exact inv.aborted

/-- **A change of anything but files.** -/
theorem stay (inv : DumpInv d fatal owns s) {own : DumpOwn} {s' : DumpState} (files : s'.files = s.files)
    (entry : own.entry = (owns t).entry) (file : own.file = (owns t).file)
    (cell : ∀ library m, s.mappings library = .forced m → s'.mappings library = .forced m)
    (mappings : ∀ m library, own.mappings = some m → d.library t = some library → s'.mappings library = .forced m)
    (origin : ∀ library m, s'.mappings library = .forced m → d.Held library m)
    (poison : ∀ library, s'.mappings library = .poisoned → d.Broken library)
    (halted : own.halted = true → s'.aborted = true) (still : s.aborted = true → s'.aborted = true)
    (abort : s'.aborted = true → ∃ u, d.Ends fatal s'.mappings u) :
    DumpInv d fatal (Function.update owns t own) s' := by
  refine inv.change (fun _ _ _ => by rw [files]) ?_ ?_ ?_ ?_ cell mappings origin poison halted still abort
  · exact fun name j here gone => absurd (entry.trans here) (gone j)
  · intro name j here
    rw [entry] at here
    rw [file, files]
    obtain ⟨leads, new, mine⟩ := inv.entry t name j here
    exact ⟨leads, new, mine, fun u other k theirs => other (inv.entry_apart theirs here)⟩
  · intro j c there _
    rwa [files]
  · intro j c mine
    rw [file] at mine
    rw [files]
    obtain ⟨there, beyond⟩ := inv.file t j c mine
    exact ⟨there, beyond, fun u other d theirs => other (inv.apart u t j d c theirs mine)⟩

/-- A change of one cell keeps what anybody saw, if it keeps the value. -/
theorem setCell (inv : DumpInv d fatal owns s) {own : DumpOwn} {library : Library}
    {cell : LazyCell (Option (List Mapping))} {aborted : Bool} (dumps : d.library t = some library)
    (entry : own.entry = (owns t).entry) (file : own.file = (owns t).file)
    (forced : ∀ m, s.mappings library = .forced m → cell = .forced m)
    (known : ∀ m, own.mappings = some m → cell = .forced m) (origin : ∀ m, cell = .forced m → d.Held library m)
    (poison : cell = .poisoned → d.Broken library)
    (halted : own.halted = true → aborted = true) (still : s.aborted = true → aborted = true)
    (abort : aborted = true → s.aborted = true ∨ ∃ panic, (d.answers t).mappings = .error (.abort panic)) :
    DumpInv d fatal (Function.update owns t own)
      { s with mappings := Function.update s.mappings library cell, aborted } := by
  have kept : ∀ l m, s.mappings l = .forced m → Function.update s.mappings library cell l = .forced m := by
    intro l m there
    by_cases same : l = library
    · subst same
      rw [Function.update_self]
      exact forced m there
    · rwa [Function.update_of_ne same]
  apply inv.stay
  case files => rfl
  case entry => exact entry
  case file => exact file
  case cell => exact kept
  case mappings =>
    intro m l seen dumps'
    obtain rfl := Option.some.inj (dumps.symm.trans dumps')
    exact (Function.update_self ..).trans (known m seen)
  case origin =>
    intro l m (here : Function.update s.mappings library cell l = _)
    by_cases same : l = library
    · subst same
      rw [Function.update_self] at here
      exact origin m here
    · rw [Function.update_of_ne same] at here
      exact inv.held l m here
  case poison =>
    intro l (here : Function.update s.mappings library cell l = _)
    by_cases same : l = library
    · subst same
      rw [Function.update_self] at here
      exact poison here
    · rw [Function.update_of_ne same] at here
      exact inv.poisoned l here
  case halted => exact halted
  case still => exact still
  case abort =>
    intro ended
    rcases abort ended with was | ⟨panic, why⟩
    · obtain ⟨u, why⟩ := inv.aborted was
      refine ⟨u, ?_⟩
      cases why with
      | callback library panic dumps why => exact .callback library panic dumps why
      | fatal known why seen => exact .fatal known why fun m l is dumps => kept l m (seen m l is dumps)
    · exact ⟨t, .callback library panic dumps why⟩

/-- **Seeing the mappings** leaves them forced, or changes nothing of what anybody saw. -/
theorem see (inv : DumpInv d fatal owns s) {library : Library} (dumps : d.library t = some library) :
    ∃ own, DumpLeaves (d.answers t) (d.Taken t) d.Broken (owns t) (.mappings library)
        (dumpEffect (d.answers t) s (.mappings library)).1 own ∧
      DumpInv d fatal (Function.update owns t own) (dumpEffect (d.answers t) s (.mappings library)).2 := by
  have still : ∀ result : Except Crash (Option (List Mapping)), s.aborted = true →
      (s.aborted || aborts result) = true := by
    intro result was
    rw [was, Bool.true_or]
  have sofar : ∀ result : Except Crash (Option (List Mapping)), (owns t).halted = true →
      (s.aborted || aborts result) = true := fun result ended => still result (inv.halted t ended)
  have goes : ∀ {result : Except Crash (Option (List Mapping))}, aborts result = false →
      (s.aborted || aborts result) = true →
        s.aborted = true ∨ ∃ panic, (d.answers t).mappings = .error (.abort panic) := by
    intro result goes halted
    rw [goes, Bool.or_false] at halted
    exact .inl halted
  simp only [dumpEffect]
  cases cell : s.mappings library with
  | forced m =>
    refine ⟨{ owns t with mappings := some m }, .known library m,
      inv.setCell dumps rfl rfl ?_ ?_ ?_ nofun (sofar _) (still _) (goes rfl)⟩
    · intro m' there
      exact cell.symm.trans there
    · intro m' known
      cases known
      rfl
    · intro m' here
      exact inv.held library m' (cell.trans here)
  | poisoned =>
    have broken := inv.poisoned library cell
    refine ⟨owns t, .panicked library _ broken,
      inv.setCell dumps rfl rfl ?_ ?_ nofun (fun _ => broken) (sofar _) (still _) (goes rfl)⟩
    · intro m' there
      exact cell.symm.trans there
    · intro m' known
      exact cell.symm.trans (inv.mappings t m' library known dumps)
  | unforced =>
    have unknown : ∀ m, (owns t).mappings ≠ some m := by
      intro m known
      have forced := inv.mappings t m library known dumps
      rw [cell] at forced
      cases forced
    have never : ∀ m, s.mappings library ≠ .forced m := by
      intro m there
      rw [cell] at there
      cases there
    cases init : (d.answers t).mappings with
    | ok m =>
      refine ⟨{ owns t with mappings := some m }, .known library m,
        inv.setCell dumps rfl rfl ?_ ?_ ?_ nofun (sofar _) (still _) (goes rfl)⟩
      · intro m' there
        exact absurd there (never m')
      · intro m' known
        cases known
        rfl
      · intro m' here
        cases here
        exact .inr ⟨t, dumps, init⟩
    | error crash =>
      cases crash with
      | unwind panic =>
        have broken : d.Broken library := .inr ⟨t, panic, dumps, init⟩
        refine ⟨owns t, .panicked library panic broken,
          inv.setCell dumps rfl rfl ?_ ?_ nofun (fun _ => broken) (sofar _) (still _) (goes rfl)⟩
        · intro m' there
          exact absurd there (never m')
        · intro m' known
          exact absurd known (unknown m')
      | abort panic =>
        refine ⟨{ owns t with halted := true }, .aborted library panic init,
          inv.setCell dumps rfl rfl ?_ ?_ nofun nofun (fun _ => Bool.or_true _) (still _) fun _ => .inr ⟨panic, init⟩⟩
        · intro m' there
          exact absurd there (never m')
        · intro m' known
          exact absurd known (unknown m')

/-- **The end of the process** changes nothing else. -/
theorem abort (inv : DumpInv d fatal owns s) (why : fatal t (owns t).mappings) :
    DumpInv d fatal (Function.update owns t { owns t with halted := true }) { s with aborted := true } := by
  apply inv.stay
  case files => rfl
  case entry => rfl
  case file => rfl
  case cell => exact fun _ _ => id
  case mappings => exact inv.mappings t
  case origin => exact inv.held
  case poison => exact inv.poisoned
  case halted => exact fun _ => rfl
  case still => exact fun _ => rfl
  case abort => exact fun _ => ⟨t, .fatal (owns t).mappings why fun m library => inv.mappings t m library⟩

omit [DecidableEq T] in
/-- A name that is there was there, or another dump drew it. -/
theorem taken (inv : DumpInv d fatal owns s) (bare : (owns t).entry = none) {path : FilePath}
    (there : (s.files.file path).isSome = true) : d.Taken t path := by
  by_cases held : ∃ u i, (owns u).entry = some (path, i)
  · obtain ⟨u, i, held⟩ := held
    refine .inr ⟨u, ?_, (inv.entry u path i held).2.2.2⟩
    rintro rfl
    rw [bare] at held
    cases held
  · left
    rw [← inv.others path fun u i here => held ⟨u, i, here⟩]
    exact Option.isSome_iff_ne_none.1 there

end DumpInv

/-- **One operation of one dump** leaves every other dump what it holds. -/
theorem dumpEffect_keeps {T : Type} [DecidableEq T] {d : Dumps T}
    {fatal : T → Option (Option (List Mapping)) → Prop} {s : DumpState} {owns : T → DumpOwn} (t : T)
    (op : DumpOp) (inv : DumpInv d fatal owns s) (needs : DumpNeeds (d.library t) (fatal t) (owns t) op) :
    ∃ own, DumpLeaves (d.answers t) (d.Taken t) d.Broken (owns t) op (dumpEffect (d.answers t) s op).1 own ∧
      DumpInv d fatal (Function.update owns t own) (dumpEffect (d.answers t) s op).2 := by
  have unchanged : DumpInv d fatal (Function.update owns t (owns t)) s := by
    rw [Function.update_eq_self]
    exact inv
  cases op with
  | newTempFile =>
    unfold dumpEffect
    split
    · rename_i e fails
      refine ⟨owns t, .notCreated e ?_, unchanged⟩
      rw [CannotCreate, fails]
    · rename_i names drawn
      split
      · rename_i path file files created
        obtain ⟨mem, created⟩ := Files.createFirst_eq_some created
        exact ⟨_, .created ⟨path, file⟩, inv.create needs ⟨names, drawn, mem⟩ created⟩
      · rename_i exhausted
        refine ⟨owns t, .notCreated _ ?_, unchanged⟩
        rw [CannotCreate, drawn]
        exact ⟨rfl, fun name mem => inv.taken needs (Files.createFirst_eq_none exhausted name mem)⟩
  | profDump path =>
    obtain ⟨file, held⟩ := needs
    exact ⟨_, .dumped path file held, inv.write held (d.answers t).text⟩
  | unlink path =>
    obtain ⟨file, held⟩ := needs
    exact ⟨_, .unlinked path, inv.remove held⟩
  | mappings library => exact inv.see needs
  | read file =>
    obtain ⟨c, held⟩ := needs
    have contents : s.files.contents.getD file [] = c := by
      rw [List.getD_eq_getElem?_getD, (inv.file t file c held).1, Option.getD_some]
    refine ⟨owns t, ?_, unchanged⟩
    rw [dumpEffect, contents]
    exact .read file c held
  | abort => exact ⟨_, .halted, inv.abort needs⟩

/-- What dumps hold, and how they keep out of each other's way. -/
def dumpProtocol {T : Type} [DecidableEq T] (d : Dumps T)
    (fatal : T → Option (Option (List Mapping)) → Prop) :
    Protocol always (fun t => dumpEffect (d.answers t)) DumpOwn where
  Inv := DumpInv d fatal
  Needs t := DumpNeeds (d.library t) (fatal t)
  Leaves t := DumpLeaves (d.answers t) (d.Taken t) d.Broken
  keeps := fun _ _ t op inv needs _ => dumpEffect_keeps t op inv needs

/-! ## The operations -/

section
variable {T : Type} [DecidableEq T] {d : Dumps T} {fatal : T → Option (Option (List Mapping)) → Prop} {t : T}
  {own : DumpOwn} {α : Type} {Q : DumpOwn → α → Prop}

theorem newTempFile_follows {next : Except FileError NamedTempFile → DumpProg α} (bare : own.entry = none)
    (created : ∀ f, (dumpProtocol d fatal).Follows t Q
      { own with entry := some (f.path, f.file), file := some (f.file, []) } (next (.ok f)))
    (refused : ∀ e, CannotCreate (d.answers t) (d.Taken t) e →
      (dumpProtocol d fatal).Follows t Q own (next (.error e))) :
    (dumpProtocol d fatal).Follows t Q own (NamedTempFile.new >>= next) := by
  refine ⟨bare, fun r own' leaves => ?_⟩
  cases leaves with
  | created f => exact created f
  | notCreated e fails => exact refused e fails

theorem profDump_follows {next : Option CtlError → DumpProg α} {path : FilePath} {file : Nat}
    (held : own.entry = some (path, file))
    (rest : (dumpProtocol d fatal).Follows t Q { own with file := some (file, (d.answers t).text) }
      (next (d.answers t).dump)) :
    (dumpProtocol d fatal).Follows t Q own (profDump path >>= next) := by
  refine ⟨⟨file, held⟩, fun r own' leaves => ?_⟩
  cases leaves with
  | dumped _ file' held' =>
    rw [held] at held'
    cases held'
    exact rest

theorem unlink_follows {next : Unit → DumpProg α} {path : FilePath} {file : Nat} (held : own.entry = some (path, file))
    (rest : (dumpProtocol d fatal).Follows t Q { own with entry := none } (next ())) :
    (dumpProtocol d fatal).Follows t Q own (unlink path >>= next) := by
  refine ⟨⟨file, held⟩, fun r own' leaves => ?_⟩
  cases leaves
  exact rest

theorem mappings_follows {library : Library} {next : Except Crash (Option (List Mapping)) → DumpProg α}
    (dumps : d.library t = some library)
    (seen : ∀ m, (dumpProtocol d fatal).Follows t Q { own with mappings := some m } (next (.ok m)))
    (panicked : ∀ panic, d.Broken library → (dumpProtocol d fatal).Follows t Q own (next (.error (.unwind panic))))
    (aborted : ∀ panic, (d.answers t).mappings = .error (.abort panic) →
      (dumpProtocol d fatal).Follows t Q { own with halted := true } (next (.error (.abort panic)))) :
    (dumpProtocol d fatal).Follows t Q own (mappingsAsDeref library >>= next) := by
  refine ⟨dumps, fun r own' leaves => ?_⟩
  cases leaves with
  | known _ m => exact seen m
  | panicked _ panic why => exact panicked panic why
  | aborted _ panic why => exact aborted panic why

theorem readLines_follows {next : List (Except IoError String) → DumpProg α} {file : Nat} {c : Bytes}
    (held : own.file = some (file, c))
    (rest : (dumpProtocol d fatal).Follows t Q own (next (readerLines c (d.answers t).readFails))) :
    (dumpProtocol d fatal).Follows t Q own (readLines file >>= next) := by
  refine ⟨⟨c, held⟩, fun r own' leaves => ?_⟩
  cases leaves with
  | read _ c' held' =>
    rw [held] at held'
    cases held'
    exact rest

theorem abort_follows {next : Unit → DumpProg α} (why : fatal t own.mappings)
    (rest : (dumpProtocol d fatal).Follows t Q { own with halted := true } (next ())) :
    (dumpProtocol d fatal).Follows t Q own (abort >>= next) := by
  refine ⟨why, fun r own' leaves => ?_⟩
  cases leaves
  exact rest

end

end JemallocPprof
