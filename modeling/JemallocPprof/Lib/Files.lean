import Mathlib.Data.List.Basic
import Mathlib.Logic.Function.Basic

/-!
# Names and files

A name leads to a file, and a file keeps its contents when its name is removed.
`create` refuses a name that is taken, `write` truncates the file of a name or
makes one, and a handle reads a file by its number.
-/

namespace Lib
set_option autoImplicit false

structure Files (P C : Type) where
  /-- The file each name leads to. -/
  file : P → Option Nat
  contents : List C

namespace Files
variable {P C : Type} [DecidableEq P] (files : Files P C)

/-- A new file under a new name (`O_CREAT | O_EXCL`). -/
def create (name : P) (c : C) : Option (Nat × Files P C) :=
  if (files.file name).isSome then none
  else some (files.contents.length,
    ⟨Function.update files.file name (some files.contents.length), files.contents ++ [c]⟩)

/-- The first of the names that is new. -/
def createFirst (names : List P) (c : C) : Option (P × Nat × Files P C) :=
  names.findSome? fun name => (files.create name c).map (Prod.mk name)

/-- The contents of the file under a name (`O_CREAT | O_TRUNC`). -/
def write (name : P) (c : C) : Files P C :=
  match files.file name with
  | some i => ⟨files.file, files.contents.set i c⟩
  | none => ⟨Function.update files.file name (some files.contents.length), files.contents ++ [c]⟩

def unlink (name : P) : Files P C := ⟨Function.update files.file name none, files.contents⟩

variable {files} {name : P} {i : Nat} {c : C} {files' : Files P C}

theorem create_eq_some (h : files.create name c = some (i, files')) :
    files.file name = none ∧ i = files.contents.length ∧
      files' = ⟨Function.update files.file name (some i), files.contents ++ [c]⟩ := by
  unfold create at h
  split at h
  · cases h
  · rename_i free
    cases h
    exact ⟨by simpa using free, rfl, rfl⟩

theorem createFirst_eq_some {names : List P} (h : files.createFirst names c = some (name, i, files')) :
    name ∈ names ∧ files.create name c = some (i, files') := by
  obtain ⟨n, mem, made⟩ := List.exists_of_findSome?_eq_some h
  obtain ⟨made', created, same⟩ := Option.map_eq_some_iff.1 made
  cases same
  exact ⟨mem, created⟩

theorem createFirst_eq_none {names : List P} (h : files.createFirst names c = none) :
    ∀ name ∈ names, (files.file name).isSome = true := by
  intro name mem
  have refused := List.findSome?_eq_none_iff.1 h name mem
  by_contra free
  simp [create, free] at refused

theorem write_of_file (there : files.file name = some i) :
    files.write name c = ⟨files.file, files.contents.set i c⟩ := by
  rw [write, there]

end Files

end Lib
