import JemallocPprof.Lib.IntType
import JemallocPprof.Runtime

/-!
# `cast.rs`: infallible casts

`cast_from!` is `as` behind a list of type pairs, and what makes it infallible is
the list alone. Between two types the list has a pair just where `as` keeps every
value (`castFrom_iff`). The other modules read a `cast_from` as the number it is
given.
-/

namespace JemallocPprof
set_option autoImplicit false
open Lib

/-- The primitive integer types. -/
inductive PrimInt where
  | u8 | u16 | u32 | u64 | u128 | usize
  | i8 | i16 | i32 | i64 | i128 | isize
  deriving DecidableEq

/-- `target_pointer_width`. -/
inductive PointerWidth where
  | w32 | w64
  deriving DecidableEq

def PointerWidth.bits : PointerWidth → Nat
  | .w32 => 32
  | .w64 => 64

theorem PointerWidth.bits_pos (width : PointerWidth) : 0 < width.bits := by
  cases width <;> decide

def PrimInt.type (width : PointerWidth) : PrimInt → IntType
  | u8 => ⟨false, 8, by decide⟩
  | u16 => ⟨false, 16, by decide⟩
  | u32 => ⟨false, 32, by decide⟩
  | u64 => ⟨false, 64, by decide⟩
  | u128 => ⟨false, 128, by decide⟩
  | usize => ⟨false, width.bits, width.bits_pos⟩
  | i8 => ⟨true, 8, by decide⟩
  | i16 => ⟨true, 16, by decide⟩
  | i32 => ⟨true, 32, by decide⟩
  | i64 => ⟨true, 64, by decide⟩
  | i128 => ⟨true, 128, by decide⟩
  | isize => ⟨true, width.bits, width.bits_pos⟩

section Tables
open PrimInt

/-- The casts of `target32`. -/
def target32 : List (PrimInt × PrimInt) :=
  -- size_of<from> < size_of<target>
  [(u8, usize), (u16, usize), (u8, isize), (i8, isize), (u16, isize), (i16, isize),
   (usize, u64), (usize, i64), (usize, u128), (usize, i128), (isize, i64), (isize, i128),
   -- size_of<from> == size_of<target>
   (usize, u32), (isize, i32), (u32, usize), (i32, isize)]

/-- The casts of `target64`. -/
def target64 : List (PrimInt × PrimInt) :=
  -- size_of<from> < size_of<target>
  [(u8, usize), (u16, usize), (u32, usize), (u8, isize), (i8, isize), (u16, isize), (i16, isize), (u32, isize),
   (i32, isize), (usize, u128), (usize, i128), (isize, i128),
   -- size_of<from> == size_of<target>
   (usize, u64), (isize, i64), (u64, usize), (i64, isize)]

/-- The casts of every target. -/
def everyTarget : List (PrimInt × PrimInt) :=
  [(u8, u8), (u8, u16), (u8, i16), (u8, u32), (u8, i32), (u8, u64), (u8, i64), (u8, u128), (u8, i128),
   (u16, u16), (u16, u32), (u16, i32), (u16, u64), (u16, i64), (u16, u128), (u16, i128),
   (u32, u32), (u32, u64), (u32, i64), (u32, u128), (u32, i128),
   (u64, u64), (u64, u128), (u64, i128),
   (i8, i8), (i8, i16), (i8, i32), (i8, i64), (i8, i128),
   (i16, i16), (i16, i32), (i16, i64), (i16, i128),
   (i32, i32), (i32, i64), (i32, i128),
   (i64, i64), (i64, i128)]

end Tables

/-- The pairs that `cast_from!` is called for. -/
def castFromPairs : PointerWidth → List (PrimInt × PrimInt)
  | .w32 => target32 ++ everyTarget
  | .w64 => target64 ++ everyTarget

/-- `from as $to`. -/
def castFrom (width : PointerWidth) (target : PrimInt) (value : Int) : Int := (target.type width).wrap value

def PrimInt.all : List PrimInt := [u8, u16, u32, u64, u128, usize, i8, i16, i32, i64, i128, isize]

theorem PrimInt.mem_all (a : PrimInt) : a ∈ all := by
  cases a <;> decide

/-- The types' ranges against the lists. -/
theorem mem_castFromPairs (width : PointerWidth) {source target : PrimInt} (distinct : source ≠ target) :
    (source, target) ∈ castFromPairs width ↔ (source.type width).Embeds (target.type width) := by
  have lists : ∀ a ∈ PrimInt.all, ∀ b ∈ PrimInt.all, a ≠ b →
      ((a, b) ∈ castFromPairs width ↔ (a.type width).Embeds (b.type width)) := by
    cases width <;> decide +kernel
  exact lists source source.mem_all target target.mem_all distinct

/-- Two types have a cast just where it keeps every value. -/
theorem castFrom_iff (width : PointerWidth) {source target : PrimInt} (distinct : source ≠ target) :
    (source, target) ∈ castFromPairs width ↔
      ∀ value, (source.type width).Mem value → castFrom width target value = value := by
  rw [mem_castFromPairs width distinct]
  exact IntType.embeds_iff

theorem castFrom_u32_usize : (PrimInt.u32, PrimInt.usize) ∈ castFromPairs .w32 ↔
    ∀ value, (PrimInt.u32.type .w32).Mem value → castFrom .w32 .usize value = value :=
  castFrom_iff .w32 (by decide)

end JemallocPprof
