import JemallocPprof.Lib.Loop
import JemallocPprof.Lib.Utf8
import Mathlib.Algebra.Group.Int.Defs
import Mathlib.Algebra.Group.Nat.Defs

/-!
# What the crate takes from its environment

A run either returns or panics; `Panic` says why, and `Crash` what becomes of
the process. Address arithmetic is u64
(usize on the 64-bit targets): a build with overflow checks panics where a
release build wraps, so the operators read `Env.overflowChecks`. The clock and
`backtrace::resolve` are outside the repository and are fields of `Env`.
-/

namespace JemallocPprof
set_option autoImplicit false

/-- A property of a list's members is decided along the list, also where the
type of the members is finite (u64, characters) and could be walked whole. -/
instance (priority := 2000) decidableForallMem {α : Type} {p : α → Prop} [DecidablePred p] (as : List α) :
    Decidable (∀ a ∈ as, p a) :=
  List.decidableBAll p as

/-- How a run stops when it does not return. -/
inductive Panic where
  | arithmeticOverflow
  | unwrapNone
  | expectFailed (message : String)
  | assertFailed (message : String)
  deriving DecidableEq

/-- A panic unwinds its thread; where it would leave an `extern "C"` function it
aborts the process. -/
inductive Crash where
  | unwind (panic : Panic)
  | abort (panic : Panic)
  deriving DecidableEq

def Crash.panic : Crash → Panic
  | unwind panic => panic
  | abort panic => panic

/-- `Option::unwrap`. -/
def unwrap {α : Type} : Option α → Except Panic α
  | some a => .ok a
  | none => .error .unwrapNone

/-- `Option::expect`. -/
def expect {α : Type} (message : String) : Option α → Except Panic α
  | some a => .ok a
  | none => .error (.expectFailed message)

@[simp] theorem unwrap_ok {α : Type} {o : Option α} {a : α} : unwrap o = .ok a ↔ o = some a := by
  cases o <;> simp [unwrap]

@[simp] theorem expect_ok {α : Type} {message : String} {o : Option α} {a : α} :
    expect message o = .ok a ↔ o = some a := by
  cases o <;> simp [expect]

/-- `a - b` on u64. -/
def u64Sub (overflowChecks : Bool) (a b : UInt64) : Except Panic UInt64 :=
  if overflowChecks && a < b then .error .arithmeticOverflow else .ok (a - b)

/-- `a + b` on u64. -/
def u64Add (overflowChecks : Bool) (a b : UInt64) : Except Panic UInt64 :=
  if overflowChecks && 2 ^ 64 ≤ a.toNat + b.toNat then .error .arithmeticOverflow else .ok (a + b)

/-- The integers of i64. -/
def InI64 (i : Int) : Prop := -2 ^ 63 ≤ i ∧ i < 2 ^ 63

instance (i : Int) : Decidable (InI64 i) := inferInstanceAs (Decidable (_ ∧ _))

/-- `a + b` on i64. -/
def i64Add (overflowChecks : Bool) (a b : Int) : Except Panic Int :=
  if InI64 (a + b) then .ok (a + b)
  else if overflowChecks then .error .arithmeticOverflow else .ok ((a + b).bmod (2 ^ 64))

/-- A path or a raw symbol name: bytes, not necessarily UTF-8. -/
abbrev Bytes := List UInt8

/-- `backtrace::SymbolName`: the demangled form `{:#}` prints, and the raw bytes. -/
structure SymbolName where
  demangled : String
  bytes : Bytes
  deriving DecidableEq

/-- `backtrace::Symbol`. -/
structure Symbol where
  name : Option SymbolName
  lineno : Option UInt32
  filename : Option Bytes
  deriving DecidableEq

/-- The build and the outside world of one run. -/
structure Env where
  overflowChecks : Bool
  /-- `SystemTime::now()` in nanoseconds after the epoch, negative before it. -/
  now : Int
  /-- `backtrace::resolve` with the `symbolize` feature, `none` without. -/
  symbolize : Option (UInt64 → List Symbol)

namespace Env

variable (env : Env)

/-- The symbols the callback is called on, in order. -/
def resolve (addr : UInt64) : List Symbol :=
  match env.symbolize with
  | some resolve => resolve addr
  | none => []

/-- `profile.time_nanos`. -/
def timeNanos : Except Panic Int := do
  let sinceEpoch ← expect "now is later than UNIX epoch" (if 0 ≤ env.now then some env.now else none)
  expect "the year 2554 is far away" (if sinceEpoch < 2 ^ 63 then some sinceEpoch else none)

/-- The clock stands between the epoch and the last nanosecond an i64 counts. -/
def ClockFits : Prop := 0 ≤ env.now ∧ env.now < 2 ^ 63

theorem timeNanos_of_fits (h : env.ClockFits) : env.timeNanos = .ok env.now := by
  simp only [timeNanos, if_pos h.1, expect, Lib.ok_bind, if_pos h.2]

end Env

theorem u64Sub_ok {checks : Bool} {a b c : UInt64} (h : u64Sub checks a b = .ok c) : c = a - b := by
  unfold u64Sub at h
  split at h
  · cases h
  · exact (Except.ok.inj h).symm

theorem u64Add_ok {checks : Bool} {a b c : UInt64} (h : u64Add checks a b = .ok c) : c = a + b := by
  unfold u64Add at h
  split at h
  · cases h
  · exact (Except.ok.inj h).symm

/-- Under overflow checks a subtraction returns exactly when it does not underflow. -/
theorem u64Sub_total {checks : Bool} {a b : UInt64} :
    u64Sub checks a b = .ok (a - b) ↔ (checks = true → b ≤ a) := by
  unfold u64Sub
  cases checks <;> simp

theorem u64Add_total {checks : Bool} {a b : UInt64} :
    u64Add checks a b = .ok (a + b) ↔ (checks = true → a.toNat + b.toNat < 2 ^ 64) := by
  unfold u64Add
  cases checks <;> simp

end JemallocPprof
