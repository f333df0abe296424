import Mathlib.Data.List.Induction

/-!
# Runs of a machine

A machine takes one input after another. `Along P s inputs` says that every
step of the run has `P`, which speaks of the state the step starts in. An
invariant that the steps with `P` keep holds in every state such a run reaches
(`Along.invariant`).
-/

namespace Lib
set_option autoImplicit false

variable {σ ι : Type} (step : σ → ι → σ)

/-- The state after the inputs. -/
def after (s : σ) (inputs : List ι) : σ := inputs.foldl step s

/-- Every step of the run has `P`. -/
def Along (P : σ → ι → Prop) (s : σ) (inputs : List ι) : Prop :=
  ∀ done input rest, inputs = done ++ input :: rest → P (after step s done) input

variable {step} {P Q : σ → ι → Prop} {s : σ} {inputs done : List ι} {input : ι}

@[simp] theorem after_nil : after step s [] = s := rfl

@[simp] theorem after_cons : after step s (input :: inputs) = after step (step s input) inputs := rfl

theorem after_append (s : σ) (inputs more : List ι) :
    after step s (inputs ++ more) = after step (after step s inputs) more := List.foldl_append

@[simp] theorem along_nil : Along step P s [] := by
  intro done input rest split
  simp at split

theorem along_cons : Along step P s (input :: inputs) ↔ P s input ∧ Along step P (step s input) inputs := by
  constructor
  · intro h
    refine ⟨h [] input inputs rfl, ?_⟩
    intro done next rest split
    exact h (input :: done) next rest (by rw [split, List.cons_append])
  · rintro ⟨here, later⟩ done next rest split
    cases done with
    | nil =>
      obtain ⟨rfl, rfl⟩ := List.cons.inj split
      exact here
    | cons first done =>
      obtain ⟨rfl, behind⟩ := List.cons.inj split
      exact later done next rest behind

theorem Along.of_append (more : List ι) (h : Along step P s (inputs ++ more)) : Along step P s inputs := by
  intro done input rest split
  apply h done input (rest ++ more)
  rw [split, List.append_assoc, List.cons_append]

/-- **The invariant rule.** What the steps with `P` keep holds at the end of a
run of such steps. -/
theorem Along.invariant {I : σ → Prop} (h : Along step P s inputs) (start : I s)
    (keeps : ∀ s input, I s → P s input → I (step s input)) : I (after step s inputs) := by
  induction inputs generalizing s with
  | nil => exact start
  | cons input inputs ih =>
    obtain ⟨here, later⟩ := along_cons.1 h
    exact ih later (keeps s input start here)

/-- A run of steps with `P` is one of steps with `Q`, where `P` gives `Q` in the
states of the invariant. -/
theorem Along.imp {I : σ → Prop} (h : Along step P s inputs) (start : I s)
    (keeps : ∀ s input, I s → P s input → I (step s input))
    (gives : ∀ s input, I s → P s input → Q s input) : Along step Q s inputs := by
  induction inputs generalizing s with
  | nil => exact along_nil
  | cons input inputs ih =>
    obtain ⟨here, later⟩ := along_cons.1 h
    exact along_cons.2 ⟨gives s input start here, ih later (keeps s input start here)⟩

end Lib
