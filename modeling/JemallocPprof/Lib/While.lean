import JemallocPprof.Lib.Loop

/-!
# Loops with a condition

A `while` loop is told by its turn: from a state, go on with another or stop
with a last one. It may run forever, so `loop` takes fuel, and running out of it
is a failure of its own. `Runs` is the loop that ends; it is what `loop` returns
with enough fuel (`Runs.returns`), and every loop whose turns keep an invariant
and lower a measure is one (`runs_total`).
-/

namespace Lib
set_option autoImplicit false

/-- What a turn comes to. -/
inductive Turn (σ : Type) where
  | next (s : σ)
  | stop (s : σ)

/-- Why a run with fuel does not return. -/
inductive Stop (ε : Type) where
  | outOfFuel
  | error (e : ε)
  deriving DecidableEq

variable {ε σ α β : Type}

/-- A run that needs no fuel. -/
def lift (x : Except ε α) : Except (Stop ε) α :=
  match x with
  | .ok a => .ok a
  | .error e => .error (.error e)

/-- The loop, for at most `fuel` turns. -/
def loop (turn : σ → Except ε (Turn σ)) : Nat → σ → Except (Stop ε) σ
  | 0, _ => .error .outOfFuel
  | fuel + 1, s =>
    match turn s with
    | .error e => .error (.error e)
    | .ok (.stop s) => .ok s
    | .ok (.next s) => loop turn fuel s

/-- The loop from `s` ends in `s'`. -/
inductive Runs (turn : σ → Except ε (Turn σ)) : σ → σ → Prop where
  | stop {s s' : σ} (last : turn s = .ok (.stop s')) : Runs turn s s'
  | next {s s' s'' : σ} (first : turn s = .ok (.next s')) (rest : Runs turn s' s'') : Runs turn s s''

/-- With enough fuel the run returns `a`. -/
def Returns (run : Nat → Except (Stop ε) α) (a : α) : Prop := ∃ enough, ∀ fuel, enough ≤ fuel → run fuel = .ok a

theorem Returns.ok (a : α) : Returns (fun _ => (.ok a : Except (Stop ε) α)) a := ⟨0, fun _ _ => rfl⟩

theorem Returns.bind {x : Nat → Except (Stop ε) α} {f : Nat → α → Except (Stop ε) β} {a : α} {b : β}
    (first : Returns x a) (rest : Returns (fun fuel => f fuel a) b) :
    Returns (fun fuel => x fuel >>= f fuel) b := by
  obtain ⟨n, first⟩ := first
  obtain ⟨m, rest⟩ := rest
  refine ⟨max n m, fun fuel enough => ?_⟩
  show (x fuel >>= f fuel) = .ok b
  rw [first fuel (Nat.le_trans (Nat.le_max_left n m) enough), ok_bind]
  exact rest fuel (Nat.le_trans (Nat.le_max_right n m) enough)

/-- Failures renamed are failures all the same. -/
theorem Returns.mapError {ε' : Type} {x : Nat → Except (Stop ε) α} {a : α} (run : Returns x a)
    (f : Stop ε → Stop ε') : Returns (fun fuel => (x fuel).mapError f) a := by
  obtain ⟨enough, run⟩ := run
  exact ⟨enough, fun fuel le => congrArg (Except.mapError f) (run fuel le)⟩

/-- Enough fuel gives one result. -/
theorem Returns.unique {run : Nat → Except (Stop ε) α} {a b : α} (h : Returns run a) (h' : Returns run b) :
    a = b := by
  obtain ⟨n, h⟩ := h
  obtain ⟨m, h'⟩ := h'
  exact Except.ok.inj ((h _ (Nat.le_max_left n m)).symm.trans (h' _ (Nat.le_max_right n m)))

/-- **A loop over a list** returns when its steps do. -/
theorem Returns.foldlM {f : Nat → β → α → Except (Stop ε) β} {I : List α → β → Prop} (items : List α) {b : β}
    (start : I [] b)
    (step : ∀ done a rest s, done ++ a :: rest = items → I done s →
      ∃ s', Returns (fun fuel => f fuel s a) s' ∧ I (done ++ [a]) s') :
    ∃ b', Returns (fun fuel => items.foldlM (f fuel) b) b' ∧ I items b' := by
  have go : ∀ rest done s, done ++ rest = items → I done s →
      ∃ b', Returns (fun fuel => rest.foldlM (f fuel) s) b' ∧ I items b' := by
    intro rest
    induction rest with
    | nil =>
      intro done s split inv
      exact ⟨s, .ok s, by rwa [← split, List.append_nil]⟩
    | cons a rest ih =>
      intro done s split inv
      obtain ⟨s', here, next⟩ := step done a rest s split inv
      obtain ⟨b', later, last⟩ := ih (done ++ [a]) s' (by simpa using split) next
      refine ⟨b', ?_, last⟩
      simp only [List.foldlM_cons]
      exact here.bind later
  exact go items [] b rfl start

/-- **A traversal** returns when its calls do. -/
theorem Returns.mapM {f : Nat → α → Except (Stop ε) β} {as : List α} {bs : List β}
    (each : List.Forall₂ (fun a b => Returns (fun fuel => f fuel a) b) as bs) :
    Returns (fun fuel => as.mapM (f fuel)) bs := by
  induction each with
  | nil => exact .ok []
  | cons here _ ih =>
    simp only [List.mapM_cons]
    exact here.bind (ih.bind (.ok _))

section Loop
variable {turn : σ → Except ε (Turn σ)} {s s' s'' : σ}

/-- **A loop that ends** is returned with enough fuel. -/
theorem Runs.returns (h : Runs turn s s') : Returns (fun fuel => loop turn fuel s) s' := by
  induction h with
  | stop last =>
    refine ⟨1, fun fuel enough => ?_⟩
    obtain ⟨fuel, rfl⟩ := Nat.exists_eq_add_of_le' enough
    show loop turn (fuel + 1) _ = _
    rw [loop, last]
  | next first rest ih =>
    obtain ⟨n, ih⟩ := ih
    refine ⟨n + 1, fun fuel enough => ?_⟩
    obtain ⟨fuel, rfl⟩ := Nat.exists_eq_add_of_le' (Nat.le_trans (Nat.le_add_left 1 n) enough)
    show loop turn (fuel + 1) _ = _
    rw [loop, first]
    exact ih fuel (Nat.succ_le_succ_iff.1 enough)

theorem Runs.unique (h : Runs turn s s') (h' : Runs turn s s'') : s' = s'' := h.returns.unique h'.returns

/-- **The total rule.** Turns that keep an invariant and lower a measure end. -/
theorem runs_total {I Q : σ → Prop} (measure : σ → Nat) (start : I s)
    (turns : ∀ s, I s → (∃ s', turn s = .ok (.stop s') ∧ Q s') ∨
      ∃ s', turn s = .ok (.next s') ∧ I s' ∧ measure s' < measure s) :
    ∃ s', Runs turn s s' ∧ Q s' := by
  induction bound : measure s using Nat.strongRecOn generalizing s with
  | ind n ih =>
    rcases turns s start with ⟨s', last, final⟩ | ⟨s', first, kept, falls⟩
    · exact ⟨s', .stop last, final⟩
    · obtain ⟨s'', rest, final⟩ := ih _ (bound ▸ falls) kept rfl
      exact ⟨s'', .next first rest, final⟩

end Loop

end Lib
