import JemallocPprof.Lib.While

/-!
# Checks that can only stop

A program is built with or without checks; a check that finds something wrong
stops the run. `StopsOr stop x y` relates the run of the checked program to the
plain one's: it stopped with a failure that `stop` allows, or it is the same.
The rules are those of a relation between two programs of one shape; a `stop`
that holds only under a condition says why the checked run stopped.
-/

namespace Lib
set_option autoImplicit false

variable {ε σ α β : Type} {stop : ε → Prop}

/-- The checked run `x` stops as `stop` allows, or it is the plain run `y`. -/
def StopsOr (stop : ε → Prop) (x y : Except ε α) : Prop := (∃ e, stop e ∧ x = .error e) ∨ x = y

namespace StopsOr

theorem refl (x : Except ε α) : StopsOr stop x x := .inr rfl

theorem stopped {e : ε} (allowed : stop e) (y : Except ε α) : StopsOr stop (.error e) y := .inl ⟨e, allowed, rfl⟩

/-- What the checked run returned the plain one returns. -/
theorem returned {x y : Except ε α} (h : StopsOr stop x y) {a : α} (run : x = .ok a) : y = .ok a := by
  rcases h with ⟨e, -, rfl⟩ | rfl
  · cases run
  · exact run

theorem bind {x y : Except ε α} {f g : α → Except ε β} (first : StopsOr stop x y)
    (rest : ∀ a, y = .ok a → StopsOr stop (f a) (g a)) : StopsOr stop (x >>= f) (y >>= g) := by
  rcases first with ⟨e, allowed, rfl⟩ | rfl
  · exact stopped allowed _
  · cases x with
    | error e => exact .inr rfl
    | ok a => exact rest a rfl

/-- **A loop over a list** whose steps are checked. -/
theorem foldlM {f g : β → α → Except ε β} (items : List α)
    (steps : ∀ a ∈ items, ∀ s, StopsOr stop (f s a) (g s a)) (s : β) :
    StopsOr stop (items.foldlM f s) (items.foldlM g s) := by
  induction items generalizing s with
  | nil => exact refl _
  | cons a items ih =>
    rw [List.foldlM_cons, List.foldlM_cons]
    exact (steps a List.mem_cons_self s).bind fun s' _ =>
      ih (fun b mem => steps b (List.mem_cons_of_mem a mem)) s'

theorem mapError {ε' : Type} {stop' : ε' → Prop} {x y : Except ε α} (h : StopsOr stop x y) {f : ε → ε'}
    (also : ∀ e, stop e → stop' (f e)) : StopsOr stop' (x.mapError f) (y.mapError f) := by
  rcases h with ⟨e, allowed, rfl⟩ | rfl
  · exact stopped (also e allowed) _
  · exact refl _

variable {stop' : Stop ε → Prop}

theorem lift {x y : Except ε α} (h : StopsOr stop x y) (also : ∀ e, stop e → stop' (.error e)) :
    StopsOr stop' (Lib.lift x) (Lib.lift y) := by
  rcases h with ⟨e, allowed, rfl⟩ | rfl
  · exact stopped (also e allowed) _
  · exact refl _

/-- **A loop with a condition** whose turns are checked: the same fuel serves both. -/
theorem loop {turn turn' : σ → Except ε (Turn σ)} (turns : ∀ s, StopsOr stop (turn s) (turn' s))
    (also : ∀ e, stop e → stop' (.error e)) (fuel : Nat) (s : σ) :
    StopsOr stop' (Lib.loop turn fuel s) (Lib.loop turn' fuel s) := by
  induction fuel generalizing s with
  | zero => exact refl _
  | succ fuel ih =>
    rw [Lib.loop, Lib.loop]
    rcases turns s with ⟨e, allowed, here⟩ | same
    · rw [here]
      exact stopped (also e allowed) _
    · rw [same]
      cases turn' s with
      | error e => exact refl _
      | ok turned =>
        cases turned with
        | stop s' => exact refl _
        | next s' => exact ih s'

end StopsOr

end Lib
