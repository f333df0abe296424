import Mathlib.Data.List.Forall2

/-!
# Loops whose body can fail

A loop over a list with an early exit is `List.foldlM` in `Except`. Its
invariant speaks of the items already consumed: `foldlM_run` carries it over a
run that returned, `foldlM_total` builds the run when each step succeeds.
-/

namespace Lib
set_option autoImplicit false

variable {ε α β : Type}

/-- A sequence that returned went through both of its halves. -/
theorem bind_ok {x : Except ε α} {f : α → Except ε β} {r : β} :
    (x >>= f) = .ok r ↔ ∃ a, x = .ok a ∧ f a = .ok r := by
  cases x with
  | error e => simp [bind, Except.bind]
  | ok a => simp [bind, Except.bind]

/-- An evaluated run that is no error returned something. -/
theorem exists_ok {x : Except ε α} (h : x.isOk = true) : ∃ a, x = .ok a := by
  cases x with
  | error e => cases h
  | ok a => exact ⟨a, rfl⟩

/-- An evaluated run returned something that passes a check. -/
theorem exists_ok_and {x : Except ε α} {c : α → Bool} (h : x.toOption.any c = true) :
    ∃ a, x = .ok a ∧ c a = true := by
  cases x with
  | error e => cases h
  | ok a => exact ⟨a, rfl, h⟩

@[simp] theorem pure_ok {a r : α} : (pure a : Except ε α) = .ok r ↔ a = r := by
  simp [pure, Except.pure]

@[simp] theorem mapError_ok {ε' : Type} {x : Except ε α} {f : ε → ε'} {a : α} :
    x.mapError f = .ok a ↔ x = .ok a := by
  cases x <;> simp [Except.mapError]

@[simp] theorem ok_bind {a : α} {f : α → Except ε β} : ((.ok a : Except ε α) >>= f) = f a := rfl

/-- **The run rule.** An invariant of the consumed prefix that every step
keeps holds of the whole list when the loop returns. -/
theorem foldlM_run {f : β → α → Except ε β} {I : List α → β → Prop} {items : List α} {b b' : β}
    (start : I [] b)
    (step : ∀ done a rest s s', done ++ a :: rest = items → I done s → f s a = .ok s' →
      I (done ++ [a]) s')
    (run : items.foldlM f b = .ok b') : I items b' := by
  have go : ∀ rest done s, done ++ rest = items → I done s → rest.foldlM f s = .ok b' →
      I items b' := by
    intro rest
    induction rest with
    | nil =>
      intro done s split inv run
      obtain rfl := pure_ok.1 run
      rwa [← split, List.append_nil]
    | cons a rest ih =>
      intro done s split inv run
      rw [List.foldlM_cons] at run
      obtain ⟨s', here, run⟩ := bind_ok.1 run
      have next := step done a rest s s' split inv here
      exact ih (done ++ [a]) s' (by simpa using split) next run
  exact go items [] b rfl start run

/-- **The progress rule.** A loop each of whose steps returns and keeps the
invariant returns, with the invariant of the whole list. -/
theorem foldlM_total {f : β → α → Except ε β} {I : List α → β → Prop} (items : List α) {b : β}
    (start : I [] b)
    (step : ∀ done a rest s, done ++ a :: rest = items → I done s →
      ∃ s', f s a = .ok s' ∧ I (done ++ [a]) s') :
    ∃ b', items.foldlM f b = .ok b' ∧ I items b' := by
  have go : ∀ rest done s, done ++ rest = items → I done s →
      ∃ b', rest.foldlM f s = .ok b' ∧ I items b' := by
    intro rest
    induction rest with
    | nil =>
      intro done s split inv
      exact ⟨s, rfl, by rwa [← split, List.append_nil]⟩
    | cons a rest ih =>
      intro done s split inv
      obtain ⟨s', here, next⟩ := step done a rest s split inv
      obtain ⟨b', run, last⟩ := ih (done ++ [a]) s' (by simpa using split) next
      exact ⟨b', by rw [List.foldlM_cons, here]; exact run, last⟩
  exact go items [] b rfl start

/-- An item that changes no state may stand anywhere. -/
theorem foldlM_insertIdx_skip {f : β → α → Except ε β} {items : List α} {a : α} (skips : ∀ s, f s a = .ok s)
    (k : Nat) (s : β) : (items.insertIdx k a).foldlM f s = items.foldlM f s := by
  induction items generalizing k s with
  | nil =>
    cases k with
    | zero => rw [List.insertIdx_zero, List.foldlM_cons, skips, ok_bind]
    | succ k => rw [List.insertIdx_succ_nil]
  | cons b items ih =>
    cases k with
    | zero => rw [List.insertIdx_zero, List.foldlM_cons, skips, ok_bind]
    | succ k =>
      rw [List.insertIdx_succ_cons, List.foldlM_cons, List.foldlM_cons]
      exact congrArg _ (funext fun s => ih k s)

/-- A loop whose steps commute with a change of state commutes with it. -/
theorem foldlM_map {f : β → α → Except ε β} {g : β → β} (commutes : ∀ s a, f (g s) a = (f s a).map g)
    (items : List α) (s : β) : items.foldlM f (g s) = (items.foldlM f s).map g := by
  induction items generalizing s with
  | nil => rfl
  | cons a items ih =>
    rw [List.foldlM_cons, List.foldlM_cons, commutes]
    cases f s a with
    | error e => rfl
    | ok s' => exact ih s'

/-- An item that is always refused stops every loop over it. -/
theorem foldlM_refused {f : β → α → Except ε β} {items : List α} {a : α} (mem : a ∈ items)
    (refuses : ∀ s s', f s a ≠ .ok s') (s s' : β) : items.foldlM f s ≠ .ok s' := by
  intro run
  obtain ⟨before, behind, rfl⟩ := List.append_of_mem mem
  rw [List.foldlM_append] at run
  obtain ⟨s₁, -, run⟩ := bind_ok.1 run
  rw [List.foldlM_cons] at run
  obtain ⟨s₂, here, -⟩ := bind_ok.1 run
  exact refuses s₁ s₂ here

/-- A loop that only appends appends the pieces in order. -/
theorem foldlM_append {f : List β → α → Except ε (List β)} {as : List α} {pieces : List (List β)}
    (appends : List.Forall₂ (fun a piece => ∀ s, f s a = .ok (s ++ piece)) as pieces) (s : List β) :
    as.foldlM f s = .ok (s ++ pieces.flatten) := by
  induction appends generalizing s with
  | nil =>
    rw [List.flatten_nil, List.append_nil]
    rfl
  | cons here _ ih => rw [List.foldlM_cons, here, ok_bind, ih, List.flatten_cons, List.append_assoc]

/-- A traversal returns exactly when each of its calls does. -/
theorem mapM_ok {f : α → Except ε β} {as : List α} {bs : List β} :
    as.mapM f = .ok bs ↔ List.Forall₂ (fun a b => f a = .ok b) as bs := by
  induction as generalizing bs with
  | nil =>
    rw [List.mapM_nil, pure_ok, List.forall₂_nil_left_iff]
    exact eq_comm
  | cons a as ih =>
    rw [List.mapM_cons, bind_ok, List.forall₂_cons_left_iff]
    constructor
    · rintro ⟨b, here, run⟩
      obtain ⟨bs', rest, last⟩ := bind_ok.1 run
      exact ⟨b, bs', here, ih.1 rest, (pure_ok.1 last).symm⟩
    · rintro ⟨b, bs', here, rest, rfl⟩
      exact ⟨b, here, bind_ok.2 ⟨bs', ih.2 rest, pure_ok.2 rfl⟩⟩

/-- A traversal whose calls return returns. -/
theorem exists_mapM_ok {f : α → Except ε β} {as : List α} (each : ∀ a ∈ as, ∃ b, f a = .ok b) :
    ∃ bs, as.mapM f = .ok bs := by
  induction as with
  | nil => exact ⟨[], rfl⟩
  | cons a as ih =>
    obtain ⟨b, here⟩ := each a List.mem_cons_self
    obtain ⟨bs, rest⟩ := ih fun c mem => each c (List.mem_cons_of_mem _ mem)
    exact ⟨b :: bs, mapM_ok.2 (.cons here (mapM_ok.1 rest))⟩

/-- A traversal in `Option` has a result exactly when each of its calls has. -/
theorem mapM_some {f : α → Option β} {as : List α} {bs : List β} :
    as.mapM f = some bs ↔ List.Forall₂ (fun a b => f a = some b) as bs := by
  induction as generalizing bs with
  | nil =>
    rw [List.mapM_nil, List.forall₂_nil_left_iff]
    simp [eq_comm]
  | cons a as ih =>
    rw [List.mapM_cons, List.forall₂_cons_left_iff]
    simp only [Option.bind_eq_bind, Option.bind_eq_some_iff, ih, Option.pure_def, Option.some.injEq]
    constructor
    · rintro ⟨b, here, bs', rest, rfl⟩
      exact ⟨b, bs', here, rest, rfl⟩
    · rintro ⟨b, bs', here, rest, rfl⟩
      exact ⟨b, here, bs', rest, rfl⟩

/-- A traversal whose calls have results has one. -/
theorem exists_mapM_some {f : α → Option β} {as : List α} (each : ∀ a ∈ as, ∃ b, f a = some b) :
    ∃ bs, as.mapM f = some bs := by
  induction as with
  | nil => exact ⟨[], rfl⟩
  | cons a as ih =>
    obtain ⟨b, here⟩ := each a List.mem_cons_self
    obtain ⟨bs, rest⟩ := ih fun c mem => each c (List.mem_cons_of_mem _ mem)
    exact ⟨b :: bs, mapM_some.2 (.cons here (mapM_some.1 rest))⟩

end Lib
