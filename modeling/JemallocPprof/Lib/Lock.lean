import JemallocPprof.Lib.Threads

/-!
# A lock

A lock guards a state: who wants it waits until it is free, and only who has it
operates on the state. Threads that take the lock once each leave the state as
if their sections had run one after the other without interruption, in the order
in which they left them (`Serial`). `served` is that order, which the lock itself
does not need. `lockProtocol` says what a thread holds of the lock; a program
that runs a whole section follows it, and returns what the section does when it
runs alone (`section_follows`).
-/

namespace Lib
set_option autoImplicit false

inductive LockOp (Op : Type) where
  | lock
  | unlock
  /-- An operation on the state. -/
  | act (op : Op)

abbrev LockOp.Res {Op : Type} (Res : Op → Type) : LockOp Op → Type
  | .lock => Unit
  | .unlock => Unit
  | .act op => Res op

structure Guarded (T σ : Type) where
  owner : Option T
  state : σ
  /-- Who has had the lock, in order. -/
  served : List T

section
variable {T σ Op : Type} {Res : Op → Type}

def lockReady (s : Guarded T σ) : LockOp Op → Bool
  | .lock => s.owner.isNone
  | _ => true

def lockEffect (effect : T → σ → (op : Op) → Res op × σ) (t : T) (s : Guarded T σ) :
    (op : LockOp Op) → LockOp.Res Res op × Guarded T σ
  | .lock => ((), { s with owner := some t })
  | .unlock => ((), { s with owner := none, served := s.served ++ [t] })
  | .act op =>
    let (r, state) := effect t s.state op
    (r, { s with state })

/-! ## Programs -/

namespace Prog
variable {α : Type}

/-- The program without interruption. -/
def run (effect : σ → (op : Op) → Res op × σ) : Prog Op Res α → σ → α × σ
  | .done a, s => (a, s)
  | .act op next, s => (next (effect s op).1).run effect (effect s op).2

/-- The program on the guarded state. -/
def guard : Prog Op Res α → Prog (LockOp Op) (LockOp.Res Res) α
  | .done a => .done a
  | .act op next => .act (.act op) fun r => (next r).guard

def lock : Prog (LockOp Op) (LockOp.Res Res) Unit := .perform LockOp.lock

def unlock : Prog (LockOp Op) (LockOp.Res Res) Unit := .perform LockOp.unlock

/-- The program with the lock. -/
def underLock (x : Prog Op Res α) : Prog (LockOp Op) (LockOp.Res Res) α := do
  lock
  let a ← x.guard
  unlock
  return a

theorem Within.guard {n : Nat} {x : Prog Op Res α} (h : Within n x) : Within n x.guard := by
  induction x generalizing n with
  | done a => exact within_done n a
  | act op next ih =>
    cases n with
    | zero => exact h.elim
    | succ n => exact fun r => ih r (h r)

theorem Within.underLock {n : Nat} {x : Prog Op Res α} (h : Within n x) : Within (n + 2) x.underLock := by
  have rest : ∀ a, Within 1 (unlock >>= fun _ => (pure a : Prog (LockOp Op) (LockOp.Res Res) α)) :=
    fun a _ => within_done 0 a
  exact fun _ => h.guard.bind rest

end Prog

/-! ## What threads hold of a lock -/

/-- Where a thread is; `entered` is the state when it took the lock. -/
inductive Phase (σ : Type) where
  | outside
  | inside (entered now : σ)
  | left (entered : σ)

/-- What the sections of the threads come to, one after the other. -/
def serially (serial : T → σ → σ) (start : σ) (order : List T) : σ := after (fun s t => serial t s) start order

variable (serial : T → σ → σ) (start : σ)

/-- The state is what the sections have made of `start`, up to the one that is not over. -/
structure Serial (phases : T → Phase σ) (s : Guarded T σ) : Prop where
  nodup : s.served.Nodup
  served : ∀ t ∈ s.served, ∃ entered, phases t = .left entered
  left : ∀ t entered, phases t = .left entered →
    ∃ before behind, s.served = before ++ t :: behind ∧ entered = serially serial start before
  owner : ∀ t, s.owner = some t ↔ ∃ entered now, phases t = .inside entered now
  inside : ∀ t entered now, phases t = .inside entered now →
    entered = serially serial start s.served ∧ now = s.state
  free : s.owner = none → s.state = serially serial start s.served

def LockNeeds (t : T) (phase : Phase σ) : LockOp Op → Prop
  | .lock => phase = .outside
  | .unlock => ∃ entered, phase = .inside entered (serial t entered)
  | .act _ => ∃ entered now, phase = .inside entered now

inductive LockLeaves (effect : T → σ → (op : Op) → Res op × σ) (t : T) (phase : Phase σ) :
    (op : LockOp Op) → LockOp.Res Res op → Phase σ → Prop where
  | locked (entered : σ) : LockLeaves effect t phase .lock () (.inside entered entered)
  | unlocked (entered now : σ) (held : phase = .inside entered now) :
      LockLeaves effect t phase .unlock () (.left entered)
  | acted (op : Op) (entered now : σ) (held : phase = .inside entered now) :
      LockLeaves effect t phase (.act op) (effect t now op).1 (.inside entered (effect t now op).2)

variable {serial start} {effect : T → σ → (op : Op) → Res op × σ} {phases : T → Phase σ} {s : Guarded T σ} {t : T}

theorem Serial.initial (state : σ) : Serial serial state (fun _ : T => Phase.outside) ⟨none, state, []⟩ where
  nodup := .nil
  served := nofun
  left := nofun
  owner := by simp
  inside := nofun
  free := fun _ => rfl

variable [DecidableEq T]

theorem Serial.lock (h : Serial serial start phases s) (out : phases t = .outside) (free : s.owner = none) :
    Serial serial start (Function.update phases t (.inside s.state s.state)) { s with owner := some t } where
  nodup := h.nodup
  served := by
    intro u mem
    obtain ⟨entered, left⟩ := h.served u mem
    refine ⟨entered, ?_⟩
    rwa [Function.update_of_ne]
    rintro rfl
    cases out.symm.trans left
  left := by
    intro u entered left
    by_cases same : u = t
    · subst same
      rw [Function.update_self] at left
      cases left
    · rw [Function.update_of_ne same] at left
      exact h.left u entered left
  owner := by
    intro u
    by_cases same : u = t
    · subst same
      simp
    · rw [Function.update_of_ne same, ← h.owner u, free]
      simp [Ne.symm same]
  inside := by
    intro u entered now inside
    by_cases same : u = t
    · subst same
      rw [Function.update_self] at inside
      cases inside
      exact ⟨h.free free, rfl⟩
    · rw [Function.update_of_ne same] at inside
      exact h.inside u entered now inside
  free := nofun

/-- A section that is over is the next one of the order. -/
theorem Serial.unlock (h : Serial serial start phases s) {entered : σ}
    (inside : phases t = .inside entered (serial t entered)) :
    Serial serial start (Function.update phases t (.left entered))
      { s with owner := none, served := s.served ++ [t] } := by
  obtain ⟨first, now⟩ := h.inside t entered _ inside
  have owner := (h.owner t).2 ⟨_, _, inside⟩
  have new : t ∉ s.served := by
    intro mem
    obtain ⟨_, left⟩ := h.served t mem
    cases inside.symm.trans left
  refine ⟨?_, ?_, ?_, ?_, ?_, ?_⟩
  · exact List.nodup_append.2 ⟨h.nodup, List.nodup_singleton t, fun u mem v last => by
      rintro rfl
      exact new (List.mem_singleton.1 last ▸ mem)⟩
  · intro u mem
    by_cases same : u = t
    · exact ⟨entered, by rw [same, Function.update_self]⟩
    · rw [Function.update_of_ne same]
      rcases List.mem_append.1 mem with before | last
      · exact h.served u before
      · exact absurd (List.mem_singleton.1 last) same
  · intro u entered' left
    by_cases same : u = t
    · subst same
      rw [Function.update_self] at left
      cases left
      exact ⟨s.served, [], rfl, first⟩
    · rw [Function.update_of_ne same] at left
      obtain ⟨before, behind, split, is⟩ := h.left u entered' left
      exact ⟨before, behind ++ [t], by simp only [split, List.append_assoc, List.cons_append], is⟩
  · intro u
    by_cases same : u = t
    · subst same
      simp
    · rw [Function.update_of_ne same, ← h.owner u, owner]
      simp [Ne.symm same]
  · intro u entered' now' inside'
    by_cases same : u = t
    · subst same
      rw [Function.update_self] at inside'
      cases inside'
    · rw [Function.update_of_ne same] at inside'
      have also := (h.owner u).2 ⟨_, _, inside'⟩
      exact absurd (Option.some.inj (also.symm.trans owner)) same
  · intro _
    show s.state = _
    rw [← now, first, serially, serially, after, after, List.foldl_append]
    rfl

theorem Serial.act (h : Serial serial start phases s) {entered now : σ} (inside : phases t = .inside entered now)
    (state : σ) : Serial serial start (Function.update phases t (.inside entered state)) { s with state } := by
  have owner := (h.owner t).2 ⟨_, _, inside⟩
  refine ⟨h.nodup, ?_, ?_, ?_, ?_, ?_⟩
  · intro u mem
    obtain ⟨entered', left⟩ := h.served u mem
    refine ⟨entered', ?_⟩
    rwa [Function.update_of_ne]
    rintro rfl
    cases inside.symm.trans left
  · intro u entered' left
    by_cases same : u = t
    · subst same
      rw [Function.update_self] at left
      cases left
    · rw [Function.update_of_ne same] at left
      exact h.left u entered' left
  · intro u
    rw [h.owner u]
    by_cases same : u = t
    · subst same
      simp [inside]
    · rw [Function.update_of_ne same]
  · intro u entered' now' inside'
    by_cases same : u = t
    · subst same
      rw [Function.update_self] at inside'
      cases inside'
      exact ⟨(h.inside u entered now inside).1, rfl⟩
    · rw [Function.update_of_ne same] at inside'
      have also := (h.owner u).2 ⟨_, _, inside'⟩
      exact absurd (Option.some.inj (also.symm.trans owner)) same
  · intro free
    rw [owner] at free
    cases free

/-- What threads hold of a lock. -/
def lockProtocol (effect : T → σ → (op : Op) → Res op × σ) (serial : T → σ → σ) (start : σ) :
    Protocol lockReady (lockEffect effect) (Phase σ) where
  Inv := Serial serial start
  Needs := LockNeeds serial
  Leaves := LockLeaves effect
  keeps := by
    rintro phases s t (_ | _ | op) inv needs now
    · exact ⟨_, .locked s.state, inv.lock needs (Option.isNone_iff_eq_none.1 now)⟩
    · obtain ⟨entered, inside⟩ := needs
      exact ⟨_, .unlocked entered _ inside, inv.unlock inside⟩
    · obtain ⟨entered, now, inside⟩ := needs
      obtain ⟨-, rfl⟩ := inv.inside t entered now inside
      exact ⟨_, .acted op entered _ inside, inv.act inside _⟩

/-! ## Rules -/

section Rules
variable {α : Type} {entered now : σ}

theorem lock_follows : (lockProtocol effect serial start).Follows t
    (fun phase (_ : Unit) => ∃ entered, phase = .inside entered entered) .outside Prog.lock := by
  refine ⟨rfl, fun r phase leaves => ?_⟩
  cases leaves
  exact ⟨_, rfl⟩

theorem unlock_follows (made : now = serial t entered) : (lockProtocol effect serial start).Follows t
    (fun phase (_ : Unit) => phase = .left entered) (.inside entered now) Prog.unlock := by
  refine ⟨⟨entered, congrArg _ made⟩, fun r phase leaves => ?_⟩
  cases leaves with
  | unlocked _ _ held =>
    cases held
    exact rfl

/-- **With the lock** a program runs as it does alone. -/
theorem run_follows (x : Prog Op Res α) :
    (lockProtocol effect serial start).Follows t
      (fun phase a => phase = .inside entered (x.run (effect t) now).2 ∧ a = (x.run (effect t) now).1)
      (.inside entered now) x.guard := by
  induction x generalizing now with
  | done a => exact ⟨rfl, rfl⟩
  | act op next ih =>
    refine ⟨⟨entered, now, rfl⟩, fun r phase leaves => ?_⟩
    cases leaves with
    | acted _ _ _ held =>
      cases held
      exact ih _

/-- **A whole section** returns what it does when it runs alone. -/
theorem section_follows (x : Prog Op Res α) (whole : ∀ s, serial t s = (x.run (effect t) s).2) :
    (lockProtocol effect serial start).Follows t
      (fun phase a => ∃ entered, phase = .left entered ∧ a = (x.run (effect t) entered).1) .outside x.underLock := by
  refine lock_follows.bind ?_
  rintro phase _ ⟨entered, rfl⟩
  refine (run_follows x).bind ?_
  rintro phase a ⟨rfl, rfl⟩
  exact (unlock_follows (whole entered).symm).bind fun phase _ left => ⟨entered, left, rfl⟩

end Rules

/-- Who has had the lock has had it. -/
theorem served_grows {σ' Op' α : Type} {Res' : Op' → Type} {ready : Guarded T σ × σ' → LockOp Op ⊕ Op' → Bool}
    {effect' : T → σ' → (op : Op') → Res' op × σ'}
    (pool : Pool T (Guarded T σ × σ') (LockOp Op ⊕ Op') (Sum.elim (LockOp.Res Res) Res') α) (turns : List T) :
    pool.shared.1.served <+:
      (after (Pool.turn ready (sumEffect (lockEffect effect) effect')) pool turns).shared.1.served := by
  induction turns generalizing pool with
  | nil => exact List.prefix_rfl
  | cons t turns ih =>
    refine List.IsPrefix.trans ?_ (ih (pool.turn _ _ t))
    cases here : pool.program t with
    | done a => rw [Pool.turn_done here]
    | act op next =>
      cases now : ready pool.shared op with
      | false => rw [Pool.turn_waits here now]
      | true =>
        rw [Pool.turn_act here now]
        rcases op with (_ | _ | op) | op
        · exact List.prefix_rfl
        · exact List.prefix_append ..
        · exact List.prefix_rfl
        · exact List.prefix_rfl

end

end Lib
