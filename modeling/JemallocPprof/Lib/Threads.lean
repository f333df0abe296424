import JemallocPprof.Lib.Runs
import Mathlib.Algebra.BigOperators.Group.Finset.Basic
import Mathlib.Algebra.Order.BigOperators.Group.Finset
import Mathlib.Logic.Function.Basic

/-!
# Threads over shared state

A program performs operations on a shared state and returns. Threads take turns
in any order, one operation a turn; an operation that is not ready waits. A
`Protocol` says what each thread holds, what an operation needs of it and what it
leaves, so that an operation of one thread keeps what all of them hold. Programs
that follow the protocol follow it in every interleaving (`Protocol.adequate`).
Two protocols for two parts of the state are one for the whole (`Protocol.sum`).
A state may be halted: then everything waits, for good (`halting`). Where nothing
else waits a program ends after as many turns of its own as it has operations
(`Pool.ends`); where some thread is always ready all of them end, if each has its
turn again and again (`Pool.finishes`); both unless the state was halted.
-/

namespace Lib
set_option autoImplicit false

inductive Prog (Op : Type) (Res : Op → Type) (α : Type) where
  | done (result : α)
  | act (op : Op) (next : Res op → Prog Op Res α)

namespace Prog
variable {Op : Type} {Res : Op → Type} {α β : Type}

def bind (x : Prog Op Res α) (f : α → Prog Op Res β) : Prog Op Res β :=
  match x with
  | .done a => f a
  | .act op next => .act op fun r => (next r).bind f

instance : Monad (Prog Op Res) where
  pure := .done
  bind := bind

/-- One operation. -/
def perform (op : Op) : Prog Op Res (Res op) := .act op .done

@[simp] theorem done_bind (a : α) (f : α → Prog Op Res β) : (.done a : Prog Op Res α) >>= f = f a := rfl

@[simp] theorem pure_eq (a : α) : (pure a : Prog Op Res α) = .done a := rfl

@[simp] theorem act_bind {op : Op} (next : Res op → Prog Op Res α) (f : α → Prog Op Res β) :
    (.act op next : Prog Op Res α) >>= f = .act op fun r => next r >>= f := rfl

@[simp] theorem perform_bind {op : Op} (f : Res op → Prog Op Res β) : perform op >>= f = .act op f := rfl

/-- The program ends after at most `n` operations. -/
def Within : Nat → Prog Op Res α → Prop
  | _, .done _ => True
  | 0, .act _ _ => False
  | n + 1, .act _ next => ∀ r, Within n (next r)

@[simp] theorem within_done (n : Nat) (a : α) : Within n (.done a : Prog Op Res α) := by
  cases n <;> trivial

theorem Within.mono {m n : Nat} {x : Prog Op Res α} (h : Within m x) (le : m ≤ n) : Within n x := by
  induction x generalizing m n with
  | done a => exact within_done n a
  | act op next ih =>
    cases m with
    | zero => exact h.elim
    | succ m =>
      obtain ⟨n, rfl⟩ := Nat.exists_eq_add_of_le' (Nat.le_trans (Nat.le_add_left 1 m) le)
      exact fun r => ih r (h r) (Nat.succ_le_succ_iff.1 le)

theorem Within.bind {m n : Nat} {x : Prog Op Res α} {f : α → Prog Op Res β} (first : Within m x)
    (rest : ∀ a, Within n (f a)) : Within (m + n) (x >>= f) := by
  induction x generalizing m with
  | done a => exact (rest a).mono (Nat.le_add_left n m)
  | act op next ih =>
    cases m with
    | zero => exact first.elim
    | succ m =>
      rw [Nat.succ_add]
      exact fun r => ih r (first r)

theorem Within.done {x : Prog Op Res α} (h : Within 0 x) : ∃ a, x = .done a := by
  cases x with
  | done a => exact ⟨a, rfl⟩
  | act op next => exact h.elim

theorem Within.map {n : Nat} {x : Prog Op Res α} {f : α → β} (h : Within n x) : Within n (f <$> x) :=
  h.bind (n := 0) fun _ => trivial

section Sum
variable {Op' : Type} {Res' : Op' → Type}

/-- The program among the operations of two parts of the state. -/
def inl : Prog Op Res α → Prog (Op ⊕ Op') (Sum.elim Res Res') α
  | .done a => .done a
  | .act op next => .act (.inl op) fun r => (next r).inl

def inr : Prog Op' Res' α → Prog (Op ⊕ Op') (Sum.elim Res Res') α
  | .done a => .done a
  | .act op next => .act (.inr op) fun r => (next r).inr

theorem Within.inl {n : Nat} {x : Prog Op Res α} (h : Within n x) :
    Within n (x.inl : Prog (Op ⊕ Op') (Sum.elim Res Res') α) := by
  induction x generalizing n with
  | done a => exact within_done n a
  | act op next ih =>
    cases n with
    | zero => exact h.elim
    | succ n => exact fun r => ih r (h r)

theorem Within.inr {n : Nat} {x : Prog Op' Res' α} (h : Within n x) :
    Within n (x.inr : Prog (Op ⊕ Op') (Sum.elim Res Res') α) := by
  induction x generalizing n with
  | done a => exact within_done n a
  | act op next ih =>
    cases n with
    | zero => exact h.elim
    | succ n => exact fun r => ih r (h r)

end Sum

end Prog

/-- The shared state, and what each thread has left to do. -/
structure Pool (T σ : Type) (Op : Type) (Res : Op → Type) (α : Type) where
  shared : σ
  program : T → Prog Op Res α

/-- Nothing waits. -/
def always {σ Op : Type} (_ : σ) (_ : Op) : Bool := true

/-- Everything waits in a halted state. -/
def halting {σ Op : Type} (halted : σ → Bool) (ready : σ → Op → Bool) (s : σ) (op : Op) : Bool :=
  !halted s && ready s op

section Pool
variable {T σ Op : Type} {Res : Op → Type} {α : Type} [DecidableEq T] (ready : σ → Op → Bool)
  (effect : T → σ → (op : Op) → Res op × σ)

/-- A turn of one thread. -/
def Pool.turn (pool : Pool T σ Op Res α) (t : T) : Pool T σ Op Res α :=
  match pool.program t with
  | .done _ => pool
  | .act op next =>
    if ready pool.shared op then
      let (r, shared) := effect t pool.shared op
      ⟨shared, Function.update pool.program t (next r)⟩
    else pool

/-- The thread has ended. -/
def Pool.Ended (pool : Pool T σ Op Res α) (t : T) : Prop := ∃ a, pool.program t = .done a

/-- The thread's next operation need not wait. -/
def Pool.Ready (pool : Pool T σ Op Res α) (t : T) : Prop :=
  ∃ op next, pool.program t = .act op next ∧ ready pool.shared op = true

variable {ready effect}

theorem Pool.turn_done {pool : Pool T σ Op Res α} {t : T} {a : α} (ended : pool.program t = .done a) :
    pool.turn ready effect t = pool := by
  rw [Pool.turn, ended]

theorem Pool.turn_waits {pool : Pool T σ Op Res α} {t : T} {op : Op} {next : Res op → Prog Op Res α}
    (here : pool.program t = .act op next) (waits : ready pool.shared op = false) :
    pool.turn ready effect t = pool := by
  simp only [Pool.turn, here, waits, Bool.false_eq_true, if_false]

theorem Pool.turn_act {pool : Pool T σ Op Res α} {t : T} {op : Op} {next : Res op → Prog Op Res α}
    (here : pool.program t = .act op next) (now : ready pool.shared op = true) : pool.turn ready effect t =
      ⟨(effect t pool.shared op).2, Function.update pool.program t (next (effect t pool.shared op).1)⟩ := by
  simp only [Pool.turn, here, now, if_true]

/-- A turn of a thread is nobody else's. -/
theorem Pool.turn_other {pool : Pool T σ Op Res α} {t u : T} (other : u ≠ t) :
    (pool.turn ready effect t).program u = pool.program u := by
  cases here : pool.program t with
  | done a => rw [turn_done here]
  | act op next =>
    cases now : ready pool.shared op with
    | false => rw [turn_waits here now]
    | true =>
      rw [turn_act here now]
      exact Function.update_of_ne other ..

theorem Pool.turn_within {pool : Pool T σ Op Res α} {t : T} {n : Nat} (now : pool.Ready ready t)
    (within : (pool.program t).Within (n + 1)) : ((pool.turn ready effect t).program t).Within n := by
  obtain ⟨op, next, here, now⟩ := now
  rw [here] at within
  simp only [turn_act here now, Function.update_self]
  exact within _

/-- Turns leave no thread more to do. -/
theorem Pool.within {pool : Pool T σ Op Res α} {t : T} {n : Nat} (h : (pool.program t).Within n) (turns : List T) :
    ((after (Pool.turn ready effect) pool turns).program t).Within n := by
  induction turns generalizing pool with
  | nil => exact h
  | cons u turns ih =>
    refine ih ?_
    by_cases own : u = t
    · subst own
      cases here : pool.program u with
      | done a => rwa [turn_done here]
      | act op next =>
        cases now : ready pool.shared op with
        | false => rwa [turn_waits here now]
        | true =>
          cases n with
          | zero =>
            rw [here] at h
            exact h.elim
          | succ n => exact (turn_within ⟨op, next, here, now⟩ h).mono (Nat.le_succ n)
    · rwa [turn_other (Ne.symm own)]

theorem Pool.turn_idle {pool : Pool T σ Op Res α} {t : T} (idle : ¬ pool.Ready ready t) :
    pool.turn ready effect t = pool := by
  cases here : pool.program t with
  | done a => exact turn_done here
  | act op next =>
    refine turn_waits here (Bool.eq_false_iff.2 fun now => idle ⟨op, next, here, now⟩)

section Halting
variable {halted : σ → Bool} {pool : Pool T σ Op Res α} {t : T}

/-- No turn changes a halted state. -/
theorem Pool.turn_halted (stopped : halted pool.shared = true) (t : T) :
    pool.turn (halting halted ready) effect t = pool := by
  refine turn_idle ?_
  rintro ⟨op, next, -, now⟩
  rw [halting, stopped] at now
  cases now

theorem Pool.after_halted (stopped : halted pool.shared = true) (turns : List T) :
    after (Pool.turn (halting halted ready) effect) pool turns = pool := by
  induction turns with
  | nil => rfl
  | cons t turns ih => rw [after_cons, turn_halted stopped, ih]

/-- A thread that had its turns has ended, unless the state was halted. -/
theorem Pool.ends {n : Nat} {turns : List T} (within : (pool.program t).Within n) (enough : n ≤ turns.count t) :
    (after (Pool.turn (halting halted always) effect) pool turns).Ended t ∨
      halted (after (Pool.turn (halting halted always) effect) pool turns).shared = true := by
  induction turns generalizing pool n with
  | nil =>
    obtain rfl := Nat.le_zero.1 enough
    exact .inl within.done
  | cons u turns ih =>
    cases stopped : halted pool.shared with
    | true =>
      rw [after_halted stopped]
      exact .inr stopped
    | false =>
      rw [after_cons]
      by_cases own : u = t
      · subst own
        rw [List.count_cons_self] at enough
        cases here : pool.program u with
        | done a =>
          rw [turn_done here]
          refine ih (n := 0) ?_ (Nat.zero_le _)
          rw [here]
          exact Prog.within_done 0 a
        | act op next =>
          cases n with
          | zero =>
            obtain ⟨a, ended⟩ := within.done
            rw [here] at ended
            cases ended
          | succ n =>
            have now : halting halted always pool.shared op = true := by rw [halting, stopped]; rfl
            exact ih (turn_within ⟨op, next, here, now⟩ within) (Nat.succ_le_succ_iff.1 enough)
      · rw [List.count_cons_of_ne own] at enough
        refine ih ?_ enough
        rw [turn_other (Ne.symm own)]
        exact within

end Halting

section Fair

/-- The turns end with `n` rounds in which everyone has a turn. -/
def FairTurns (n : Nat) (turns : List T) : Prop :=
  ∃ first rounds, turns = first ++ List.flatten rounds ∧ n ≤ rounds.length ∧ ∀ round ∈ rounds, ∀ t, t ∈ round

variable [Fintype T] {pool : Pool T σ Op Res α} {bound : T → Nat} {halted : σ → Bool}

variable (effect) in
/-- An operation leaves less to do. -/
theorem Pool.turn_lowers {t : T} (now : pool.Ready ready t) (within : ∀ u, (pool.program u).Within (bound u)) :
    ∃ bound' : T → Nat, (∀ u, ((pool.turn ready effect t).program u).Within (bound' u)) ∧
      ∑ u, bound' u < ∑ u, bound u := by
  obtain ⟨op, next, here, -⟩ := id now
  have some_left : bound t ≠ 0 := by
    intro zero
    have ended := within t
    rw [zero, here] at ended
    exact ended
  obtain ⟨m, more⟩ := Nat.exists_eq_succ_of_ne_zero some_left
  refine ⟨Function.update bound t m, fun u => ?_, Finset.sum_lt_sum (fun u _ => ?_) ⟨t, Finset.mem_univ t, ?_⟩⟩
  · by_cases same : u = t
    · subst same
      have mine := within u
      rw [more] at mine
      rw [Function.update_self]
      exact turn_within now mine
    · rw [Function.update_of_ne same, turn_other same]
      exact within u
  · by_cases same : u = t
    · rw [same, Function.update_self, more]
      exact Nat.le_succ m
    · rw [Function.update_of_ne same]
  · rw [Function.update_self, more]
    exact Nat.lt_succ_self m

variable (effect) in
/-- A round in which everyone has a turn leaves less to do, if somebody is ready:
the first operation of the round is his or comes before him. -/
theorem Pool.round_lowers {t : T} {round : List T} (now : pool.Ready ready t) (turn : t ∈ round)
    (within : ∀ u, (pool.program u).Within (bound u)) :
    ∃ bound' : T → Nat, (∀ u, ((after (Pool.turn ready effect) pool round).program u).Within (bound' u)) ∧
      ∑ u, bound' u < ∑ u, bound u := by
  induction round with
  | nil => cases turn
  | cons first round ih =>
    by_cases acts : pool.Ready ready first
    · obtain ⟨bound', within', fewer⟩ := turn_lowers effect acts within
      exact ⟨bound', fun u => Pool.within (within' u) round, fewer⟩
    · have later : t ∈ round := by
        refine (List.mem_cons.1 turn).resolve_left ?_
        rintro rfl
        exact acts now
      rw [after_cons, turn_idle acts]
      exact ih later

/-- After no turns can the threads get stuck: some is ready, unless all have
ended or the state is halted. -/
def Pool.Goes (halted : σ → Bool) (ready : σ → Op → Bool) (effect : T → σ → (op : Op) → Res op × σ)
    (pool : Pool T σ Op Res α) : Prop :=
  ∀ turns, (∀ t, (after (Pool.turn (halting halted ready) effect) pool turns).Ended t) ∨
    (∃ t, (after (Pool.turn (halting halted ready) effect) pool turns).Ready (halting halted ready) t) ∨
    halted (after (Pool.turn (halting halted ready) effect) pool turns).shared = true

omit [Fintype T] in
theorem Pool.Goes.after (goes : Pool.Goes halted ready effect pool) (first : List T) :
    Pool.Goes halted ready effect (after (Pool.turn (halting halted ready) effect) pool first) := by
  intro turns
  rw [← after_append]
  exact goes (first ++ turns)

/-- Threads that cannot get stuck end in as many rounds as they have operations. -/
theorem Pool.rounds_finish {rounds : List (List T)} (within : ∀ t, (pool.program t).Within (bound t))
    (goes : Pool.Goes halted ready effect pool)
    (enough : ∑ t, bound t ≤ rounds.length) (everyone : ∀ round ∈ rounds, ∀ t, t ∈ round) :
    (∀ t, (after (Pool.turn (halting halted ready) effect) pool rounds.flatten).Ended t) ∨
      halted (after (Pool.turn (halting halted ready) effect) pool rounds.flatten).shared = true := by
  induction rounds generalizing pool bound with
  | nil =>
    left
    intro t
    have zero := Finset.sum_eq_zero_iff.1 (Nat.le_zero.1 enough) t (Finset.mem_univ t)
    exact (zero ▸ within t : (pool.program t).Within 0).done
  | cons round rounds ih =>
    obtain ⟨inRound, later⟩ := List.forall_mem_cons.1 everyone
    rw [List.flatten_cons, after_append]
    rcases goes [] with ended | ⟨u, now⟩ | stopped
    · have nothing : ∀ u, ((after (Pool.turn (halting halted ready) effect) pool round).program u).Within
          ((fun _ => 0) u) := by
        intro u
        refine Pool.within ?_ round
        obtain ⟨a, done⟩ := ended u
        rw [after_nil] at done
        rw [done]
        exact Prog.within_done 0 a
      exact ih nothing (goes.after round) (by simp) later
    · obtain ⟨bound', within', fewer⟩ := round_lowers effect now (inRound u) within
      exact ih within' (goes.after round) (Nat.le_of_lt_succ (Nat.lt_of_lt_of_le fewer enough)) later
    · rw [after_nil] at stopped
      rw [after_halted stopped, after_halted stopped]
      exact .inr stopped

/-- **No thread waits for ever.** Threads that cannot get stuck have ended after
fair turns, unless the state was halted. -/
theorem Pool.finishes {turns : List T} (within : ∀ t, (pool.program t).Within (bound t))
    (goes : Pool.Goes halted ready effect pool) (fair : FairTurns (∑ t, bound t) turns) :
    (∀ t, (after (Pool.turn (halting halted ready) effect) pool turns).Ended t) ∨
      halted (after (Pool.turn (halting halted ready) effect) pool turns).shared = true := by
  obtain ⟨first, rounds, rfl, enough, everyone⟩ := fair
  rw [after_append]
  exact rounds_finish (fun u => Pool.within (within u) first) (goes.after first) enough everyone

end Fair

/-- What the threads hold, and what operations do with it. -/
structure Protocol (ready : σ → Op → Bool) (effect : T → σ → (op : Op) → Res op × σ) (Own : Type) where
  /-- The threads hold what they are said to hold. -/
  Inv : (T → Own) → σ → Prop
  Needs : T → Own → Op → Prop
  Leaves : T → Own → (op : Op) → Res op → Own → Prop
  keeps : ∀ owns s t op, Inv owns s → Needs t (owns t) op → ready s op = true →
    ∃ own, Leaves t (owns t) op (effect t s op).1 own ∧ Inv (Function.update owns t own) (effect t s op).2

namespace Protocol
variable {Own : Type} (P : Protocol ready effect Own)

/-- The program has what each of its operations needs, and ends with `Q`. -/
def Follows (t : T) (Q : Own → α → Prop) : Own → Prog Op Res α → Prop
  | own, .done a => Q own a
  | own, .act op next => P.Needs t own op ∧ ∀ r own', P.Leaves t own op r own' → Follows t Q own' (next r)

variable {P} {β : Type} {Q : T → Own → α → Prop} {owns : T → Own} {pool : Pool T σ Op Res α}

/-- A thread that has to wait longer still follows. -/
def halting (P : Protocol ready effect Own) (halted : σ → Bool) :
    Protocol (halting halted ready) effect Own where
  Inv := P.Inv
  Needs := P.Needs
  Leaves := P.Leaves
  keeps := fun owns s t op inv needs now => P.keeps owns s t op inv needs (Bool.and_elim_right now)

theorem Follows.halting {halted : σ → Bool} {t : T} {S : Own → α → Prop} {own : Own} {x : Prog Op Res α}
    (follows : P.Follows t S own x) : (P.halting halted).Follows t S own x := by
  induction x generalizing own with
  | done a => exact follows
  | act op next ih => exact ⟨follows.1, fun r own' leaves => ih r (follows.2 r own' leaves)⟩

/-- **The rule of sequence.** -/
theorem Follows.bind {t : T} {S : Own → α → Prop} {R : Own → β → Prop} {own : Own} {x : Prog Op Res α}
    {f : α → Prog Op Res β} (first : P.Follows t S own x)
    (rest : ∀ own a, S own a → P.Follows t R own (f a)) : P.Follows t R own (x >>= f) := by
  induction x generalizing own with
  | done a => exact rest own a first
  | act op next ih => exact ⟨first.1, fun r own' leaves => ih r (first.2 r own' leaves)⟩

theorem Follows.map {t : T} {S : Own → α → Prop} {R : Own → β → Prop} {own : Own} {x : Prog Op Res α}
    {f : α → β} (first : P.Follows t S own x) (rest : ∀ own a, S own a → R own (f a)) :
    P.Follows t R own (f <$> x) :=
  first.bind rest

/-- **One turn**, whoever's it is. -/
theorem turn_follows (inv : P.Inv owns pool.shared) (follow : ∀ t, P.Follows t (Q t) (owns t) (pool.program t))
    (t : T) :
    ∃ owns', P.Inv owns' (pool.turn ready effect t).shared ∧
      ∀ u, P.Follows u (Q u) (owns' u) ((pool.turn ready effect t).program u) := by
  have mine := follow t
  cases here : pool.program t with
  | done a =>
    rw [Pool.turn_done here]
    exact ⟨owns, inv, follow⟩
  | act op next =>
    cases now : ready pool.shared op with
    | false =>
      rw [Pool.turn_waits here now]
      exact ⟨owns, inv, follow⟩
    | true =>
      rw [here] at mine
      obtain ⟨needs, rest⟩ := mine
      obtain ⟨own, leaves, kept⟩ := P.keeps owns pool.shared t op inv needs now
      rw [Pool.turn_act here now]
      refine ⟨Function.update owns t own, kept, ?_⟩
      intro u
      by_cases same : u = t
      · subst same
        simp only [Function.update_self]
        exact rest _ _ leaves
      · simp only [Function.update_of_ne same]
        exact follow u

/-- **Every interleaving** of programs that follow the protocol follows it. -/
theorem adequate (inv : P.Inv owns pool.shared) (follow : ∀ t, P.Follows t (Q t) (owns t) (pool.program t))
    (turns : List T) :
    ∃ owns', P.Inv owns' (after (Pool.turn ready effect) pool turns).shared ∧
      ∀ t, P.Follows t (Q t) (owns' t) ((after (Pool.turn ready effect) pool turns).program t) := by
  induction turns generalizing pool owns with
  | nil => exact ⟨owns, inv, follow⟩
  | cons t turns ih =>
    obtain ⟨owns', inv', follow'⟩ := turn_follows inv follow t
    exact ih inv' follow'

end Protocol

end Pool

/-! ## Two parts of the state -/

section Sum
variable {T σ σ' Op Op' : Type} {Res : Op → Type} {Res' : Op' → Type} {α : Type} [DecidableEq T]

def sumReady (ready : σ → Op → Bool) (ready' : σ' → Op' → Bool) (s : σ × σ') : Op ⊕ Op' → Bool
  | .inl op => ready s.1 op
  | .inr op => ready' s.2 op

/-- An operation on one part leaves the other. -/
def sumEffect (effect : T → σ → (op : Op) → Res op × σ) (effect' : T → σ' → (op : Op') → Res' op × σ') (t : T)
    (s : σ × σ') : (op : Op ⊕ Op') → Sum.elim Res Res' op × (σ × σ')
  | .inl op =>
    let (r, s₁) := effect t s.1 op
    (r, (s₁, s.2))
  | .inr op =>
    let (r, s₂) := effect' t s.2 op
    (r, (s.1, s₂))

variable {ready : σ → Op → Bool} {ready' : σ' → Op' → Bool} {effect : T → σ → (op : Op) → Res op × σ}
  {effect' : T → σ' → (op : Op') → Res' op × σ'} {Own Own' : Type}

/-- What each thread holds of the two parts. -/
def Protocol.sum (P : Protocol ready effect Own) (P' : Protocol ready' effect' Own') :
    Protocol (sumReady ready ready') (sumEffect effect effect') (Own × Own') where
  Inv owns s := P.Inv (Prod.fst ∘ owns) s.1 ∧ P'.Inv (Prod.snd ∘ owns) s.2
  Needs t own
    | .inl op => P.Needs t own.1 op
    | .inr op => P'.Needs t own.2 op
  Leaves t own
    | .inl op, r, own' => P.Leaves t own.1 op r own'.1 ∧ own'.2 = own.2
    | .inr op, r, own' => P'.Leaves t own.2 op r own'.2 ∧ own'.1 = own.1
  keeps := by
    rintro owns s t (op | op) ⟨inv, inv'⟩ needs now
    · obtain ⟨own, leaves, kept⟩ := P.keeps _ s.1 t op inv needs now
      refine ⟨(own, (owns t).2), ⟨leaves, rfl⟩, ?_, ?_⟩
      · rwa [Function.comp_update]
      · rw [Function.comp_update]
        show P'.Inv (Function.update _ t ((Prod.snd ∘ owns) t)) s.2
        rwa [Function.update_eq_self]
    · obtain ⟨own, leaves, kept⟩ := P'.keeps _ s.2 t op inv' needs now
      refine ⟨((owns t).1, own), ⟨leaves, rfl⟩, ?_, ?_⟩
      · rw [Function.comp_update]
        show P.Inv (Function.update _ t ((Prod.fst ∘ owns) t)) s.1
        rwa [Function.update_eq_self]
      · rwa [Function.comp_update]

variable {P : Protocol ready effect Own} {P' : Protocol ready' effect' Own'} {t : T}

/-- **The rule of parts.** A program of one part keeps what is held of the other. -/
theorem Protocol.Follows.inl {Q : Own → α → Prop} {own : Own} {x : Prog Op Res α} (follows : P.Follows t Q own x)
    (own' : Own') : (P.sum P').Follows t (fun owned a => Q owned.1 a ∧ owned.2 = own') (own, own') x.inl := by
  induction x generalizing own with
  | done a => exact ⟨follows, rfl⟩
  | act op next ih =>
    refine ⟨follows.1, ?_⟩
    rintro r ⟨own₁, own₂⟩ ⟨leaves, same⟩
    obtain rfl : own₂ = own' := same
    exact ih r (follows.2 r own₁ leaves)

theorem Protocol.Follows.inr {Q : Own' → α → Prop} {own' : Own'} {x : Prog Op' Res' α}
    (follows : P'.Follows t Q own' x) (own : Own) :
    (P.sum P').Follows t (fun owned a => Q owned.2 a ∧ owned.1 = own) (own, own') x.inr := by
  induction x generalizing own' with
  | done a => exact ⟨follows, rfl⟩
  | act op next ih =>
    refine ⟨follows.1, ?_⟩
    rintro r ⟨own₁, own₂⟩ ⟨leaves, same⟩
    obtain rfl : own₁ = own := same
    exact ih r (follows.2 r own₂ leaves)

end Sum

end Lib
