import GraphRec.Lib.Transactions
import Mathlib.Order.Monotone.Basic

/-!
# Transactions that run alone

What a program does when no other transaction runs: a function of the store and of the readings
of the clock.  It is a run of the system like any other (`alone_run`), the one in which nothing
comes between the statements but the passing of time.
-/

namespace Transactions

open Transition

variable {κ σ ν ε ρ ω : Type}

/-- What a program comes to: its result, the store it leaves, and the number of the next reading
of the clock. -/
structure Ended (σ ε ρ : Type) where
  result : Except ε ρ
  store : σ
  next : ℕ

/-- The program alone, from the `n`-th reading of the clock on. -/
def Prog.alone (clock : ℕ → ℕ) : Prog κ σ ν ε ρ → ℕ → σ → Ended σ ε ρ
  | .done result, n, s => ⟨.ok result, s, n⟩
  | .answer result, n, s => ⟨.ok (result s), s, n⟩
  | .lock _ next, n, s => next.alone clock n s
  | .look next, n, s => (next s).alone clock n s
  | .clock next, n, s => (next (clock n)).alone clock (n + 1) s
  | .note _ next, n, s => next.alone clock n s
  | .commit write result, n, s =>
      match write s with
      | .ok after => ⟨.ok result, after, n⟩
      | .error e => ⟨.error e, s, n⟩
  | .rollback next, n, s => next.alone clock n s
  | .attempt write result recover, n, s =>
      match write s with
      | .ok after => ⟨.ok result, after, n⟩
      | .error e => (recover e).alone clock n s

section Equations

variable (clock : ℕ → ℕ) (n : ℕ) (s : σ)

@[simp] theorem alone_done (result : ρ) :
    (Prog.done result : Prog κ σ ν ε ρ).alone clock n s = ⟨.ok result, s, n⟩ := rfl

@[simp] theorem alone_lock (key : κ) (next : Prog κ σ ν ε ρ) :
    (Prog.lock key next).alone clock n s = next.alone clock n s := rfl

@[simp] theorem alone_look (next : σ → Prog κ σ ν ε ρ) :
    (Prog.look next).alone clock n s = (next s).alone clock n s := rfl

@[simp] theorem alone_clock (next : ℕ → Prog κ σ ν ε ρ) :
    (Prog.clock next).alone clock n s = (next (clock n)).alone clock (n + 1) s := rfl

@[simp] theorem alone_note (m : ν) (next : Prog κ σ ν ε ρ) :
    (Prog.note m next).alone clock n s = next.alone clock n s := rfl

variable {clock n s}

theorem alone_commit {write : σ → Except ε σ} {after : σ} (h : write s = .ok after) (result : ρ) :
    (Prog.commit write result : Prog κ σ ν ε ρ).alone clock n s = ⟨.ok result, after, n⟩ := by
  rw [Prog.alone, h]

end Equations

/-! ## A run of the system -/

section Run

variable [DecidableEq κ] {program : ω → Prog κ σ ν ε ρ} {s₀ : σ} {t₀ : ℕ}
  {st st' : State κ σ ν ε ρ ω} {i : ThreadId} {thread : Thread κ σ ν ε ρ ω} {clock : ℕ → ℕ}
  {n : ℕ}

/-- The transaction `i` runs and nobody else holds a lock. -/
structure RunsAlone (i : ThreadId) (thread : Thread κ σ ν ε ρ ω) (st : State κ σ ν ε ρ ω) :
    Prop where
  runs : st.threads i = some thread
  free : ∀ key, st.holder key = none ∨ st.holder key = some i

/-- Steps that end the transaction with a result and a store. -/
def EndsWith (sys : System (State κ σ ν ε ρ ω) (Action ω)) (st : State κ σ ν ε ρ ω) (op : ω)
    (ended : Ended σ ε ρ) : Prop :=
  ∃ as st' notes time, exec sys st as = some st' ∧ st'.store = ended.store ∧
    st'.log = st.log ++ [⟨op, notes, time, st.store, ended.result, ended.store⟩]

variable {sys : System (State κ σ ν ε ρ ω) (Action ω)} {op : ω} {ended : Ended σ ε ρ}

omit [DecidableEq κ] in
/-- A step that neither writes nor ends a transaction. -/
theorem EndsWith.cons {a : Action ω} (hstep : sys.step st a = some st')
    (hstore : st'.store = st.store) (hlog : st'.log = st.log) (h : EndsWith sys st' op ended) :
    EndsWith sys st op ended := by
  obtain ⟨as, last, notes, time, hexec, hlast, hentry⟩ := h
  refine ⟨a :: as, last, notes, time, ?_, hlast, ?_⟩
  · rw [exec, hstep]
    exact hexec
  · rw [hentry, hlog, hstore]

/-- The last statement. -/
theorem endsWith_finish {result : Except ε ρ} {after : σ} (hop : thread.op = op)
    (hstep : (system program s₀ t₀).step st (.run i) = some (st.finish i thread result after)) :
    EndsWith (system program s₀ t₀) st op ⟨result, after, n⟩ :=
  ⟨[.run i], st.finish i thread result after, thread.notes, st.now, by rw [exec, hstep]; rfl, rfl,
    by rw [← hop]; rfl⟩

omit [DecidableEq κ] in
/-- The next statement goes on in the same transaction. -/
theorem RunsAlone.put (h : RunsAlone i thread st) (thread' : Thread κ σ ν ε ρ ω) :
    RunsAlone i thread' (st.put i thread') :=
  ⟨Function.update_self .., h.free⟩

theorem RunsAlone.take (h : RunsAlone i thread st) (key : κ) : RunsAlone i thread (st.take i key) := by
  refine ⟨h.runs, fun key' => ?_⟩
  by_cases hk : key' = key
  · subst hk
    exact .inr (Function.update_self ..)
  · simpa only [State.take, Function.update_of_ne hk] using h.free key'

omit [DecidableEq κ] in
/-- A rollback gives the locks back. -/
theorem RunsAlone.restart (h : RunsAlone i thread st) (next : Prog κ σ ν ε ρ) :
    RunsAlone i { thread with prog := next, held := [] } (st.restart i thread next) := by
  refine ⟨Function.update_self .., fun key => ?_⟩
  rcases h.free key with hfree | hown
  · exact .inl (by simp [State.restart, State.release, State.put, hfree])
  · exact .inl (by simp [State.restart, State.release, State.put, hown])

variable (program s₀ t₀)

/-- A step of the transaction. -/
theorem step_run (h : RunsAlone i thread st) {p : Prog κ σ ν ε ρ} (hp : thread.prog = p) :
    (system program s₀ t₀).step st (.run i) = runThread st i { thread with prog := p } := by
  change (st.threads i).bind _ = _
  rw [h.runs, Option.bind_some, ← hp]

/-- **Alone.**  Where no other transaction holds a lock, the system has a run in which the
transaction ends as its program does alone. -/
theorem alone_run (hclock : Monotone clock) {p : Prog κ σ ν ε ρ} (h : RunsAlone i thread st)
    (hp : thread.prog = p) (hop : thread.op = op) (hnow : st.now ≤ clock n) :
    EndsWith (system program s₀ t₀) st op (p.alone clock n st.store) := by
  have hrun := step_run program s₀ t₀ h hp
  induction p generalizing thread st n with
  | done result => exact endsWith_finish hop hrun
  | answer result => exact endsWith_finish hop hrun
  | lock key next ih =>
    have hfree : runThread st i { thread with prog := .lock key next }
        = some ((st.take i key).put i { thread with prog := next, held := key :: thread.held }) :=
      if_pos (h.free key)
    have h₁ := (h.take key).put { thread with prog := next, held := key :: thread.held }
    exact .cons (hrun.trans hfree) rfl rfl (ih h₁ rfl hop hnow (step_run program s₀ t₀ h₁ rfl))
  | look next ih =>
    have h₁ := h.put { thread with prog := next st.store }
    exact .cons hrun rfl rfl (ih st.store h₁ rfl hop hnow (step_run program s₀ t₀ h₁ rfl))
  | clock next ih =>
    -- time passes until the reading
    have htick : (system program s₀ t₀).step st (.tick (clock n - st.now))
        = some { st with now := clock n } := by
      change some { st with now := st.now + (clock n - st.now) } = _
      rw [Nat.add_sub_cancel' hnow]
    have hlater : RunsAlone i thread { st with now := clock n } := ⟨h.runs, h.free⟩
    have h₁ := hlater.put { thread with prog := next (clock n) }
    refine .cons htick rfl rfl (.cons (step_run program s₀ t₀ hlater hp) rfl rfl ?_)
    exact ih (clock n) h₁ rfl hop (hclock (Nat.le_succ n)) (step_run program s₀ t₀ h₁ rfl)
  | note m next ih =>
    have h₁ := h.put { thread with prog := next, notes := thread.notes ++ [m] }
    exact .cons hrun rfl rfl (ih h₁ rfl hop hnow (step_run program s₀ t₀ h₁ rfl))
  | commit write result =>
    simp only [runThread] at hrun
    cases hwrite : write st.store with
    | ok after =>
      rw [hwrite] at hrun
      rw [alone_commit hwrite]
      exact endsWith_finish hop hrun
    | error e =>
      rw [hwrite] at hrun
      rw [Prog.alone, hwrite]
      exact endsWith_finish hop hrun
  | rollback next ih =>
    have h₁ := h.restart next
    exact .cons hrun rfl rfl (ih h₁ rfl hop hnow (step_run program s₀ t₀ h₁ rfl))
  | attempt write result recover ih =>
    simp only [runThread] at hrun
    cases hwrite : write st.store with
    | ok after =>
      rw [hwrite] at hrun
      rw [Prog.alone, hwrite]
      exact endsWith_finish hop hrun
    | error e =>
      rw [hwrite] at hrun
      rw [Prog.alone, hwrite]
      have h₁ := h.restart (recover e)
      exact .cons hrun rfl rfl (ih e h₁ rfl hop hnow (step_run program s₀ t₀ h₁ rfl))

end Run

end Transactions
