import Mathlib.Data.List.Basic
import Mathlib.Logic.Function.Basic

/-!
# Labelled transition systems with guarded runs

A system is given by an initial state and a partial step function: `step s a`
is `none` when the action `a` is not possible in `s`.  Actions carry every
choice the environment makes (who moves, what a clock shows, which of several
outcomes a call has), so a list of actions determines a run and a run can be
evaluated.

`Run sys ok s as t` says that the actions `as` lead from `s` to `t` and that
every step taken met the condition `ok` in the state it started from.  An
unconditional run has `ok := fun _ _ => True`.

* `Run.invariant` — a property that holds initially and is kept by every
  allowed step holds at the end;
* `Run.potential` — amortised counting: what a run gains is paid for by what
  it spends and by the change of a potential.
-/

namespace Transition

/-- A transition system: an initial state and a partial step function. -/
structure System (σ α : Type) where
  init : σ
  step : σ → α → Option σ

variable {σ α : Type} (sys : System σ α)

/-- The condition met by every step. -/
def anyStep : σ → α → Prop := fun _ _ => True

/-- `as` leads from the first state to the second, and every step of it met
`ok` in its pre-state. -/
inductive Run (ok : σ → α → Prop) : σ → List α → σ → Prop
  | nil (s : σ) : Run ok s [] s
  | cons {s s' t : σ} {a : α} {as : List α}
      (hok : ok s a) (hstep : sys.step s a = some s')
      (tail : Run ok s' as t) : Run ok s (a :: as) t

/-- Execute a list of actions; `none` as soon as one of them is impossible. -/
def exec (s : σ) : List α → Option σ
  | [] => some s
  | a :: as => (sys.step s a).bind fun s' => exec s' as

/-- Execute a list of actions as long as each of them passes the check `p` in
the state it is taken in. -/
def execWhile (p : σ → α → Bool) (s : σ) : List α → Option σ
  | [] => some s
  | a :: as =>
      if p s a then (sys.step s a).bind fun s' => execWhile p s' as else none

/-- A state reached from the initial one through allowed steps. -/
def Reachable (ok : σ → α → Prop) (t : σ) : Prop :=
  ∃ as, Run sys ok sys.init as t

variable {sys} {ok ok' : σ → α → Prop} {s t u : σ} {a : α} {as bs : List α}

/-- An execution that succeeds is an unconditional run. -/
theorem run_of_exec (h : exec sys s as = some t) : Run sys anyStep s as t := by
  induction as generalizing s with
  | nil =>
      obtain rfl : s = t := by simpa [exec] using h
      exact .nil s
  | cons a as ih =>
      obtain ⟨s', hstep, hrest⟩ := Option.bind_eq_some_iff.mp h
      exact .cons trivial hstep (ih hrest)

/-- A checked execution that succeeds is a run under the check. -/
theorem run_of_execWhile {p : σ → α → Bool} (h : execWhile sys p s as = some t) :
    Run sys (fun s a => p s a = true) s as t := by
  induction as generalizing s with
  | nil =>
      obtain rfl : s = t := by simpa [execWhile] using h
      exact .nil s
  | cons a as ih =>
      rw [execWhile] at h
      split at h
      · next hok =>
          obtain ⟨s', hstep, hrest⟩ := Option.bind_eq_some_iff.mp h
          exact .cons hok hstep (ih hrest)
      · cases h

/-- Executing a concatenation is executing one part after the other. -/
theorem exec_append (s : σ) (as bs : List α) :
    exec sys s (as ++ bs) = (exec sys s as).bind fun t => exec sys t bs := by
  induction as generalizing s with
  | nil => rfl
  | cons a as ih =>
      simp only [List.cons_append, exec]
      cases sys.step s a with
      | none => rfl
      | some s' => exact ih s'

/-- Runs compose. -/
theorem Run.append (h : Run sys ok s as t) (h' : Run sys ok t bs u) :
    Run sys ok s (as ++ bs) u := by
  induction h with
  | nil s => exact h'
  | cons hok hstep _ ih => exact .cons hok hstep (ih h')

/-- A single allowed step is a run. -/
theorem Run.single (hok : ok s a) (hstep : sys.step s a = some t) :
    Run sys ok s [a] t :=
  .cons hok hstep (.nil t)

/-- Reachability extends along runs. -/
theorem Reachable.run (hs : Reachable sys ok s) (h : Run sys ok s as t) :
    Reachable sys ok t := by
  obtain ⟨before, hbefore⟩ := hs
  exact ⟨before ++ as, hbefore.append h⟩

/-- **Invariant rule.**  What every allowed step keeps, a run keeps. -/
theorem Run.invariant {P : σ → Prop}
    (hkeep : ∀ s a s', P s → ok s a → sys.step s a = some s' → P s')
    (h : Run sys ok s as t) (hs : P s) : P t := by
  induction h with
  | nil s => exact hs
  | cons hok hstep _ ih => exact ih (hkeep _ _ _ hs hok hstep)

/-- An invariant of the initial state holds in every reachable state. -/
theorem Reachable.invariant {P : σ → Prop} (hinit : P sys.init)
    (hkeep : ∀ s a s', P s → ok s a → sys.step s a = some s' → P s')
    (h : Reachable sys ok t) : P t := by
  obtain ⟨as, hrun⟩ := h
  exact hrun.invariant hkeep hinit

/-- The steps of an execution, each with the state it was taken in. -/
def trace (sys : System σ α) (s : σ) : List α → List (σ × α)
  | [] => []
  | a :: as =>
      (s, a) :: match sys.step s a with
        | some s' => trace sys s' as
        | none => []

/-- How many steps of an execution satisfy `p`. -/
def countSteps (sys : System σ α) (p : σ → α → Bool) (s : σ) (as : List α) : Nat :=
  (trace sys s as).countP fun x => p x.1 x.2

theorem countSteps_cons (p : σ → α → Bool) (hstep : sys.step s a = some t) :
    countSteps sys p s (a :: as) =
      (if p s a then 1 else 0) + countSteps sys p t as := by
  simp only [countSteps, trace, hstep, List.countP_cons]
  omega

/-- What every allowed step outside `p` keeps, a run without steps of `p` keeps. -/
theorem Run.quiet {P : σ → Prop} (p : σ → α → Bool)
    (hkeep : ∀ s a s', P s → ok s a → p s a = false → sys.step s a = some s' → P s')
    (h : Run sys ok s as t) (hquiet : countSteps sys p s as = 0) (hs : P s) : P t := by
  induction h with
  | nil s => exact hs
  | @cons s s' t a as hok hstep _ ih =>
      rw [countSteps_cons p hstep] at hquiet
      have hfirst : p s a = false := by
        cases hp : p s a with
        | false => rfl
        | true => simp [hp] at hquiet
      exact ih (by omega) (hkeep _ _ _ hs hok hfirst hstep)

/-- A run under a condition is one under every weaker condition. -/
theorem Run.weaken (h : Run sys ok s as t) (hle : ∀ s a, ok s a → ok' s a) :
    Run sys ok' s as t := by
  induction h with
  | nil s => exact .nil s
  | cons hok hstep _ ih => exact .cons (hle _ _ hok) hstep ih

/-- A run of a system is one of another that does the same in every allowed step. -/
theorem Run.of_step_eq {sys' : System σ α} (h : Run sys ok s as t)
    (hsame : ∀ s a, ok s a → sys'.step s a = sys.step s a) : Run sys' ok s as t := by
  induction h with
  | nil s => exact .nil s
  | cons hok hstep _ ih => exact .cons hok ((hsame _ _ hok).trans hstep) ih

/-- A condition on the actions of a run is one on its steps. -/
theorem Run.of_forall {p : α → Prop} (h : Run sys ok s as t) (hall : ∀ a ∈ as, p a) :
    Run sys (fun s a => ok s a ∧ p a) s as t := by
  induction h with
  | nil s => exact .nil s
  | cons hok hstep _ ih =>
      rw [List.forall_mem_cons] at hall
      exact .cons ⟨hok, hall.1⟩ hstep (ih hall.2)

/-- Every step of a run met its condition. -/
theorem Run.trace_ok (h : Run sys ok s as t) : ∀ x ∈ trace sys s as, ok x.1 x.2 := by
  induction h with
  | nil s =>
      intro x hx
      cases hx
  | cons hok hstep _ ih =>
      simp only [trace, hstep, List.forall_mem_cons]
      exact ⟨hok, ih⟩

/-- **Equivalence rule.**  If every step keeps `P` exactly when it meets `p`, and never
establishes it, then `P` holds after a run just when it held before and every step of the
run met `p`. -/
theorem Run.trace_iff {Q P : σ → Prop} {p : σ → α → Prop}
    (hkeep : ∀ s a s', Q s → ok s a → sys.step s a = some s' → Q s')
    (hiff : ∀ s a s', Q s → ok s a → sys.step s a = some s' → (P s' ↔ P s ∧ p s a))
    (h : Run sys ok s as t) (hs : Q s) : P t ↔ P s ∧ ∀ x ∈ trace sys s as, p x.1 x.2 := by
  induction h with
  | nil s => simp [trace]
  | @cons s s' t a as hok hstep _ ih =>
      have hrest := ih (hkeep _ _ _ hs hok hstep)
      rw [hrest, hiff _ _ _ hs hok hstep]
      simp only [trace, hstep, List.forall_mem_cons, and_assoc]

/-- **Potential rule.**  If every allowed step that gains raises the potential
by one unless it is also a step that pays for it, the number of gaining steps
of a run is bounded by the paying ones and the change of the potential. -/
theorem Run.potential {P : σ → Prop} (f : σ → Nat) (gain pay : σ → α → Bool)
    (hkeep : ∀ s a s', P s → ok s a → sys.step s a = some s' → P s')
    (hunit : ∀ s a s', P s → ok s a → sys.step s a = some s' →
      f s + (if gain s a then 1 else 0) ≤ f s' + (if pay s a then 1 else 0))
    (h : Run sys ok s as t) (hs : P s) :
    f s + countSteps sys gain s as ≤ f t + countSteps sys pay s as := by
  induction h with
  | nil s => simp [countSteps, trace]
  | @cons s s' t a as hok hstep _ ih =>
      have hfirst := hunit _ _ _ hs hok hstep
      have hrest := ih (hkeep _ _ _ hs hok hstep)
      rw [countSteps_cons gain hstep, countSteps_cons pay hstep]
      omega

/-! ## The records of the parties

The state of a party is its record in a map of the system's state; a step stores one record
or deletes one. -/

section Records

variable {κ β : Type} [DecidableEq κ] {records : κ → Option β} {k k' : κ} {b b' : β}

/-- A record after one is stored: the stored one, or that of another party. -/
theorem stored_cases (h : Function.update records k (some b) k' = some b') :
    (k' = k ∧ b' = b) ∨ (k' ≠ k ∧ records k' = some b') := by
  by_cases hk : k' = k
  · rw [hk, Function.update_self] at h
    exact Or.inl ⟨hk, (Option.some.inj h).symm⟩
  · rw [Function.update_of_ne hk] at h
    exact Or.inr ⟨hk, h⟩

/-- A record after one is deleted is that of another party. -/
theorem deleted_cases (h : Function.update records k none k' = some b') :
    k' ≠ k ∧ records k' = some b' := by
  by_cases hk : k' = k
  · rw [hk, Function.update_self] at h
    cases h
  · rw [Function.update_of_ne hk] at h
    exact ⟨hk, h⟩

end Records

end Transition
