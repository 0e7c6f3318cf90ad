import GraphRec.Lib.Dict
import GraphRec.Lib.Transition

/-!
# Transactions with row locks

Transactions at the isolation level READ COMMITTED.  A transaction sees the rows that are committed
when a statement begins, and its own; it locks a row by changing it, and waits for a row that
another one has locked.  An update looks at the row again once it has the lock.  Nothing is seen of
a transaction before it commits; any of them may be aborted anywhere, as one is in a deadlock.

* `Locks` — a transaction holds the locks of the rows it has written, so that these do not change
  under it;
* `Verified` — what is to come of a transaction is right, whatever the others commit between its
  statements;
* `sound` — the proof rule: where every transaction is right from the start, every run keeps what
  the commits keep.
-/

namespace RowLocks

open Transition

variable {κ ρ α ω : Type}

/-- The statements of a transaction. -/
inductive Prog (κ ρ α : Type) where
  | done
  | select (next : Table κ ρ → Prog κ ρ α)
  | clock (next : ℕ → Prog κ ρ α)
  /-- `UPDATE ... WHERE`: what is written over the row, unless the condition fails; the next
  statement is told whether a row was changed. -/
  | update (key : κ) (write : ρ → Option ρ) (next : Bool → Prog κ ρ α)
  | insert (key : κ) (row : ρ) (next : Prog κ ρ α)
  | rollback (next : Prog κ ρ α)
  /-- The end, and what the log says of it. -/
  | commit (entry : α)

/-- A transaction that runs: what is to come, and the rows it has written. -/
structure Thread (κ ρ α : Type) where
  prog : Prog κ ρ α
  writes : Table κ ρ

structure State (κ ρ α : Type) where
  committed : Table κ ρ
  now : ℕ
  threads : ℕ → Option (Thread κ ρ α)
  holder : κ → Option ℕ
  log : List α

/-- The steps. -/
inductive Action (ω : Type) where
  | start (i : ℕ) (op : ω)
  | run (i : ℕ)
  | abort (i : ℕ)
  | tick (d : ℕ)

variable [DecidableEq κ]

/-- The rows with those of a transaction over them. -/
def view (writes committed : Table κ ρ) : Table κ ρ :=
  writes.rows.foldl (fun t row => t.put row.1 row.2) committed

namespace State

/-- The next statement of a transaction. -/
def put (st : State κ ρ α) (i : ℕ) (thread : Thread κ ρ α) : State κ ρ α :=
  { st with threads := Function.update st.threads i (some thread) }

def take (st : State κ ρ α) (i : ℕ) (key : κ) : State κ ρ α :=
  { st with holder := Function.update st.holder key (some i) }

/-- The locks of a transaction are given back. -/
def release (st : State κ ρ α) (i : ℕ) : State κ ρ α :=
  { st with holder := fun key => if st.holder key = some i then none else st.holder key }

/-- A transaction ends. -/
def drop (st : State κ ρ α) (i : ℕ) : State κ ρ α :=
  { st.release i with threads := Function.update st.threads i none }

/-- A transaction may write a row. -/
def free (st : State κ ρ α) (i : ℕ) (key : κ) : Bool :=
  match st.holder key with
  | none => true
  | some j => decide (j = i)

end State

/-- One statement. -/
def runThread (st : State κ ρ α) (i : ℕ) (thread : Thread κ ρ α) : Option (State κ ρ α) :=
  match thread.prog with
  | .done => some (st.drop i)
  | .select next => some (st.put i { thread with prog := next (view thread.writes st.committed) })
  | .clock next => some (st.put i { thread with prog := next st.now })
  | .update key write next =>
    match ((view thread.writes st.committed).get? key).bind write with
    | some row =>
      if st.free i key then some ((st.take i key).put i ⟨next true, thread.writes.put key row⟩)
      else none
    | none => some (st.put i { thread with prog := next false })
  | .insert key row next =>
    match (view thread.writes st.committed).get? key with
    | none =>
      if st.free i key then some ((st.take i key).put i ⟨next, thread.writes.put key row⟩)
      else none
    | some _ => some (st.drop i)
  | .rollback next => some ((st.release i).put i ⟨next, .empty⟩)
  | .commit entry =>
    some { st.drop i with
      committed := view thread.writes st.committed
      log := st.log ++ [entry] }

/-- One step. -/
def step (program : ω → Prog κ ρ α) (st : State κ ρ α) : Action ω → Option (State κ ρ α)
  | .start i op =>
    match st.threads i with
    | none => some (st.put i ⟨program op, .empty⟩)
    | some _ => none
  | .run i => (st.threads i).bind (runThread st i)
  | .abort i => (st.threads i).map fun _ => st.drop i
  | .tick d => some { st with now := st.now + d }

/-- Transactions on a database. -/
def system (program : ω → Prog κ ρ α) (first : Table κ ρ) (t₀ : ℕ) :
    System (State κ ρ α) (Action ω) :=
  ⟨⟨first, t₀, fun _ => none, fun _ => none, []⟩, step program⟩

/-! ## Views -/

section View

variable {writes committed : Table κ ρ} {key : κ} {row : ρ}

@[simp] theorem view_empty (committed : Table κ ρ) : view .empty committed = committed := rfl

/-- A transaction's own rows come first. -/
theorem get?_view (writes committed : Table κ ρ) (k : κ) :
    (view writes committed).get? k = (writes.get? k).or (committed.get? k) := by
  obtain ⟨rows, hnodup⟩ := writes
  unfold view
  dsimp only
  induction rows generalizing committed with
  | nil => rfl
  | cons row rows ih =>
    rw [List.map_cons, List.nodup_cons] at hnodup
    rw [List.foldl_cons, ih _ hnodup.2, Table.get?_put]
    have hhead : Table.get? ⟨row :: rows, List.nodup_cons.mpr hnodup⟩ k =
        if k = row.1 then some row.2 else Table.get? ⟨rows, hnodup.2⟩ k := by
      by_cases hk : k = row.1
      · subst hk
        simp [Table.get?]
      · have hne : ¬ row.1 = k := fun h => hk h.symm
        simp [Table.get?, hk, hne]
    by_cases hk : k = row.1
    · have habsent : Table.get? ⟨rows, hnodup.2⟩ k = none := by
        rw [Table.get?_eq_none_iff]
        exact hk ▸ hnodup.1
      rw [hhead, if_pos hk, if_pos hk, habsent, Option.none_or, Option.some_or]
    · rw [hhead, if_neg hk, if_neg hk]

/-- Elsewhere nothing is changed. -/
theorem get?_view_of_none (h : writes.get? key = none) :
    (view writes committed).get? key = committed.get? key := by
  rw [get?_view, h, Option.none_or]

end View

/-! ## Locks -/

section Locks

variable {program : ω → Prog κ ρ α} {st st' : State κ ρ α} {i j : ℕ} {thread : Thread κ ρ α}
  {key : κ}

/-- A transaction holds the locks of the rows it has written. -/
def Locks (st : State κ ρ α) : Prop :=
  ∀ i thread key, st.threads i = some thread → thread.writes.get? key ≠ none →
    st.holder key = some i

/-- What two transactions have written are different rows. -/
theorem Locks.apart (h : Locks st) {other : Thread κ ρ α} (hi : st.threads i = some thread)
    (hj : st.threads j = some other) (hne : j ≠ i) (hkey : other.writes.get? key ≠ none) :
    thread.writes.get? key = none := by
  by_contra hboth
  have hown := h i thread key hi hboth
  rw [h j other key hj hkey] at hown
  exact hne (Option.some.inj hown)

/-- The transaction goes on with rows it had written before. -/
theorem Locks.put (h : Locks st) (hi : st.threads i = some thread) (prog : Prog κ ρ α) :
    Locks (st.put i { thread with prog := prog }) := by
  intro j other key hj hkey
  simp only [State.put] at hj ⊢
  by_cases hji : j = i
  · subst hji
    rw [Function.update_self] at hj
    obtain rfl := Option.some.inj hj
    exact h j thread key hi hkey
  · rw [Function.update_of_ne hji] at hj
    exact h j other key hj hkey

/-- It locks one more row, that it writes. -/
theorem Locks.take (h : Locks st) (hi : st.threads i = some thread) (hfree : st.free i key = true)
    (prog : Prog κ ρ α) (row : ρ) :
    Locks ((st.take i key).put i ⟨prog, thread.writes.put key row⟩) := by
  intro j other key' hj hkey'
  simp only [State.put, State.take] at hj ⊢
  by_cases hji : j = i
  · subst hji
    rw [Function.update_self] at hj
    obtain rfl := Option.some.inj hj
    by_cases hk : key' = key
    · rw [hk, Function.update_self]
    · rw [Function.update_of_ne hk]
      rw [Table.get?_put, if_neg hk] at hkey'
      exact h j thread key' hi hkey'
  · rw [Function.update_of_ne hji] at hj
    have hheld := h j other key' hj hkey'
    by_cases hk : key' = key
    · subst hk
      rw [State.free, hheld, decide_eq_true_eq] at hfree
      exact (hji hfree).elim
    · rwa [Function.update_of_ne hk]

/-- The others keep their locks when a transaction gives its own back. -/
theorem Locks.release (h : Locks st) (i : ℕ) {other : Thread κ ρ α}
    (hj : st.threads j = some other) (hne : j ≠ i) (hkey : other.writes.get? key ≠ none) :
    (st.release i).holder key = some j := by
  have hheld := h j other key hj hkey
  simp only [State.release, hheld]
  rw [if_neg]
  intro heq
  exact hne (Option.some.inj heq)

theorem Locks.drop (h : Locks st) (i : ℕ) : Locks (st.drop i) := by
  intro j other key hj hkey
  simp only [State.drop] at hj ⊢
  by_cases hji : j = i
  · rw [hji, Function.update_self] at hj
    cases hj
  · rw [Function.update_of_ne hji] at hj
    exact h.release i hj hji hkey

theorem Locks.rollback (h : Locks st) (i : ℕ) (prog : Prog κ ρ α) :
    Locks ((st.release i).put i ⟨prog, .empty⟩) := by
  intro j other key hj hkey
  simp only [State.put] at hj ⊢
  by_cases hji : j = i
  · subst hji
    rw [Function.update_self] at hj
    obtain rfl := Option.some.inj hj
    exact (hkey rfl).elim
  · rw [Function.update_of_ne hji] at hj
    exact h.release i hj hji hkey

end Locks

/-! ## The proof rule -/

section Rule

variable {program : ω → Prog κ ρ α} {F : Table κ ρ → Table κ ρ → Prop}
  {G : Table κ ρ → ℕ → List α → Prop} {c c' c'' w : Table κ ρ} {n n' n'' : ℕ}

/-- What a transaction that has written `w` may find later: rows that others committed, but none of
its own. -/
structure Later (F : Table κ ρ → Table κ ρ → Prop) (G : Table κ ρ → ℕ → List α → Prop)
    (w c : Table κ ρ) (n : ℕ) (c' : Table κ ρ) (n' : ℕ) : Prop where
  future : F c c'
  time : n ≤ n'
  own : ∀ key, w.get? key ≠ none → c'.get? key = c.get? key
  kept : ∃ log, G c' n' log

theorem Later.trans (hF : ∀ c c' c'', F c c' → F c' c'' → F c c'') (h : Later F G w c n c' n')
    (h' : Later F G w c' n' c'' n'') : Later F G w c n c'' n'' :=
  ⟨hF _ _ _ h.future h'.future, h.time.trans h'.time,
    fun key hkey => (h'.own key hkey).trans (h.own key hkey), h'.kept⟩

/-- What is to come of a transaction is right whenever its statements are run: each of its commits
changes the rows as `F` says and keeps `G`. -/
def Verified (F : Table κ ρ → Table κ ρ → Prop) (G : Table κ ρ → ℕ → List α → Prop) :
    Prog κ ρ α → Table κ ρ → Table κ ρ → ℕ → Prop
  | .done, _, _, _ => True
  | .select next, w, c, n =>
    ∀ c' n', Later F G w c n c' n' → Verified F G (next (view w c')) w c' n'
  | .clock next, w, c, n => ∀ c' n', Later F G w c n c' n' → Verified F G (next n') w c' n'
  | .update key write next, w, c, n => ∀ c' n', Later F G w c n c' n' →
    (∀ row, ((view w c').get? key).bind write = some row →
      Verified F G (next true) (w.put key row) c' n') ∧
    (((view w c').get? key).bind write = none → Verified F G (next false) w c' n')
  | .insert key row next, w, c, n => ∀ c' n', Later F G w c n c' n' →
    (view w c').get? key = none → Verified F G next (w.put key row) c' n'
  | .rollback next, w, c, n => ∀ c' n', Later F G w c n c' n' → Verified F G next .empty c' n'
  | .commit entry, w, c, n => ∀ c' n', Later F G w c n c' n' → ∀ log, G c' n' log →
    F c' (view w c') ∧ G (view w c') n' (log ++ [entry])

/-- It stays right while others commit. -/
theorem Verified.later (hF : ∀ c c' c'', F c c' → F c' c'' → F c c'') {p : Prog κ ρ α}
    (h : Verified F G p w c n) (hlater : Later F G w c n c' n') : Verified F G p w c' n' := by
  cases p with
  | done => exact trivial
  | select | clock | update | insert | rollback | commit =>
    intro c'' n'' hlater'
    exact h c'' n'' (hlater.trans hF hlater')

variable {st st' : State κ ρ α} {i : ℕ} {thread : Thread κ ρ α}

/-- What the rule says of a state. -/
structure Sound (F : Table κ ρ → Table κ ρ → Prop) (G : Table κ ρ → ℕ → List α → Prop)
    (st : State κ ρ α) : Prop where
  locks : Locks st
  kept : G st.committed st.now st.log
  verified : ∀ i thread, st.threads i = some thread →
    Verified F G thread.prog thread.writes st.committed st.now

omit [DecidableEq κ] in
/-- One transaction goes on, the others stay as they are. -/
theorem update_threads {P : Thread κ ρ α → Prop} {threads : ℕ → Option (Thread κ ρ α)}
    (h : ∀ j other, j ≠ i → threads j = some other → P other)
    {next : Option (Thread κ ρ α)} (hnext : ∀ own, next = some own → P own) :
    ∀ j other, Function.update threads i next j = some other → P other := by
  intro j other hj
  by_cases hji : j = i
  · subst hji
    rw [Function.update_self] at hj
    exact hnext other hj
  · rw [Function.update_of_ne hji] at hj
    exact h j other hji hj

/-- A transaction goes on without a commit. -/
theorem Sound.put (h : Sound F G st) {holder : κ → Option ℕ} {own : Thread κ ρ α}
    (hlocks : Locks ({ st with holder := holder }.put i own))
    (hown : Verified F G own.prog own.writes st.committed st.now) :
    Sound F G ({ st with holder := holder }.put i own) := by
  refine ⟨hlocks, h.kept, update_threads (fun j other _ hj => h.verified j other hj) ?_⟩
  intro next hnext
  obtain rfl := Option.some.inj hnext
  exact hown

/-- A transaction ends without a commit. -/
theorem Sound.drop (h : Sound F G st) (i : ℕ) : Sound F G (st.drop i) := by
  refine ⟨h.locks.drop i, h.kept, update_threads (fun j other _ hj => h.verified j other hj) ?_⟩
  intro next hnext
  cases hnext

/-- **A statement.** -/
theorem Sound.runThread (hF : ∀ c c' c'', F c c' → F c' c'' → F c c'') (hrefl : ∀ c, F c c)
    (h : Sound F G st) (hi : st.threads i = some thread)
    (hrun : runThread st i thread = some st') : Sound F G st' := by
  have hown := h.verified i thread hi
  have hnow : Later F G thread.writes st.committed st.now st.committed st.now :=
    ⟨hrefl _, le_rfl, fun _ _ => rfl, _, h.kept⟩
  obtain ⟨prog, writes⟩ := thread
  cases prog with
  | done =>
    obtain rfl := Option.some.inj hrun
    exact h.drop i
  | select next =>
    obtain rfl := Option.some.inj hrun
    exact h.put (h.locks.put hi _) (hown _ _ hnow)
  | clock next =>
    obtain rfl := Option.some.inj hrun
    exact h.put (h.locks.put hi _) (hown _ _ hnow)
  | update key write next =>
    obtain ⟨htrue, hfalse⟩ := hown _ _ hnow
    simp only [RowLocks.runThread] at hrun
    split at hrun
    · next row hrow =>
      split at hrun
      · next hfree =>
        obtain rfl := Option.some.inj hrun
        exact h.put (h.locks.take hi hfree _ row) (htrue row hrow)
      · cases hrun
    · next hrow =>
      obtain rfl := Option.some.inj hrun
      exact h.put (h.locks.put hi _) (hfalse hrow)
  | insert key row next =>
    simp only [RowLocks.runThread] at hrun
    split at hrun
    · next hrow =>
      split at hrun
      · next hfree =>
        obtain rfl := Option.some.inj hrun
        exact h.put (h.locks.take hi hfree _ row) (hown _ _ hnow hrow)
      · cases hrun
    · obtain rfl := Option.some.inj hrun
      exact h.drop i
  | rollback next =>
    obtain rfl := Option.some.inj hrun
    exact h.put (h.locks.rollback i next) (hown _ _ hnow)
  | commit entry =>
    obtain rfl := Option.some.inj hrun
    obtain ⟨hfuture, hkept⟩ := hown _ _ hnow _ h.kept
    refine ⟨h.locks.drop i, hkept, update_threads (fun j other hji hj => ?_) ?_⟩
    · -- the rows that another one has written are not among those that are committed
      refine (h.verified j other hj).later hF ⟨hfuture, le_rfl, ?_, _, hkept⟩
      intro key hkey
      exact get?_view_of_none (h.locks.apart hi hj hji hkey)
    · intro next hnext
      cases hnext

/-- **The proof rule.**  Where every transaction is right from the start, every run keeps `G`. -/
theorem sound (hF : ∀ c c' c'', F c c' → F c' c'' → F c c'') (hrefl : ∀ c, F c c)
    (htime : ∀ {c n n' log}, G c n log → n ≤ n' → G c n' log)
    (hprogram : ∀ op c n, Verified F G (program op) .empty c n) {first : Table κ ρ} {t₀ : ℕ}
    (hinit : G first t₀ []) (hst : Reachable (system program first t₀) anyStep st) :
    Sound F G st := by
  refine hst.invariant ?_ ?_
  · refine ⟨?_, hinit, ?_⟩
    · intro i thread key hi
      cases hi
    · intro i thread hi
      cases hi
  · intro st a st' h _ hstep
    cases a with
    | start i op =>
      simp only [system, step] at hstep
      split at hstep
      · next hi =>
        obtain rfl := Option.some.inj hstep
        refine h.put ?_ (hprogram op _ _)
        intro j other key hj hkey
        simp only [State.put] at hj
        by_cases hji : j = i
        · subst hji
          rw [Function.update_self] at hj
          obtain rfl := Option.some.inj hj
          exact (hkey rfl).elim
        · rw [Function.update_of_ne hji] at hj
          exact h.locks j other key hj hkey
      · cases hstep
    | run i =>
      obtain ⟨thread, hi, hrun⟩ := Option.bind_eq_some_iff.mp hstep
      exact h.runThread hF hrefl hi hrun
    | abort i =>
      obtain ⟨thread, hi, hrun⟩ := Option.map_eq_some_iff.mp hstep
      exact hrun ▸ h.drop i
    | tick d =>
      obtain rfl := Option.some.inj hstep
      have hkept := htime h.kept (Nat.le_add_right _ d)
      refine ⟨h.locks, hkept, ?_⟩
      intro i thread hi
      exact (h.verified i thread hi).later hF
        ⟨hrefl _, Nat.le_add_right _ _, fun _ _ => rfl, _, hkept⟩

end Rule

end RowLocks
