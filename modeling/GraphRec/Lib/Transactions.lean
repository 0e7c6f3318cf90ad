import GraphRec.Lib.Transition

/-!
# Transactions under advisory locks

A transaction is a program of single statements: it takes a lock, looks at the committed
store, reads the clock, and at last commits what it writes or ends without writing.
Any number of transactions run at once, and a statement of one may come between any two
statements of another.  A lock is held from the statement that takes it until the
transaction ends; a transaction may fail at any statement, which writes nothing.  It may
also roll back, of its own accord or when a constraint rejects what it commits, and go on
in a new transaction, without the locks.

`Prog.Holds` is what a program guarantees when the others keep, of the part of the store
that each lock protects, what the relation `keeps` says, and change the rest only as the
relation `grows` allows (rows that are inserted and stay; any change, when no program relies
on more, is `anyChange`).  `serial` is the rule: when every
program guarantees `good`, each run leaves the store as its transactions would one after
the other, in the order in which they ended, each meeting `good` on the store as it was
when it ended.

* `κ` — the locks, `σ` — the store, `ω` — the operations;
* `ν` — notes of a transaction, which no program reads, `ρ` — its results, `ε` — what a
  rejected commit names.
-/

namespace Transactions

open Transition

abbrev ThreadId := ℕ

/-- The program of a transaction. -/
inductive Prog (κ σ ν ε ρ : Type) : Type
  /-- End, writing nothing. -/
  | done (result : ρ)
  /-- End with what the last statement reads, writing nothing. -/
  | answer (result : σ → ρ)
  | lock (key : κ) (next : Prog κ σ ν ε ρ)
  | look (next : σ → Prog κ σ ν ε ρ)
  | clock (next : ℕ → Prog κ σ ν ε ρ)
  | note (n : ν) (next : Prog κ σ ν ε ρ)
  /-- Commit the writes; a constraint may reject them. -/
  | commit (write : σ → Except ε σ) (result : ρ)
  /-- Roll back and go on in a new transaction. -/
  | rollback (next : Prog κ σ ν ε ρ)
  /-- Commit the writes, or go on in a new transaction when a constraint rejects them. -/
  | attempt (write : σ → Except ε σ) (result : ρ) (recover : ε → Prog κ σ ν ε ρ)

/-- A transaction that runs. -/
structure Thread (κ σ ν ε ρ ω : Type) where
  op : ω
  prog : Prog κ σ ν ε ρ
  held : List κ
  notes : List ν

/-- A transaction that ended: when, with what result, and the store before and after.
The result is an error when a constraint rejected its writes. -/
structure Entry (σ ν ε ρ ω : Type) where
  op : ω
  notes : List ν
  time : ℕ
  before : σ
  result : Except ε ρ
  after : σ

/-- The committed store, the clock, who holds each lock, the transactions that run and
those that ended. -/
structure State (κ σ ν ε ρ ω : Type) where
  store : σ
  now : ℕ
  holder : κ → Option ThreadId
  threads : ThreadId → Option (Thread κ σ ν ε ρ ω)
  log : List (Entry σ ν ε ρ ω)

/-- The steps. -/
inductive Action (ω : Type)
  | start (i : ThreadId) (op : ω)
  | run (i : ThreadId)
  | abort (i : ThreadId)
  | tick (elapsed : ℕ)
  deriving DecidableEq, Repr

variable {κ σ ν ε ρ ω : Type} [DecidableEq κ]

namespace State

variable (s : State κ σ ν ε ρ ω)

/-- Store the record of a transaction. -/
def put (i : ThreadId) (thread : Thread κ σ ν ε ρ ω) : State κ σ ν ε ρ ω :=
  { s with threads := Function.update s.threads i (some thread) }

/-- A transaction takes a lock that is free or its own. -/
def take (i : ThreadId) (key : κ) : State κ σ ν ε ρ ω :=
  { s with holder := Function.update s.holder key (some i) }

/-- A transaction is gone, and its locks with it. -/
def release (i : ThreadId) : State κ σ ν ε ρ ω :=
  { s with
    holder := fun key => if s.holder key = some i then none else s.holder key
    threads := Function.update s.threads i none }

/-- A transaction is rolled back, and the program goes on in a new one. -/
def restart (i : ThreadId) (thread : Thread κ σ ν ε ρ ω) (next : Prog κ σ ν ε ρ) :
    State κ σ ν ε ρ ω :=
  (s.release i).put i { thread with prog := next, held := [] }

/-- A transaction ends with a result and a store. -/
def finish (i : ThreadId) (thread : Thread κ σ ν ε ρ ω) (result : Except ε ρ) (after : σ) :
    State κ σ ν ε ρ ω :=
  { s.release i with
    store := after
    log := s.log ++ [⟨thread.op, thread.notes, s.now, s.store, result, after⟩] }

end State

/-- One statement of a transaction; none while it waits for a lock. -/
def runThread (s : State κ σ ν ε ρ ω) (i : ThreadId) (thread : Thread κ σ ν ε ρ ω) :
    Option (State κ σ ν ε ρ ω) :=
  match thread.prog with
  | .done result => some (s.finish i thread (.ok result) s.store)
  | .answer result => some (s.finish i thread (.ok (result s.store)) s.store)
  | .lock key next =>
      if s.holder key = none ∨ s.holder key = some i then
        some ((s.take i key).put i { thread with prog := next, held := key :: thread.held })
      else none
  | .look next => some (s.put i { thread with prog := next s.store })
  | .clock next => some (s.put i { thread with prog := next s.now })
  | .note n next => some (s.put i { thread with prog := next, notes := thread.notes ++ [n] })
  | .commit write result =>
      match write s.store with
      | .ok after => some (s.finish i thread (.ok result) after)
      | .error e => some (s.finish i thread (.error e) s.store)
  | .rollback next => some (s.restart i thread next)
  | .attempt write result recover =>
      match write s.store with
      | .ok after => some (s.finish i thread (.ok result) after)
      | .error e => some (s.restart i thread (recover e))

/-- One step. -/
def step (program : ω → Prog κ σ ν ε ρ) (s : State κ σ ν ε ρ ω) :
    Action ω → Option (State κ σ ν ε ρ ω)
  | .start i op =>
      match s.threads i with
      | some _ => none
      | none => some (s.put i ⟨op, program op, [], []⟩)
  | .run i => (s.threads i).bind fun thread => runThread s i thread
  | .abort i => (s.threads i).map fun _ => s.release i
  | .tick elapsed => some { s with now := s.now + elapsed }

/-- The next `n` statements of a transaction. -/
def statements (i : ThreadId) (n : ℕ) : List (Action ω) := List.replicate n (.run i)

/-- Nothing runs yet. -/
def initial (store : σ) (now : ℕ) : State κ σ ν ε ρ ω where
  store := store
  now := now
  holder := fun _ => none
  threads := fun _ => none
  log := []

/-- Transactions of the programs, from a store and a time. -/
def system (program : ω → Prog κ σ ν ε ρ) (store : σ) (now : ℕ) :
    System (State κ σ ν ε ρ ω) (Action ω) :=
  ⟨initial store now, step program⟩

/-- A step leaves the store, or ends a transaction, which is then in the history. -/
theorem step_store {program : ω → Prog κ σ ν ε ρ} {st st' : State κ σ ν ε ρ ω} {a : Action ω}
    (h : step program st a = some st') :
    st'.store = st.store ∨ ∃ entry ∈ st'.log, entry.before = st.store ∧ entry.after = st'.store := by
  cases a with
  | start i op =>
      rw [step] at h
      split at h
      · cases h
      · obtain rfl := Option.some.inj h
        exact .inl rfl
  | abort i =>
      obtain ⟨thread, -, rfl⟩ := Option.map_eq_some_iff.mp h
      exact .inl rfl
  | tick elapsed =>
      obtain rfl := Option.some.inj h
      exact .inl rfl
  | run i =>
      obtain ⟨thread, -, hrun⟩ := Option.bind_eq_some_iff.mp h
      have hfinish : ∀ (result : Except ε ρ) (after : σ),
          ∃ entry ∈ (st.finish i thread result after).log, entry.before = st.store ∧
            entry.after = (st.finish i thread result after).store := fun _ _ =>
        ⟨_, List.mem_append_right _ (List.mem_singleton_self _), rfl, rfl⟩
      unfold runThread at hrun
      cases hprog : thread.prog with
      | done | answer | look | clock | note | rollback =>
          rw [hprog] at hrun
          obtain rfl := Option.some.inj hrun
          exact .inl rfl
      | lock key next =>
          rw [hprog] at hrun
          simp only at hrun
          split at hrun
          · obtain rfl := Option.some.inj hrun
            exact .inl rfl
          · cases hrun
      | commit | attempt =>
          rw [hprog] at hrun
          simp only at hrun
          split at hrun
          all_goals
            obtain rfl := Option.some.inj hrun
            first
              | exact .inr (hfinish _ _)
              | exact .inl rfl

/-- What has ended stays in the history. -/
theorem step_log {program : ω → Prog κ σ ν ε ρ} {st st' : State κ σ ν ε ρ ω} {a : Action ω}
    (h : step program st a = some st') : st.log <+: st'.log := by
  have hfinish : ∀ (i : ThreadId) (thread : Thread κ σ ν ε ρ ω) (result : Except ε ρ) (after : σ),
      st.log <+: (st.finish i thread result after).log := fun _ _ _ _ => List.prefix_append _ _
  cases a with
  | start i op =>
      rw [step] at h
      split at h
      · cases h
      · obtain rfl := Option.some.inj h
        exact List.prefix_refl _
  | abort i =>
      obtain ⟨thread, -, rfl⟩ := Option.map_eq_some_iff.mp h
      exact List.prefix_refl _
  | tick elapsed =>
      obtain rfl := Option.some.inj h
      exact List.prefix_refl _
  | run i =>
      obtain ⟨thread, -, hrun⟩ := Option.bind_eq_some_iff.mp h
      unfold runThread at hrun
      cases hprog : thread.prog with
      | done | answer | look | clock | note | rollback =>
          rw [hprog] at hrun
          obtain rfl := Option.some.inj hrun
          first
            | exact hfinish _ _ _ _
            | exact List.prefix_refl _
      | lock key next =>
          rw [hprog] at hrun
          simp only at hrun
          split at hrun
          · obtain rfl := Option.some.inj hrun
            exact List.prefix_refl _
          · cases hrun
      | commit | attempt =>
          rw [hprog] at hrun
          simp only at hrun
          split at hrun
          all_goals
            obtain rfl := Option.some.inj hrun
            first
              | exact hfinish _ _ _ _
              | exact List.prefix_refl _

/-! ## What a program guarantees -/

/-- What a transaction may find later: the parts of the store that its locks protect are
kept, the store has only grown, time has not gone back, and the invariant holds. -/
structure Later (keeps : κ → σ → σ → Prop) (grows : σ → σ → Prop) (inv : σ → ℕ → Prop)
    (held : List κ) (s : σ) (now : ℕ) (s' : σ) (now' : ℕ) : Prop where
  kept : ∀ key ∈ held, keeps key s s'
  grown : grows s s'
  time : now ≤ now'
  inv : inv s' now'

/-- The program ends as `good` says, keeps the invariant and what the locks of others
protect, whatever the others do in between. -/
def Prog.Holds (keeps : κ → σ → σ → Prop) (grows : σ → σ → Prop) (inv : σ → ℕ → Prop)
    (good : List ν → σ → ℕ → Except ε ρ → σ → Prop) :
    Prog κ σ ν ε ρ → List κ → List ν → σ → ℕ → Prop
  | .done result, held, notes, s, now => ∀ s' now', Later keeps grows inv held s now s' now' →
      good notes s' now' (.ok result) s'
  | .answer result, held, notes, s, now => ∀ s' now', Later keeps grows inv held s now s' now' →
      good notes s' now' (.ok (result s')) s'
  | .lock key next, held, notes, s, now => ∀ s' now', Later keeps grows inv held s now s' now' →
      next.Holds keeps grows inv good (key :: held) notes s' now'
  | .look next, held, notes, s, now => ∀ s' now', Later keeps grows inv held s now s' now' →
      (next s').Holds keeps grows inv good held notes s' now'
  | .clock next, held, notes, s, now => ∀ s' now', Later keeps grows inv held s now s' now' →
      (next now').Holds keeps grows inv good held notes s' now'
  | .note n next, held, notes, s, now => next.Holds keeps grows inv good held (notes ++ [n]) s now
  | .commit write result, held, notes, s, now =>
      ∀ s' now', Later keeps grows inv held s now s' now' →
        match write s' with
        | .ok after => good notes s' now' (.ok result) after ∧ inv after now' ∧
            grows s' after ∧ ∀ key, key ∉ held → keeps key s' after
        | .error e => good notes s' now' (.error e) s'
  | .rollback next, held, notes, s, now => ∀ s' now', Later keeps grows inv held s now s' now' →
      next.Holds keeps grows inv good [] notes s' now'
  | .attempt write result recover, held, notes, s, now =>
      ∀ s' now', Later keeps grows inv held s now s' now' →
        match write s' with
        | .ok after => good notes s' now' (.ok result) after ∧ inv after now' ∧
            grows s' after ∧ ∀ key, key ∉ held → keeps key s' after
        | .error e => (recover e).Holds keeps grows inv good [] notes s' now'

/-- No program relies on anything without a lock. -/
def anyChange (_ _ : σ) : Prop := True

/-- The relations of a development: what a lock protects composes, and so does what only
grows, and the invariant does not depend on how much time passes. -/
structure Rules (keeps : κ → σ → σ → Prop) (grows : σ → σ → Prop) (inv : σ → ℕ → Prop) :
    Prop where
  refl : ∀ key s, keeps key s s
  trans : ∀ key s s' s'', keeps key s s' → keeps key s' s'' → keeps key s s''
  grows_refl : ∀ s, grows s s
  grows_trans : ∀ s s' s'', grows s s' → grows s' s'' → grows s s''
  tick : ∀ s now now', inv s now → now ≤ now' → inv s now'

variable {keeps : κ → σ → σ → Prop} {grows : σ → σ → Prop} {inv : σ → ℕ → Prop}
  {good : List ν → σ → ℕ → Except ε ρ → σ → Prop} {held : List κ} {notes : List ν}
  {s s' s'' : σ} {now now' now'' : ℕ} {p : Prog κ σ ν ε ρ}

omit [DecidableEq κ] in
theorem Later.trans (hr : Rules keeps grows inv) (h : Later keeps grows inv held s now s' now')
    (h' : Later keeps grows inv held s' now' s'' now'') :
    Later keeps grows inv held s now s'' now'' where
  kept := fun key hkey => hr.trans key s s' s'' (h.kept key hkey) (h'.kept key hkey)
  grown := hr.grows_trans s s' s'' h.grown h'.grown
  time := Nat.le_trans h.time h'.time
  inv := h'.inv

omit [DecidableEq κ] in
/-- Nothing has happened yet. -/
theorem Later.refl (hr : Rules keeps grows inv) (held : List κ) (h : inv s now) :
    Later keeps grows inv held s now s now :=
  ⟨fun key _ => hr.refl key s, hr.grows_refl s, Nat.le_refl now, h⟩

omit [DecidableEq κ] in
/-- What was found under more locks was found under fewer. -/
theorem Later.of_subset {held' : List κ} (hsubset : ∀ key ∈ held, key ∈ held')
    (h : Later keeps grows inv held' s now s' now') : Later keeps grows inv held s now s' now' :=
  ⟨fun key hkey => h.kept key (hsubset key hkey), h.grown, h.time, h.inv⟩

omit [DecidableEq κ] in
/-- What others do between two statements does not matter. -/
theorem Prog.Holds.later (hr : Rules keeps grows inv)
    (h : p.Holds keeps grows inv good held notes s now)
    (hlater : Later keeps grows inv held s now s' now') :
    p.Holds keeps grows inv good held notes s' now' := by
  induction p generalizing held notes with
  | done | answer | look | clock | commit | attempt =>
      intro s'' now'' h'
      exact h s'' now'' (hlater.trans hr h')
  | lock | rollback =>
      intro s'' now'' h'
      exact h s'' now'' (hlater.trans hr h')
  | note n next ih => exact ih h hlater

/-- Take several locks, one after the other. -/
def Prog.lockAll (keys : List κ) (next : Prog κ σ ν ε ρ) : Prog κ σ ν ε ρ := keys.foldr .lock next

omit [DecidableEq κ] in
/-- What holds under all the locks. -/
theorem Prog.holds_lockAll (hr : Rules keeps grows inv) {keys : List κ} (hinv : inv s now)
    (hnext : ∀ s' now', Later keeps grows inv held s now s' now' →
      p.Holds keeps grows inv good (keys.reverse ++ held) notes s' now') :
    (Prog.lockAll keys p).Holds keeps grows inv good held notes s now := by
  induction keys generalizing held s now with
  | nil => exact hnext s now (.refl hr held hinv)
  | cons key keys ih =>
      intro s' now' h
      refine ih h.inv ?_
      intro s'' now'' h'
      have hsince := h.trans hr (h'.of_subset fun k hk => List.mem_cons_of_mem key hk)
      simpa using hnext s'' now'' hsince

/-! ## Serial histories -/

/-- The transactions of `log`, one after the other, lead from the first store to the
second; each is good, and time does not go back. -/
inductive Serial (inv : σ → ℕ → Prop) (good : ω → List ν → σ → ℕ → Except ε ρ → σ → Prop)
    (s₀ : σ) (t₀ : ℕ) : List (Entry σ ν ε ρ ω) → σ → ℕ → Prop
  | nil : Serial inv good s₀ t₀ [] s₀ t₀
  | snoc {log : List (Entry σ ν ε ρ ω)} {s : σ} {t : ℕ} (entry : Entry σ ν ε ρ ω)
      (init : Serial inv good s₀ t₀ log s t) (hbefore : entry.before = s) (htime : t ≤ entry.time)
      (hinv : inv entry.before entry.time)
      (hgood : good entry.op entry.notes entry.before entry.time entry.result entry.after) :
      Serial inv good s₀ t₀ (log ++ [entry]) entry.after entry.time

/-- **Serial invariants.**  What every transaction keeps, and the passing of time, a
history keeps. -/
theorem Serial.invariant {good : ω → List ν → σ → ℕ → Except ε ρ → σ → Prop} {s₀ : σ} {t₀ : ℕ}
    {log : List (Entry σ ν ε ρ ω)} {P : σ → ℕ → Prop}
    (h : Serial inv good s₀ t₀ log s now) (hinit : P s₀ t₀)
    (htick : ∀ s t t', P s t → t ≤ t' → P s t')
    (hkeep : ∀ op notes s t result s', inv s t → P s t → good op notes s t result s' → P s' t) :
    P s now := by
  induction h with
  | nil => exact hinit
  | snoc entry _ hbefore htime hinv hgood ih =>
      exact hkeep _ _ _ _ _ _ hinv (htick _ _ _ (hbefore ▸ ih) htime) hgood

/-- Every transaction of a history is good. -/
theorem Serial.each {good : ω → List ν → σ → ℕ → Except ε ρ → σ → Prop} {s₀ : σ} {t₀ : ℕ}
    {log : List (Entry σ ν ε ρ ω)} (h : Serial inv good s₀ t₀ log s now)
    {entry : Entry σ ν ε ρ ω} (hmem : entry ∈ log) : inv entry.before entry.time ∧
      good entry.op entry.notes entry.before entry.time entry.result entry.after := by
  induction h with
  | nil => cases hmem
  | snoc last _ _ _ hinv hgood ih =>
      rcases List.mem_append.mp hmem with hold | hlast
      · exact ih hold
      · obtain rfl := List.mem_singleton.mp hlast
        exact ⟨hinv, hgood⟩

/-- What every transaction keeps, and the passing of time, holds before each of a history. -/
theorem Serial.each_invariant {good : ω → List ν → σ → ℕ → Except ε ρ → σ → Prop} {s₀ : σ} {t₀ : ℕ}
    {log : List (Entry σ ν ε ρ ω)} {P : σ → ℕ → Prop}
    (h : Serial inv good s₀ t₀ log s now) (hinit : P s₀ t₀)
    (htick : ∀ s t t', P s t → t ≤ t' → P s t')
    (hkeep : ∀ op notes s t result s', inv s t → P s t → good op notes s t result s' → P s' t)
    {entry : Entry σ ν ε ρ ω} (hmem : entry ∈ log) : P entry.before entry.time := by
  induction h with
  | nil => cases hmem
  | snoc last init hbefore htime _ _ ih =>
      rcases List.mem_append.mp hmem with hold | hlast
      · exact ih hold
      · obtain rfl := List.mem_singleton.mp hlast
        rw [hbefore]
        exact htick _ _ _ (init.invariant hinit htick hkeep) htime

/-- **Pairs of a history.**  When a transaction leaves behind what `K` says, every later
one keeps it, and one that finds it is related to the one that left it, any two of a history
are related. -/
theorem Serial.pairwise {good : ω → List ν → σ → ℕ → Except ε ρ → σ → Prop} {s₀ : σ} {t₀ : ℕ}
    {log : List (Entry σ ν ε ρ ω)} {K : Entry σ ν ε ρ ω → σ → Prop}
    {R : Entry σ ν ε ρ ω → Entry σ ν ε ρ ω → Prop} (h : Serial inv good s₀ t₀ log s now)
    (hleave : ∀ e : Entry σ ν ε ρ ω, inv e.before e.time →
      good e.op e.notes e.before e.time e.result e.after → K e e.after)
    (hkeep : ∀ e op notes s t result s', inv s t → K e s → good op notes s t result s' → K e s')
    (hfind : ∀ e e' : Entry σ ν ε ρ ω, inv e'.before e'.time → K e e'.before →
      good e'.op e'.notes e'.before e'.time e'.result e'.after → R e e') :
    log.Pairwise R ∧ ∀ e ∈ log, K e s := by
  induction h with
  | nil => exact ⟨.nil, by simp⟩
  | snoc entry _ hbefore _ hinv hgood ih =>
      obtain ⟨hpairs, hleft⟩ := ih
      rw [← hbefore] at hleft
      refine ⟨List.pairwise_append.mpr ⟨hpairs, List.pairwise_singleton _ _, ?_⟩, ?_⟩
      · intro e he e' he'
        obtain rfl := List.mem_singleton.mp he'
        exact hfind e e' hinv (hleft e he) hgood
      · intro e he
        rcases List.mem_append.mp he with hold | hlast
        · exact hkeep e _ _ _ _ _ _ hinv (hleft e hold) hgood
        · obtain rfl := List.mem_singleton.mp hlast
          exact hleave e hinv hgood

/-! ## The rule -/

/-- What holds of every state: the invariant, what the running transactions still
guarantee, their locks, and the history of those that ended. -/
structure Sound (keeps : κ → σ → σ → Prop) (grows : σ → σ → Prop) (inv : σ → ℕ → Prop)
    (good : ω → List ν → σ → ℕ → Except ε ρ → σ → Prop) (s₀ : σ) (t₀ : ℕ)
    (st : State κ σ ν ε ρ ω) : Prop where
  valid : inv st.store st.now
  holds : ∀ i thread, st.threads i = some thread →
    thread.prog.Holds keeps grows inv (good thread.op) thread.held thread.notes st.store st.now
  locks : ∀ i thread, st.threads i = some thread → ∀ key ∈ thread.held, st.holder key = some i
  serial : ∃ t, t ≤ st.now ∧ Serial inv good s₀ t₀ st.log st.store t

section Rule

variable {good : ω → List ν → σ → ℕ → Except ε ρ → σ → Prop} {s₀ : σ} {t₀ : ℕ}
  {st st' : State κ σ ν ε ρ ω} {i : ThreadId} {thread : Thread κ σ ν ε ρ ω}

omit [DecidableEq κ] in
/-- A statement of a transaction that runs finds the store as it is. -/
theorem Sound.unchanged (hr : Rules keeps grows inv) (h : Sound keeps grows inv good s₀ t₀ st)
    (held : List κ) :
    Later keeps grows inv held st.store st.now st.store st.now :=
  .refl hr held h.valid

omit [DecidableEq κ] in
/-- A transaction that starts or goes on keeps the others going. -/
theorem Sound.put (h : Sound keeps grows inv good s₀ t₀ st)
    (hholds : thread.prog.Holds keeps grows inv (good thread.op) thread.held thread.notes st.store
      st.now)
    (hlocks : ∀ key ∈ thread.held, st.holder key = some i) :
    Sound keeps grows inv good s₀ t₀ (st.put i thread) where
  valid := h.valid
  holds := by
    intro j other hother
    rcases stored_cases hother with ⟨-, rfl⟩ | ⟨-, hold⟩
    · exact hholds
    · exact h.holds j other hold
  locks := by
    intro j other hother
    rcases stored_cases hother with ⟨rfl, rfl⟩ | ⟨-, hold⟩
    · exact hlocks
    · exact h.locks j other hold
  serial := h.serial

/-- A lock that is free or one's own is taken from no one. -/
theorem Sound.take (h : Sound keeps grows inv good s₀ t₀ st) {key : κ}
    (hfree : st.holder key = none ∨ st.holder key = some i) :
    Sound keeps grows inv good s₀ t₀ (st.take i key) where
  valid := h.valid
  holds := h.holds
  locks := by
    intro j other hother key' hkey'
    have hholder := h.locks j other hother key' hkey'
    by_cases hk : key' = key
    · subst hk
      rcases hfree with hfree | hfree
      · rw [hfree] at hholder
        cases hholder
      · rw [← hholder, hfree]
        simp [State.take]
    · simpa [State.take, hk] using hholder
  serial := h.serial

omit [DecidableEq κ] in
/-- The locks of the others stay when a transaction is gone. -/
theorem Sound.release_locks (h : Sound keeps grows inv good s₀ t₀ st) {j : ThreadId}
    {other : Thread κ σ ν ε ρ ω} (hother : (st.release i).threads j = some other) :
    st.threads j = some other ∧ j ≠ i ∧
      ∀ key ∈ other.held, st.holder key = some j ∧ (st.release i).holder key = some j := by
  obtain ⟨hne, hold⟩ := deleted_cases hother
  refine ⟨hold, hne, ?_⟩
  intro key hkey
  have hholder := h.locks j other hold key hkey
  refine ⟨hholder, ?_⟩
  simp only [State.release, hholder]
  rw [if_neg (fun hji => hne (Option.some.inj hji))]

omit [DecidableEq κ] in
/-- A transaction that fails leaves the others going. -/
theorem Sound.release (h : Sound keeps grows inv good s₀ t₀ st) :
    Sound keeps grows inv good s₀ t₀ (st.release i) where
  valid := h.valid
  holds := fun j other hother => h.holds j other (h.release_locks hother).1
  locks := fun _ _ hother key hkey => ((h.release_locks hother).2.2 key hkey).2
  serial := h.serial

omit [DecidableEq κ] in
/-- A transaction that is rolled back goes on without its locks. -/
theorem Sound.restart (h : Sound keeps grows inv good s₀ t₀ st) {next : Prog κ σ ν ε ρ}
    (hholds : next.Holds keeps grows inv (good thread.op) [] thread.notes st.store st.now) :
    Sound keeps grows inv good s₀ t₀ (st.restart i thread next) := by
  refine h.release.put hholds ?_
  intro key hkey
  cases hkey

omit [DecidableEq κ] in
/-- A transaction that ends well leaves the others going and extends the history. -/
theorem Sound.finish (hr : Rules keeps grows inv) (h : Sound keeps grows inv good s₀ t₀ st)
    (hthread : st.threads i = some thread) {result : Except ε ρ} {after : σ}
    (hgood : good thread.op thread.notes st.store st.now result after)
    (hinv : inv after st.now) (hgrows : grows st.store after)
    (hkeeps : ∀ key, key ∉ thread.held → keeps key st.store after) :
    Sound keeps grows inv good s₀ t₀ (st.finish i thread result after) where
  valid := hinv
  holds := by
    intro j other hother
    obtain ⟨hold, hne, hlocks⟩ := h.release_locks hother
    refine (h.holds j other hold).later hr ⟨?_, hgrows, Nat.le_refl _, hinv⟩
    intro key hkey
    refine hkeeps key ?_
    intro hmine
    have hholder := h.locks i thread hthread key hmine
    rw [(hlocks key hkey).1] at hholder
    exact hne (Option.some.inj hholder)
  locks := fun _ _ hother key hkey => ((h.release_locks hother).2.2 key hkey).2
  serial := by
    obtain ⟨t, ht, hserial⟩ := h.serial
    exact ⟨st.now, Nat.le_refl _, hserial.snoc _ rfl ht h.valid hgood⟩

/-- One statement keeps everything going. -/
theorem Sound.runThread (hr : Rules keeps grows inv) (h : Sound keeps grows inv good s₀ t₀ st)
    (hthread : st.threads i = some thread) (hstep : runThread st i thread = some st') :
    Sound keeps grows inv good s₀ t₀ st' := by
  have hholds := h.holds i thread hthread
  have hlocks := h.locks i thread hthread
  unfold Transactions.runThread at hstep
  cases hprog : thread.prog with
  | done result | answer result =>
      rw [hprog] at hholds hstep
      obtain rfl := Option.some.inj hstep
      exact h.finish hr hthread (hholds _ _ (h.unchanged hr _)) h.valid
        (hr.grows_refl _) fun key _ => hr.refl key _
  | lock key next =>
      rw [hprog] at hholds hstep
      simp only at hstep
      split at hstep
      · next hfree =>
          obtain rfl := Option.some.inj hstep
          refine (h.take hfree).put (hholds _ _ (h.unchanged hr _)) ?_
          intro key' hkey'
          rcases List.mem_cons.mp hkey' with rfl | hold
          · simp [State.take]
          · by_cases hk : key' = key
            · simp [State.take, hk]
            · simpa [State.take, hk] using hlocks key' hold
      · cases hstep
  | look next =>
      rw [hprog] at hholds hstep
      obtain rfl := Option.some.inj hstep
      exact h.put (hholds _ _ (h.unchanged hr _)) hlocks
  | clock next =>
      rw [hprog] at hholds hstep
      obtain rfl := Option.some.inj hstep
      exact h.put (hholds _ _ (h.unchanged hr _)) hlocks
  | note n next =>
      rw [hprog] at hholds hstep
      obtain rfl := Option.some.inj hstep
      exact h.put hholds hlocks
  | commit write result =>
      rw [hprog] at hholds hstep
      have hend := hholds _ _ (h.unchanged hr _)
      simp only at hstep
      split at hstep
      · next after hwrite =>
          obtain rfl := Option.some.inj hstep
          rw [hwrite] at hend
          exact h.finish hr hthread hend.1 hend.2.1 hend.2.2.1 hend.2.2.2
      · next e hwrite =>
          obtain rfl := Option.some.inj hstep
          rw [hwrite] at hend
          exact h.finish hr hthread hend h.valid (hr.grows_refl _) fun key _ => hr.refl key _
  | rollback next =>
      rw [hprog] at hholds hstep
      obtain rfl := Option.some.inj hstep
      exact h.restart (hholds _ _ (h.unchanged hr _))
  | attempt write result recover =>
      rw [hprog] at hholds hstep
      have hend := hholds _ _ (h.unchanged hr _)
      simp only at hstep
      split at hstep
      · next after hwrite =>
          obtain rfl := Option.some.inj hstep
          rw [hwrite] at hend
          exact h.finish hr hthread hend.1 hend.2.1 hend.2.2.1 hend.2.2.2
      · next e hwrite =>
          obtain rfl := Option.some.inj hstep
          rw [hwrite] at hend
          exact h.restart hend

/-- **Serializability.**  When every program guarantees `good`, the store after a run is
that of a serial history of the transactions that ended, all of them good. -/
theorem serial (hr : Rules keeps grows inv) {program : ω → Prog κ σ ν ε ρ}
    (hprograms : ∀ op s now, inv s now → (program op).Holds keeps grows inv (good op) [] [] s now)
    (hinit : inv s₀ t₀) {as : List (Action ω)}
    (h : Run (system program s₀ t₀) anyStep (initial s₀ t₀) as st) :
    Sound keeps grows inv good s₀ t₀ st := by
  have hstart : Sound keeps grows inv good s₀ t₀ (initial s₀ t₀ : State κ σ ν ε ρ ω) := by
    refine ⟨hinit, ?_, ?_, t₀, Nat.le_refl _, .nil⟩
    · intro i thread hthread
      cases hthread
    · intro i thread hthread
      cases hthread
  refine h.invariant (P := Sound keeps grows inv good s₀ t₀) ?_ hstart
  intro st a st' hsound _ hstep
  cases a with
  | start i op =>
      simp only [system, step] at hstep
      split at hstep
      · cases hstep
      · obtain rfl := Option.some.inj hstep
        refine hsound.put (hprograms op _ _ hsound.valid) ?_
        intro key hkey
        cases hkey
  | run i =>
      obtain ⟨thread, hthread, hrun⟩ := Option.bind_eq_some_iff.mp hstep
      exact hsound.runThread hr hthread hrun
  | abort i =>
      obtain ⟨thread, -, rfl⟩ := Option.map_eq_some_iff.mp hstep
      exact hsound.release
  | tick elapsed =>
      obtain rfl := Option.some.inj hstep
      have hle : st.now ≤ st.now + elapsed := Nat.le_add_right _ _
      have hinv := hr.tick _ _ _ hsound.valid hle
      refine ⟨hinv, ?_, hsound.locks, ?_⟩
      · intro j other hother
        exact (hsound.holds j other hother).later hr
          ⟨fun key _ => hr.refl key _, hr.grows_refl _, hle, hinv⟩
      · obtain ⟨t, ht, hserial⟩ := hsound.serial
        exact ⟨t, Nat.le_trans ht hle, hserial⟩

/-! ## Conditions on commits -/

omit [DecidableEq κ] in
/-- Is a commit the next statement? -/
def Prog.commits : Prog κ σ ν ε ρ → Bool
  | .commit _ _ | .attempt _ _ _ => true
  | _ => false

omit [DecidableEq κ] in
/-- A transaction that commits meets a condition on its operation, its notes and the store. -/
def committing (Q : ω → List ν → σ → Prop) (st : State κ σ ν ε ρ ω) (a : Action ω) : Prop :=
  ∀ i thread, a = .run i → st.threads i = some thread → thread.prog.commits = true →
    Q thread.op thread.notes st.store

/-- **Conditions on commits.**  When every commit of a run meets a condition, so does every
transaction of the history that did not end by itself, with nothing written. -/
theorem committed {program : ω → Prog κ σ ν ε ρ} {Q : ω → List ν → σ → Prop} {as : List (Action ω)}
    (h : Run (system program s₀ t₀) (committing Q) (initial s₀ t₀) as st) :
    ∀ entry ∈ st.log, Q entry.op entry.notes entry.before ∨
      (entry.after = entry.before ∧ ∃ result, entry.result = .ok result) := by
  refine h.invariant (P := fun st : State κ σ ν ε ρ ω => ∀ entry ∈ st.log,
    Q entry.op entry.notes entry.before ∨
      (entry.after = entry.before ∧ ∃ result, entry.result = .ok result)) ?_ ?_
  · intro st a st' hlog hok hstep entry hentry
    cases a with
    | start i op =>
        simp only [system, step] at hstep
        split at hstep
        · cases hstep
        · obtain rfl := Option.some.inj hstep
          exact hlog entry hentry
    | run i =>
        obtain ⟨thread, hthread, hrun⟩ := Option.bind_eq_some_iff.mp hstep
        have hcommit := hok i thread rfl hthread
        unfold Transactions.runThread at hrun
        cases hprog : thread.prog with
        | done result | answer result =>
            rw [hprog] at hrun
            obtain rfl := Option.some.inj hrun
            rcases List.mem_append.mp hentry with hold | hnew
            · exact hlog entry hold
            · obtain rfl := List.mem_singleton.mp hnew
              exact Or.inr ⟨rfl, _, rfl⟩
        | lock key next =>
            rw [hprog] at hrun
            simp only at hrun
            split at hrun
            · obtain rfl := Option.some.inj hrun
              exact hlog entry hentry
            · cases hrun
        | look next | clock next | note n next | rollback next =>
            rw [hprog] at hrun
            obtain rfl := Option.some.inj hrun
            exact hlog entry hentry
        | attempt write result recover =>
            rw [hprog] at hrun hcommit
            simp only at hrun
            split at hrun
            · obtain rfl := Option.some.inj hrun
              rcases List.mem_append.mp hentry with hold | hnew
              · exact hlog entry hold
              · obtain rfl := List.mem_singleton.mp hnew
                exact Or.inl (hcommit rfl)
            · obtain rfl := Option.some.inj hrun
              exact hlog entry hentry
        | commit write result =>
            rw [hprog] at hrun hcommit
            simp only at hrun
            split at hrun
            all_goals
              obtain rfl := Option.some.inj hrun
              rcases List.mem_append.mp hentry with hold | hnew
              · exact hlog entry hold
              · obtain rfl := List.mem_singleton.mp hnew
                exact Or.inl (hcommit rfl)
    | abort i =>
        obtain ⟨thread, -, rfl⟩ := Option.map_eq_some_iff.mp hstep
        exact hlog entry hentry
    | tick elapsed =>
        obtain rfl := Option.some.inj hstep
        exact hlog entry hentry
  · intro entry hentry
    cases hentry

/-- **Invariants under a condition on commits.**  What holds at first, and is kept by every
transaction that meets the condition, holds after a run whose commits all meet it, and before
and after each transaction of its history. -/
theorem invariant_of_committed {program : ω → Prog κ σ ν ε ρ} {Q : ω → List ν → σ → Prop}
    {as : List (Action ω)} {P : σ → Prop}
    (h : Run (system program s₀ t₀) (committing Q) (initial s₀ t₀) as st)
    (hsound : Sound keeps grows inv good s₀ t₀ st) (hinit : P s₀)
    (hkeep : ∀ op notes s t result s', inv s t → P s → good op notes s t result s' →
      Q op notes s → P s') :
    P st.store ∧ ∀ entry ∈ st.log, P entry.before ∧ P entry.after := by
  have hcommitted := committed h
  obtain ⟨t, -, hserial⟩ := hsound.serial
  generalize st.log = log at hcommitted hserial ⊢
  generalize st.store = s at hserial ⊢
  induction hserial with
  | nil => exact ⟨hinit, by simp⟩
  | snoc entry _ hbefore _ hinv hgood ih =>
      obtain ⟨hs, hlog⟩ := ih fun e he => hcommitted e (List.mem_append_left _ he)
      rw [← hbefore] at hs
      have hafter : P entry.after := by
        rcases hcommitted entry (List.mem_append_right _ (List.mem_singleton_self _)) with
          hq | ⟨hsame, -⟩
        · exact hkeep _ _ _ _ _ _ hinv hs hgood hq
        · exact hsame ▸ hs
      refine ⟨hafter, ?_⟩
      intro e he
      rcases List.mem_append.mp he with hold | hlast
      · exact hlog e hold
      · obtain rfl := List.mem_singleton.mp hlast
        exact ⟨hs, hafter⟩

omit [DecidableEq κ] in
/-- A condition on commits, computed. -/
def commitsWith (q : ω → List ν → σ → Bool) (st : State κ σ ν ε ρ ω) : Action ω → Bool
  | .run i => (st.threads i).all fun thread =>
      !thread.prog.commits || q thread.op thread.notes st.store
  | _ => true

omit [DecidableEq κ] in
theorem committing_of_commitsWith {q : ω → List ν → σ → Bool} {a : Action ω}
    (h : commitsWith q st a = true) :
    committing (fun op notes s => q op notes s = true) st a := by
  rintro i thread rfl hthread hcommits
  simpa [commitsWith, hthread, hcommits] using h

end Rule

end Transactions
