import GraphRec.Lib.Transition

/-!
# Row-level security over row versions

Transactions of any number of clients work on the rows of several tables.  A row is kept in
versions: an update leaves the old version, marked with the transaction that replaced it, and adds
a new one, so a transaction sees the versions that committed transactions and itself have made and
have not taken away.  A version that a running transaction has taken away is locked.

A transaction has a tenant, which a statement of it may set; it ends with the transaction.  For
each clause of a table a policy says which rows a transaction of a tenant may see, add, change or
remove.  A statement is any function of the rows it sees, under the policies of the role, or of the
definer of a function that is called.

* `perform_performed` — what a statement may leave of the versions;
* `committed_sublist` — rows that may not be changed or removed stay.
-/

namespace RowSecurity

open Transition

/-- What a policy is for: `USING` of a select, an update and a delete, `WITH CHECK` of an insert
and an update. -/
inductive Clause
  | select
  | insert
  | updateOld
  | updateNew
  | delete
  deriving DecidableEq, Repr

/-- The policies of a role: which commands are granted on a table, and which rows they are for in a
transaction of a tenant. -/
structure Policies (κ τ ρ : Type) where
  granted : Clause → τ → Bool
  allows : Clause → τ → Option κ → ρ → Bool

/-- A version of a row: the transaction that made it and the one that took it away. -/
structure Version (τ ρ : Type) where
  table : τ
  row : ρ
  created : ℕ
  deleted : Option ℕ

/-- A transaction: at work for a tenant, or done. -/
inductive Phase (κ : Type)
  | running (tenant : Option κ)
  | committed
  | aborted
  deriving DecidableEq

/-- The rows a transaction sees, table by table. -/
abbrev View (τ ρ : Type) := τ → List ρ

/-- Whose policies a statement is under: those of the role, or in a call of a function those of
its definer. -/
inductive Authority
  | role
  | definer
  deriving DecidableEq

/-- A statement.  An update has no new row for those it is not about. -/
inductive Statement (τ ρ β : Type)
  | select (query : View τ ρ → β)
  | insert (table : τ) (rows : View τ ρ → List ρ)
  | update (table : τ) (set : View τ ρ → ρ → Option ρ)
  | delete (table : τ) (matching : View τ ρ → ρ → Bool)

/-- What a statement answers. -/
inductive Answer (β : Type)
  | rows (value : β)
  | count (n : ℕ)
  /-- It is not granted, or a row failed a check. -/
  | denied
  /-- A constraint was violated. -/
  | violated
  deriving DecidableEq

section Statements

variable {κ τ ρ β : Type} [DecidableEq κ] [DecidableEq τ] (p : Policies κ τ ρ)
  (phase : ℕ → Option (Phase κ)) (x : ℕ) (who : Option κ)

/-- Does `x` see what `y` has done? -/
def sees (y : ℕ) : Bool := decide (y = x) || decide (phase y = some .committed)

/-- Does `x` see the version? -/
def Version.visible (v : Version τ ρ) : Bool :=
  sees phase x v.created && !v.deleted.any (sees phase x)

/-- Has another transaction, still at work, taken the version away? -/
def Version.locked (v : Version τ ρ) : Bool :=
  v.deleted.any fun y => decide (y ≠ x) && match phase y with
    | some (.running _) => true
    | _ => false

/-- What `x` sees. -/
def view (vs : List (Version τ ρ)) : View τ ρ := fun t =>
  (vs.filter fun v => decide (v.table = t) && v.visible phase x &&
    p.allows .select t who v.row).map Version.row

/-- Is the version of a row that a change is about? -/
def hit (t : τ) (clause : Clause) (target : ρ → Bool) (v : Version τ ρ) : Bool :=
  decide (v.table = t) && v.visible phase x && p.allows .select t who v.row &&
    p.allows clause t who v.row && target v.row

/-- New versions. -/
def fresh (t : τ) (rows : List ρ) : List (Version τ ρ) := rows.map fun r => ⟨t, r, x, none⟩

/-- The version is taken away if it is hit. -/
def mark (hits : Version τ ρ → Bool) (v : Version τ ρ) : Version τ ρ :=
  if hits v then { v with deleted := some x } else v

/-- A change: versions are taken away, and rows come in their place.  It waits for a lock. -/
def rewrite (violates : Bool) (t : τ) (clause : Clause) (set : ρ → Option (List ρ))
    (vs : List (Version τ ρ)) : Option (List (Version τ ρ) × Answer β) :=
  let hits := hit p phase x who t clause fun r => (set r).isSome
  let new := (vs.filter hits).flatMap fun v => (set v.row).getD []
  if vs.any fun v => hits v && v.locked phase x then none
  else if violates then some (vs, .violated)
  else if new.all (p.allows .updateNew t who) then
    some (vs.map (mark x hits) ++ fresh x t new, .count (vs.filter hits).length)
  else some (vs, .denied)

/-- A statement of a transaction; `violates` is what the constraints came to. -/
def perform (violates : Bool) (vs : List (Version τ ρ)) :
    Statement τ ρ β → Option (List (Version τ ρ) × Answer β)
  | .select query =>
    some (vs, .rows (query (view p phase x who vs)))
  | .insert t rows =>
    let new := rows (view p phase x who vs)
    if p.granted .insert t = false then some (vs, .denied)
    else if violates then some (vs, .violated)
    else if new.all (p.allows .insert t who) then
      some (vs ++ fresh x t new, .count new.length)
    else some (vs, .denied)
  | .update t set =>
    if p.granted .updateOld t = false then some (vs, .denied)
    else rewrite p phase x who violates t .updateOld
      (fun r => (set (view p phase x who vs) r).map fun new => [new]) vs
  | .delete t matching =>
    if p.granted .delete t = false then some (vs, .denied)
    else rewrite p phase x who violates t .delete
      (fun r => if matching (view p phase x who vs) r then some [] else none) vs

/-- What a statement may leave: the versions as they were, or some of them taken away and new ones
added, each of a row that a policy is for. -/
inductive Performed (vs : List (Version τ ρ)) : List (Version τ ρ) → Prop
  | nothing : Performed vs vs
  | changed {t : τ} {hits : Version τ ρ → Bool} {rows : List ρ}
      (hhits : ∀ v, hits v = true → ∃ clause, (clause = .updateOld ∨ clause = .delete) ∧
        p.granted clause v.table = true ∧ p.allows clause v.table who v.row = true)
      (hrows : ∀ r ∈ rows, ∃ clause, clause ≠ .select ∧ p.allows clause t who r = true) :
      Performed vs (vs.map (mark x hits) ++ fresh x t rows)

end Statements

section Performed

variable {κ τ ρ β : Type} [DecidableEq κ] [DecidableEq τ] {p : Policies κ τ ρ}
  {phase : ℕ → Option (Phase κ)} {x : ℕ} {who : Option κ} {violates : Bool}
  {vs vs' : List (Version τ ρ)}

theorem rewrite_performed {t : τ} {clause : Clause} {set : ρ → Option (List ρ)} {a : Answer β}
    (hclause : clause = .updateOld ∨ clause = .delete) (hgranted : p.granted clause t = true)
    (h : rewrite p phase x who violates t clause set vs = some (vs', a)) :
    Performed p x who vs vs' := by
  simp only [rewrite] at h
  split at h
  · cases h
  · split at h
    · cases h
      exact .nothing
    · split at h <;> cases h
      · next hchecked =>
        refine .changed ?_ fun r hr => ⟨.updateNew, by decide, List.all_eq_true.mp hchecked r hr⟩
        intro v hhit
        simp only [hit, Bool.and_eq_true, decide_eq_true_eq] at hhit
        obtain ⟨⟨⟨⟨rfl, -⟩, -⟩, hallowed⟩, -⟩ := hhit
        exact ⟨clause, hclause, hgranted, hallowed⟩
      · exact .nothing

/-- **What a statement leaves.** -/
theorem perform_performed {statement : Statement τ ρ β} {a : Answer β}
    (h : perform p phase x who violates vs statement = some (vs', a)) :
    Performed p x who vs vs' := by
  cases statement with
  | select query =>
    cases h
    exact .nothing
  | insert t rows =>
    simp only [perform] at h
    split at h
    · cases h
      exact .nothing
    · split at h
      · cases h
        exact .nothing
      · split at h <;> cases h
        · next hchecked =>
          have hadded : Performed p x who vs (vs.map (mark x fun _ => false) ++
              fresh x t (rows (view p phase x who vs))) :=
            .changed nofun fun r hr => ⟨.insert, by decide, List.all_eq_true.mp hchecked r hr⟩
          rwa [show vs.map (mark x fun _ => false) = vs from List.map_id' vs] at hadded
        · exact .nothing
  | update t set =>
    simp only [perform] at h
    split at h
    · cases h
      exact .nothing
    · next hgranted => exact rewrite_performed (Or.inl rfl) (eq_true_of_ne_false hgranted) h
  | delete t matching =>
    simp only [perform] at h
    split at h
    · cases h
      exact .nothing
    · next hgranted => exact rewrite_performed (Or.inr rfl) (eq_true_of_ne_false hgranted) h

end Performed

/-! ## The system -/

/-- The database: the versions, the transactions, and what was answered to which tenant. -/
structure Database (κ τ ρ β : Type) where
  versions : List (Version τ ρ)
  phase : ℕ → Option (Phase κ)
  answers : List (Option κ × Answer β)

/-- The steps of a transaction. -/
inductive Action (κ τ ρ β : Type)
  | start (x : ℕ)
  | setTenant (x : ℕ) (k : κ)
  | run (x : ℕ) (authority : Authority) (statement : Statement τ ρ β) (violates : Bool)
  | finish (x : ℕ) (commits : Bool)

/-- The transaction that takes the step. -/
def Action.actor {κ τ ρ β : Type} : Action κ τ ρ β → ℕ
  | .start x | .setTenant x _ | .run x _ _ _ | .finish x _ => x

section Stays

variable {κ τ ρ β : Type} [DecidableEq κ] {p : Policies κ τ ρ} {q : τ → ρ → Bool}
  {s : Database κ τ ρ β} {vs vs' : List (Version τ ρ)} {x : ℕ}

omit [DecidableEq κ] in
theorem fresh_deleted {t : τ} {rows : List ρ} : ∀ v ∈ fresh x t rows, v.deleted = none := by
  intro v hv
  obtain ⟨r, -, rfl⟩ := List.mem_map.mp hv
  rfl

/-- Rows that the role may neither change nor remove. -/
structure Frozen (p : Policies κ τ ρ) (q : τ → ρ → Bool) : Prop where
  update : ∀ t r, q t r = true →
    p.granted .updateOld t = false ∨ ∀ who, p.allows .updateOld t who r = false
  delete : ∀ t r, q t r = true →
    p.granted .delete t = false ∨ ∀ who, p.allows .delete t who r = false

/-- The committed rows, of those that `q` is about. -/
def Database.committed (s : Database κ τ ρ β) (q : τ → ρ → Bool) : List (τ × ρ) :=
  (s.versions.filter fun v => q v.table v.row && decide (s.phase v.created = some .committed) &&
    !v.deleted.any fun y => decide (s.phase y = some .committed)).map fun v => (v.table, v.row)

/-- The versions that `q` is about. -/
def about (q : τ → ρ → Bool) (v : Version τ ρ) : Bool := q v.table v.row

/-- None of them has been taken away. -/
def Kept (q : τ → ρ → Bool) (vs : List (Version τ ρ)) : Prop :=
  ∀ v ∈ vs, about q v = true → v.deleted = none

/-- They are as before, with new ones after them. -/
def GrowsTo (q : τ → ρ → Bool) (vs vs' : List (Version τ ρ)) : Prop :=
  ∃ new, vs'.filter (about q) = vs.filter (about q) ++ new ∧ ∀ v ∈ new, v.deleted = none

theorem GrowsTo.refl (vs : List (Version τ ρ)) : GrowsTo q vs vs :=
  ⟨[], (List.append_nil _).symm, fun _ h => absurd h List.not_mem_nil⟩

theorem GrowsTo.kept (h : GrowsTo q vs vs') (hkept : Kept q vs) : Kept q vs' := by
  obtain ⟨new, hnew, hfresh⟩ := h
  intro v hv habout
  have hmem : v ∈ vs'.filter (about q) := List.mem_filter.mpr ⟨hv, habout⟩
  rw [hnew, List.mem_append, List.mem_filter] at hmem
  rcases hmem with ⟨hold, -⟩ | hmem
  · exact hkept v hold habout
  · exact hfresh v hmem

/-- Versions come, and others are taken away. -/
theorem grows_rewritten {hits : Version τ ρ → Bool} {t : τ} {rows : List ρ}
    (hhits : ∀ v, hits v = true → about q v = false) :
    GrowsTo q vs (vs.map (mark x hits) ++ fresh x t rows) := by
  refine ⟨(fresh x t rows).filter (about q), ?_, ?_⟩
  · rw [List.filter_append]
    congr 1
    induction vs with
    | nil => rfl
    | cons v vs ih =>
      rw [List.map_cons, List.filter_cons, List.filter_cons, ih]
      unfold mark
      cases hhit : hits v with
      | false => rfl
      | true =>
        have hother : about q { v with deleted := some x } = false := hhits v hhit
        simp only [if_true, hother, hhits v hhit, Bool.false_eq_true, if_false]
  · intro v hv
    exact fresh_deleted v (List.mem_of_mem_filter hv)

/-- With nothing taken away, the committed rows are those of committed transactions. -/
theorem committed_of_kept (h : Kept q s.versions) :
    s.committed q = ((s.versions.filter (about q)).filter fun v =>
      decide (s.phase v.created = some .committed)).map fun v => (v.table, v.row) := by
  rw [Database.committed, List.filter_filter]
  refine congrArg (List.map _) (List.filter_congr ?_)
  intro v hv
  cases habout : about q v with
  | false =>
    change q v.table v.row = false at habout
    rw [habout, Bool.false_and, Bool.false_and, Bool.and_false]
  | true =>
    change q v.table v.row = true at habout
    rw [habout, h v hv habout, Bool.true_and, Bool.and_true, Option.any_none, Bool.not_false,
      Bool.and_true]

end Stays

section System

variable {κ τ ρ β : Type} [DecidableEq κ] [DecidableEq τ]

/-- One step. -/
def step (p : Authority → Policies κ τ ρ) (s : Database κ τ ρ β) :
    Action κ τ ρ β → Option (Database κ τ ρ β)
  | .start x =>
    match s.phase x with
    | none => some { s with phase := Function.update s.phase x (some (.running none)) }
    | some _ => none
  | .setTenant x k =>
    match s.phase x with
    | some (.running _) =>
      some { s with phase := Function.update s.phase x (some (.running (some k))) }
    | _ => none
  | .run x authority statement violates =>
    match s.phase x with
    | some (.running who) =>
      (perform (p authority) s.phase x who violates s.versions statement).map fun done =>
        { s with versions := done.1, answers := s.answers ++ [(who, done.2)] }
    | _ => none
  | .finish x commits =>
    match s.phase x with
    | some (.running _) =>
      some { s with
        phase := Function.update s.phase x (some (if commits then .committed else .aborted)) }
    | _ => none

/-- The database as a transition system. -/
def database (p : Authority → Policies κ τ ρ) (first : Database κ τ ρ β) :
    System (Database κ τ ρ β) (Action κ τ ρ β) where
  init := first
  step := step p

variable {p : Authority → Policies κ τ ρ} {first s s' t : Database κ τ ρ β}
  {a : Action κ τ ρ β} {as : List (Action κ τ ρ β)}

/-- What a statement of a transaction does. -/
theorem step_run {x : ℕ} {authority : Authority} {statement : Statement τ ρ β} {violates : Bool}
    (h : step p s (.run x authority statement violates) = some s') :
    ∃ who vs answer, s.phase x = some (.running who) ∧
      perform (p authority) s.phase x who violates s.versions statement = some (vs, answer) ∧
      s' = { s with versions := vs, answers := s.answers ++ [(who, answer)] } := by
  simp only [step] at h
  split at h
  · next who hphase =>
    obtain ⟨⟨vs, answer⟩, hperform, rfl⟩ := Option.map_eq_some_iff.mp h
    exact ⟨who, vs, answer, hphase, hperform, rfl⟩
  · cases h

/-! ### Rows that stay -/

variable {r : Policies κ τ ρ} {q : τ → ρ → Bool} {vs vs' : List (Version τ ρ)}
  {phase : ℕ → Option (Phase κ)} {x : ℕ} {who : Option κ} {violates : Bool}

/-- A statement takes none of these rows away. -/
theorem grows_perform (hfrozen : Frozen r q) {statement : Statement τ ρ β} {a : Answer β}
    (h : perform r phase x who violates vs statement = some (vs', a)) : GrowsTo q vs vs' := by
  cases perform_performed h with
  | nothing => exact GrowsTo.refl vs
  | changed hhits hrows =>
    refine grows_rewritten ?_
    intro v hhit
    obtain ⟨clause, hclause, hgranted, hallowed⟩ := hhits v hhit
    rw [← Bool.not_eq_true]
    intro habout
    have hdenied : r.granted clause v.table = false ∨
        ∀ who, r.allows clause v.table who v.row = false := by
      rcases hclause with rfl | rfl
      · exact hfrozen.update v.table v.row habout
      · exact hfrozen.delete v.table v.row habout
    rcases hdenied with hnone | hnone
    · rw [hnone] at hgranted
      cases hgranted
    · rw [hnone who] at hallowed
      cases hallowed

/-- A step only adds to these rows, and what has committed has committed. -/
theorem grows_step (hfrozen : ∀ authority, Frozen (p authority) q) (h : step p s a = some s') :
    GrowsTo q s.versions s'.versions ∧
      ∀ y, s.phase y = some .committed → s'.phase y = some .committed := by
  cases a with
  | run x authority statement violates =>
    obtain ⟨who, vs, answer, -, hperform, rfl⟩ := step_run h
    exact ⟨grows_perform (hfrozen authority) hperform, fun _ hy => hy⟩
  | start x | setTenant x k | finish x commits =>
    simp only [step] at h
    split at h
    · next hphase =>
      obtain rfl := Option.some.inj h
      refine ⟨GrowsTo.refl _, ?_⟩
      intro y hy
      have hne : y ≠ x := by
        rintro rfl
        rw [hphase] at hy
        cases hy
      exact (Function.update_of_ne hne _ _).trans hy
    · cases h

theorem committed_step (hfrozen : ∀ authority, Frozen (p authority) q) (h : step p s a = some s')
    (hkept : Kept q s.versions) : (s.committed q).Sublist (s'.committed q) := by
  obtain ⟨hgrows, hphase⟩ := grows_step hfrozen h
  rw [committed_of_kept hkept, committed_of_kept (hgrows.kept hkept)]
  obtain ⟨new, hnew, -⟩ := hgrows
  refine List.Sublist.map _ ?_
  rw [hnew, List.filter_append]
  refine List.Sublist.trans (List.monotone_filter_right _ ?_) (List.sublist_append_left _ _)
  intro v hv
  rw [decide_eq_true_eq] at hv ⊢
  exact hphase _ hv

/-- **Rows that stay.**  A committed row of these is not changed and not removed. -/
theorem committed_sublist (hfrozen : ∀ authority, Frozen (p authority) q)
    (h : Run (database p first) anyStep s as t) (hkept : Kept q s.versions) :
    (s.committed q).Sublist (t.committed q) := by
  induction h with
  | nil s => exact List.Sublist.refl _
  | cons _ hstep _ ih =>
    exact (committed_step hfrozen hstep hkept).trans (ih ((grows_step hfrozen hstep).1.kept hkept))

end System

end RowSecurity
