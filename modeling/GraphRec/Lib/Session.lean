import Mathlib.Data.List.Basic

/-!
# Database sessions under a row-level policy

A session holds the objects added to it and a setting that is local to its
transaction: the tenant whose rows it may write.  Committing flushes the objects; a
forced policy rejects every row of another tenant, and a row that breaks a constraint is
rejected too.  One rejected row fails the whole commit.  Ending the transaction, one way
or the other, ends the setting with it.

What the rows are, whose they are and how a database takes one are parameters.
-/

/-- A session: the tenant of its transaction and the rows added to it. -/
structure Session (τ ρ : Type) where
  currentTenant : Option τ
  pending : List ρ

namespace Session

variable {τ ρ δ : Type}

/-- A session at the start of a transaction. -/
def start : Session τ ρ := ⟨none, []⟩

variable (s : Session τ ρ)

/-- `set_config('app.current_tenant_id', tenant, true)`. -/
def setLocalTenant (tenant : τ) : Session τ ρ := { s with currentTenant := some tenant }

/-- Add an object. -/
def add (row : ρ) : Session τ ρ := { s with pending := s.pending ++ [row] }

/-- Roll the transaction back: what was added is discarded, and the setting undone. -/
def rollback (_ended : Session τ ρ) : Session τ ρ := start

variable [DecidableEq τ] (tenantOf : ρ → τ) (insert : δ → ρ → Option δ)

/-- The database after the rows, one after the other; `none` when one is rejected. -/
def flush (db : δ) : Option δ :=
  s.pending.foldlM
    (fun db row => if s.currentTenant = some (tenantOf row) then insert db row else none) db

/-- Commit: the database after it and the session for the next transaction, or `none`
when it raises. -/
def commit (db : δ) : Option (δ × Session τ ρ) :=
  (s.flush tenantOf insert db).map fun db' => (db', start)

variable {tenantOf insert} {s}

/-- Rows of the current tenant are flushed as they are. -/
theorem flush_of_current {db : δ}
    (h : ∀ row ∈ s.pending, s.currentTenant = some (tenantOf row)) :
    s.flush tenantOf insert db = s.pending.foldlM insert db := by
  unfold flush
  generalize s.pending = rows at h
  induction rows generalizing db with
  | nil => rfl
  | cons row rows ih =>
      rw [List.forall_mem_cons] at h
      rw [List.foldlM_cons, List.foldlM_cons, if_pos h.1]
      cases insert db row with
      | none => rfl
      | some db' => exact ih h.2

/-- **The policy is forced**: with a row of another tenant nothing is flushed. -/
theorem flush_of_foreign {db : δ} {row : ρ} (hmem : row ∈ s.pending)
    (h : s.currentTenant ≠ some (tenantOf row)) : s.flush tenantOf insert db = none := by
  unfold flush
  generalize s.pending = rows at hmem
  induction rows generalizing db with
  | nil => cases hmem
  | cons first rows ih =>
      rw [List.foldlM_cons]
      rcases List.mem_cons.mp hmem with rfl | hmem
      · rw [if_neg h]
        rfl
      · split
        · cases hinsert : insert db first with
          | none => rfl
          | some db' => exact ih hmem
        · rfl

end Session
