import GraphRec.Lib.RowIsolation

/-!
# The row policies of the application role

What the migrations grant to `graphrec_app`, the role the API, the worker and the scheduler
connect as, and the policies they create for it: a table of tenants' rows has forced row-level
security, and a policy compares `tenant_id` with the tenant that `set_local_tenant` has set for the
transaction.  A `SECURITY DEFINER` function that the role calls runs as its definer, whom the
policies do not bind.

* `tenant_isolated` — a tenant reads its own rows and the plans, and nothing that the others do
  shows in what it reads or is answered;
* `rows_stay` — ledger, audit and serving records, and plan requests that are settled, stay.

`platform_operators` and `security_events`, which have no tenant policy, are not among the tables,
nor is `dataset_snapshot_contents`, of which a foreign key removes the rows with their snapshots.
-/

namespace RowPolicies

open Transition RowSecurity

abbrev TenantId := ℕ

/-- The tables with policies of tenants, and `pricing_plans`. -/
inductive Table
  | pricingPlans
  | tenants
  | tenantUsers
  | tenantSubscriptions
  | tenantResourceQuotas
  | auditLogs
  | registrationRequests
  | refreshSessions
  | usageEvents
  | apiKeys
  | products
  | customerEvents
  | eventBatches
  | modelVersions
  | trainingJobs
  | datasetSnapshots
  | accountSetupTokens
  | servingRequests
  | recommendationRecords
  | recommendationFeedback
  | accountRecoveryTokens
  | catalogSyncs
  | modelDeployments
  | recommendationResults
  | customers
  | retrainingPolicies
  | recommendationPolicies
  | capacityEvents
  | planChangeRequests
  deriving DecidableEq, Repr

/-- A row: the columns the policies read, and the others. -/
structure Row where
  id : ℕ
  tenantId : Option TenantId
  status : String
  columns : List (String × String)
  deriving DecidableEq

/-- The condition of a policy. -/
inductive Rule
  /-- No policy: row-level security denies. -/
  | never
  /-- No row-level security. -/
  | always
  /-- `tenant_id = NULLIF(current_setting('app.current_tenant_id', true), '')::uuid` -/
  | tenant
  /-- The same of `id`. -/
  | itself
  /-- The tenant's row, in this status. -/
  | tenantIn (status : String)
  /-- Any row in one of these. -/
  | inStatus (statuses : List String)

/-- Does a row meet the condition in a transaction of the tenant? -/
def Rule.admits (who : Option TenantId) (row : Row) : Rule → Bool
  | .never => false
  | .always => true
  | .tenant => who.isSome && decide (row.tenantId = who)
  | .itself => who.isSome && decide (some row.id = who)
  | .tenantIn status => who.isSome && decide (row.tenantId = who) && decide (row.status = status)
  | .inStatus statuses => decide (row.status ∈ statuses)

/-- Whose the row is. -/
def owner (table : Table) (row : Row) : Option TenantId :=
  match table with
  | .pricingPlans => none
  | .tenants => some row.id
  | _ => row.tenantId

/-- The `GRANT`s; an update is of the columns that are granted. -/
def granted (clause : Clause) (table : Table) : Bool :=
  match table with
  | .pricingPlans => decide (clause = .select)
  | .tenants | .tenantSubscriptions | .tenantResourceQuotas | .auditLogs | .registrationRequests
  | .usageEvents | .servingRequests | .recommendationRecords | .recommendationFeedback
  | .catalogSyncs | .recommendationResults | .customers | .capacityEvents =>
    decide (clause = .select ∨ clause = .insert)
  | .tenantUsers | .refreshSessions | .apiKeys | .accountSetupTokens | .accountRecoveryTokens
  | .modelDeployments | .retrainingPolicies | .recommendationPolicies | .planChangeRequests =>
    decide (clause ≠ .delete)
  | .products | .customerEvents | .eventBatches | .modelVersions | .trainingJobs
  | .datasetSnapshots => true

/-- The policies. -/
def rule (clause : Clause) (table : Table) : Rule :=
  match table, clause with
  | .pricingPlans, .select => .always
  | .tenants, .select | .tenants, .insert => .itself
  | .planChangeRequests, .select => .tenant
  | .planChangeRequests, .insert | .planChangeRequests, .updateOld => .tenantIn "pending"
  | .planChangeRequests, .updateNew => .tenantIn "cancelled"
  | _, _ => if granted clause table then .tenant else .never

/-- What the functions do: `platform_set_tenant_status`, `platform_set_quota_overrides`,
`platform_assign_plan`, `platform_update_plan`, `platform_decide_plan_request` and
`claim_training_job`; the others only read. -/
def called (clause : Clause) (table : Table) : Bool :=
  match table, clause with
  | _, .select => true
  | .auditLogs, .insert => true
  | .tenants, .updateOld | .tenants, .updateNew => true
  | .tenantSubscriptions, .updateOld | .tenantSubscriptions, .updateNew => true
  | .tenantResourceQuotas, .updateOld | .tenantResourceQuotas, .updateNew => true
  | .pricingPlans, .updateOld | .pricingPlans, .updateNew => true
  | .trainingJobs, .updateOld | .trainingJobs, .updateNew => true
  | .planChangeRequests, .updateOld | .planChangeRequests, .updateNew => true
  | _, _ => false

/-- Of which rows: `platform_decide_plan_request` goes on only with a request that is pending. -/
def calledRule (clause : Clause) (table : Table) : Rule :=
  match table, clause with
  | .planChangeRequests, .updateOld => .inStatus ["pending"]
  | .planChangeRequests, .updateNew => .inStatus ["approved", "rejected"]
  | _, _ => if called clause table then .always else .never

/-- The role, and the functions it calls. -/
def policies : Authority → Policies TenantId Table Row
  | .role => ⟨granted, fun clause table who row => (rule clause table).admits who row⟩
  | .definer => ⟨called, fun clause table who row => (calledRule clause table).admits who row⟩

/-! ## The policies keep to the tenant -/

/-- A condition on the tenant is met by rows of the tenant. -/
theorem tenantId_of_admits {who : Option TenantId} {row : Row} {r : Rule}
    (hrule : r = .tenant ∨ ∃ status, r = .tenantIn status) (h : r.admits who row = true) :
    row.tenantId = who ∧ who ≠ none := by
  have hsome : ∀ {o : Option TenantId}, o.isSome = true → o ≠ none := by
    rintro _ h rfl
    cases h
  rcases hrule with rfl | ⟨status, rfl⟩
  · simp only [Rule.admits, Bool.and_eq_true, decide_eq_true_eq] at h
    exact ⟨h.2, hsome h.1⟩
  · simp only [Rule.admits, Bool.and_eq_true, decide_eq_true_eq] at h
    exact ⟨h.1.2, hsome h.1.1⟩

/-- Which condition a table has for a command. -/
theorem rule_cases (clause : Clause) (table : Table) :
    rule clause table = .never ∨
      (table = .pricingPlans ∧ clause = .select) ∨
      (table = .tenants ∧ rule clause table = .itself) ∨
      (table ≠ .pricingPlans ∧ table ≠ .tenants ∧
        (rule clause table = .tenant ∨ ∃ status, rule clause table = .tenantIn status)) := by
  cases table <;> cases clause <;> simp [rule, granted]

/-- What is admitted is a plan that is read, or a row of the tenant. -/
theorem admits_cases {clause : Clause} {table : Table} {who : Option TenantId} {row : Row}
    (h : (rule clause table).admits who row = true) :
    (table = .pricingPlans ∧ clause = .select) ∨ (owner table row = who ∧ who ≠ none) := by
  rcases rule_cases clause table with hnever | hplans | ⟨rfl, hitself⟩ | ⟨hplans, htenants, hrule⟩
  · rw [hnever] at h
    cases h
  · exact Or.inl hplans
  · rw [hitself] at h
    simp only [Rule.admits, Bool.and_eq_true, decide_eq_true_eq] at h
    refine Or.inr ⟨h.2, ?_⟩
    rintro rfl
    cases h.1
  · obtain ⟨hrow, hwho⟩ := tenantId_of_admits hrule h
    refine Or.inr ⟨?_, hwho⟩
    rw [← hrow]
    cases table <;> first | rfl | exact absurd rfl hplans | exact absurd rfl htenants

/-- **The policies are scoped.** -/
theorem policies_scoped : Scoped owner (policies .role) where
  reads := by
    intro table who row h
    rcases admits_cases h with ⟨rfl, -⟩ | ⟨hown, -⟩
    · exact Or.inl rfl
    · exact Or.inr hown
  writes := fun hclause h => (admits_cases h).resolve_left fun hplans => hclause hplans.2

/-- A row that a tenant sees is its own, or a plan. -/
theorem owner_of_mem_view {phase : ℕ → Option (Phase TenantId)} {x : ℕ} {k : TenantId}
    {vs : List (Version Table Row)} {table : Table} {row : Row}
    (h : row ∈ view (policies .role) phase x (some k) vs table) :
    table = .pricingPlans ∨ owner table row = some k := by
  obtain ⟨v, hv, rfl⟩ := List.mem_map.mp h
  have hseen := (List.mem_filter.mp hv).2
  simp only [Bool.and_eq_true, decide_eq_true_eq] at hseen
  obtain ⟨⟨rfl, -⟩, hallowed⟩ := hseen
  exact (admits_cases hallowed).imp And.left And.left

/-- **Tenants are isolated.**  In any two runs of the role's transactions from one database, with
any statements on these tables and no calls of functions: when the transactions that work for a
tenant make the same statements in both, of which the constraints refuse the same, then the tenant
is answered the same and its transactions see the same rows, whatever the others do; and the rows
it sees are its own and the plans. -/
theorem tenant_isolated {β : Type} {first t t' : Database TenantId Table Row β}
    {as as' : List (Action TenantId Table Row β)} (k : TenantId) (mine : ℕ → Bool)
    (hfirst : first.Quiet)
    (h : Run (database policies first) (fun _ => within mine k) first as t)
    (h' : Run (database policies first) (fun _ => within mine k) first as' t')
    (hsame : own mine as = own mine as') :
    (t.answers.filter fun e => decide (e.1 = some k)) =
        (t'.answers.filter fun e => decide (e.1 = some k)) ∧
      (∀ x, view (policies .role) t.phase x (some k) t.versions =
        view (policies .role) t'.phase x (some k) t'.versions) ∧
      ∀ x table, ∀ row ∈ view (policies .role) t.phase x (some k) t.versions table,
        table = .pricingPlans ∨ owner table row = some k := by
  have hend : SameTo owner mine k t t' :=
    same_of_runs policies_scoped (.of_quiet hfirst) h h' hsame
  exact ⟨hend.answers, fun x => hend.view_eq policies_scoped x,
    fun _ _ _ hrow => owner_of_mem_view hrow⟩

/-- A row of a tenant. -/
def rowOf (id : ℕ) (k : TenantId) (status : String) : Row := ⟨id, some k, status, []⟩

/-- Two tenants with a product and a booking each. -/
def twoTenants : Database TenantId Table Row ℕ where
  versions := [⟨.products, rowOf 10 1 "available", 0, none⟩,
    ⟨.products, rowOf 20 2 "available", 0, none⟩, ⟨.usageEvents, rowOf 30 1 "", 0, none⟩,
    ⟨.usageEvents, rowOf 40 2 "", 0, none⟩]
  phase := Function.update (fun _ => none) 0 (some .committed)
  answers := []

/-- One tenant disables all products while the other deletes all it sees, and tries the ledger. -/
def crossedRun : List (Action TenantId Table Row ℕ) :=
  [.start 1, .setTenant 1 1, .start 2, .setTenant 2 2,
    .run 1 .role (.update .products fun _ row => some { row with status := "discontinued" }) false,
    .run 2 .role (.delete .products fun _ _ => true) false,
    .run 2 .role (.delete .usageEvents fun _ _ => true) false, .finish 2 true,
    .run 1 .role (.select fun rows => (rows .products).length + (rows .usageEvents).length) false,
    .finish 1 true]

/-- Each of them has changed one row, and the ledger none. -/
theorem crossed_exec : ∃ t, exec (database policies twoTenants) twoTenants crossedRun = some t ∧
    t.answers = [(some 1, .count 1), (some 2, .count 1), (some 2, .denied), (some 1, .rows 2)] :=
  ⟨_, rfl, by decide⟩

/-- The first tenant does the same, and the other nothing. -/
def aloneRun : List (Action TenantId Table Row ℕ) := own (fun x => decide (x = 1)) crossedRun

theorem twoTenants_quiet : twoTenants.Quiet where
  idle := by
    intro x who
    by_cases hx : x = 0
    · subst hx
      simp [twoTenants]
    · simp [twoTenants, Function.update_of_ne hx]
  ended := by
    intro v hv y hy
    have htouched : y = 0 := by
      simp only [twoTenants, List.mem_cons, List.not_mem_nil, or_false] at hv
      rcases hv with rfl | rfl | rfl | rfl <;> rcases hy with hcreated | hdeleted <;>
        first | exact hcreated | cases hdeleted
    subst htouched
    exact Or.inl rfl

/-- In both runs the first tenant changes a product and counts two rows. -/
theorem tenant_isolated_crossed : ∃ t t',
    Run (database policies twoTenants) anyStep twoTenants crossedRun t ∧
      Run (database policies twoTenants) anyStep twoTenants aloneRun t' ∧
        (t'.answers.filter fun e => decide (e.1 = some 1)) =
          [(some 1, .count 1), (some 1, .rows 2)] := by
  obtain ⟨t, hexec, hanswers⟩ := crossed_exec
  obtain ⟨t', hexec'⟩ : ∃ t', exec (database policies twoTenants) twoTenants aloneRun = some t' :=
    ⟨_, rfl⟩
  have hwithin : ∀ a ∈ crossedRun, within (fun x => decide (x = 1)) 1 a := by
    simp [crossedRun, within]
  have hrun := run_of_exec hexec
  have hrun' := run_of_exec hexec'
  have halone : ∀ a ∈ aloneRun, within (fun x => decide (x = 1)) 1 a :=
    fun a ha => hwithin a (List.mem_filter.mp ha).1
  have hown : own (fun x => decide (x = 1)) crossedRun =
      own (fun x => decide (x = 1)) aloneRun := by
    simp [aloneRun, own]
  obtain ⟨hsame, -, -⟩ := tenant_isolated 1 (fun x => decide (x = 1)) twoTenants_quiet
    ((hrun.of_forall hwithin).weaken fun _ _ h => h.2)
    ((hrun'.of_forall halone).weaken fun _ _ h => h.2) hown
  refine ⟨t, t', hrun, hrun', ?_⟩
  rw [← hsame, hanswers]
  decide

/-! ## Rows that stay -/

/-- The rows that the role and the functions add, and neither change nor remove. -/
def stays (table : Table) (row : Row) : Bool :=
  match table with
  | .auditLogs | .registrationRequests | .usageEvents | .servingRequests | .recommendationRecords
  | .recommendationFeedback | .catalogSyncs | .recommendationResults | .customers
  | .capacityEvents => true
  | .planChangeRequests => decide (row.status ≠ "pending")
  | _ => false

theorem stays_frozen (authority : Authority) : Frozen (policies authority) stays where
  update := by
    intro table row h
    cases authority <;> cases table <;> first | exact Or.inl rfl | cases h | skip
    -- Only a pending request may be withdrawn, or decided.
    all_goals
      refine Or.inr fun who => ?_
      have hstatus : row.status ≠ "pending" := of_decide_eq_true h
      simp [policies, rule, calledRule, Rule.admits, hstatus]
  delete := by
    intro table row h
    cases authority <;> cases table <;> first | exact Or.inl rfl | cases h

/-- **Records stay.**  Whatever the role does, with the functions it may call, a committed row of
the usage ledger, of the audit log, of the records of serving and feedback, of registrations,
customers, syncs and scaling, and a plan request that is not pending any more, is never changed and
never removed. -/
theorem rows_stay {β : Type} {first s t : Database TenantId Table Row β}
    {as : List (Action TenantId Table Row β)} (hkept : Kept stays s.versions)
    (h : Run (database policies first) anyStep s as t) :
    (s.committed stays).Sublist (t.committed stays) :=
  committed_sublist stays_frozen h hkept

/-- After the run above an operator suspends the second tenant, which is audited. -/
def suspendedRun : List (Action TenantId Table Row ℕ) :=
  crossedRun ++ [.start 3,
    .run 3 .definer (.update .tenants fun _ row => some { row with status := "suspended" }) false,
    .run 3 .definer (.insert .auditLogs fun _ => [rowOf 50 2 "success"]) false, .finish 3 true]

/-- The ledger stays. -/
theorem rows_stay_crossed : ∃ t,
    Run (database policies twoTenants) anyStep twoTenants suspendedRun t ∧
      [(.usageEvents, rowOf 30 1 ""), (.usageEvents, rowOf 40 2 "")].Sublist
        (t.committed stays) := by
  obtain ⟨t, hexec⟩ : ∃ t, exec (database policies twoTenants) twoTenants suspendedRun = some t :=
    ⟨_, rfl⟩
  have hrun := run_of_exec hexec
  have hkept : Kept stays twoTenants.versions := by
    intro v hv _
    simp only [twoTenants, List.mem_cons, List.not_mem_nil, or_false] at hv
    rcases hv with rfl | rfl | rfl | rfl <;> rfl
  exact ⟨t, hrun, rows_stay hkept hrun⟩

end RowPolicies
