import GraphRec.Operators.System

/-!
# Who can manage the operators

`update_operator` refuses an operator that gives up its own access, and that is all that
keeps an operator with `operator_admin`: the caller is looked up before the change and not
again, so two operators can take the role from each other, and the bootstrap token, which may
create any first operator, is closed by one without the role.

* `Written` — what a request writes, and for which principal;
* `callerStands` — the operator that was let in still manages when its request commits, and
  the bootstrap token creates one that does;
* `management_never_locked_out` — when it does in every commit, the operators can be managed at
  any time, by one of them or with the bootstrap token.
-/

namespace Operators

open Api Transactions Transition

/-- An active operator with `operator_admin`. -/
def Operator.manages (row : Operator) : Bool :=
  decide (row.status = .active) && decide (Role.operatorAdmin ∈ row.roles)

/-- Some active operator holds `operator_admin`. -/
def Managed (s : Store) : Prop :=
  ∃ id row, s.operators.get? id = some row ∧ row.manages = true

/-- Some credential is the bootstrap token, and may create an operator. -/
def BootstrapCreates (settings : Settings) (s : Store) : Prop :=
  ∃ presented principal, bootstrap settings .createOperator presented s = .ok (some principal)

/-- The operators can be managed. -/
def Manageable (settings : Settings) (s : Store) : Prop :=
  Managed s ∨ BootstrapCreates settings s

/-- Does a creation name `operator_admin`? -/
def Op.namesAdmin : Op → Bool
  | .create _ _ payload => decide (Role.operatorAdmin ∈ payload.roles)
  | .update _ _ _ => false

/-- Does the operator that was let in still manage?  The bootstrap token is to create one that
does. -/
def callerStands (op : Op) (principals : List Principal) (s : Store) : Bool :=
  principals.all fun principal =>
    match principal.operatorId with
    | some caller => (s.operators.get? caller).any Operator.manages
    | none => op.namesAdmin

/-! ## What the requests write -/

/-- What a request that ends has written, for a principal that was let in. -/
inductive Written (principals : List Principal) (s : Store) : Op → Store → Prop
  | nothing (op : Op) : Written principals s op s
  | created {credential : Credential} {id : OperatorId} {payload : OperatorCreate} {s' : Store}
      (principal : Principal) (hnoted : principal ∈ principals)
      (hfresh : s.operators.get? id = none)
      (hafter : s'.operators = s.operators.insert id (payload.row principal)) :
      Written principals s (.create credential id payload) s'
  | updated {credential : Credential} {id : OperatorId} {payload : OperatorUpdate} {s' : Store}
      (principal : Principal) (caller : OperatorId) (hnoted : principal ∈ principals)
      (hcaller : principal.operatorId = some caller)
      (hguard : caller = id → payload.losesAccess = false)
      (hafter : s'.operators = s.operators.update id payload.apply) :
      Written principals s (.update credential id payload) s'

/-- A request ends with what it has written. -/
def OpEnds (op : Op) (principals : List Principal) (s : Store) (_ : ℕ) (_ : Except Unit Answer)
    (s' : Store) : Prop :=
  Written principals s op s'

/-- The lock of a row protects nothing the requests rely on. -/
def Keeps (_ : OperatorId) (_ _ : Store) : Prop := True

def Always (_ : Store) (_ : ℕ) : Prop := True

theorem rules : Rules Keeps anyChange Always where
  refl := fun _ _ => trivial
  trans := fun _ _ _ _ _ _ => trivial
  grows_refl := fun _ => trivial
  grows_trans := fun _ _ _ _ _ => trivial
  tick := fun _ _ _ _ _ => trivial

abbrev Ends (p : Transaction) (op : Op) (held : List OperatorId) (notes : List Principal)
    (s : Store) (now : ℕ) : Prop :=
  p.Holds Keeps anyChange Always (OpEnds op) held notes s now

/-- A request that is refused writes nothing. -/
theorem done_ends {op : Op} {answer : Answer} {held : List OperatorId} {notes : List Principal}
    {s : Store} {now : ℕ} : Ends (.done answer) op held notes s now :=
  fun _ _ _ => .nothing op

/-- In production the bootstrap token is let in to create operators only. -/
theorem bootstrap_route {settings : Settings} {route : Route} {presented : String} {s : Store}
    {principal : Principal} (hproduction : settings.isProduction = true)
    (h : bootstrap settings route presented s = .ok (some principal)) :
    route = .createOperator := by
  unfold bootstrap at h
  split at h
  · cases h
  · rw [hproduction, if_neg (by decide)] at h
    split at h
    · next hopen => exact hopen.1
    · cases h

/-- An operator is let in as the subject of its token. -/
theorem operatorPrincipal_id {claims : OperatorClaims} {s : Store} {principal : Principal}
    (h : operatorPrincipal claims s = .ok principal) : principal.operatorId = some claims.sub := by
  unfold operatorPrincipal at h
  split at h
  · cases h
  · split at h
    · cases h
    · cases h
      rfl

/-- A request ends as what it does for a principal does. -/
theorem platformAdministrator_ends {settings : Settings} {route : Route} {credential : Credential}
    {next : Principal → Transaction} {op : Op} {s : Store} {now : ℕ}
    (hproduction : settings.isProduction = true)
    (hnext : ∀ principal s now, (principal.operatorId = none → route = .createOperator) →
      Ends (next principal) op [] [principal] s now) :
    Ends (platformAdministrator settings route credential next) op [] [] s now := by
  have hadmit : ∀ (principal : Principal) (s : Store) (now : ℕ),
      (principal.operatorId = none → route = .createOperator) →
      Ends (if principal.roles.any fun role => role ∈ route.roles then
        .note principal (next principal) else .done (.error forbidden)) op [] [] s now := by
    intro principal s now hroute
    split
    · exact hnext principal s now hroute
    · exact done_ends
  intro s₁ t₁ _
  dsimp only
  split
  · exact done_ends
  · next principal hbootstrap =>
      exact hadmit principal s₁ t₁ fun _ => bootstrap_route hproduction hbootstrap
  · split
    · exact done_ends
    · intro s₂ t₂ _
      dsimp only
      split
      · exact done_ends
      · next principal hoperator =>
          refine hadmit principal s₂ t₂ ?_
          intro hnone
          rw [operatorPrincipal_id hoperator] at hnone
          cases hnone

theorem createOperator_ends {settings : Settings} {credential : Credential} {id : OperatorId}
    {payload : OperatorCreate} {s : Store} {now : ℕ} (hproduction : settings.isProduction = true) :
    Ends (createOperator settings credential id payload) (.create credential id payload) [] [] s
      now := by
  refine platformAdministrator_ends hproduction ?_
  intro principal s now _ s₁ t₁ _
  cases hwrite : writeCreate id (payload.row principal) s₁ with
  | error e => exact done_ends
  | ok after =>
      unfold writeCreate at hwrite
      split at hwrite
      · cases hwrite
      · next hfree =>
          cases hwrite
          rw [not_or, Bool.not_eq_true, Option.isSome_eq_false_iff,
            Option.isNone_iff_eq_none] at hfree
          exact ⟨.created principal (List.mem_singleton_self _) hfree.1 rfl, trivial, trivial,
            fun _ _ => trivial⟩

theorem updateOperator_ends {settings : Settings} {credential : Credential} {id : OperatorId}
    {payload : OperatorUpdate} {s : Store} {now : ℕ} (hproduction : settings.isProduction = true) :
    Ends (updateOperator settings credential id payload) (.update credential id payload) [] [] s
      now := by
  refine platformAdministrator_ends hproduction ?_
  intro principal s now hroute
  split
  · exact done_ends
  · split
    · exact done_ends
    · next hown =>
        intro s₁ t₁ _ s₂ t₂ _
        dsimp only
        split
        · exact fun s₃ t₃ _ => done_ends
        · cases hcaller : principal.operatorId with
          | none => exact absurd (hroute hcaller) (by decide)
          | some caller =>
              rw [hcaller, not_and, Bool.not_eq_true] at hown
              exact fun s₃ t₃ _ => ⟨.updated principal caller (List.mem_singleton_self _) hcaller
                (fun hid => hown (by rw [hid])) rfl, trivial, trivial, fun _ _ => trivial⟩

/-- The operators' routes, from the given accounts. -/
def routes (settings : Settings) (first : Store) :
    System (State OperatorId Store Principal Unit Answer Op) (Action Op) :=
  system (program settings) first 0

/-- Every request writes what it should, whatever runs at the same time. -/
theorem routes_sound {settings : Settings} {first : Store} {as : List (Action Op)}
    {st : State OperatorId Store Principal Unit Answer Op}
    (hproduction : settings.isProduction = true)
    (h : Run (routes settings first) anyStep (routes settings first).init as st) :
    Sound Keeps anyChange Always OpEnds first 0 st := by
  refine serial rules ?_ trivial h
  intro op s now _
  cases op with
  | create credential id payload => exact createOperator_ends hproduction
  | update credential id payload => exact updateOperator_ends hproduction

/-! ## What keeps the operators manageable -/

section Manageable

variable {settings : Settings} {s s' : Store} {id : OperatorId} {token : String}

theorem activeOperatorExists_eq_false : activeOperatorExists s = false ↔
    ∀ id row, s.operators.get? id = some row → row.status ≠ .active := by
  rw [activeOperatorExists, List.any_eq_false]
  constructor
  · intro h id row hrow
    simpa using h (id, row) ((Table.mem_rows_iff s.operators).mpr hrow)
  · intro h row hrow
    simpa using h row.1 row.2 ((Table.mem_rows_iff s.operators).mp hrow)

/-- In production the bootstrap token creates operators just while none is active. -/
theorem bootstrapCreates_iff (hproduction : settings.isProduction = true)
    (htoken : settings.platformAdminToken = some token) :
    BootstrapCreates settings s ↔ activeOperatorExists s = false := by
  constructor
  · rintro ⟨presented, principal, h⟩
    unfold bootstrap at h
    split at h
    · cases h
    · rw [hproduction, if_neg (by decide)] at h
      split at h
      · next hopen => exact hopen.2
      · cases h
  · intro hnone
    refine ⟨token, ⟨none, none, [.operatorAdmin]⟩, ?_⟩
    rw [bootstrap, htoken, if_neg (not_not.mpr rfl), hproduction, if_neg (by decide),
      if_pos ⟨rfl, hnone⟩]

/-- The row that a creation inserts manages when it has the role. -/
theorem row_manages {payload : OperatorCreate} (principal : Principal)
    (h : Role.operatorAdmin ∈ payload.roles) : (payload.row principal).manages = true := by
  simp [Operator.manages, OperatorCreate.row, sortedRoles, Role.sorted, h]

/-- A change that does not lose its operator the access leaves a manager one. -/
theorem apply_manages {payload : OperatorUpdate} {row : Operator}
    (hguard : payload.losesAccess = false) (hrow : row.manages = true) :
    (payload.apply row).manages = true := by
  rw [OperatorUpdate.losesAccess, Bool.or_eq_false_iff, decide_eq_false_iff_not] at hguard
  rw [Operator.manages, Bool.and_eq_true, decide_eq_true_eq, decide_eq_true_eq] at hrow ⊢
  obtain ⟨hstatus, hroles⟩ := hguard
  constructor
  · cases hgiven : payload.status with
    | none => simp [OperatorUpdate.apply, hgiven, hrow.1]
    | some status =>
        cases status with
        | active => simp [OperatorUpdate.apply, hgiven]
        | disabled => exact absurd hgiven hstatus
  · cases hgiven : payload.roles with
    | none => simp [OperatorUpdate.apply, hgiven, hrow.2]
    | some roles =>
        have hadmin : Role.operatorAdmin ∈ roles := by simpa [hgiven] using hroles
        simp [OperatorUpdate.apply, hgiven, sortedRoles, Role.sorted, hadmin]

/-- **Step.**  A request whose caller stands keeps the operators manageable. -/
theorem manageable_written {op : Op} {principals : List Principal} (hs : Manageable settings s)
    (hwritten : Written principals s op s') (hstands : callerStands op principals s = true) :
    Manageable settings s' := by
  rw [callerStands, List.all_eq_true] at hstands
  cases hwritten with
  | nothing => exact hs
  | @created credential id payload _ principal hnoted hfresh hafter =>
      have hcaller := hstands principal hnoted
      refine Or.inl ?_
      split at hcaller
      · next caller _ =>
          -- the new identifier is not the caller's, whose row stays
          rw [Option.any_eq_true] at hcaller
          obtain ⟨row, hrow, hmanages⟩ := hcaller
          refine ⟨caller, row, ?_, hmanages⟩
          rw [hafter, Table.get?_insert _ hfresh, if_neg, hrow]
          rintro rfl
          rw [hfresh] at hrow
          cases hrow
      · refine ⟨id, payload.row principal, ?_, row_manages principal (of_decide_eq_true hcaller)⟩
        rw [hafter, Table.get?_insert _ hfresh, if_pos rfl]
  | @updated credential id payload _ principal caller hnoted hprincipal hguard hafter =>
      have hcaller := hstands principal hnoted
      rw [hprincipal] at hcaller
      simp only [Option.any_eq_true] at hcaller
      obtain ⟨row, hrow, hmanages⟩ := hcaller
      refine Or.inl ?_
      by_cases hid : caller = id
      · refine ⟨caller, payload.apply row, ?_, apply_manages (hguard hid) hmanages⟩
        rw [hafter, Table.get?_update, if_pos hid, hrow, Option.map_some]
      · refine ⟨caller, row, ?_, hmanages⟩
        rw [hafter, Table.get?_update, if_neg hid, hrow]

end Manageable

/-- The condition of `management_never_locked_out`. -/
def CallerStands (op : Op) (principals : List Principal) (s : Store) : Prop :=
  callerStands op principals s = true

/-- **When operator management is never locked out.**  In production, when every operator
whose request commits then still is active with `operator_admin`, and the bootstrap token
creates operators with that role only, every state that is reached has an active operator with
the role, or the bootstrap token may create one. -/
theorem management_never_locked_out {settings : Settings} {first : Store}
    (hproduction : settings.isProduction = true) (hfirst : Manageable settings first)
    {as : List (Action Op)} {st : State OperatorId Store Principal Unit Answer Op}
    (h : Run (routes settings first) (committing CallerStands) (routes settings first).init as
      st) :
    Manageable settings st.store := by
  have hsound := routes_sound hproduction (h.weaken fun _ _ _ => trivial)
  exact (invariant_of_committed h hsound hfirst
    fun op principals s t result s' _ hs hgood hstands =>
      manageable_written hs hgood hstands).1

/-! ## Two operators take the role from each other -/

/-- A production deployment. -/
def production : Settings := ⟨true, some "first-steps"⟩

/-- No operator yet. -/
def noOperators : Store := ⟨.empty, []⟩

/-- The bootstrap token, which is no operator's token. -/
def bootstrapToken : Credential := ⟨"first-steps", .error failed⟩

/-- The token of an operator whose access has not been changed. -/
def operatorToken (id : OperatorId) : Credential := ⟨"token", .ok ⟨id, 0⟩⟩

/-- An operator that is to manage the others. -/
def newManager (email : String) : OperatorCreate := ⟨email, "Ops", "hash", [.operatorAdmin]⟩

/-- Only `monitoring` is left. -/
def toMonitoring : OperatorUpdate := ⟨none, some [.monitoring], none, none⟩

/-- The bootstrap token creates operator 1, and operator 1 creates operator 2. -/
def twoManagers : List (Action Op) :=
  [.start 0 (.create bootstrapToken 1 (newManager "ada@ops"))] ++ statements 0 3 ++
    [.start 1 (.create (operatorToken 1) 2 (newManager "bob@ops"))] ++ statements 1 4

/-- Operator 1 takes the role from operator 2. -/
def oneDemotion : List (Action Op) :=
  twoManagers ++ [.start 2 (.update (operatorToken 1) 2 toMonitoring)] ++ statements 2 6

/-- Operator 1 is left with the role. -/
theorem management_never_locked_out_oneDemotion :
    ∃ st, Run (routes production noOperators) (committing CallerStands)
        (routes production noOperators).init oneDemotion st ∧
      ((st.store.operators.get? 2).map Operator.roles = some [.monitoring]) ∧
      Manageable production st.store := by
  have hdone : (execWhile (routes production noOperators)
      (commitsWith callerStands) (routes production noOperators).init
      oneDemotion).map (fun st => (st.store.operators.get? 2).map Operator.roles) =
      some (some [.monitoring]) := by
    decide +kernel
  obtain ⟨st, hexec, hst⟩ := Option.map_eq_some_iff.mp hdone
  have hrun := (run_of_execWhile hexec).weaken fun _ _ => committing_of_commitsWith
  have hfirst : Manageable production noOperators :=
    Or.inr ((bootstrapCreates_iff rfl rfl).mpr rfl)
  exact ⟨st, hrun, hst, management_never_locked_out rfl hfirst hrun⟩

/-- Both have authenticated when the first of them commits. -/
def mutualDemotion : List (Action Op) :=
  twoManagers ++
    [.start 2 (.update (operatorToken 1) 2 toMonitoring),
      .start 3 (.update (operatorToken 2) 1 toMonitoring)] ++
    statements 2 3 ++ statements 3 3 ++ statements 2 3 ++ statements 3 3

/-- No operator is left with the role, and the bootstrap token opens nothing. -/
theorem mutualDemotion_locks_out :
    ¬ ∀ (as : List (Action Op)) (st : State OperatorId Store Principal Unit Answer Op),
      Run (routes production noOperators) anyStep (routes production noOperators).init as st →
      Manageable production st.store := by
  intro hall
  have hdone : (exec (routes production noOperators) (routes production noOperators).init
      mutualDemotion).map (fun st => (st.store.operators.rows.any fun row => row.2.manages,
        activeOperatorExists st.store)) = some (false, true) := by
    decide +kernel
  obtain ⟨st, hexec, hst⟩ := Option.map_eq_some_iff.mp hdone
  obtain ⟨hnone, hactive⟩ := Prod.mk.injEq .. ▸ hst
  rcases hall mutualDemotion st (run_of_exec hexec) with ⟨id, row, hrow, hmanages⟩ | hopen
  · rw [List.any_eq_false] at hnone
    exact hnone (id, row) ((Table.mem_rows_iff st.store.operators).mpr hrow) hmanages
  · rw [bootstrapCreates_iff rfl rfl, hactive] at hopen
    cases hopen

end Operators
