import GraphRec.Tenants.Limits

/-!
# Requests for a plan

A tenant asks for a plan and an operator approves or rejects it, or assigns a plan directly: then
the request for this plan, if the list of five hundred that was read first shows it, is approved
with it.  A request that is filed after the list was read, or that is not among the five
hundred, stays pending for a plan that the tenant is on.

`plan_requests_settled` — when no direct assignment and no new request misses the other as
it commits, a request is approved just when its plan is activated, in the same transaction,
and no tenant asks for the plan that it is on.
-/

namespace Tenants

open Api Transactions Transition
open Auth (TenantId UserId Time)

/-- A tenant has one pending request at most. -/
def OnePending (s : Store) : Prop :=
  ∀ id id' row row', s.planRequests.get? id = some row → s.planRequests.get? id' = some row' →
    row.status = .pending → row'.status = .pending → row.tenant = row'.tenant → id = id'

/-- A tenant that asks for a plan is on another. -/
def AsksForAnother (s : Store) : Prop :=
  ∀ id row, s.planRequests.get? id = some row → row.status = .pending →
    ∃ subscription, s.subscriptions.get? row.tenant = some subscription ∧
      subscription.planId ≠ row.requestedPlan

/-- The audit rows of a transaction. -/
def auditRows (s s' : Store) : List AuditLog := s'.auditLogs.drop s.auditLogs.length

/-- The tenant is put on the plan, and the change is recorded. -/
def PlanActivated (s s' : Store) (tenant : TenantId) (plan : PlanId) : Prop :=
  (s'.subscriptions.get? tenant).map TenantSubscription.planId = some plan ∧
    ∃ previous, .planChanged tenant previous plan ∈ auditRows s s'

/-- What is decided stays as it is, and a request that is approved was pending and has its plan
activated with it. -/
structure KeepsDecisions (s s' : Store) : Prop where
  decided : ∀ id row, s.planRequests.get? id = some row → row.status ≠ .pending →
    s'.planRequests.get? id = some row
  approved : ∀ id row', s'.planRequests.get? id = some row' → row'.status = .approved →
    s.planRequests.get? id = some row' ∨
      (∃ row, s.planRequests.get? id = some row ∧ row.status = .pending) ∧
        PlanActivated s s' row'.tenant row'.requestedPlan

/-- A pending request whose plan is activated is approved. -/
def ApprovesActivated (s s' : Store) : Prop :=
  ∀ id row, s.planRequests.get? id = some row → row.status = .pending →
    PlanActivated s s' row.tenant row.requestedPlan →
    ∃ row', s'.planRequests.get? id = some row' ∧ row'.status = .approved

/-- Does the tenant ask for the plan? -/
def Store.asksFor (s : Store) (tenant : TenantId) (plan : PlanId) : Bool :=
  s.planRequests.rows.any fun row => decide (row.2.tenant = tenant) &&
    decide (row.2.requestedPlan = plan) && decide (row.2.status = .pending)

/-- When it commits, a direct assignment finds no request for its plan, and a new request finds
the tenant on another plan. -/
def settlesRequests : Op → List Note → Store → Bool
  | .assignTenantPlan tenant plan _ _ _, notes, s =>
      notes.all fun
        | .direct => !s.asksFor tenant plan
        | _ => true
  | .createPlanRequest tenant _ _ _, notes, s =>
      notes.all fun
        | .requested plan => (s.subscriptions.get? tenant).any fun row => decide (row.planId ≠ plan)
        | _ => true
  | _, _, _ => true

/-- The condition of `plan_requests_settled`. -/
def SettlesRequests (op : Op) (notes : List Note) (s : Store) : Prop :=
  settlesRequests op notes s = true

/-! ## What becomes of the requests -/

/-- No plan of a tenant was changed. -/
def NoPlanChanged (s s' : Store) : Prop :=
  ∀ tenant previous plan, .planChanged tenant previous plan ∉ auditRows s s'

/-- One plan of one tenant was changed. -/
def OnlyPlanChanged (s s' : Store) (tenant : TenantId) (plan : PlanId) : Prop :=
  ∀ tenant' previous plan', .planChanged tenant' previous plan' ∈ auditRows s s' →
    tenant' = tenant ∧ plan' = plan

/-- What a request does to the subscriptions and the plan requests. -/
inductive RequestChange (notes : List Note) (s s' : Store) : Op → Prop
  | same {op : Op} (hrequests : s'.planRequests = s.planRequests)
      (hsubscriptions : s'.subscriptions = s.subscriptions) (haudit : NoPlanChanged s s') :
      RequestChange notes s s' op
  | registered {c : RegisterCall} {row : TenantSubscription}
      (hfresh : s.subscriptions.get? c.tenant = none)
      (hrequests : s'.planRequests = s.planRequests)
      (hsubscriptions : s'.subscriptions = s.subscriptions.insert c.tenant row)
      (haudit : NoPlanChanged s s') : RequestChange notes s s' (.register c)
  | assigned {tenant : TenantId} {plan : PlanId} {conflicts : Conflicts} {acknowledged : Bool}
      {now : Time} (hdirect : .direct ∈ notes) (hrequests : s'.planRequests = s.planRequests)
      (hsubscriptions : s'.subscriptions =
        s.subscriptions.update tenant fun row => { row with planId := plan })
      (haudit : OnlyPlanChanged s s' tenant plan) :
      RequestChange notes s s' (.assignTenantPlan tenant plan conflicts acknowledged now)
  | approved {op : Op} {id : RequestId} {row : PlanChangeRequest} {now : Time}
      (hrow : s.planRequests.get? id = some row) (hpending : row.status = .pending)
      (hrequests : s'.planRequests = s.planRequests.update id fun row =>
        { row with status := .approved, decidedAt := some now })
      (hsubscriptions : s'.subscriptions =
        s.subscriptions.update row.tenant fun old => { old with planId := row.requestedPlan })
      (hactivated : PlanActivated s s' row.tenant row.requestedPlan)
      (haudit : OnlyPlanChanged s s' row.tenant row.requestedPlan) : RequestChange notes s s' op
  | closed {op : Op} {id : RequestId} {row : PlanChangeRequest} {status : RequestStatus}
      {now : Time} (hrow : s.planRequests.get? id = some row) (hpending : row.status = .pending)
      (hclosed : status ≠ .pending) (hnot : status ≠ .approved)
      (hrequests : s'.planRequests = s.planRequests.update id fun row =>
        { row with status := status, decidedAt := some now })
      (hsubscriptions : s'.subscriptions = s.subscriptions) (haudit : NoPlanChanged s s') :
      RequestChange notes s s' op
  | requested {tenant : TenantId} {planCode : String} {id : RequestId} {now : Time}
      {row : PlanChangeRequest} (hrequested : .requested row.requestedPlan ∈ notes)
      (htenant : row.tenant = tenant) (hpending : row.status = .pending)
      (hfresh : s.planRequests.get? id = none) (hnone : s.pendingRequest row.tenant = none)
      (hrequests : s'.planRequests = s.planRequests.insert id row)
      (hsubscriptions : s'.subscriptions = s.subscriptions) (haudit : NoPlanChanged s s') :
      RequestChange notes s s' (.createPlanRequest tenant planCode id now)

section Changes

variable {env : Env} {op : Op} {notes : List Note} {s s' : Store} {t : ℕ} {result : Result}

theorem auditRows_eq {rows : List AuditLog} (h : s'.auditLogs = s.auditLogs ++ rows) :
    auditRows s s' = rows := by
  rw [auditRows, h, List.drop_left]

/-- A request whose audit rows are no changes of a plan. -/
theorem noPlanChanged {rows : List AuditLog} (h : s'.auditLogs = s.auditLogs ++ rows)
    (hrows : ∀ tenant previous plan, .planChanged tenant previous plan ∉ rows) :
    NoPlanChanged s s' := by
  intro tenant previous plan hmem
  rw [auditRows_eq h] at hmem
  exact hrows tenant previous plan hmem

theorem OnlyEvents.requestChange (h : OnlyEvents s s') : RequestChange notes s s' op := by
  obtain ⟨events, rfl⟩ := h
  have haudit : NoPlanChanged s { s with securityEvents := events } :=
    noPlanChanged (List.append_nil _).symm (by simp)
  exact .same rfl rfl haudit

/-- The audit row of a registration. -/
theorem writeRegistration_audit {c : RegisterCall} {plan : PlanId} {limits : Limits}
    (h : writeRegistration env c plan limits s = .ok s') :
    s'.auditLogs = s.auditLogs ++ [.tenantRegistration c.tenant] := by
  unfold writeRegistration at h
  split at h
  · cases h
  · cases h
    rfl

/-- A resent invitation. -/
theorem writeResend_requestChange {tenant : TenantId} {user : UserId} {found : List SetupToken}
    {token : SetupToken} {now : Time} (h : writeResend env tenant user found token now s = .ok s') :
    RequestChange notes s s' op := by
  unfold writeResend at h
  dsimp only at h
  split at h
  · cases h
  · cases h
    exact .same rfl rfl (noPlanChanged rfl (by simp))

/-- The audit rows of an approval. -/
theorem writeApproval_audit {id : RequestId} {row : PlanChangeRequest} {limits : Limits}
    {now : Time} (hrow : s.planRequests.get? id = some row) :
    (writeDecision id .approved now (writePlan row.tenant row.requestedPlan limits s)).auditLogs =
      s.auditLogs ++
        [.planChanged row.tenant (((s.subscriptions.get? row.tenant).map
            TenantSubscription.planId).getD row.requestedPlan) row.requestedPlan,
          .planRequest row.tenant id .approved] := by
  have hplan : (writePlan row.tenant row.requestedPlan limits s).planRequests.get? id =
      some row := hrow
  rw [writeDecision, hplan]
  simp [writePlan]

/-- What a request that has ended did to the subscriptions and the plan requests. -/
theorem OpEnds.requestChange (h : OpEnds env op notes s t result s') :
    RequestChange notes s s' op := by
  cases h with
  | register h =>
      cases h with
      | replayed _ _ _ hafter | conflict _ _ _ hafter | denied _ _ hafter =>
          exact hafter.requestChange
      | created _ hwrite =>
          obtain ⟨-, -, -, hfresh, -, -, -, -, -, -, hsubscriptions, -, -, -, hrequests⟩ :=
            writeRegistration_ok hwrite
          exact .registered hfresh hrequests hsubscriptions
            (noPlanChanged (writeRegistration_audit hwrite) (by simp))
  | unchanged _ _ hafter => exact hafter.requestChange
  | invited hwrite =>
      obtain ⟨-, -, -, -, rfl⟩ := writeInvite_ok hwrite
      exact .same rfl rfl (noPlanChanged rfl (by simp))
  | resent _ _ _ hwrite => exact writeResend_requestChange hwrite
  | revoked | setUp | planUpdated | overridden =>
      exact .same rfl rfl (noPlanChanged rfl (by simp))
  | assigned hdirect =>
      refine .assigned hdirect rfl rfl ?_
      intro tenant' previous plan' hmem
      rw [auditRows_eq rfl, List.mem_singleton] at hmem
      cases hmem
      exact ⟨rfl, rfl⟩
  | @approved _ id row now _ _ _ _ limits _ hrow hpending _ hsubscribed =>
      have hplan : (writePlan row.tenant row.requestedPlan limits s).planRequests.get? id =
          some row := hrow
      have hrequests : (writeDecision id .approved now
          (writePlan row.tenant row.requestedPlan limits s)).planRequests =
          s.planRequests.update id fun row =>
            { row with status := .approved, decidedAt := some now } := by
        rw [writeDecision, hplan]
        rfl
      refine .approved hrow hpending hrequests ?_ ⟨?_, ?_⟩ ?_
      · rw [writeDecision, hplan]
        rfl
      · obtain ⟨old, hold⟩ := Option.isSome_iff_exists.mp hsubscribed
        rw [writeDecision, hplan]
        simp [writePlan, Table.get?_update, hold]
      · rw [auditRows_eq (writeApproval_audit hrow)]
        exact ⟨_, List.mem_cons_self⟩
      · intro tenant' previous plan' hmem
        rw [auditRows_eq (writeApproval_audit hrow)] at hmem
        simp only [List.mem_cons, List.not_mem_nil, or_false, reduceCtorEq] at hmem
        injection hmem with htenant _ hplan
        exact ⟨htenant, hplan⟩
  | rejected _ hrow hpending =>
      rw [writeDecision, hrow]
      exact .closed hrow hpending (by decide) (by decide) rfl rfl (noPlanChanged rfl (by simp))
  | requested hrequested htenant hpending hwrite =>
      obtain ⟨hfresh, hnone, -, rfl⟩ := writePlanRequest_ok hwrite
      exact .requested hrequested htenant hpending hfresh hnone rfl rfl
        (noPlanChanged rfl (by simp))
  | cancelled hwrite =>
      obtain ⟨row, hrow, hpending, rfl⟩ := writeCancel_ok hwrite
      exact .closed hrow hpending (by decide) (by decide) rfl rfl (noPlanChanged rfl (by simp))

/-! ## One request -/

variable {id : RequestId} {row' : PlanChangeRequest}

theorem mem_pendingRequest {tenant : TenantId} (hnone : s.pendingRequest tenant = none)
    {row : PlanChangeRequest} (hrow : s.planRequests.get? id = some row)
    (hpending : row.status = .pending) : row.tenant ≠ tenant := by
  rw [Store.pendingRequest, Option.map_eq_none_iff, List.find?_eq_none] at hnone
  have hnot := hnone (id, row) ((Table.mem_rows_iff s.planRequests).mpr hrow)
  intro htenant
  simp [htenant, hpending] at hnot

theorem asksFor_iff {tenant : TenantId} {plan : PlanId} : s.asksFor tenant plan = true ↔
    ∃ id row, s.planRequests.get? id = some row ∧ row.tenant = tenant ∧ row.requestedPlan = plan ∧
      row.status = .pending := by
  simp only [Store.asksFor, List.any_eq_true, Bool.and_eq_true, decide_eq_true_eq]
  constructor
  · rintro ⟨⟨id, row⟩, hmem, ⟨htenant, hplan⟩, hpending⟩
    exact ⟨id, row, (Table.mem_rows_iff s.planRequests).mp hmem, htenant, hplan, hpending⟩
  · rintro ⟨id, row, hrow, htenant, hplan, hpending⟩
    exact ⟨(id, row), (Table.mem_rows_iff s.planRequests).mpr hrow, ⟨htenant, hplan⟩, hpending⟩

/-- What is pending afterwards was pending, or is the request that was filed. -/
theorem RequestChange.pending (h : RequestChange notes s s' op)
    (hrow' : s'.planRequests.get? id = some row') (hpending' : row'.status = .pending) :
    s.planRequests.get? id = some row' ∨
      ∃ tenant planCode now, op = .createPlanRequest tenant planCode id now ∧
        row'.tenant = tenant ∧ .requested row'.requestedPlan ∈ notes ∧
        s.pendingRequest tenant = none ∧ s'.subscriptions = s.subscriptions := by
  cases h with
  | same hrequests | registered _ hrequests | assigned _ hrequests =>
      exact Or.inl (hrequests ▸ hrow')
  | approved _ _ hrequests =>
      rw [hrequests, Table.get?_update] at hrow'
      split at hrow'
      · obtain ⟨_, -, rfl⟩ := Option.map_eq_some_iff.mp hrow'
        cases hpending'
      · exact Or.inl hrow'
  | closed _ _ hclosed _ hrequests =>
      rw [hrequests, Table.get?_update] at hrow'
      split at hrow'
      · obtain ⟨_, -, rfl⟩ := Option.map_eq_some_iff.mp hrow'
        exact absurd hpending' hclosed
      · exact Or.inl hrow'
  | requested hrequested htenant _ hfresh hnone hrequests hsubscriptions =>
      rw [hrequests, Table.get?_insert _ hfresh] at hrow'
      split at hrow'
      · next hid =>
          subst hid
          obtain rfl := Option.some.inj hrow'
          exact Or.inr ⟨_, _, _, rfl, htenant, hrequested, htenant ▸ hnone, hsubscriptions⟩
      · exact Or.inl hrow'

/-- **Step.**  A tenant has one pending request at most afterwards. -/
theorem RequestChange.onePending (h : RequestChange notes s s' op) (hbefore : OnePending s) :
    OnePending s' := by
  intro id id' row row' hrow hrow' hpending hpending' htenant
  rcases h.pending hrow hpending, h.pending hrow' hpending' with
    ⟨hold | ⟨tenant, planCode, now, hop, hasks, -, hnone, -⟩,
      hold' | ⟨tenant', planCode', now', hop', hasks', -, hnone', -⟩⟩
  · exact hbefore id id' row row' hold hold' hpending hpending' htenant
  · exact absurd (htenant.trans hasks') (mem_pendingRequest hnone' hold hpending)
  · exact absurd (htenant.symm.trans hasks) (mem_pendingRequest hnone hold' hpending')
  · rw [hop] at hop'
    cases hop'
    rfl

/-- **Step.**  What is approved is approved with its plan. -/
theorem OpEnds.keepsDecisions (hvalid : ForeignKeys s) (h : OpEnds env op notes s t result s') :
    KeepsDecisions s s' := by
  refine ⟨?_, ?_⟩
  · intro id row hrow hdecided
    obtain ⟨row', hrow', hsame⟩ := (h.grows hvalid).planRequests id row hrow
    rw [hrow', hsame.decided hdecided]
  · intro id row' hrow' hstatus
    cases h.requestChange with
    | same hrequests | registered _ hrequests | assigned _ hrequests =>
        exact Or.inl (hrequests ▸ hrow')
    | approved hrow hpending hrequests _ hactivated =>
        rw [hrequests, Table.get?_update] at hrow'
        split at hrow'
        · next hid =>
            rw [hid, hrow] at hrow'
            cases hrow'
            exact Or.inr ⟨⟨_, hid ▸ hrow, hpending⟩, hactivated⟩
        · exact Or.inl hrow'
    | closed _ _ _ hnot hrequests =>
        rw [hrequests, Table.get?_update] at hrow'
        split at hrow'
        · obtain ⟨_, -, rfl⟩ := Option.map_eq_some_iff.mp hrow'
          exact absurd hstatus hnot
        · exact Or.inl hrow'
    | requested _ _ hpending hfresh _ hrequests =>
        rw [hrequests, Table.get?_insert _ hfresh] at hrow'
        split at hrow'
        · obtain rfl := Option.some.inj hrow'
          rw [hpending] at hstatus
          cases hstatus
        · exact Or.inl hrow'

/-! ## The plan of a tenant that asks for one -/

theorem SettlesRequests.assigned {tenant : TenantId} {plan : PlanId} {conflicts : Conflicts}
    {acknowledged : Bool} {now : Time}
    (h : SettlesRequests (.assignTenantPlan tenant plan conflicts acknowledged now) notes s)
    (hdirect : .direct ∈ notes) {row : PlanChangeRequest}
    (hrow : s.planRequests.get? id = some row) (hpending : row.status = .pending) :
    ¬ (row.tenant = tenant ∧ row.requestedPlan = plan) := by
  have hnone := List.all_eq_true.mp h _ hdirect
  dsimp only at hnone
  rintro ⟨htenant, hplan⟩
  rw [asksFor_iff.mpr ⟨id, row, hrow, htenant, hplan, hpending⟩] at hnone
  cases hnone

theorem SettlesRequests.requested {tenant : TenantId} {planCode : String} {now : Time}
    {plan : PlanId} (h : SettlesRequests (.createPlanRequest tenant planCode id now) notes s)
    (hrequested : .requested plan ∈ notes) :
    ∃ subscription, s.subscriptions.get? tenant = some subscription ∧
      subscription.planId ≠ plan := by
  have hother := List.all_eq_true.mp h _ hrequested
  obtain ⟨subscription, hstored, hne⟩ := (Option.any_eq_true _ _).mp hother
  exact ⟨subscription, hstored, of_decide_eq_true hne⟩

/-- **Step.**  A tenant that asks for a plan is on another afterwards. -/
theorem RequestChange.asksForAnother (h : RequestChange notes s s' op) (hone : OnePending s)
    (hbefore : AsksForAnother s) (hsettles : SettlesRequests op notes s) : AsksForAnother s' := by
  intro id row' hrow' hpending'
  rcases h.pending hrow' hpending' with hold |
    ⟨tenant, planCode, now, rfl, rfl, hrequested, -, hsubscriptions⟩
  · obtain ⟨subscription, hstored, hne⟩ := hbefore id row' hold hpending'
    cases h with
    | same _ hsubscriptions | closed _ _ _ _ _ hsubscriptions
    | requested _ _ _ _ _ _ hsubscriptions =>
        exact ⟨subscription, hsubscriptions ▸ hstored, hne⟩
    | registered _ _ hsubscriptions =>
        refine ⟨subscription, ?_, hne⟩
        rw [hsubscriptions]
        exact Table.keepsRow_insert _ _ row'.tenant subscription hstored
    | assigned hdirect _ hsubscriptions =>
        have hnot := hsettles.assigned hdirect hold hpending'
        rw [hsubscriptions, Table.get?_update, hstored]
        split
        · next htenant => exact ⟨_, rfl, fun hplan => hnot ⟨htenant, hplan.symm⟩⟩
        · exact ⟨subscription, rfl, hne⟩
    | approved hrow hpending hrequests hsubscriptions =>
        rw [hsubscriptions, Table.get?_update, hstored]
        split
        · next htenant =>
            -- the request of the tenant is the one that is approved
            obtain rfl := hone _ _ _ _ hold hrow hpending' hpending htenant
            rw [hrequests, Table.get?_update, if_pos rfl] at hrow'
            obtain ⟨_, -, rfl⟩ := Option.map_eq_some_iff.mp hrow'
            cases hpending'
        · exact ⟨subscription, rfl, hne⟩
  · rw [hsubscriptions]
    exact hsettles.requested hrequested

/-- **Step.**  A pending request whose plan is activated is approved. -/
theorem RequestChange.approvesActivated (h : RequestChange notes s s' op) (hone : OnePending s)
    (hsettles : SettlesRequests op notes s) : ApprovesActivated s s' := by
  rintro id row hrow hpending ⟨-, previous, hchanged⟩
  cases h with
  | same _ _ haudit | registered _ _ _ haudit | closed _ _ _ _ _ _ haudit
  | requested _ _ _ _ _ _ _ haudit => exact absurd hchanged (haudit _ _ _)
  | assigned hdirect _ _ haudit =>
      exact absurd (haudit _ _ _ hchanged) (hsettles.assigned hdirect hrow hpending)
  | approved hrow' hpending' hrequests _ _ haudit =>
      obtain ⟨htenant, -⟩ := haudit _ _ _ hchanged
      obtain rfl := hone _ _ _ _ hrow hrow' hpending hpending' htenant
      rw [hrequests, Table.get?_update, if_pos rfl, hrow, Option.map_some]
      exact ⟨_, rfl, rfl⟩

end Changes

/-! ## Runs -/

/-- In every run a tenant has one pending request at most, what is decided stays as it is, and
what is approved is approved with its plan. -/
theorem plan_requests_decided_once {env : Env} {first : Store} (hfirst : ForeignKeys first)
    (hone : OnePending first) {as : List (Action Op)} {st : State}
    (h : Run (requests env first) anyStep (requests env first).init as st) :
    OnePending st.store ∧ ∀ e ∈ st.log, OnePending e.before ∧ KeepsDecisions e.before e.after := by
  obtain ⟨t, -, hserial⟩ := (requests_sound hfirst h).serial
  have hkeep : ∀ op notes s t result s', Valid s t → OnePending s →
      OpEnds env op notes s t result s' → OnePending s' :=
    fun op notes s t result s' _ hs hgood => hgood.requestChange.onePending hs
  refine ⟨hserial.invariant (P := fun s _ => OnePending s) hone (fun _ _ _ hs _ => hs) hkeep, ?_⟩
  intro e he
  obtain ⟨hvalid, hgood⟩ := hserial.each he
  exact ⟨hserial.each_invariant (P := fun s _ => OnePending s) hone (fun _ _ _ hs _ => hs) hkeep he,
    hgood.keepsDecisions hvalid⟩

/-- **Requests for a plan.**  In every run in which a direct assignment that commits finds no
request for its plan, and a new request the tenant on another plan: a tenant has one pending
request at most, and is on another plan than it asks for; what is decided stays as it is; and a
request is approved just when its plan is activated, in the same transaction. -/
theorem plan_requests_settled {env : Env} {first : Store} (hfirst : ForeignKeys first)
    (hone : OnePending first) (hasks : AsksForAnother first) {as : List (Action Op)} {st : State}
    (h : Run (requests env first) (committing SettlesRequests) (requests env first).init as st) :
    OnePending st.store ∧ AsksForAnother st.store ∧
      ∀ e ∈ st.log, KeepsDecisions e.before e.after ∧ ApprovesActivated e.before e.after := by
  have hrun := h.weaken fun _ _ _ => trivial
  have hsound := requests_sound hfirst hrun
  obtain ⟨honeNow, hentries⟩ := plan_requests_decided_once hfirst hone hrun
  have hasksNow := (invariant_of_committed (P := fun s => OnePending s ∧ AsksForAnother s) h hsound
    ⟨hone, hasks⟩ (by
      intro op notes s t result s' _ hbefore hgood hsettles
      have hchange := hgood.requestChange
      exact ⟨hchange.onePending hbefore.1,
        hchange.asksForAnother hbefore.1 hbefore.2 hsettles⟩)).1.2
  refine ⟨honeNow, hasksNow, ?_⟩
  intro e he
  refine ⟨(hentries e he).2, ?_⟩
  obtain ⟨t, -, hserial⟩ := hsound.serial
  rcases committed h e he with hsettles | ⟨hsame, -⟩
  · exact (hserial.each he).2.requestChange.approvesActivated (hentries e he).1 hsettles
  · -- a transaction that wrote nothing activates no plan
    rintro id row hrow hpending ⟨-, previous, hchanged⟩
    rw [hsame, auditRows_eq (List.append_nil _).symm] at hchanged
    cases hchanged

/-- A new deployment with a second plan. -/
def twoPlans : Store :=
  { newDeployment with
    plans := newDeployment.plans.insert 2
      ⟨"basic", "Basic", Table.empty.insert "stored_products" 50000, true⟩ }

theorem twoPlans_valid : ForeignKeys twoPlans := ⟨.empty _, .empty _⟩

/-- A tenant asks for the second plan, and an operator assigns it. -/
def askedFirst : List (Action Op) :=
  [.start 0 (.register (acmeCall 10))] ++ statements 0 8 ++
    [.start 1 (.createPlanRequest 10 "basic" 50 300)] ++ statements 1 5 ++
    [.start 2 (.assignTenantPlan 10 2 [] false 400)] ++ statements 2 10

/-- The tenant asks after the operator's request has looked for one. -/
def askedBetween : List (Action Op) :=
  [.start 0 (.register (acmeCall 10))] ++ statements 0 8 ++
    [.start 2 (.assignTenantPlan 10 2 [] false 400), .run 2,
      .start 1 (.createPlanRequest 10 "basic" 50 300)] ++ statements 1 5 ++ statements 2 8

/-- The plan of tenant 10, and what has become of request 50. -/
def planAndRequest (s : Store) : Option PlanId × Option RequestStatus :=
  ((s.subscriptions.get? 10).map TenantSubscription.planId,
    (s.planRequests.get? 50).map PlanChangeRequest.status)

/-- The assignment approves the request. -/
theorem plan_requests_settled_askedFirst :
    ∃ st, Run (requests plainEnv twoPlans) (committing SettlesRequests)
        (requests plainEnv twoPlans).init askedFirst st ∧
      planAndRequest st.store = (some 2, some .approved) ∧ OnePending st.store ∧
      AsksForAnother st.store ∧
      ∀ e ∈ st.log, KeepsDecisions e.before e.after ∧ ApprovesActivated e.before e.after := by
  have hdone : (execWhile (requests plainEnv twoPlans) (commitsWith settlesRequests)
      (requests plainEnv twoPlans).init askedFirst).map (fun st => planAndRequest st.store) =
      some (some 2, some .approved) := by
    decide +kernel
  obtain ⟨st, hexec, hst⟩ := Option.map_eq_some_iff.mp hdone
  have hrun := (run_of_execWhile hexec).weaken fun _ _ => committing_of_commitsWith
  have hone : OnePending twoPlans := by
    intro id id' row row' hrow
    cases hrow
  have hasks : AsksForAnother twoPlans := by
    intro id row hrow
    cases hrow
  exact ⟨st, hrun, hst, plan_requests_settled twoPlans_valid hone hasks hrun⟩

/-- The tenant is left with a pending request for the plan that it is on. -/
theorem askedBetween_pending :
    ¬ ∀ (as : List (Action Op)) (st : State),
      Run (requests plainEnv twoPlans) anyStep (requests plainEnv twoPlans).init as st →
      AsksForAnother st.store ∧ ∀ e ∈ st.log, ApprovesActivated e.before e.after := by
  intro hall
  have hdone : (exec (requests plainEnv twoPlans) (requests plainEnv twoPlans).init
      askedBetween).map (fun st => (st.store.subscriptions.get? 10, st.store.planRequests.get? 50)) =
      some (some ⟨2, 100, 2592100⟩, some ⟨10, 1, 2, .pending, 300, none⟩) := by
    decide +kernel
  obtain ⟨st, hexec, hst⟩ := Option.map_eq_some_iff.mp hdone
  obtain ⟨hsubscription, hrequest⟩ := Prod.mk.inj hst
  obtain ⟨subscription, hstored, hne⟩ :=
    (hall askedBetween st (run_of_exec hexec)).1 50 _ hrequest rfl
  rw [hsubscription] at hstored
  exact hne (Option.some.inj hstored ▸ rfl)

end Tenants
