import GraphRec.Tenants.Identity

/-!
# Limits follow the plan

The limits of a plan are copied into the quota of each tenant on it: by registration and by
`platform_assign_plan`, which read the plan first and write the quota later, and by
`platform_update_plan`, which writes the quotas of the tenants it found on the plan.  Only the
last of them locks the plan.

`limits_follow_plan` — when each copy is current as it commits, every quota has the limits of
the plan of its tenant, and what a tenant may use is the plan's limits with its overrides.
-/

namespace Tenants

open Api Transactions Transition
open Auth (TenantId Time)

/-- Every quota has the limits of the plan of its tenant. -/
def FollowsPlan (s : Store) : Prop :=
  ∀ tenant row plan quota, s.subscriptions.get? tenant = some row →
    s.plans.get? row.planId = some plan → s.quotas.get? tenant = some quota →
    quota.limits = plan.limits

/-- Limits, with overrides in their place. -/
def Limits.overriddenBy (limits overrides : Limits) : Limits :=
  limits.updateWhere fun key value => (overrides.get? key).getD value

/-- What is copied when a request commits is current: the limits that were read are the plan's,
and the tenants that were found on the edited plan are those on it. -/
def copiesCurrent (op : Op) (notes : List Note) (s : Store) : Bool :=
  notes.all fun
    | .copied plan limits => (s.plans.get? plan).all fun row => decide (row.limits = limits)
    | .subscribers found => match op with
        | .updatePlatformPlan plan _ _ _ =>
            (s.subscribers plan).all (fun tenant => decide (tenant ∈ found)) &&
              found.all fun tenant => decide (tenant ∈ s.subscribers plan)
        | _ => true
    | _ => true

/-- The condition of `limits_follow_plan`. -/
def CopiesCurrent (op : Op) (notes : List Note) (s : Store) : Prop := copiesCurrent op notes s = true

section Changes

variable {env : Env} {op : Op} {notes : List Note} {s s' : Store} {t : ℕ} {result : Result}

/-- Limits that were read are still the plan's. -/
theorem CopiesCurrent.copied {id : PlanId} {limits : Limits} {plan : PricingPlan}
    (h : CopiesCurrent op notes s) (hcopied : .copied id limits ∈ notes)
    (hplan : s.plans.get? id = some plan) : limits = plan.limits := by
  have hcurrent := List.all_eq_true.mp h _ hcopied
  dsimp only at hcurrent
  rw [hplan, Option.all_some, decide_eq_true_eq] at hcurrent
  exact hcurrent.symm

/-- The tenants that an edit found are still those on the plan. -/
theorem CopiesCurrent.subscribers {plan : PlanId} {payload : PlanUpdate} {conflicts : Conflicts}
    {acknowledged : Bool} {found : List TenantId}
    (h : CopiesCurrent (.updatePlatformPlan plan payload conflicts acknowledged) notes s)
    (hfound : .subscribers found ∈ notes) (tenant : TenantId) :
    tenant ∈ found ↔ tenant ∈ s.subscribers plan := by
  have hcurrent := List.all_eq_true.mp h _ hfound
  simp only [Bool.and_eq_true, List.all_eq_true, decide_eq_true_eq] at hcurrent
  exact ⟨hcurrent.2 tenant, hcurrent.1 tenant⟩

/-- The tenants on a plan whose limits are stored. -/
theorem mem_subscribers {plan : PlanId} {tenant : TenantId} : tenant ∈ s.subscribers plan ↔
    ∃ row, s.subscriptions.get? tenant = some row ∧ row.planId = plan ∧
      (s.quotas.get? tenant).isSome = true := by
  simp only [Store.subscribers, List.mem_map, List.mem_filter, Bool.and_eq_true,
    decide_eq_true_eq]
  constructor
  · rintro ⟨⟨id, row⟩, ⟨hmem, hplan, hquota⟩, rfl⟩
    exact ⟨row, (Table.mem_rows_iff s.subscriptions).mp hmem, hplan, hquota⟩
  · rintro ⟨row, hrow, hplan, hquota⟩
    exact ⟨(tenant, row), ⟨(Table.mem_rows_iff s.subscriptions).mpr hrow, hplan, hquota⟩, rfl⟩

/-- A request that writes no plan, no subscription and no quota. -/
structure SamePlans (s s' : Store) : Prop where
  plans : s'.plans = s.plans
  subscriptions : s'.subscriptions = s.subscriptions
  quotas : s'.quotas = s.quotas

theorem SamePlans.follows (h : SamePlans s s') (hbefore : FollowsPlan s) : FollowsPlan s' := by
  intro tenant row plan quota hrow hplan hquota
  rw [h.subscriptions] at hrow
  rw [h.plans] at hplan
  rw [h.quotas] at hquota
  exact hbefore tenant row plan quota hrow hplan hquota

theorem OnlyEvents.samePlans (h : OnlyEvents s s') : SamePlans s s' := by
  obtain ⟨events, rfl⟩ := h
  exact ⟨rfl, rfl, rfl⟩

theorem writeDecision_samePlans (id : RequestId) (status : RequestStatus) (now : Time)
    (s : Store) : SamePlans s (writeDecision id status now s) := by
  unfold writeDecision
  split <;> exact ⟨rfl, rfl, rfl⟩

theorem writeResend_samePlans {tenant : TenantId} {user : Auth.UserId} {found : List SetupToken}
    {token : SetupToken} {now : Time}
    (h : writeResend env tenant user found token now s = .ok s') : SamePlans s s' := by
  unfold writeResend at h
  dsimp only at h
  split at h
  · cases h
  · cases h
    exact ⟨rfl, rfl, rfl⟩

/-- A tenant that is put on a plan with its current limits follows it. -/
theorem writePlan_follows {tenant : TenantId} {id : PlanId} {limits : Limits}
    (hbefore : FollowsPlan s)
    (hlimits : ∀ plan, s.plans.get? id = some plan → limits = plan.limits) :
    FollowsPlan (writePlan tenant id limits s) := by
  intro tenant' row plan quota hrow hplan hquota
  simp only [writePlan, Table.get?_update] at hrow hplan hquota
  split at hrow
  · next htenant =>
      rw [if_pos htenant] at hquota
      obtain ⟨_, -, rfl⟩ := Option.map_eq_some_iff.mp hrow
      obtain ⟨_, -, rfl⟩ := Option.map_eq_some_iff.mp hquota
      exact hlimits plan hplan
  · next htenant =>
      rw [if_neg htenant] at hquota
      exact hbefore tenant' row plan quota hrow hplan hquota

/-- An edit that reaches the tenants on the plan, and no others. -/
theorem writePlanUpdate_follows {id : PlanId} {payload : PlanUpdate}
    {found audited : List TenantId} (hbefore : FollowsPlan s)
    (hfound : ∀ tenant, tenant ∈ found ↔ tenant ∈ s.subscribers id) :
    FollowsPlan (writePlanUpdate id payload found audited s) := by
  intro tenant row plan quota hrow hplan hquota
  simp only [writePlanUpdate, Table.get?_update, Table.get?_updateWhere] at hrow hplan hquota
  obtain ⟨old, hold, rfl⟩ := Option.map_eq_some_iff.mp hquota
  have hreached : tenant ∈ found ↔ row.planId = id := by
    rw [hfound, mem_subscribers]
    constructor
    · rintro ⟨row', hrow', hplan', -⟩
      rw [hrow] at hrow'
      rw [Option.some.inj hrow']
      exact hplan'
    · intro hid
      exact ⟨row, hrow, hid, by rw [hold, Option.isSome_some]⟩
  split at hplan
  · next hid =>
      obtain ⟨_, -, rfl⟩ := Option.map_eq_some_iff.mp hplan
      rw [if_pos (hreached.mpr hid)]
      rfl
  · next hid =>
      rw [if_neg fun hmem => hid (hreached.mp hmem)]
      exact hbefore tenant row plan old hrow hplan hold

/-- Overrides leave the limits. -/
theorem writeOverrides_follows {tenant : TenantId} {overrides : Limits} (hbefore : FollowsPlan s) :
    FollowsPlan (writeOverrides tenant overrides s) := by
  intro tenant' row plan quota hrow hplan hquota
  simp only [writeOverrides, Table.get?_update] at hrow hplan hquota
  split at hquota
  · obtain ⟨old, hold, rfl⟩ := Option.map_eq_some_iff.mp hquota
    exact hbefore tenant' row plan old hrow hplan hold
  · exact hbefore tenant' row plan quota hrow hplan hquota

/-- A new tenant follows its plan. -/
theorem writeRegistration_follows {c : RegisterCall} {id : PlanId} {limits : Limits}
    (hbefore : FollowsPlan s)
    (hlimits : ∀ plan, s.plans.get? id = some plan → limits = plan.limits)
    (h : writeRegistration env c id limits s = .ok s') : FollowsPlan s' := by
  obtain ⟨-, -, -, hsubscription, hquota, -, -, -, -, -, hsubscriptions, hquotas, -, hplans, -⟩ :=
    writeRegistration_ok h
  intro tenant row plan quota hrow hplan hstored
  rw [hsubscriptions, Table.get?_insert _ hsubscription] at hrow
  rw [hplans] at hplan
  rw [hquotas, Table.get?_insert _ hquota] at hstored
  split at hrow
  · next htenant =>
      rw [if_pos htenant] at hstored
      obtain rfl := Option.some.inj hrow
      obtain rfl := Option.some.inj hstored
      exact hlimits plan hplan
  · next htenant =>
      rw [if_neg htenant] at hstored
      exact hbefore tenant row plan quota hrow hplan hstored

/-- **Step.**  A request whose copies are current leaves every tenant with the limits of its
plan. -/
theorem OpEnds.follows (h : OpEnds env op notes s t result s') (hbefore : FollowsPlan s)
    (hcurrent : CopiesCurrent op notes s) : FollowsPlan s' := by
  cases h with
  | register h =>
      cases h with
      | replayed _ _ _ hafter | conflict _ _ _ hafter | denied _ _ hafter =>
          exact hafter.samePlans.follows hbefore
      | created hcopied hwrite =>
          exact writeRegistration_follows hbefore
            (fun _ hplan => hcurrent.copied hcopied hplan) hwrite
  | unchanged _ _ hafter => exact hafter.samePlans.follows hbefore
  | invited hwrite =>
      obtain ⟨-, -, -, -, rfl⟩ := writeInvite_ok hwrite
      exact hbefore
  | resent _ _ _ hwrite => exact (writeResend_samePlans hwrite).follows hbefore
  | revoked => exact SamePlans.follows ⟨rfl, rfl, rfl⟩ hbefore
  | setUp => exact SamePlans.follows ⟨rfl, rfl, rfl⟩ hbefore
  | planUpdated hfound => exact writePlanUpdate_follows hbefore (hcurrent.subscribers hfound)
  | assigned _ hcopied =>
      exact writePlan_follows hbefore fun _ hplan => hcurrent.copied hcopied hplan
  | approved _ _ _ hcopied =>
      exact (writeDecision_samePlans _ _ _ _).follows
        (writePlan_follows hbefore fun _ hplan => hcurrent.copied hcopied hplan)
  | rejected => exact (writeDecision_samePlans _ _ _ _).follows hbefore
  | overridden => exact writeOverrides_follows hbefore
  | requested _ _ _ hwrite =>
      obtain ⟨-, -, -, rfl⟩ := writePlanRequest_ok hwrite
      exact hbefore
  | cancelled hwrite =>
      obtain ⟨_, -, -, rfl⟩ := writeCancel_ok hwrite
      exact hbefore

/-- The limits of a tenant whose quota follows its plan are the plan's, with the overrides. -/
theorem effectiveLimits_eq (limits overrides : Limits) :
    effectiveLimits limits limits overrides = limits.overriddenBy overrides := by
  unfold effectiveLimits Limits.overriddenBy Table.updateWhere
  rw [Table.mk.injEq]
  refine List.map_congr_left ?_
  intro row hmem
  dsimp only
  rw [(Table.mem_rows_iff limits).mp hmem, Option.getD_some]

end Changes

/-! ## Runs -/

/-- What a tenant may use is what its plan allows, with its overrides in place. -/
def UsesPlan (s : Store) : Prop :=
  ∀ tenant id plan quota, s.tenantPlan tenant = some (id, plan, quota) →
    effectiveLimits plan.limits quota.limits quota.overrides =
      plan.limits.overriddenBy quota.overrides

theorem FollowsPlan.usesPlan {s : Store} (h : FollowsPlan s) : UsesPlan s := by
  intro tenant id plan quota hfound
  obtain ⟨row, hrow, hfound⟩ := Option.bind_eq_some_iff.mp hfound
  obtain ⟨plan', hplan, hfound⟩ := Option.bind_eq_some_iff.mp hfound
  obtain ⟨quota', hquota, hsame⟩ := Option.map_eq_some_iff.mp hfound
  cases hsame
  rw [h tenant row plan quota hrow hplan hquota]
  exact effectiveLimits_eq plan.limits quota.overrides

/-- **Limits.**  In every run in which each request that commits copies limits that are current,
to the tenants that are on the plan, every quota has the limits of the plan of its tenant, and the
tenant may use these with its overrides. -/
theorem limits_follow_plan {env : Env} {first : Store} (hfirst : ForeignKeys first)
    (hinit : FollowsPlan first) {as : List (Action Op)} {st : State}
    (h : Run (requests env first) (committing CopiesCurrent) (requests env first).init as st) :
    FollowsPlan st.store ∧ UsesPlan st.store := by
  have hsound := requests_sound hfirst (h.weaken fun _ _ _ => trivial)
  have hstore := (invariant_of_committed (P := FollowsPlan) h hsound hinit
    fun op notes s t result s' _ hbefore hgood hcurrent => hgood.follows hbefore hcurrent).1
  exact ⟨hstore, hstore.usesPlan⟩

/-- The free plan with fewer products. -/
def smallerPlan : PlanUpdate := ⟨"Free demo", Table.empty.insert "stored_products" 100, true⟩

/-- A registration, and an edit of its plan after it. -/
def editAfter : List (Action Op) :=
  [.start 0 (.register (acmeCall 10))] ++ statements 0 8 ++
    [.start 1 (.updatePlatformPlan 1 smallerPlan [] false)] ++ statements 1 8

/-- An edit that commits after the registration has read the plan. -/
def editBetween : List (Action Op) :=
  [.start 0 (.register (acmeCall 10))] ++ statements 0 7 ++
    [.start 1 (.updatePlatformPlan 1 smallerPlan [] false)] ++ statements 1 7 ++ statements 0 1

theorem newDeployment_follows : FollowsPlan newDeployment := by
  intro tenant row plan quota hrow
  cases hrow

/-- What is stored of the products of tenant 10, and what its plan says. -/
def storedProducts (s : Store) : Option ℕ × Option ℕ :=
  ((s.quotas.get? 10).bind fun row => row.limits.get? "stored_products",
    (s.plans.get? 1).bind fun row => row.limits.get? "stored_products")

/-- The edit reaches the tenant. -/
theorem limits_follow_plan_editAfter :
    ∃ st, Run (requests plainEnv newDeployment) (committing CopiesCurrent)
        (requests plainEnv newDeployment).init editAfter st ∧
      storedProducts st.store = (some 100, some 100) ∧ FollowsPlan st.store ∧
      UsesPlan st.store := by
  have hdone : (execWhile (requests plainEnv newDeployment) (commitsWith copiesCurrent)
      (requests plainEnv newDeployment).init editAfter).map (fun st => storedProducts st.store) =
      some (some 100, some 100) := by
    decide +kernel
  obtain ⟨st, hexec, hst⟩ := Option.map_eq_some_iff.mp hdone
  have hrun := (run_of_execWhile hexec).weaken fun _ _ => committing_of_commitsWith
  exact ⟨st, hrun, hst, limits_follow_plan newDeployment_valid newDeployment_follows hrun⟩

/-- The tenant is left with the limits of before, on a plan that has others. -/
theorem editBetween_stale :
    ¬ ∀ (as : List (Action Op)) (st : State),
      Run (requests plainEnv newDeployment) anyStep (requests plainEnv newDeployment).init as st →
      FollowsPlan st.store := by
  intro hall
  have hdone : (exec (requests plainEnv newDeployment) (requests plainEnv newDeployment).init
      editBetween).map (fun st => ((st.store.subscriptions.get? 10).map TenantSubscription.planId,
        storedProducts st.store)) = some (some 1, some 5000, some 100) := by
    decide +kernel
  obtain ⟨st, hexec, hst⟩ := Option.map_eq_some_iff.mp hdone
  have hstore := hall editBetween st (run_of_exec hexec)
  obtain ⟨hsubscription, hproducts⟩ := Prod.mk.inj hst
  obtain ⟨hstored, hallowed⟩ := Prod.mk.inj hproducts
  obtain ⟨row, hrow, hid⟩ := Option.map_eq_some_iff.mp hsubscription
  obtain ⟨quota, hquota, hkept⟩ := Option.bind_eq_some_iff.mp hstored
  obtain ⟨plan, hplan, hnew⟩ := Option.bind_eq_some_iff.mp hallowed
  rw [hstore 10 row plan quota hrow (hid ▸ hplan) hquota, hnew] at hkept
  cases hkept

end Tenants
