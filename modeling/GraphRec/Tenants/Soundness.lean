import GraphRec.Tenants.Outcomes

/-!
# Every request ends as it should

`requests_sound`: each of the programs ends as `OpEnds` says, whatever the others do between
its statements.
-/

namespace Tenants

open Api Transactions Transition
open Auth (TenantId UserId Time User UserStatus Principal)

section Programs

variable {env : Env} {op : Op} {held : List LockKey} {notes : List Note} {s : Store} {t : ℕ}

/-- A request other than `register` that is refused. -/
theorem done_ends (hop : ∀ c, op ≠ .register c) {e : ApiError} :
    Ends env op (.done (.error e)) held notes s t :=
  fun s' _ _ => .unchanged hop trivial (.refl s')

/-- What is noted changes nothing. -/
theorem note_ends {n : Note} {next : Transaction} (h : Ends env op next held (notes ++ [n]) s t) :
    Ends env op (.note n next) held notes s t := h

/-- A request other than `register` that records a security event. -/
theorem record_ends (hop : ∀ c, op ≠ .register c) {event : SecurityEvent} {e : ApiError} :
    Ends env op (record event (.error e)) held notes s t := by
  refine commit_ends ?_ ?_
  · intro s' t' after hsince hwrite
    cases hwrite
    exact ⟨.unchanged hop trivial ⟨_, rfl⟩, lawful_onlyEvents hsince.inv ⟨_, rfl⟩⟩
  · intro s' t' c _ hwrite
    cases hwrite

/-- A statement that the database fails. -/
theorem fail_ends (hop : ∀ c, op ≠ .register c) {c : Constraint} {answer : Answer} :
    Ends env op (.commit (fun _ => .error c) answer) held notes s t := by
  refine commit_ends ?_ ?_
  · intro s' t' after _ hwrite
    cases hwrite
  · intro s' t' _ _ _
    exact .unchanged hop trivial (.refl s')

/-! ### Registration -/

/-- A call of `register` that records a security event. -/
theorem record_registerEnds {c : RegisterCall} {event : SecurityEvent} {answer : Answer}
    (h : ∀ s' t', Since held s t s' t' → ∀ after, OnlyEvents s' after →
      RegisterEnds env c notes s' (.ok answer) after) :
    Ends env (.register c) (record event answer) held notes s t := by
  refine commit_ends ?_ ?_
  · intro s' t' after hsince hwrite
    cases hwrite
    exact ⟨.register (h s' t' hsince _ ⟨_, rfl⟩), lawful_onlyEvents hsince.inv ⟨_, rfl⟩⟩
  · intro s' t' c _ hwrite
    cases hwrite

theorem resolveConcurrentResult_ends {c : RegisterCall} :
    Ends env (.register c) (resolveConcurrentResult c) held notes s t := by
  intro s₁ t₁ _
  dsimp only
  split
  · next row hrow =>
      refine note_ends ?_
      have hused : lastLookup (notes ++ [.lookedUp true]) = some true := lastLookup_lookedUp _ _
      split
      · next hsame =>
          intro s₂ t₂ h₂
          exact .register (.replayed (h₂.grown.registrations c.key row hrow) hsame hused (.refl s₂))
      · next hdiff =>
          intro s₂ t₂ h₂
          exact .register (.conflict (h₂.grown.registrations c.key row hrow) hdiff hused (.refl s₂))
  · intro s₂ t₂ _
    dsimp only
    split
    · intro s₃ t₃ _
      exact .register (.denied (Or.inl rfl) (lastLookup_lookedUp _ _) (.refl s₃))
    · intro s₃ t₃ _
      exact .register (.denied (Or.inr rfl) (lastLookup_lookedUp _ _) (.refl s₃))

theorem createRegistration_ends {c : RegisterCall} (hlast : lastLookup notes = some false) :
    Ends env (.register c) (createRegistration env c) held notes s t := by
  intro s₁ t₁ _
  dsimp only
  split
  · intro s₂ t₂ _
    exact .register (.denied (Or.inr rfl) hlast (.refl s₂))
  · next plan row _ =>
      intro s₂ t₂ h₂
      cases hwrite : writeRegistration env c plan row.limits s₂ with
      | ok after =>
          have hlawful : Lawful held s₂ after := writeRegistration_lawful h₂.inv hwrite
          exact ⟨.register (.created (List.mem_append_right _ (List.mem_singleton_self _)) hwrite),
            hlawful.valid, hlawful.grows, hlawful.keeps⟩
      | error e => exact resolveConcurrentResult_ends

theorem register_ends {c : RegisterCall} :
    Ends env (.register c) (register env c) [] [] s t := by
  intro s₁ t₁ _
  dsimp only
  split
  · next row hrow =>
      refine note_ends ?_
      split
      · next hdiff =>
          refine record_registerEnds ?_
          intro s₂ t₂ h₂ after hafter
          exact .conflict (h₂.grown.registrations c.key row hrow) hdiff rfl hafter
      · next hsame =>
          refine record_registerEnds ?_
          intro s₂ t₂ h₂ after hafter
          exact .replayed (h₂.grown.registrations c.key row hrow) (not_not.mp hsame)
            rfl hafter
  · intro s₂ t₂ _
    dsimp only
    split
    · refine record_registerEnds ?_
      intro s₃ t₃ _ after hafter
      exact .denied (Or.inl rfl) rfl hafter
    · intro s₃ t₃ _ s₄ t₄ _
      dsimp only
      split
      · refine record_registerEnds ?_
        intro s₅ t₅ _ after hafter
        exact .denied (Or.inl rfl) rfl hafter
      · exact createRegistration_ends rfl

/-! ### Invitations -/

theorem inviteUser_ends {principal : Principal} {payload : TenantUserInvite} {user : UserId}
    {token : SetupToken} {now : Time} :
    Ends env (.inviteUser principal payload user token now)
      (inviteUser env principal payload user token now) [] [] s t := by
  have hop : ∀ c, Op.inviteUser principal payload user token now ≠ .register c :=
    fun _ h => nomatch h
  unfold inviteUser
  split
  · exact done_ends hop
  · intro s₁ t₁ _
    dsimp only
    split
    · exact done_ends hop
    · intro s₂ t₂ _
      dsimp only
      split
      · exact done_ends hop
      · intro s₃ t₃ _
        dsimp only
        split
        · exact done_ends hop
        · refine commit_ends ?_ ?_
          · intro s₄ t₄ after h₄ hwrite
            exact ⟨.invited hwrite, writeInvite_lawful h₄.inv hwrite⟩
          · intro s₄ t₄ _ _ _
            exact .unchanged hop trivial (.refl s₄)

/-- The open tokens of a user that is locked are the same later. -/
theorem openTokens_later {user : UserId} {row : User} {s' : Store} {t' : ℕ}
    (hlock : .user user ∈ held) (hrow : s.users.get? user = some row)
    (h : Since held s t s' t') (token : SetupToken) :
    token ∈ s.openTokens user ↔ token ∈ s'.openTokens user := by
  have hsame := (h.kept _ hlock).2 (by rw [hrow, Option.isSome_some])
  rw [mem_openTokens, mem_openTokens]
  constructor
  · rintro ⟨old, hold, huser, hopen⟩
    exact ⟨old, (hsame token old huser).mp hold, huser, hopen⟩
  · rintro ⟨old, hold, huser, hopen⟩
    exact ⟨old, (hsame token old huser).mpr hold, huser, hopen⟩

/-- A request on a pending invitation ends as its write does, on the locked rows. -/
theorem pendingInvitation_ends {principal : Principal} {user : UserId} {action : String}
    {write : User → List SetupToken → Store → Except Constraint Store} {answer : User → Answer}
    (hop : ∀ c, op ≠ .register c)
    (hwrite : ∀ row found held s t after, .user user ∈ held →
      (∀ token ∈ found, .token token ∈ held) → ForeignKeys s →
      s.tenantUser principal.tenant user = some row → row.status = .invited →
      (∀ token, token ∈ found ↔ token ∈ s.openTokens user) → write row found s = .ok after →
      OpEnds env op [] s t (.ok (answer row)) after ∧ Lawful held s after) :
    Ends env op (pendingInvitation principal user action fun row found =>
      .commit (write row found) (answer row)) [] [] s t := by
  unfold pendingInvitation
  split
  · exact done_ends hop
  · intro s₁ t₁ _ s₂ t₂ _
    dsimp only
    split
    · exact done_ends hop
    · next row hrow =>
        split
        · exact done_ends hop
        · next hinvited =>
            intro s₃ t₃ h₃
            refine Prog.holds_lockAll rules h₃.inv ?_
            intro s₄ t₄ h₄
            have huser : LockKey.user user ∈ [LockKey.user user] := List.mem_singleton_self _
            have hstored := tenantUser_eq_some.mp hrow
            have hrow₃ := (h₃.kept _ huser).1 row hstored.1
            have hrow₄ := (h₄.kept _ huser).1 row hrow₃
            refine commit_ends ?_ ?_
            · -- The rows are locked, so that the write finds what was read.
              intro s₅ t₅ after h₅ hok
              have hlock := List.mem_append_right (((s₃.openTokens user).map
                LockKey.token).reverse) huser
              have hrow₅ := (h₅.kept _ hlock).1 row hrow₄
              refine hwrite row _ _ s₅ t₅ after hlock ?_ h₅.inv
                (tenantUser_eq_some.mpr ⟨hrow₅, hstored.2⟩) (not_not.mp hinvited) ?_ hok
              · intro token htoken
                exact List.mem_append_left _ (List.mem_reverse.mpr (List.mem_map_of_mem htoken))
              · intro token
                exact (openTokens_later huser hrow₃ h₄ token).trans
                  (openTokens_later hlock hrow₄ h₅ token)
            · intro s₅ _ _ _ _
              exact .unchanged hop trivial (.refl s₅)

theorem resendInvitation_ends {principal : Principal} {user : UserId} {token : SetupToken}
    {now : Time} :
    Ends env (.resendInvitation principal user token now)
      (resendInvitation env principal user token now) [] [] s t := by
  refine pendingInvitation_ends (fun _ h => nomatch h) ?_
  intro row found held s t after huser hlocked hvalid hrow hinvited hfound hwrite
  have hstored := (tenantUser_eq_some.mp hrow).1
  exact ⟨.resent hrow hinvited hfound hwrite,
    writeResend_lawful hvalid huser (by rw [hstored, Option.isSome_some]) hlocked hfound hwrite⟩

theorem revokeInvitation_ends {principal : Principal} {user : UserId} {now : Time} :
    Ends env (.revokeInvitation principal user now) (revokeInvitation principal user now) [] []
      s t := by
  refine pendingInvitation_ends (fun _ h => nomatch h) ?_
  intro row found held s t after huser hlocked hvalid hrow hinvited hfound hwrite
  cases hwrite
  exact ⟨.revoked hrow hinvited hfound, writeRevoke_lawful hvalid huser hlocked hfound⟩

/-! ### Password setup -/

/-- The token and its user are those of the record. -/
def Resolves (record : SetupTokenRecord) (s : Store) : Prop :=
  (∃ row, s.tokens.get? record.token = some row ∧ row.user = record.user) ∧
    ∃ user, s.users.get? record.user = some user ∧ user.email = record.email

theorem Resolves.later {record : SetupTokenRecord} {s' : Store} (h : Resolves record s)
    (hgrows : Grows s s') : Resolves record s' := by
  obtain ⟨⟨row, hrow, huser⟩, user, hstored, hemail⟩ := h
  obtain ⟨row', hrow', hsame⟩ := hgrows.tokens _ row hrow
  obtain ⟨user', hstored', hsame'⟩ := hgrows.users _ user hstored
  exact ⟨⟨row', hrow', hsame.user.trans huser⟩, user', hstored', hsame'.email.trans hemail⟩

/-- What a token resolves to. -/
theorem resolveSetupToken_resolves {token : SetupToken} {record : SetupTokenRecord}
    (h : s.resolveSetupToken token = some record) :
    record.token = token ∧ Resolves record s := by
  obtain ⟨row, hrow, hrest⟩ := Option.bind_eq_some_iff.mp h
  obtain ⟨user, huser, rfl⟩ := Option.map_eq_some_iff.mp hrest
  exact ⟨rfl, ⟨row, hrow, rfl⟩, user, (tenantUser_eq_some.mp huser).1, rfl⟩

/-- A token that can be consumed stays so while its row is locked. -/
theorem consumable_later {record : SetupTokenRecord} {now : Time} {s' : Store}
    (h : s.consumable record now = true) (hkept : Keeps (.token record.token) s s') :
    s'.consumable record now = true := by
  unfold Store.consumable at h ⊢
  obtain ⟨row, hrow, hguard⟩ := (Option.any_eq_true _ _).mp h
  rw [hkept row hrow]
  exact hguard

/-- A user that can be activated stays so while its row is locked. -/
theorem activatable_later {record : SetupTokenRecord} {s' : Store}
    (h : s.activatable record = true) (hkept : Keeps (.user record.user) s s') :
    s'.activatable record = true := by
  unfold Store.activatable at h ⊢
  obtain ⟨row, hrow, hguard⟩ := (Option.any_eq_true _ _).mp h
  have hstored := tenantUser_eq_some.mp hrow
  rw [tenantUser_eq_some.mpr ⟨hkept.1 row hstored.1, hstored.2⟩]
  exact hguard

/-- What `setup_password` does with a token that passed the checks. -/
theorem activate_ends {payload : SetupPasswordRequest} {now : Time} {record : SetupTokenRecord}
    (htoken : record.token = payload.setupToken) (hresolves : Resolves record s)
    (hchecked : ∃ users, .signable users ∈ notes ∧ ∀ user ∈ users, user = record.user) :
    Ends env (.setupPassword payload now) (activate record ⟨payload.password, .setup⟩ now) []
      notes s t := by
  have hop : ∀ c, Op.setupPassword payload now ≠ .register c := fun _ h => nomatch h
  intro s₁ t₁ h₁ s₂ t₂ h₂
  dsimp only
  split
  · exact fun _ _ _ => record_ends hop
  · next hconsumable =>
      rw [Bool.not_eq_false] at hconsumable
      intro s₃ t₃ h₃ s₄ t₄ h₄
      dsimp only
      split
      · exact fun _ _ _ => record_ends hop
      · next hactivatable =>
          rw [Bool.not_eq_false] at hactivatable
          intro s₅ t₅ h₅
          refine Prog.holds_lockAll rules h₅.inv ?_
          intro s₆ t₆ h₆
          have hresolves₅ := hresolves.later
            ((((h₁.grown.trans _ _ _ h₂.grown).trans _ _ _ h₃.grown).trans _ _ _
              h₄.grown).trans _ _ _ h₅.grown)
          -- from here on the rows of the token and of the user are locked
          have huser : LockKey.user record.user ∈ [.user record.user, .token record.token] :=
            List.mem_cons_self
          have htoken' : LockKey.token record.token ∈ [.user record.user, .token record.token] :=
            List.mem_cons_of_mem _ (List.mem_singleton_self _)
          refine commit_ends ?_ ?_
          · intro s₇ t₇ after h₇ hwrite
            cases hwrite
            have h₅₇ : Since [.user record.user, .token record.token] s₅ t₅ s₇ t₇ :=
              h₆.trans rules (h₇.of_subset fun key hkey => List.mem_append_right _ hkey)
            have h₄₇ := h₅.trans rules h₅₇
            obtain ⟨⟨row, hrow, hrowUser⟩, user, hstored, hemail⟩ := hresolves₅.later h₅₇.grown
            obtain ⟨user₅, hstored₅, -⟩ := hresolves₅.2
            have hactivates : Activates payload now notes s₇ record
                ((s₅.openTokens record.user).filter fun token => token ≠ record.token) := by
              refine ⟨htoken, ?_, activatable_later hactivatable (h₄₇.kept _ huser), ?_, ?_, ?_,
                hchecked⟩
              · have h₂₄ := (h₃.kept _ (List.mem_singleton_self _)).trans _ _ _ _
                  (h₄.kept _ htoken')
                exact consumable_later hconsumable (h₂₄.trans _ _ _ _ (h₄₇.kept _ htoken'))
              · intro row' hrow'
                rw [hrow] at hrow'
                rw [← Option.some.inj hrow']
                exact hrowUser
              · intro user' huser'
                rw [hstored] at huser'
                rw [← Option.some.inj huser']
                exact hemail
              · intro token
                rw [List.mem_filter, decide_eq_true_eq, openTokens_later huser hstored₅ h₅₇ token]
            refine ⟨.setUp hactivates, writeSetup_lawful h₇.inv (List.mem_append_right _ huser)
              (List.mem_append_right _ htoken') ?_ hactivates⟩
            intro token hmem
            exact List.mem_append_left _ (List.mem_reverse.mpr (List.mem_map_of_mem hmem))
          · intro s₇ t₇ _ _ hwrite
            cases hwrite

theorem setupPassword_ends {payload : SetupPasswordRequest} {now : Time} :
    Ends env (.setupPassword payload now) (setupPassword payload now) [] [] s t := by
  have hop : ∀ c, Op.setupPassword payload now ≠ .register c := fun _ h => nomatch h
  intro s₁ t₁ _
  dsimp only
  split
  · exact record_ends hop
  · next record hrecord =>
      obtain ⟨htoken, hresolves⟩ := resolveSetupToken_resolves hrecord
      split
      · exact record_ends hop
      · intro s₂ t₂ h₂
        dsimp only
        split
        · exact record_ends hop
        · next helsewhere =>
            refine activate_ends htoken (hresolves.later h₂.grown)
              ⟨_, List.mem_append_right _ (List.mem_singleton_self _), ?_⟩
            intro user huser
            obtain ⟨i, hi, rfl⟩ := List.mem_map.mp huser
            rw [List.mem_filter] at hi
            by_contra hne
            refine helsewhere (List.any_eq_true.mpr ⟨i, hi.1, ?_⟩)
            rw [hi.2, decide_eq_true hne, Bool.and_self]

/-! ### Plans -/

theorem guardBelowUsage_ends {conflicts : Conflicts} {acknowledged : Bool} {next : Transaction}
    (hop : ∀ c, op ≠ .register c) (hnext : Ends env op next held notes s t) :
    Ends env op (guardBelowUsage conflicts acknowledged next) held notes s t := by
  unfold guardBelowUsage
  split
  · exact fun _ _ _ => done_ends hop
  · exact hnext

/-- A change of a tenant's plan ends as what it writes at the commit. -/
theorem commitPlan_ends {tenant : TenantId} {conflicts : Conflicts} {acknowledged : Bool}
    {write : Store → Store} {answer : PlanId × PricingPlan × TenantResourceQuota → Answer}
    (hop : ∀ c, op ≠ .register c)
    (hwrite : ∀ s' t' result, Since held s t s' t' →
      OpEnds env op notes s' t' result (write s') ∧ Lawful held s' (write s')) :
    Ends env op (commitPlan tenant conflicts acknowledged write answer) held notes s t := by
  intro s₁ t₁ h₁
  dsimp only
  split
  · exact fun _ _ _ => done_ends hop
  · refine guardBelowUsage_ends hop (commit_ends ?_ ?_)
    · intro s₂ t₂ after h₂ hcommit
      cases hcommit
      exact hwrite s₂ t₂ _ (h₁.trans rules h₂)
    · intro s₂ t₂ _ _ hcommit
      cases hcommit

/-- What `platform_assign_plan` is to write, it writes under the locks of the tenant's rows. -/
theorem platformAssignPlan_ends {tenant : TenantId} {plan : PlanId} {missing : Transaction}
    {assigned : (Store → Store) → Transaction}
    (hmissing : ∀ held notes s t, Ends env op missing held notes s t)
    (hassigned : ∀ limits s' t', Since held s t s' t' →
      (s'.subscriptions.get? tenant).isSome = true →
      Ends env op (assigned (writePlan tenant plan limits))
        (.quota tenant :: .subscription tenant :: held) (notes ++ [.copied plan limits]) s' t') :
    Ends env op (platformAssignPlan tenant plan missing assigned) held notes s t := by
  intro s₁ t₁ h₁
  dsimp only
  split
  · exact hmissing _ _ _ _
  · intro s₂ t₂ h₂ s₃ t₃ h₃
    dsimp only
    split
    · exact hmissing _ _ _ _
    · next row hrow =>
        intro s₄ t₄ h₄
        have hrow₄ := h₄.kept _ List.mem_cons_self row hrow
        refine hassigned _ s₄ t₄ ?_ (by rw [hrow₄, Option.isSome_some])
        have h₃₄ := h₃.trans rules h₄
        exact (h₁.trans rules h₂).trans rules
          (h₃₄.of_subset fun key hkey => List.mem_cons_of_mem _ hkey)

/-- A decision is written under the lock of the pending request. -/
theorem platformDecidePlanRequest_ends {id : RequestId} {approve : Bool} {now : Time}
    {closed notAssignable : Transaction}
    {decided : PlanChangeRequest → (Store → Store) → Transaction}
    (hclosed : ∀ held notes s t, Ends env op closed held notes s t)
    (hmissing : ∀ held notes s t, Ends env op notAssignable held notes s t)
    (happroved : ∀ row limits s' t', approve = true →
      s'.planRequests.get? id = some row → row.status = .pending →
      (s'.subscriptions.get? row.tenant).isSome = true →
      Ends env op
        (decided row fun s => writeDecision id .approved now
          (writePlan row.tenant row.requestedPlan limits s))
        [.quota row.tenant, .subscription row.tenant, .planRequest id]
        (notes ++ [.copied row.requestedPlan limits]) s' t')
    (hrejected : ∀ row s' t', approve = false → s'.planRequests.get? id = some row →
      row.status = .pending →
      Ends env op (decided row (writeDecision id .rejected now)) [.planRequest id] notes s' t') :
    Ends env op (platformDecidePlanRequest id approve now closed notAssignable decided) [] notes
      s t := by
  intro s₁ t₁ _ s₂ t₂ _
  dsimp only
  split
  · exact hclosed _ _ _ _
  · next row hfound =>
      obtain ⟨hrow, hpending⟩ := Option.filter_eq_some_iff.mp hfound
      rw [decide_eq_true_eq] at hpending
      split
      · next happrove =>
          refine platformAssignPlan_ends hmissing ?_
          intro limits s' t' h hsubscribed
          exact happroved row limits s' t' happrove (h.kept _ (List.mem_singleton_self _) row hrow)
            hpending hsubscribed
      · next happrove =>
          rw [Bool.not_eq_true] at happrove
          exact hrejected row s₂ t₂ happrove hrow hpending

/-- An approval, at its commit. -/
theorem approved_ends {id : RequestId} {now : Time} {row : PlanChangeRequest} {limits : Limits}
    {s' : Store} {t' : ℕ} {result : Result} (hop : op.decides = true)
    (hrow : s.planRequests.get? id = some row) (hpending : row.status = .pending)
    (hsubscribed : (s.subscriptions.get? row.tenant).isSome = true)
    (hcopied : .copied row.requestedPlan limits ∈ notes)
    (h : Since [.quota row.tenant, .subscription row.tenant, .planRequest id] s t s' t') :
    OpEnds env op notes s' t' result
        (writeDecision id .approved now (writePlan row.tenant row.requestedPlan limits s')) ∧
      Lawful [.quota row.tenant, .subscription row.tenant, .planRequest id] s'
        (writeDecision id .approved now (writePlan row.tenant row.requestedPlan limits s')) := by
  have hquota : LockKey.quota row.tenant ∈
      [.quota row.tenant, .subscription row.tenant, .planRequest id] := List.mem_cons_self
  have hsubscription : LockKey.subscription row.tenant ∈
      [.quota row.tenant, .subscription row.tenant, .planRequest id] :=
    List.mem_cons_of_mem _ List.mem_cons_self
  have hrequest : LockKey.planRequest id ∈
      [.quota row.tenant, .subscription row.tenant, .planRequest id] :=
    List.mem_cons_of_mem _ (List.mem_cons_of_mem _ (List.mem_singleton_self _))
  have hrow' := h.kept _ hrequest row hrow
  obtain ⟨subscription, hstored⟩ := Option.isSome_iff_exists.mp hsubscribed
  have hplan : Lawful [.quota row.tenant, .subscription row.tenant, .planRequest id] s'
      (writePlan row.tenant row.requestedPlan limits s') :=
    writePlan_lawful h.inv hsubscription hquota
  refine ⟨.approved hop hrow' hpending hcopied ?_,
    hplan.trans (writeDecision_lawful hplan.valid hrequest hrow' hpending)⟩
  rw [h.kept _ hsubscription subscription hstored, Option.isSome_some]

theorem assignTenantPlan_ends {tenant : TenantId} {plan : PlanId} {conflicts : Conflicts}
    {acknowledged : Bool} {now : Time} :
    Ends env (.assignTenantPlan tenant plan conflicts acknowledged now)
      (assignTenantPlan tenant plan conflicts acknowledged now) [] [] s t := by
  have hop : ∀ c, Op.assignTenantPlan tenant plan conflicts acknowledged now ≠ .register c :=
    fun _ h => nomatch h
  intro s₁ t₁ _
  dsimp only
  split
  · refine platformDecidePlanRequest_ends (fun _ _ _ _ => done_ends hop)
      (fun _ _ _ _ => fail_ends hop) ?_ ?_
    · intro row limits s₂ t₂ _ hrow hpending hsubscribed
      refine commitPlan_ends hop ?_
      intro s₃ t₃ result h₃
      exact approved_ends rfl hrow hpending hsubscribed
        (List.mem_append_right _ (List.mem_singleton_self _)) h₃
    · intro row s₂ t₂ hfalse
      cases hfalse
  · refine note_ends (platformAssignPlan_ends (fun _ _ _ _ => done_ends hop) ?_)
    intro limits s₂ t₂ _ hsubscribed
    refine commitPlan_ends hop ?_
    intro s₃ t₃ result h₃
    obtain ⟨row, hrow⟩ := Option.isSome_iff_exists.mp hsubscribed
    have hlock : LockKey.subscription tenant ∈ [.quota tenant, .subscription tenant] :=
      List.mem_cons_of_mem _ (List.mem_singleton_self _)
    refine ⟨.assigned (List.mem_append_left _ (List.mem_singleton_self _))
      (List.mem_append_right _ (List.mem_singleton_self _)) ?_,
      writePlan_lawful h₃.inv hlock List.mem_cons_self⟩
    rw [h₃.kept _ hlock row hrow, Option.isSome_some]

theorem decideRequest_ends {id : RequestId} {approve : Bool} {conflicts : Conflicts}
    {acknowledged : Bool} {now : Time} :
    Ends env (.decideRequest id approve conflicts acknowledged now)
      (decideRequest id approve conflicts acknowledged now) [] [] s t := by
  have hop : ∀ c, Op.decideRequest id approve conflicts acknowledged now ≠ .register c :=
    fun _ h => nomatch h
  have hmissing : ∀ held notes s t, Ends env (.decideRequest id approve conflicts acknowledged now)
      (.rollback (.done (.error planNotAvailable))) held notes s t :=
    fun _ _ _ _ _ _ _ => done_ends hop
  unfold decideRequest
  refine platformDecidePlanRequest_ends ?_ hmissing ?_ ?_
  · intro held notes s t _ _ _ s₁ t₁ _
    dsimp only
    split
    · exact done_ends hop
    · exact done_ends hop
  · rintro row limits s₁ t₁ rfl hrow hpending hsubscribed
    refine commitPlan_ends hop ?_
    intro s₂ t₂ result h₂
    exact approved_ends rfl hrow hpending hsubscribed
      (List.mem_append_right _ (List.mem_singleton_self _)) h₂
  · rintro row s₁ t₁ rfl hrow hpending
    refine commit_ends ?_ ?_
    · intro s₂ t₂ after h₂ hwrite
      cases hwrite
      have hlock : LockKey.planRequest id ∈ [LockKey.planRequest id] := List.mem_singleton_self _
      have hrow₂ := h₂.kept _ hlock row hrow
      exact ⟨.rejected rfl hrow₂ hpending, writeDecision_lawful h₂.inv hlock hrow₂ hpending⟩
    · intro s₂ t₂ _ _ hwrite
      cases hwrite

theorem updatePlatformPlan_ends {plan : PlanId} {payload : PlanUpdate} {conflicts : Conflicts}
    {acknowledged : Bool} :
    Ends env (.updatePlatformPlan plan payload conflicts acknowledged)
      (updatePlatformPlan plan payload conflicts acknowledged) [] [] s t := by
  have hop : ∀ c, Op.updatePlatformPlan plan payload conflicts acknowledged ≠ .register c :=
    fun _ h => nomatch h
  intro s₁ t₁ _
  dsimp only
  split
  · exact done_ends hop
  · split
    · exact done_ends hop
    · intro s₂ t₂ _ s₃ t₃ _
      dsimp only
      split
      · exact fun _ _ _ => done_ends hop
      · split
        · exact fail_ends hop
        · intro s₄ t₄ h₄
          refine Prog.holds_lockAll rules h₄.inv ?_
          intro s₅ t₅ _ s₆ t₆ _
          refine guardBelowUsage_ends hop (commit_ends ?_ ?_)
          · intro s₇ t₇ after h₇ hwrite
            cases hwrite
            refine ⟨.planUpdated (List.mem_singleton_self _), writePlanUpdate_lawful h₇.inv
              (List.mem_append_right _ (List.mem_singleton_self _)) ?_⟩
            intro tenant htenant
            exact List.mem_append_left _ (List.mem_reverse.mpr (List.mem_map_of_mem htenant))
          · intro s₇ t₇ _ _ hwrite
            cases hwrite

theorem setTenantQuotaOverride_ends {tenant : TenantId} {overrides : Limits}
    {conflicts : Conflicts} {acknowledged : Bool} :
    Ends env (.setTenantQuotaOverride tenant overrides conflicts acknowledged)
      (setTenantQuotaOverride tenant overrides conflicts acknowledged) [] [] s t := by
  have hop : ∀ c, Op.setTenantQuotaOverride tenant overrides conflicts acknowledged ≠
      .register c := fun _ h => nomatch h
  intro s₁ t₁ _
  dsimp only
  split
  · exact done_ends hop
  · split
    · exact done_ends hop
    · intro s₂ t₂ _ s₃ t₃ _
      dsimp only
      split
      · exact fun _ _ _ => done_ends hop
      · refine commitPlan_ends hop ?_
        intro s₄ t₄ result h₄
        exact ⟨.overridden, writeOverrides_lawful h₄.inv (List.mem_singleton_self _)⟩

theorem createPlanRequest_ends {tenant : TenantId} {planCode : String} {id : RequestId}
    {now : Time} :
    Ends env (.createPlanRequest tenant planCode id now) (createPlanRequest tenant planCode id now)
      [] [] s t := by
  have hop : ∀ c, Op.createPlanRequest tenant planCode id now ≠ .register c :=
    fun _ h => nomatch h
  intro s₁ t₁ _
  dsimp only
  split
  · exact done_ends hop
  · next subscription _ =>
      intro s₂ t₂ _
      dsimp only
      split
      · exact done_ends hop
      · next plan row _ =>
          split
          · exact done_ends hop
          · intro s₃ t₃ _
            dsimp only
            split
            · exact done_ends hop
            · intro s₄ t₄ h₄
              cases hwrite : writePlanRequest id ⟨tenant, subscription.planId, plan, .pending, now,
                  none⟩ s₄ with
              | error c => exact done_ends hop
              | ok after =>
                  have hlawful : Lawful [] s₄ after := writePlanRequest_lawful h₄.inv hwrite
                  exact ⟨.requested (List.mem_singleton_self _) rfl rfl hwrite, hlawful.valid,
                    hlawful.grows, hlawful.keeps⟩

theorem cancelPlanRequest_ends {tenant : TenantId} {id : RequestId} {now : Time} :
    Ends env (.cancelPlanRequest tenant id now) (cancelPlanRequest tenant id now) [] [] s t := by
  have hop : ∀ c, Op.cancelPlanRequest tenant id now ≠ .register c := fun _ h => nomatch h
  intro s₁ t₁ _
  dsimp only
  split
  · exact done_ends hop
  · split
    · exact done_ends hop
    · intro s₂ t₂ _
      refine commit_ends ?_ ?_
      · intro s₃ t₃ after h₃ hwrite
        exact ⟨.cancelled hwrite, writeCancel_lawful h₃.inv (List.mem_singleton_self _) hwrite⟩
      · intro s₃ t₃ _ _ _
        exact .unchanged hop trivial (.refl s₃)

end Programs

/-- **Soundness.**  Every request writes what it should, whatever runs at the same time. -/
theorem requests_sound {env : Env} {first : Store} (hfirst : ForeignKeys first)
    {as : List (Action Op)} {st : State}
    (h : Run (requests env first) anyStep (requests env first).init as st) :
    Sound Keeps Grows Valid (OpEnds env) first 0 st := by
  refine serial rules ?_ hfirst h
  intro op s now _
  cases op with
  | register call => exact register_ends
  | inviteUser => exact inviteUser_ends
  | resendInvitation => exact resendInvitation_ends
  | revokeInvitation => exact revokeInvitation_ends
  | setupPassword => exact setupPassword_ends
  | updatePlatformPlan => exact updatePlatformPlan_ends
  | assignTenantPlan => exact assignTenantPlan_ends
  | decideRequest => exact decideRequest_ends
  | setTenantQuotaOverride => exact setTenantQuotaOverride_ends
  | createPlanRequest => exact createPlanRequest_ends
  | cancelPlanRequest => exact cancelPlanRequest_ends

end Tenants
