import GraphRec.Auth.Revocation

/-!
# A tenant keeps an administrator

`update_user` counts the active administrators of the tenant before it takes the role or the
access of one, and holds the advisory lock of the tenant's members from the count to the
commit.  No other change of a member of the tenant commits in between, and nothing else the
authentication code does changes a role or a status, so the change that was let through still
leaves an administrator when it is committed (`AdminInv.spared`), whoever asked for it and
however long ago the caller authenticated.
-/

namespace Auth

open Transition

/-- The tenant has an active administrator. -/
def HasAdministrator (tenant : TenantId) (users : Table UserId User) : Prop :=
  ∃ k row, users.get? k = some row ∧ row.tenant = tenant ∧ row.administers = true

/-- No member of the tenant is lost, and none changes role or status. -/
def KeepsMembers (tenant : TenantId) (users users' : Table UserId User) : Prop :=
  ∀ k row, users.get? k = some row → row.tenant = tenant →
    ∃ row', users'.get? k = some row' ∧ row'.tenant = tenant ∧ row'.role = row.role ∧
      row'.status = row.status

/-- The revocation whose locks a call holds. -/
def Phase.applying : Phase → Option Revocation
  | .revoking rev | .sweeping rev _ _ => some rev
  | _ => none

/-! ## Changes that keep an administrator -/

section Members

variable {tenant : TenantId} {users users' : Table UserId User} {user : UserId}
  {payload : MemberUpdate} {u u' : User}

theorem KeepsMembers.refl (tenant : TenantId) (users : Table UserId User) :
    KeepsMembers tenant users users :=
  fun _ row hrow htenant => ⟨row, hrow, htenant, rfl, rfl⟩

/-- Whether a member administers is read off the role and the status. -/
theorem administers_eq (hrole : u'.role = u.role) (hstatus : u'.status = u.status) :
    u'.administers = u.administers := by
  rw [User.administers, User.administers, hrole, hstatus]

/-- So is whether it does after a change. -/
theorem administers_apply_eq (hrole : u'.role = u.role) (hstatus : u'.status = u.status) :
    (payload.apply u').administers = (payload.apply u).administers := by
  refine administers_eq ?_ ?_
  · exact congrArg payload.role.getD hrole
  · exact congrArg payload.status.getD hstatus

theorem HasAdministrator.kept (h : HasAdministrator tenant users)
    (hkeeps : KeepsMembers tenant users users') : HasAdministrator tenant users' := by
  obtain ⟨k, row, hrow, htenant, hadmin⟩ := h
  obtain ⟨row', hrow', htenant', hrole, hstatus⟩ := hkeeps k row hrow htenant
  refine ⟨k, row', hrow', htenant', ?_⟩
  rw [administers_eq hrole hstatus]
  exact hadmin

/-- A change of one row that keeps tenant, role and status. -/
theorem keepsMembers_update {f : User → User} (k : UserId)
    (hf : ∀ row, users.get? k = some row → row.tenant = tenant →
      (f row).tenant = row.tenant ∧ (f row).role = row.role ∧ (f row).status = row.status) :
    KeepsMembers tenant users (users.update k f) := by
  intro k' row hrow htenant
  rw [Table.get?_update]
  by_cases hk : k' = k
  · subst hk
    obtain ⟨htenant', hrole, hstatus⟩ := hf row hrow htenant
    exact ⟨f row, by rw [if_pos rfl, hrow]; rfl, htenant'.trans htenant, hrole, hstatus⟩
  · exact ⟨row, by rw [if_neg hk, hrow], htenant, rfl, rfl⟩

/-- What a change of a member leaves, it leaves after such changes too. -/
theorem keepsMembers_apply (hkeeps : KeepsMembers tenant users users') :
    HasAdministrator tenant (users.update user payload.apply) →
      HasAdministrator tenant (users'.update user payload.apply) := by
  rintro ⟨k, row, hrow, htenant, hadmin⟩
  rw [Table.get?_update] at hrow
  by_cases hk : k = user
  · subst hk
    rw [if_pos rfl, Option.map_eq_some_iff] at hrow
    obtain ⟨old, hold, rfl⟩ := hrow
    obtain ⟨row', hrow', htenant', hrole, hstatus⟩ := hkeeps k old hold htenant
    refine ⟨k, payload.apply row', by rw [Table.get?_update, if_pos rfl, hrow']; rfl, htenant', ?_⟩
    rw [administers_apply_eq hrole hstatus]
    exact hadmin
  · rw [if_neg hk] at hrow
    obtain ⟨row', hrow', htenant', hrole, hstatus⟩ := hkeeps k row hrow htenant
    refine ⟨k, row', by rw [Table.get?_update, if_neg hk, hrow'], htenant', ?_⟩
    rw [administers_eq hrole hstatus]
    exact hadmin

/-- Of two administrators that are counted, one is not the member that is changed. -/
theorem other_administrator {s : State} (hcount : 1 < (s.activeAdministrators tenant).length)
    (user : UserId) : ∃ k row, k ≠ user ∧ s.users.get? k = some row ∧ row.tenant = tenant ∧
      row.administers = true := by
  have hnodup : (s.activeAdministrators tenant).Nodup :=
    s.users.nodup.sublist (List.filter_sublist.map Prod.fst)
  obtain ⟨k, hk, hne⟩ : ∃ k ∈ s.activeAdministrators tenant, k ≠ user := by
    by_contra hall
    push Not at hall
    rw [List.eq_replicate_of_mem hall, List.nodup_replicate] at hnodup
    omega
  obtain ⟨row, hrow, rfl⟩ := List.mem_map.mp hk
  rw [List.mem_filter, Bool.and_eq_true, decide_eq_true_eq] at hrow
  exact ⟨row.1, row.2, hne, (Table.mem_rows_iff s.users).mp hrow.1, hrow.2.1, hrow.2.2⟩

/-- **The guard.**  A change that `update_user` lets through leaves an administrator. -/
theorem spared_of_change {s : State} (h : HasAdministrator tenant s.users)
    (hchange : memberChange tenant (s.activeAdministrators tenant).length
      (s.users.get? user) payload = .change) :
    HasAdministrator tenant (s.users.update user payload.apply) := by
  -- Somebody else who administers still does.
  have hother : ∀ k row, k ≠ user → s.users.get? k = some row → row.tenant = tenant →
      row.administers = true → HasAdministrator tenant (s.users.update user payload.apply) :=
    fun k row hne hrow htenant hadmin =>
      ⟨k, row, by rw [Table.get?_update, if_neg hne, hrow], htenant, hadmin⟩
  obtain ⟨k, row, hrow, htenant, hadmin⟩ := h
  by_cases hk : k = user
  · subst hk
    by_cases hstays : (payload.apply row).administers = true
    · exact ⟨k, payload.apply row, by rw [Table.get?_update, if_pos rfl, hrow]; rfl, htenant,
        hstays⟩
    · have hcount : 1 < (s.activeAdministrators tenant).length := by
        by_contra hfew
        rw [hrow] at hchange
        unfold memberChange at hchange
        simp only [htenant, ne_eq, not_true_eq_false, if_false] at hchange
        split at hchange
        · cases hchange
        · split at hchange
          · cases hchange
          · split at hchange
            · cases hchange
            · rw [if_pos ⟨hadmin, by simpa using hstays, by omega⟩] at hchange
              cases hchange
      obtain ⟨k', row', hne, hrow', htenant', hadmin'⟩ := other_administrator hcount k
      exact hother k' row' hne hrow' htenant' hadmin'
  · exact hother k row hk hrow htenant hadmin

/-- The member that is changed belongs to the tenant. -/
theorem member_of_change {admins : Nat} {member : Option User}
    (h : memberChange tenant admins member payload = .change) :
    ∃ row, member = some row ∧ row.tenant = tenant := by
  unfold memberChange at h
  split at h
  · cases h
  · next row =>
      split at h
      · cases h
      · next htenant => exact ⟨row, rfl, not_not.mp htenant⟩

end Members

/-! ## What the calls rely on -/

/-- What an update of a member relies on from the count to the commit: it alone changes
members of its tenant, and its change is of one of them. -/
def HoldsMember (s : State) (c : CallId) (rev : Revocation) : Prop :=
  ∀ t payload, rev.cause = .update t payload →
    s.memberLock t = some c ∧ ∃ u, s.users.get? rev.user = some u ∧ u.tenant = t

/-- The tenant has an administrator, and will have one after each change that was let
through. -/
structure AdminInv (tenant : TenantId) (s : State) : Prop where
  administered : HasAdministrator tenant s.users
  holds : ∀ c call rev, s.calls c = some call → call.phase.applying = some rev →
    HoldsMember s c rev
  spared : ∀ c call rev payload, s.calls c = some call → call.phase.applying = some rev →
    rev.cause = .update tenant payload →
      HasAdministrator tenant (s.users.update rev.user payload.apply)

/-- The first statements of a call hold no member. -/
theorem start_applying (s : State) (c : CallId) (request : Request) :
    (s.start c request).applying = none := by
  have hstarts := start_starts s c request
  generalize s.start c request = phase at hstarts ⊢
  cases hstarts <;> rfl

section Steps

variable {settings : Settings} {tenant : TenantId} {s s' : State}

/-- A step that moves one call on, and leaves to the other calls their locks, to each user
its tenant, and to the members of the tenant their roles and their statuses. -/
theorem adminInv_move {c : CallId} {phase : Phase} {call : Call} (hinv : AdminInv tenant s)
    (hcalls : s'.calls = Function.update s.calls c (some { call with phase := phase }))
    (hlocks : ∀ c' t, c' ≠ c → s.memberLock t = some c' → s'.memberLock t = some c')
    (htenants : ∀ k row, s.users.get? k = some row →
      ∃ row', s'.users.get? k = some row' ∧ row'.tenant = row.tenant)
    (hkeeps : KeepsMembers tenant s.users s'.users)
    (hmoved : ∀ rev, phase.applying = some rev → HoldsMember s' c rev ∧
      ∀ payload, rev.cause = .update tenant payload →
        HasAdministrator tenant (s'.users.update rev.user payload.apply)) :
    AdminInv tenant s' where
  administered := hinv.administered.kept hkeeps
  holds := by
    intro c' call' rev hcall' happly
    rw [hcalls] at hcall'
    rcases stored_cases hcall' with ⟨rfl, rfl⟩ | ⟨hne, hold⟩
    · exact (hmoved rev happly).1
    · intro t payload hcause
      obtain ⟨hlock, u, hu, htenant⟩ := hinv.holds c' call' rev hold happly t payload hcause
      obtain ⟨u', hu', htenant'⟩ := htenants _ u hu
      exact ⟨hlocks c' t hne hlock, u', hu', htenant'.trans htenant⟩
  spared := by
    intro c' call' rev payload hcall' happly hcause
    rw [hcalls] at hcall'
    rcases stored_cases hcall' with ⟨rfl, rfl⟩ | ⟨hne, hold⟩
    · exact (hmoved rev happly).2 payload hcause
    · exact keepsMembers_apply hkeeps (hinv.spared c' call' rev payload hold happly hcause)

/-- A step that moves one call on and changes no user. -/
theorem adminInv_calls {c : CallId} {phase : Phase} {call : Call} (hinv : AdminInv tenant s)
    (hcall : s.calls c = some call) (husers : s'.users = s.users)
    (hcalls : s'.calls = Function.update s.calls c (some { call with phase := phase }))
    (hlocks : ∀ c' t, s.memberLock t = some c' → c' ≠ c ∨ phase.applying ≠ none →
      s'.memberLock t = some c')
    (happlying : phase.applying = none ∨ phase.applying = call.phase.applying) :
    AdminInv tenant s' := by
  refine adminInv_move hinv hcalls (fun c' t hne hlock => hlocks c' t hlock (Or.inl hne)) ?_ ?_ ?_
  · intro k row hrow
    exact ⟨row, husers ▸ hrow, rfl⟩
  · exact husers ▸ KeepsMembers.refl tenant s.users
  · intro rev hrev
    rcases happlying with hnone | hsame
    · rw [hnone] at hrev
      cases hrev
    · rw [hsame] at hrev
      refine ⟨?_, fun payload hcause => husers ▸ hinv.spared c call rev payload hcall hrev hcause⟩
      intro t payload hcause
      obtain ⟨hlock, hmember⟩ := hinv.holds c call rev hcall hrev t payload hcause
      have hstill : phase.applying ≠ none := by rw [hsame, hrev]; exact Option.some_ne_none rev
      exact ⟨hlocks c t hlock (Or.inr hstill), husers ▸ hmember⟩

/-- The count, under the locks: nobody else holds the tenant's members. -/
theorem adminInv_bumped {c : CallId} {call : Call} {rev : Revocation} (hinv : AdminInv tenant s)
    (hfree : s.bumpFree rev = true) (hgoes : s.bumpAnswer rev = none)
    (husers : s'.users = s.users) (hlock : s'.memberLock = s.lockMembers c rev)
    (hcalls : s'.calls = Function.update s.calls c (some { call with phase := .revoking rev })) :
    AdminInv tenant s' := by
  refine adminInv_move hinv hcalls ?_ ?_ ?_ ?_
  · intro c' t hne hheld
    rw [hlock]
    cases hcause : rev.cause with
    | reuse | logout | recovery =>
        simp only [State.lockMembers, hcause]
        exact hheld
    | update t' payload =>
        have hnone : s.memberLock t' = none := by
          simp only [State.bumpFree, hcause, Bool.and_eq_true, decide_eq_true_eq] at hfree
          exact hfree.2
        have hother : t ≠ t' := by
          rintro rfl
          rw [hnone] at hheld
          cases hheld
        simp only [State.lockMembers, hcause]
        rw [Function.update_of_ne hother]
        exact hheld
  · intro k row hrow
    exact ⟨row, husers ▸ hrow, rfl⟩
  · exact husers ▸ KeepsMembers.refl tenant s.users
  · intro rev' hrev'
    obtain rfl := Option.some.inj hrev'
    have hchange : ∀ t payload, rev.cause = .update t payload →
        memberChange t (s.activeAdministrators t).length (s.users.get? rev.user) payload =
          .change := by
      intro t payload hcause
      simp only [State.bumpAnswer, hcause] at hgoes
      split at hgoes
      · cases hgoes
      · cases hgoes
      · assumption
    refine ⟨?_, ?_⟩
    · intro t payload hcause
      refine ⟨?_, husers ▸ member_of_change (hchange t payload hcause)⟩
      simp only [hlock, State.lockMembers, hcause, Function.update_self]
    · intro payload hcause
      exact husers ▸ spared_of_change hinv.administered (hchange tenant payload hcause)

/-- The commit of a change that was let through, and of every other revocation. -/
theorem adminInv_committed {c : CallId} {call : Call} {rev : Revocation} {pending : List SessionId}
    (hinv : AdminInv tenant s) (hcall : s.calls c = some call)
    (hphase : call.phase = .sweeping rev [] pending) :
    AdminInv tenant (s.commitRevocation c call rev pending) := by
  have happly : call.phase.applying = some rev := by rw [hphase]; rfl
  have htenants : ∀ k row, s.users.get? k = some row →
      ∃ row', (s.commitRevocation c call rev pending).users.get? k = some row' ∧
        row'.tenant = row.tenant := by
    intro k row hrow
    rw [State.commitRevocation_users, Table.get?_update]
    split
    · exact ⟨rev.apply row, by rw [hrow]; rfl, Revocation.apply_tenant rev row⟩
    · exact ⟨row, hrow, rfl⟩
  by_cases hmine : ∃ payload, rev.cause = .update tenant payload
  · -- A change of a member of the tenant: no other call holds one.
    obtain ⟨payload, hcause⟩ := hmine
    have hlock := (hinv.holds c call rev hcall happly tenant payload hcause).1
    have hafter : HasAdministrator tenant (s.commitRevocation c call rev pending).users := by
      obtain ⟨k, row, hrow, htenant, hadmin⟩ :=
        hinv.spared c call rev payload hcall happly hcause
      rw [Table.get?_update] at hrow
      by_cases hk : k = rev.user
      · rw [if_pos hk, Option.map_eq_some_iff] at hrow
        obtain ⟨old, hold, rfl⟩ := hrow
        refine ⟨k, rev.apply old, ?_, ?_, ?_⟩
        · rw [State.commitRevocation_users, Table.get?_update, if_pos hk, hold]
          rfl
        · exact (Revocation.apply_tenant rev old).trans htenant
        · rw [Revocation.apply, hcause]
          exact hadmin
      · rw [if_neg hk] at hrow
        exact ⟨k, row, by rw [State.commitRevocation_users, Table.get?_update, if_neg hk, hrow],
          htenant, hadmin⟩
    refine ⟨hafter, ?_, ?_⟩
    · intro c' call' rev' hcall' happly'
      rcases stored_cases hcall' with ⟨-, rfl⟩ | ⟨hne, hold⟩
      · cases happly'
      · intro t payload' hcause'
        obtain ⟨hlock', u, hu, htenant⟩ := hinv.holds c' call' rev' hold happly' t payload' hcause'
        obtain ⟨u', hu', htenant'⟩ := htenants _ u hu
        exact ⟨release_other hne hlock', u', hu', htenant'.trans htenant⟩
    · intro c' call' rev' payload' hcall' happly' hcause'
      rcases stored_cases hcall' with ⟨-, rfl⟩ | ⟨hne, hold⟩
      · cases happly'
      · have hlock' := (hinv.holds c' call' rev' hold happly' tenant payload' hcause').1
        rw [hlock] at hlock'
        exact absurd (Option.some.inj hlock').symm hne
  · refine adminInv_move hinv rfl (fun c' t hne hheld => release_other hne hheld) htenants ?_ ?_
    · refine keepsMembers_update rev.user ?_
      intro row hrow htenant
      refine ⟨Revocation.apply_tenant rev row, ?_⟩
      unfold Revocation.apply
      cases hcause : rev.cause with
      | reuse | logout | recovery => exact ⟨rfl, rfl⟩
      | update t payload =>
          -- The member is of another tenant.
          obtain ⟨-, u, hu, hother⟩ := hinv.holds c call rev hcall happly t payload hcause
          rw [hrow] at hu
          obtain rfl := Option.some.inj hu
          exact absurd ⟨payload, by rw [hcause, ← hother, htenant]⟩ hmine
    · intro rev' hrev'
      cases hrev'

/-- **Step.**  Every step keeps the administrator and what the calls rely on. -/
theorem adminInv_step {act : Action} (hinv : AdminInv tenant s)
    (hstep : step settings s act = some s') : AdminInv tenant s' := by
  cases step_cases hstep with
  | @begin c request hnew =>
      refine ⟨hinv.administered, ?_, ?_⟩
      · intro c' call' rev hcall' happly
        rcases stored_cases hcall' with ⟨rfl, rfl⟩ | ⟨-, hold⟩
        · rw [start_applying] at happly
          cases happly
        · exact hinv.holds c' call' rev hold happly
      · intro c' call' rev payload hcall' happly hcause
        rcases stored_cases hcall' with ⟨rfl, rfl⟩ | ⟨-, hold⟩
        · rw [start_applying] at happly
          cases happly
        · exact hinv.spared c' call' rev payload hold happly hcause
  | consumed hcall hphase | raced hcall hphase | readEpoch hcall hphase | touched hcall hphase =>
      exact adminInv_calls hinv hcall rfl rfl (fun _ _ hlock _ => hlock) (Or.inl rfl)
  | @answered c call rev answer hcall hphase hanswer =>
      have hnone : answer.applying = none := by
        rcases (bumpAnswer_cases hanswer).2 with ⟨e, rfl⟩ | rfl
        · rfl
        · rfl
      exact adminInv_calls hinv hcall rfl rfl (fun _ _ hlock _ => hlock) (Or.inl hnone)
  | snapshot hcall hphase | swept hcall hphase | skipped hcall hphase =>
      exact adminInv_calls hinv hcall rfl rfl (fun _ _ hlock _ => hlock) (Or.inr (hphase ▸ rfl))
  | expired hcall hphase | aborted hcall hactive =>
      refine adminInv_calls hinv hcall rfl rfl ?_ (Or.inl rfl)
      intro c' t hlock hcase
      exact release_other (hcase.resolve_right fun h => h rfl) hlock
  | @inserted c id call g i hcall hphase hfresh hlive =>
      refine adminInv_move hinv rfl (fun c' t hne hheld => release_other hne hheld) ?_ ?_ ?_
      · intro k row hrow
        rw [State.insertSession_users, Table.get?_update]
        split
        · exact ⟨{ row with lastAuthenticatedAt := some i.now }, by rw [hrow]; rfl, rfl⟩
        · exact ⟨row, hrow, rfl⟩
      · exact keepsMembers_update g.identity.user fun row _ _ => ⟨rfl, rfl, rfl⟩
      · intro rev hrev
        cases hrev
  | bumped hcall hphase hfree hgoes => exact adminInv_bumped hinv hfree hgoes rfl rfl rfl
  | committed hcall hphase => exact adminInv_committed hinv hcall hphase
  | tenant => exact ⟨hinv.administered, hinv.holds, hinv.spared⟩

end Steps

/-- **A tenant is never left without an administrator.**  Whatever calls run at once, a
tenant that has an active administrator when nothing runs yet has one in every committed
state; whose calls they are and when they authenticated does not matter. -/
theorem administrator_remains (settings : Settings) (setup : Setup) (tenant : TenantId)
    (hadmin : HasAdministrator tenant setup.users) {t : State} {as : List Action}
    (hrun : Run (system settings setup) anyStep setup.initial as t) :
    HasAdministrator tenant t.users := by
  have hinit : AdminInv tenant setup.initial := by
    refine ⟨hadmin, ?_, ?_⟩
    · intro c call rev hcall
      cases hcall
    · intro c call rev payload hcall
      cases hcall
  exact (hrun.invariant (P := AdminInv tenant)
    (fun s a s' hinv _ hstep => adminInv_step hinv hstep) hinit).administered

/-! ## Two administrators demote each other -/

/-- Two administrators of tenant 1. -/
def twoAdministrators : Setup where
  users := (Table.empty.insert 1
    ⟨1, "ada@shop", .tenantAdministrator, .active, none, 0, none⟩).insert 2
    ⟨1, "bob@shop", .tenantAdministrator, .active, none, 0, none⟩
  tenants := fun _ => .active
  drawn := by
    intro u user digest huser hdigest
    rw [Table.get?_insert _ (by decide)] at huser
    split at huser
    · cases huser; cases hdigest
    · rw [Table.get?_insert _ (by decide)] at huser
      split at huser
      · cases huser; cases hdigest
      · cases huser

/-- An administrator of tenant 1, as authenticated. -/
def administratorPrincipal (user : UserId) : Principal :=
  ⟨user, 1, .tenantAdministrator, roleScopes .tenantAdministrator, false⟩

/-- Both have authenticated; each makes the other a developer. -/
def mutualDemotion : List Action :=
  [.begin 1 (.update (administratorPrincipal 1) 2 ⟨some .tenantDeveloper, none⟩ 10),
    .begin 2 (.update (administratorPrincipal 2) 1 ⟨some .tenantDeveloper, none⟩ 10),
    .bump 1, .snapshot 1, .commit 1, .bump 2]

/-- The first demotion is committed; the second finds one administrator and is refused. -/
theorem administrator_remains_mutualDemotion :
    ∃ t, Run (system shortLived twoAdministrators) anyStep twoAdministrators.initial
        mutualDemotion t ∧
      (t.users.get? 2).map User.role = some .tenantDeveloper ∧
      (t.calls 2).map Call.phase = some (.refused .invalidState) ∧ HasAdministrator 1 t.users := by
  have hdone : (exec (system shortLived twoAdministrators) twoAdministrators.initial
      mutualDemotion).map (fun t => ((t.users.get? 2).map User.role,
        (t.calls 2).map Call.phase)) =
      some (some .tenantDeveloper, some (.refused .invalidState)) := by
    decide +kernel
  obtain ⟨t, hexec, ht⟩ := Option.map_eq_some_iff.mp hdone
  obtain ⟨hrole, hphase⟩ := Prod.mk.injEq .. ▸ ht
  have hrun := run_of_exec hexec
  refine ⟨t, hrun, hrole, hphase, ?_⟩
  refine administrator_remains shortLived twoAdministrators 1 ?_ hrun
  exact ⟨1, ⟨1, "ada@shop", .tenantAdministrator, .active, none, 0, none⟩, rfl, rfl, rfl⟩

end Auth
