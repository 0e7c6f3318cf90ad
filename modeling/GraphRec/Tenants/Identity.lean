import GraphRec.Tenants.Invitations

/-!
# One account for an address

A login finds its account by the address alone, over all tenants.  Registration and
invitations look for other users of the address before they insert, and `setup_password`
looks for one that can sign in before it activates; each looks in a statement of its own, and
`resolve_login_identities` returns three rows.

`email_identity_unique` — when the accounts that an activation found able to sign in are all
there are when it commits, one account of an address at most can sign in.
-/

namespace Tenants

open Api Transactions Transition
open Auth (TenantId UserId Time User UserStatus Principal LoginIdentity resolveLoginIdentities)

/-- A user that can sign in. -/
def Store.canSignIn (s : Store) (row : User) : Bool :=
  row.credentialDigest.isSome && decide (row.status = .active) &&
    decide (s.tenantStatus row.tenant = .active)

/-- One user of an address at most can sign in. -/
def Unambiguous (s : Store) : Prop :=
  ∀ user user' row row', s.users.get? user = some row → s.users.get? user' = some row' →
    row.email = row'.email → s.canSignIn row = true → s.canSignIn row' = true → user = user'

/-- All users of an address that can sign in. -/
def Store.canSignInAs (s : Store) (email : String) : List UserId :=
  (s.users.rows.filter fun row => decide (row.2.email = email) && s.canSignIn row.2).map Prod.fst

/-- The activation that commits has seen all users of the address that can sign in. -/
def seesSignable : Op → List Note → Store → Bool
  | .setupPassword payload now, notes, s =>
      (s.resolveSetupToken payload.setupToken).all fun record =>
        !(s.consumable record now && s.activatable record) || notes.all fun
          | .signable users => (s.canSignInAs record.email).all fun user => decide (user ∈ users)
          | _ => true
  | _, _, _ => true

/-- The condition of `email_identity_unique`. -/
def SeesSignable (op : Op) (notes : List Note) (s : Store) : Prop := seesSignable op notes s = true

section Changes

variable {env : Env} {op : Op} {notes : List Note} {s s' : Store} {user : UserId}

theorem mem_canSignInAs {email : String} : user ∈ s.canSignInAs email ↔
    ∃ row, s.users.get? user = some row ∧ row.email = email ∧ s.canSignIn row = true := by
  simp only [Store.canSignInAs, List.mem_map, List.mem_filter, Bool.and_eq_true, decide_eq_true_eq]
  constructor
  · rintro ⟨⟨id, row⟩, ⟨hmem, hemail, hcan⟩, rfl⟩
    exact ⟨row, (Table.mem_rows_iff s.users).mp hmem, hemail, hcan⟩
  · rintro ⟨row, hrow, hemail, hcan⟩
    exact ⟨(user, row), ⟨(Table.mem_rows_iff s.users).mpr hrow, hemail, hcan⟩, rfl⟩

/-- Users that were not changed, in tenants that were not, sign in as before. -/
theorem canSignIn_congr {row : User} (h : s'.tenants.get? row.tenant = s.tenants.get? row.tenant) :
    s'.canSignIn row = s.canSignIn row := by
  unfold Store.canSignIn Store.tenantStatus
  rw [h]

/-- The token of an activation resolves to its user. -/
theorem Activates.resolves {payload : SetupPasswordRequest} {now : Time}
    {record : SetupTokenRecord} {found : List SetupToken}
    (h : Activates payload now notes s record found) :
    ∃ resolved, s.resolveSetupToken payload.setupToken = some resolved ∧
      resolved.user = record.user ∧ resolved.email = record.email ∧
      s.consumable resolved now = true ∧ s.activatable resolved = true := by
  obtain ⟨row, hrow, hguard⟩ := (Option.any_eq_true _ _).mp h.consumable
  rw [Bool.and_eq_true, Bool.and_eq_true, decide_eq_true_eq] at hguard
  obtain ⟨account, haccount, -⟩ := (Option.any_eq_true _ _).mp h.activatable
  have hstored := (tenantUser_eq_some.mp haccount).1
  have huser := h.tokenUser row hrow
  have htenant := hguard.1.1
  rw [← h.token, Store.resolveSetupToken, hrow, Option.bind_some, huser, htenant, haccount,
    Option.map_some]
  exact ⟨_, rfl, rfl, (h.email account hstored).symm ▸ rfl, h.consumable, h.activatable⟩

/-- Before an activation that has seen all users of the address that can sign in, none of them
can. -/
theorem Activates.none_else {payload : SetupPasswordRequest} {now : Time}
    {record : SetupTokenRecord} {found : List SetupToken} {row : User}
    (h : Activates payload now notes s record found)
    (hsees : SeesSignable (.setupPassword payload now) notes s)
    (hrow : s.users.get? user = some row) (hemail : row.email = record.email)
    (hcan : s.canSignIn row = true) : user = record.user := by
  obtain ⟨resolved, hresolved, -, hsame, hconsumable, hactivatable⟩ := h.resolves
  obtain ⟨users, hnoted, hall⟩ := h.checked
  have hseen : ∀ user ∈ s.canSignInAs resolved.email, user ∈ users := by
    have hcheck := hsees
    simp only [SeesSignable, seesSignable, hresolved, Option.all_some, hconsumable, hactivatable,
      Bool.and_self, Bool.not_true, Bool.false_or, List.all_eq_true] at hcheck
    simpa using hcheck _ hnoted
  exact hall user (hseen user (mem_canSignInAs.mpr ⟨row, hrow, hemail.trans hsame.symm, hcan⟩))

/-- A token is one user's. -/
theorem Activates.same_user {payload : SetupPasswordRequest} {now : Time}
    {record record' : SetupTokenRecord} {found found' : List SetupToken}
    (h : Activates payload now notes s record found)
    (h' : Activates payload now notes s record' found') : record.user = record'.user := by
  obtain ⟨row, hrow, -⟩ := (Option.any_eq_true _ _).mp h.consumable
  rw [← h.tokenUser row hrow]
  exact h'.tokenUser row (h'.token.trans h.token.symm ▸ hrow)

/-- A user that can sign in afterwards could before, or was activated. -/
theorem MemberChange.canSignIn {row' : User} (hvalid : ForeignKeys s)
    (h : MemberChange env notes s op s') (hrow' : s'.users.get? user = some row')
    (hcan : s'.canSignIn row' = true) :
    (s.users.get? user = some row' ∧ s.canSignIn row' = true) ∨
      ∃ payload now record found, op = .setupPassword payload now ∧
        Activates payload now notes s record found ∧ user = record.user ∧
        row'.email = record.email := by
  have hactive : row'.status = .active := by
    simp only [Store.canSignIn, Bool.and_eq_true, decide_eq_true_eq] at hcan
    exact hcan.1.2
  cases h with
  | same h =>
      rw [h.users] at hrow'
      exact Or.inl ⟨hrow', (canSignIn_congr (by rw [h.tenants])).symm.trans hcan⟩
  | registered hwrite =>
      obtain ⟨htenant, hfresh, -, -, -, -, -, htenants, husers, -⟩ := writeRegistration_ok hwrite
      rw [husers, Table.get?_insert _ hfresh] at hrow'
      split at hrow'
      · obtain rfl := Option.some.inj hrow'
        cases hactive
      · refine Or.inl ⟨hrow', ?_⟩
        rw [← hcan, canSignIn_congr]
        rw [htenants, Table.get?_insert _ htenant, if_neg]
        intro hnew
        have hstored : (s.tenants.get? row'.tenant).isSome = true := hvalid.users user row' hrow'
        rw [hnew, htenant] at hstored
        cases hstored
  | invited hwrite =>
      obtain ⟨hfresh, -, -, -, rfl⟩ := writeInvite_ok hwrite
      dsimp only at hrow'
      rw [Table.get?_insert _ hfresh] at hrow'
      split at hrow'
      · obtain rfl := Option.some.inj hrow'
        cases hactive
      · exact Or.inl ⟨hrow', (canSignIn_congr rfl).symm.trans hcan⟩
  | resent _ _ hwrite =>
      obtain ⟨-, htenants, husers, -⟩ := writeResend_ok hwrite
      rw [husers] at hrow'
      exact Or.inl ⟨hrow', (canSignIn_congr (by rw [htenants])).symm.trans hcan⟩
  | revoked =>
      simp only [writeRevoke, Store.revokeTokens, Table.get?_update] at hrow'
      split at hrow'
      · obtain ⟨row, hrow, rfl⟩ := Option.map_eq_some_iff.mp hrow'
        -- a row that is active afterwards was not changed
        split at hactive
        · cases hactive
        · next hnot =>
            rw [if_neg hnot] at hcan ⊢
            exact Or.inl ⟨hrow, hcan⟩
      · exact Or.inl ⟨hrow', hcan⟩
  | @setUp payload now record found hactivates =>
      simp only [writeSetup, Store.revokeTokens, Table.get?_update] at hrow'
      split at hrow'
      · next huser =>
          obtain ⟨row, hrow, rfl⟩ := Option.map_eq_some_iff.mp hrow'
          rw [huser] at hrow
          exact Or.inr ⟨payload, now, record, found, rfl, hactivates, huser,
            hactivates.email row hrow⟩
      · exact Or.inl ⟨hrow', hcan⟩

/-- **Step.**  One user of an address at most can sign in afterwards. -/
theorem MemberChange.unambiguous (hvalid : ForeignKeys s) (hbefore : Unambiguous s)
    (h : MemberChange env notes s op s') (hsees : SeesSignable op notes s) : Unambiguous s' := by
  intro user user' row row' hrow hrow' hemail hcan hcan'
  rcases h.canSignIn hvalid hrow hcan, h.canSignIn hvalid hrow' hcan' with
    ⟨⟨hold, hcould⟩ | ⟨payload, now, record, found, rfl, hactivates, huser, haddress⟩,
      ⟨hold', hcould'⟩ | ⟨payload', now', record', found', hop, hactivates', huser', haddress'⟩⟩
  · exact hbefore user user' row row' hold hold' hemail hcould hcould'
  · subst hop
    rw [huser']
    exact hactivates'.none_else hsees hold (hemail.trans haddress') hcould
  · rw [huser]
    exact (hactivates.none_else hsees hold' (hemail.symm.trans haddress) hcould').symm
  · cases hop
    rw [huser, huser']
    exact hactivates.same_user hactivates'

/-! ## The login lookup -/

/-- An identity is a user with the address. -/
theorem mem_identities {email : String} {i : LoginIdentity} (h : i ∈ s.identities email) :
    ∃ row, s.users.get? i.user = some row ∧ row.email = email ∧ i.signable = s.canSignIn row := by
  obtain ⟨⟨user, row⟩, hmem, rfl⟩ := List.mem_map.mp h
  have hfound := (List.mem_insertionSort _).mp (List.mem_of_mem_take hmem)
  obtain ⟨hstored, hemail⟩ := List.mem_filter.mp hfound
  exact ⟨row, (Table.mem_rows_iff s.users).mp hstored, of_decide_eq_true hemail, rfl⟩

/-- The identities are different users. -/
theorem identities_nodup (s : Store) (email : String) :
    ((s.identities email).map LoginIdentity.user).Nodup := by
  unfold Store.identities resolveLoginIdentities
  dsimp only
  rw [List.map_map]
  refine List.Nodup.sublist ((List.take_sublist _ _).map _) ?_
  refine (((List.perm_insertionSort _ _).map _).nodup_iff).mpr ?_
  exact s.users.nodup.sublist (List.filter_sublist.map _)

/-- A login finds one account at most that can sign in. -/
theorem Unambiguous.identities (h : Unambiguous s) (email : String) :
    ((s.identities email).filter LoginIdentity.signable).length ≤ 1 := by
  have hnodup : (((s.identities email).filter LoginIdentity.signable).map
      LoginIdentity.user).Nodup :=
    (identities_nodup s email).sublist (List.filter_sublist.map _)
  have hsame : ∀ i ∈ (s.identities email).filter LoginIdentity.signable,
      ∀ j ∈ (s.identities email).filter LoginIdentity.signable, i.user = j.user := by
    intro i hi j hj
    rw [List.mem_filter] at hi hj
    obtain ⟨row, hrow, hemail, hcan⟩ := mem_identities hi.1
    obtain ⟨row', hrow', hemail', hcan'⟩ := mem_identities hj.1
    exact h i.user j.user row row' hrow hrow' (hemail.trans hemail'.symm) (hcan ▸ hi.2)
      (hcan' ▸ hj.2)
  match hfound : (s.identities email).filter LoginIdentity.signable with
  | [] => exact Nat.zero_le 1
  | [_] => exact Nat.le_refl 1
  | i :: j :: rest =>
      rw [hfound] at hnodup hsame
      rw [List.map_cons, List.nodup_cons, List.map_cons] at hnodup
      refine absurd ?_ hnodup.1
      rw [hsame i List.mem_cons_self j (List.mem_cons_of_mem _ List.mem_cons_self)]
      exact List.mem_cons_self

end Changes

/-! ## Runs -/

/-- **One account for an address.**  In every run in which each activation, when it commits, has
seen all users of its address that can sign in, one user of an address at most can sign in, and
the login lookup never finds two. -/
theorem email_identity_unique {env : Env} {first : Store} (hfirst : ForeignKeys first)
    (hinit : Unambiguous first) {as : List (Action Op)} {st : State}
    (h : Run (requests env first) (committing SeesSignable) (requests env first).init as st) :
    Unambiguous st.store ∧
      ∀ email, ((st.store.identities email).filter LoginIdentity.signable).length ≤ 1 := by
  have hsound := requests_sound hfirst (h.weaken fun _ _ _ => trivial)
  have hstore := (invariant_of_committed (P := Unambiguous) h hsound hinit
    fun op notes s t result s' hvalid hbefore hgood hsees =>
      hgood.members.unambiguous hvalid hbefore hsees).1
  exact ⟨hstore, hstore.identities⟩

/-- A call for another name with the same address. -/
def otherCall (id : ℕ) : RegisterCall := ⟨"other key", ⟨"other", "ada@acme"⟩, id, id, id, 100⟩

/-- Two registrations of one address that pass their checks together. -/
def registerTogether : List (Action Op) :=
  [.start 0 (.register (acmeCall 10)), .start 1 (.register (otherCall 20))] ++ statements 0 5 ++
    statements 1 5 ++ statements 0 3 ++ statements 1 3

/-- Both administrators set their password, one after the other. -/
def setUpInTurn : List (Action Op) :=
  registerTogether ++ [.start 2 (.setupPassword ⟨10, "password", none⟩ 200)] ++ statements 2 9 ++
    [.start 3 (.setupPassword ⟨20, "password", none⟩ 300)] ++ statements 3 3

/-- Both administrators set their password at the same time. -/
def setUpTogether : List (Action Op) :=
  registerTogether ++ [.start 2 (.setupPassword ⟨10, "password", none⟩ 200),
      .start 3 (.setupPassword ⟨20, "password", none⟩ 300)] ++ statements 2 3 ++
    statements 3 3 ++ statements 2 6 ++ statements 3 6

theorem newDeployment_unambiguous : Unambiguous newDeployment := by
  intro user user' row row' hrow
  cases hrow

/-- The second is refused, and the first can sign in. -/
theorem email_identity_unique_inTurn :
    ∃ st, Run (requests plainEnv newDeployment) (committing SeesSignable)
        (requests plainEnv newDeployment).init setUpInTurn st ∧
      st.store.canSignInAs "ada@acme" = [10] ∧ Unambiguous st.store ∧
      ∀ email, ((st.store.identities email).filter LoginIdentity.signable).length ≤ 1 := by
  have hdone : (execWhile (requests plainEnv newDeployment) (commitsWith seesSignable)
      (requests plainEnv newDeployment).init setUpInTurn).map
      (fun st => st.store.canSignInAs "ada@acme") = some [10] := by
    decide +kernel
  obtain ⟨st, hexec, hst⟩ := Option.map_eq_some_iff.mp hdone
  have hrun := (run_of_execWhile hexec).weaken fun _ _ => committing_of_commitsWith
  exact ⟨st, hrun, hst,
    email_identity_unique newDeployment_valid newDeployment_unambiguous hrun⟩

/-- Both can sign in, and the login lookup finds two accounts. -/
theorem setUpTogether_ambiguous :
    ¬ ∀ (as : List (Action Op)) (st : State),
      Run (requests plainEnv newDeployment) anyStep (requests plainEnv newDeployment).init as st →
      Unambiguous st.store := by
  intro hall
  have hdone : (exec (requests plainEnv newDeployment) (requests plainEnv newDeployment).init
      setUpTogether).map (fun st => st.store.canSignInAs "ada@acme") = some [10, 20] := by
    decide +kernel
  obtain ⟨st, hexec, hst⟩ := Option.map_eq_some_iff.mp hdone
  have hstore := hall setUpTogether st (run_of_exec hexec)
  have hfirst : 10 ∈ st.store.canSignInAs "ada@acme" := by rw [hst]; decide
  have hsecond : 20 ∈ st.store.canSignInAs "ada@acme" := by rw [hst]; decide
  obtain ⟨row, hrow, hemail, hcan⟩ := mem_canSignInAs.mp hfirst
  obtain ⟨row', hrow', hemail', hcan'⟩ := mem_canSignInAs.mp hsecond
  cases hstore 10 20 row row' hrow hrow' (hemail.trans hemail'.symm) hcan hcan'

end Tenants
