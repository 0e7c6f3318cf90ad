import GraphRec.Auth.Account
import GraphRec.Lib.RowLocks

/-!
# Recovery tokens

`issue_recovery_token` and `recover_password`, statement by statement, among other transactions
that write to the users and the tenants; nothing is purged meanwhile.  A token is looked up by its
digest; the rows of tokens, users and tenants are locked one by one.

* `Ages` — how the committed tokens may change: a spent one never does;
* `verified_issue`, `verified_recover` — the two keep `Recovered`, whatever comes between their
  statements;
* `recovery_single_use` — a token recovers one account once, before it expires, and not after
  another token of the user was issued or used over it.
-/

namespace Auth.Recovering

open RowLocks Transition

abbrev TokenId := Nat

/-- A row of `account_recovery_tokens`. -/
structure AccountRecoveryToken where
  tenant : TenantId
  user : UserId
  createdAt : Time
  expiresAt : Time
  usedAt : Option Time
  revokedAt : Option Time
  deriving DecidableEq, Repr

/-- `used_at IS NULL AND revoked_at IS NULL`. -/
def AccountRecoveryToken.outstanding (t : AccountRecoveryToken) : Bool :=
  t.usedAt.isNone && t.revokedAt.isNone

inductive Key
  | tenant (id : TenantId)
  | user (id : UserId)
  | token (id : TokenId)
  deriving DecidableEq, Repr

inductive Row
  | tenant (status : TenantStatus)
  | user (u : User)
  | token (t : AccountRecoveryToken)
  deriving DecidableEq, Repr

abbrev Rows := Table Key Row

def tenant? (rows : Rows) (id : TenantId) : Option TenantStatus :=
  match rows.get? (.tenant id) with
  | some (.tenant status) => some status
  | _ => none

def user? (rows : Rows) (id : UserId) : Option User :=
  match rows.get? (.user id) with
  | some (.user u) => some u
  | _ => none

def token? (rows : Rows) (id : TokenId) : Option AccountRecoveryToken :=
  match rows.get? (.token id) with
  | some (.token t) => some t
  | _ => none

/-- The tokens of a user. -/
def tokensOf (rows : Rows) (tenant : TenantId) (user : UserId) : List TokenId :=
  rows.rows.filterMap fun
    | (.token id, .token t) => if t.tenant = tenant ∧ t.user = user then some id else none
    | _ => none

/-- A recovery: the token, and the digest it stored. -/
structure Recovery where
  token : TokenId
  user : UserId
  digest : Digest
  now : Time
  deriving DecidableEq, Repr

/-- What a transaction has done.  `seen` are the tokens of the user that were visible when it
revoked those before. -/
inductive Entry
  | issued (token : TokenId) (seen : List TokenId)
  | recovered (recovery : Recovery) (seen : List TokenId)
  | other
  deriving DecidableEq, Repr

def Entry.seen : Entry → List TokenId
  | .issued _ seen | .recovered _ seen => seen
  | .other => []

def Entry.recovery : Entry → Option Recovery
  | .recovered recovery _ => some recovery
  | _ => none

abbrev Transaction := Prog Key Row Entry

/-! ## The transactions -/

/-- A write to a token. -/
def onToken (write : AccountRecoveryToken → Option AccountRecoveryToken) : Row → Option Row
  | .token t => (write t).map .token
  | _ => none

/-- A write to a user. -/
def onUser (write : User → Option User) : Row → Option Row
  | .user u => (write u).map .user
  | _ => none

/-- A write to the status of a tenant. -/
def onTenant (write : TenantStatus → TenantStatus) : Row → Option Row
  | .tenant status => some (.tenant (write status))
  | _ => none

/-- `revoked_at = now` where a token is outstanding. -/
def revoke (tenant : TenantId) (user : UserId) (now : Time) (t : AccountRecoveryToken) :
    Option AccountRecoveryToken :=
  if t.tenant = tenant ∧ t.user = user ∧ t.outstanding = true then
    some { t with revokedAt := some now }
  else none

/-- The tokens of a user are revoked, one after the other. -/
def revokeAll (tenant : TenantId) (user : UserId) (now : Time) (next : Transaction) :
    List TokenId → Transaction
  | [] => next
  | id :: rest =>
    .update (.token id) (onToken (revoke tenant user now)) fun _ =>
      revokeAll tenant user now next rest

/-- The user with an address. -/
def findUser (rows : Rows) (tenant : TenantId) (email : String) : Option UserId :=
  rows.rows.findSome? fun
    | (.user id, .user u) =>
      if u.tenant = tenant ∧ u.email = email ∧ u.status = .active ∧ u.credentialDigest.isSome then
        some id
      else none
    | _ => none

/-- The hour for which a token is good. -/
def tokenLifetime : Time := 3600

/-- `issue_recovery_token`, and the check of the tenant in its route. -/
def issue (tenant : TenantId) (email : String) (token : TokenId) : Transaction :=
  .select fun rows =>
    if tenant? rows tenant = some .active then
      .clock fun now => .select fun rows =>
        match findUser rows tenant email with
        | none => .done
        | some user => .select fun rows =>
          let seen := tokensOf rows tenant user
          revokeAll tenant user now
            (.insert (.token token)
              (.token ⟨tenant, user, now, now + tokenLifetime, none, none⟩)
              (.commit (.issued token seen))) seen
    else .done

/-- What `resolve_account_recovery_token` finds. -/
structure RecoveryTokenRecord where
  token : TokenId
  tenant : TenantId
  user : UserId
  email : String
  userStatus : UserStatus
  tenantStatus : TenantStatus
  expiresAt : Time
  usedAt : Option Time
  revokedAt : Option Time

/-- `resolve_account_recovery_token`. -/
def resolve (rows : Rows) (token : TokenId) : Option RecoveryTokenRecord := do
  let t ← token? rows token
  let u ← user? rows t.user
  let status ← tenant? rows t.tenant
  if u.tenant = t.tenant then
    some ⟨token, t.tenant, t.user, u.email, u.status, status, t.expiresAt, t.usedAt, t.revokedAt⟩
  else none

/-- The checks before a recovery; every role is one of `ROLE_SCOPES`. -/
def RecoveryTokenRecord.valid (record : RecoveryTokenRecord) (email : Option String) (now : Time) :
    Bool :=
  record.usedAt.isNone && record.revokedAt.isNone && decide (now < record.expiresAt) &&
    decide (record.userStatus = .active) && decide (record.tenantStatus = .active) &&
    email.all fun email => decide (email = record.email)

/-- `used_at = now` where a token is good. -/
def consume (tenant : TenantId) (now : Time) (t : AccountRecoveryToken) :
    Option AccountRecoveryToken :=
  if t.tenant = tenant ∧ t.outstanding = true ∧ now < t.expiresAt then
    some { t with usedAt := some now }
  else none

/-- The password of an active user is replaced. -/
def reset (tenant : TenantId) (digest : Digest) (u : User) : Option User :=
  if u.tenant = tenant ∧ u.status = .active then
    some { u with credentialDigest := some digest, authEpoch := u.authEpoch + 1 }
  else none

/-- `recover_password`; its sessions are the matter of the other modules. -/
def recover (call : CallId) (token : TokenId) (email : Option String) (password : String) :
    Transaction :=
  .select fun rows => .clock fun now =>
    match resolve rows token with
    | none => .done
    | some record =>
      if record.valid email now then
        let digest : Digest := ⟨password, .recovery call⟩
        .update (.token token) (onToken (consume record.tenant now)) fun consumed =>
          if consumed then
            .update (.user record.user) (onUser (reset record.tenant digest)) fun changed =>
              if changed then
                .select fun rows =>
                  let seen := tokensOf rows record.tenant record.user
                  revokeAll record.tenant record.user now
                    (.commit (.recovered ⟨token, record.user, digest, now⟩ seen)) seen
              else .rollback .done
          else .rollback .done
      else .done

/-- What another request writes to a user; only a recovery replaces a digest. -/
structure UserWrite where
  write : User → Option User
  keepsDigest : ∀ u u', write u = some u' → u.credentialDigest.isSome = true →
    u'.credentialDigest = u.credentialDigest

/-- The transactions. -/
inductive Op
  | issue (tenant : TenantId) (email : String) (token : TokenId)
  | recover (call : CallId) (token : TokenId) (email : Option String) (password : String)
  | writeUser (user : UserId) (write : UserWrite)
  | writeTenant (tenant : TenantId) (status : TenantStatus)

def program : Op → Transaction
  | .issue tenant email token => Recovering.issue tenant email token
  | .recover call token email password => Recovering.recover call token email password
  | .writeUser user write =>
    .update (.user user) (onUser write.write) fun _ => .commit .other
  | .writeTenant tenant status =>
    .update (.tenant tenant) (onTenant fun _ => status) fun _ => .commit .other

/-! ## Tokens age -/

section Rows

variable {c c' c'' w : Rows} {n n' : ℕ} {log : List Entry}

/-- A token that is used or revoked. -/
def Spent (rows : Rows) (id : TokenId) : Prop :=
  ∃ t, token? rows id = some t ∧ t.outstanding = false

/-- A token later: its columns but the last two stay, and these too once it is spent. -/
structure AccountRecoveryToken.Ages (t t' : AccountRecoveryToken) : Prop where
  tenant : t'.tenant = t.tenant
  user : t'.user = t.user
  expiresAt : t'.expiresAt = t.expiresAt
  spent : t.outstanding = false → t' = t

/-- The tokens stay, and age. -/
def Ages (c c' : Rows) : Prop :=
  ∀ id t, token? c id = some t → ∃ t', token? c' id = some t' ∧ t.Ages t'

theorem AccountRecoveryToken.Ages.refl (t : AccountRecoveryToken) : t.Ages t :=
  ⟨rfl, rfl, rfl, fun _ => rfl⟩

theorem Ages.refl (c : Rows) : Ages c c := fun _ t h => ⟨t, h, .refl t⟩

theorem Ages.trans (h : Ages c c') (h' : Ages c' c'') : Ages c c'' := by
  intro id t ht
  obtain ⟨t', ht', hages⟩ := h id t ht
  obtain ⟨t'', ht'', hages'⟩ := h' id t' ht'
  refine ⟨t'', ht'', hages'.tenant.trans hages.tenant, hages'.user.trans hages.user,
    hages'.expiresAt.trans hages.expiresAt, ?_⟩
  intro hspent
  obtain rfl := hages.spent hspent
  exact hages'.spent hspent

theorem Spent.ages {id : TokenId} (h : Spent c id) (hages : Ages c c') : Spent c' id := by
  obtain ⟨t, ht, hspent⟩ := h
  obtain ⟨t', ht', haged⟩ := hages id t ht
  obtain rfl := haged.spent hspent
  exact ⟨t', ht', hspent⟩

/-- The token of a view. -/
theorem token?_view {id : TokenId} :
    token? (view w c) id = if w.get? (.token id) = none then token? c id else token? w id := by
  unfold token?
  rw [get?_view]
  cases w.get? (.token id) with
  | none => rw [if_pos rfl, Option.none_or]
  | some row => rw [if_neg (Option.some_ne_none _), Option.some_or]

theorem user?_view {id : UserId} :
    user? (view w c) id = if w.get? (.user id) = none then user? c id else user? w id := by
  unfold user?
  rw [get?_view]
  cases w.get? (.user id) with
  | none => rw [if_pos rfl, Option.none_or]
  | some row => rw [if_neg (Option.some_ne_none _), Option.some_or]

/-- What is kept: which tokens have recovered an account, and what became of the others. -/
structure Recovered (c : Rows) (log : List Entry) : Prop where
  /-- The tokens that were visible when one was issued or used are spent. -/
  spent : ∀ e ∈ log, ∀ id ∈ e.seen, Spent c id
  /-- A token that was used for a recovery says so; the recovery began before it expired. -/
  used : ∀ r ∈ log.filterMap Entry.recovery, ∃ t, token? c r.token = some t ∧ t.user = r.user ∧
    t.usedAt = some r.now ∧ t.revokedAt = none ∧ r.now < t.expiresAt
  /-- No token is used twice. -/
  once : ((log.filterMap Entry.recovery).map Recovery.token).Nodup
  /-- No token is used after another one was issued or used over it. -/
  notAfter : log.Pairwise fun e e' => ∀ r, e'.recovery = some r → r.token ∉ e.seen
  /-- The digest of the last recovery of a user is stored. -/
  stored : ∀ before r after, log.filterMap Entry.recovery = before ++ r :: after →
    (∀ r' ∈ after, r'.user ≠ r.user) →
    ∃ u, user? c r.user = some u ∧ u.credentialDigest = some r.digest

theorem recovered_nil (c : Rows) : Recovered c [] := by
  refine ⟨?_, ?_, List.nodup_nil, .nil, ?_⟩
  · intro e he
    cases he
  · intro r hr
    cases hr
  · intro before r after h
    cases before <;> cases h

/-- A used token stays as it is. -/
theorem Recovered.used_ages (h : Recovered c log) (hages : Ages c c') :
    ∀ r ∈ log.filterMap Entry.recovery, ∃ t, token? c' r.token = some t ∧ t.user = r.user ∧
      t.usedAt = some r.now ∧ t.revokedAt = none ∧ r.now < t.expiresAt := by
  intro r hr
  obtain ⟨t, ht, huser, hused, hrevoked, hexpires⟩ := h.used r hr
  obtain ⟨t', ht', haged⟩ := hages _ t ht
  obtain rfl := haged.spent (by simp [AccountRecoveryToken.outstanding, hused])
  exact ⟨t', ht', huser, hused, hrevoked, hexpires⟩

/-- The commit of a transaction that recovers no account. -/
theorem Recovered.other (h : Recovered c log) {e : Entry} (hages : Ages c c')
    (hdigest : ∀ id u, user? c id = some u → u.credentialDigest.isSome = true →
      ∃ u', user? c' id = some u' ∧ u'.credentialDigest = u.credentialDigest)
    (hnone : e.recovery = none) (hseen : ∀ id ∈ e.seen, Spent c' id) :
    Recovered c' (log ++ [e]) := by
  have hrecoveries : (log ++ [e]).filterMap Entry.recovery = log.filterMap Entry.recovery := by
    rw [List.filterMap_append, List.filterMap_cons_none hnone, List.filterMap_nil, List.append_nil]
  refine ⟨?_, ?_, ?_, ?_, ?_⟩
  · intro e' he' id hid
    rcases List.mem_append.mp he' with hold | hnew
    · exact (h.spent e' hold id hid).ages hages
    · obtain rfl := List.mem_singleton.mp hnew
      exact hseen id hid
  · rw [hrecoveries]
    exact h.used_ages hages
  · rw [hrecoveries]
    exact h.once
  · rw [List.pairwise_append]
    refine ⟨h.notAfter, List.pairwise_singleton _ _, ?_⟩
    intro e₁ _ e₂ he₂ r hr
    obtain rfl := List.mem_singleton.mp he₂
    rw [hnone] at hr
    cases hr
  · intro before r after heq hlast
    rw [hrecoveries] at heq
    obtain ⟨u, hu, hstored⟩ := h.stored before r after heq hlast
    obtain ⟨u', hu', hsame⟩ := hdigest r.user u hu (by rw [hstored]; rfl)
    exact ⟨u', hu', hsame.trans hstored⟩

/-- The commit of a recovery. -/
theorem Recovered.recovery (h : Recovered c log) {r : Recovery} {seen : List TokenId}
    {t t' : AccountRecoveryToken} (hages : Ages c c') (hseen : ∀ id ∈ seen, Spent c' id)
    (hbase : token? c r.token = some t) (hopen : t.outstanding = true)
    (htoken : token? c' r.token = some t')
    (hused : t'.user = r.user ∧ t'.usedAt = some r.now ∧ t'.revokedAt = none ∧ r.now < t'.expiresAt)
    (hothers : ∀ id, id ≠ r.user → user? c' id = user? c id)
    (hstored : ∃ u, user? c' r.user = some u ∧ u.credentialDigest = some r.digest) :
    Recovered c' (log ++ [.recovered r seen]) := by
  have hrecoveries : (log ++ [Entry.recovered r seen]).filterMap Entry.recovery =
      log.filterMap Entry.recovery ++ [r] := by
    rw [List.filterMap_append]
    rfl
  have hfresh : ¬ Spent c r.token := by
    intro hspent
    obtain ⟨t₀, ht₀, hspent⟩ := hspent
    obtain rfl := Option.some.inj (hbase.symm.trans ht₀)
    rw [hopen] at hspent
    cases hspent
  refine ⟨?_, ?_, ?_, ?_, ?_⟩
  · intro e' he' id hid
    rcases List.mem_append.mp he' with hold | hnew
    · exact (h.spent e' hold id hid).ages hages
    · obtain rfl := List.mem_singleton.mp hnew
      exact hseen id hid
  · rw [hrecoveries]
    intro r' hr'
    rcases List.mem_append.mp hr' with hold | hnew
    · exact h.used_ages hages r' hold
    · obtain rfl := List.mem_singleton.mp hnew
      exact ⟨t', htoken, hused⟩
  · rw [hrecoveries, List.map_append, List.nodup_append]
    refine ⟨h.once, List.nodup_singleton _, ?_⟩
    intro a ha b hb hab
    obtain rfl := List.mem_singleton.mp hb
    obtain ⟨r', hr', rfl⟩ := List.mem_map.mp ha
    obtain ⟨t₀, ht₀, -, hused₀, -⟩ := h.used r' hr'
    rw [hab] at ht₀
    exact hfresh ⟨t₀, ht₀, by simp [AccountRecoveryToken.outstanding, hused₀]⟩
  · rw [List.pairwise_append]
    refine ⟨h.notAfter, List.pairwise_singleton _ _, ?_⟩
    intro e₁ he₁ e₂ he₂ r' hr' hmem
    obtain rfl := List.mem_singleton.mp he₂
    obtain rfl := Option.some.inj hr'
    exact hfresh (h.spent e₁ he₁ _ hmem)
  · intro before r' after heq hlast
    rw [hrecoveries] at heq
    rcases List.eq_nil_or_concat after with hnil | ⟨after', last, hconcat⟩
    · subst hnil
      obtain ⟨-, hlastr⟩ := List.append_inj' heq rfl
      obtain rfl : r = r' := by simpa using hlastr
      exact hstored
    · subst hconcat
      have hsplit : log.filterMap Entry.recovery ++ [r] = (before ++ r' :: after') ++ [last] := by
        rw [heq]
        simp
      obtain ⟨hlog, hone⟩ := List.append_inj' hsplit rfl
      obtain rfl : r = last := by simpa using hone
      have hne : r'.user ≠ r.user := fun heq => hlast r (by simp) heq.symm
      rw [hothers r'.user hne]
      refine h.stored before r' after' hlog ?_
      intro r'' hr''
      exact hlast r'' (by simp [hr''])

/-! ## What a transaction has written -/

/-- Of the tokens, a transaction has spent some that were good. -/
def Spends (w c : Rows) : Prop :=
  ∀ id row, w.get? (.token id) = some row → ∃ t t', row = .token t' ∧ token? c id = some t ∧
    t.outstanding = true ∧ t.Ages t' ∧ t'.outstanding = false

theorem spends_empty (c : Rows) : Spends .empty c := by
  intro id row h
  cases h

theorem Spends.ages (h : Spends w c) : Ages c (view w c) := by
  intro id t ht
  rw [token?_view]
  split
  · exact ⟨t, ht, .refl t⟩
  · next hw =>
    obtain ⟨row, hrow⟩ := Option.ne_none_iff_exists'.mp hw
    obtain ⟨t₀, t', rfl, ht₀, -, hages, -⟩ := h id row hrow
    obtain rfl := Option.some.inj (ht.symm.trans ht₀)
    exact ⟨t', by rw [token?, hrow], hages⟩

/-- A token that is seen is the committed one, or one that was written over it. -/
theorem Spends.base (h : Spends w c) {id : TokenId} {t : AccountRecoveryToken}
    (ht : token? (view w c) id = some t) :
    ∃ t₀, token? c id = some t₀ ∧ t₀.Ages t ∧
      (t.outstanding = true → w.get? (.token id) = none ∧ t₀ = t) := by
  rw [token?_view] at ht
  split at ht
  · next hw => exact ⟨t, ht, .refl t, fun _ => ⟨hw, rfl⟩⟩
  · next hw =>
    obtain ⟨row, hrow⟩ := Option.ne_none_iff_exists'.mp hw
    obtain ⟨t₀, t', rfl, ht₀, -, hages, hspent⟩ := h id row hrow
    rw [token?, hrow] at ht
    obtain rfl := Option.some.inj ht
    refine ⟨t₀, ht₀, hages, fun hopen => ?_⟩
    rw [hspent] at hopen
    cases hopen

/-- One more token is spent. -/
theorem Spends.put (h : Spends w c) {id : TokenId} {t t' : AccountRecoveryToken}
    (ht : token? (view w c) id = some t) (hopen : t.outstanding = true) (hages : t.Ages t')
    (hspent : t'.outstanding = false) : Spends (w.put (.token id) (.token t')) c := by
  intro id' row hrow
  rw [Table.get?_put] at hrow
  split at hrow
  · next hid =>
    obtain rfl : id' = id := by injection hid
    obtain rfl := Option.some.inj hrow
    obtain ⟨t₀, ht₀, -, hsame⟩ := h.base ht
    obtain rfl := (hsame hopen).2
    exact ⟨t₀, t', rfl, ht₀, hopen, hages, hspent⟩
  · exact h id' row hrow

/-- A row of another kind. -/
theorem Spends.put_user (h : Spends w c) (id : UserId) (row : Row) :
    Spends (w.put (.user id) row) c := by
  intro id' row' hrow
  rw [Table.get?_put, if_neg Key.noConfusion] at hrow
  exact h id' row' hrow

abbrev Kept (c : Rows) (_ : ℕ) (log : List Entry) : Prop := Recovered c log

abbrev After (w c : Rows) (n : ℕ) (c' : Rows) (n' : ℕ) : Prop := Later Ages Kept w c n c' n'

/-- Written tokens stay under the transaction. -/
theorem Spends.after (h : Spends w c) (hlater : After w c n c' n') : Spends w c' := by
  intro id row hrow
  obtain ⟨t, t', hrow', ht, hrest⟩ := h id row hrow
  have hown := hlater.own (.token id) (by rw [hrow]; exact Option.some_ne_none _)
  refine ⟨t, t', hrow', ?_, hrest⟩
  rwa [token?, hown, ← token?]

/-- What a transaction sees as spent stays so. -/
theorem spent_after {id : TokenId} (h : Spent (view w c) id) (hlater : After w c n c' n') :
    Spent (view w c') id := by
  obtain ⟨t, ht, hspent⟩ := h
  rw [token?_view] at ht
  by_cases hw : w.get? (.token id) = none
  · rw [if_pos hw] at ht
    obtain ⟨t', ht', hspent'⟩ := Spent.ages ⟨t, ht, hspent⟩ hlater.future
    exact ⟨t', by rwa [token?_view, if_pos hw], hspent'⟩
  · rw [if_neg hw] at ht
    exact ⟨t, by rwa [token?_view, if_neg hw], hspent⟩

theorem token?_put {rows : Rows} {id : TokenId} {t : AccountRecoveryToken} (id' : TokenId) :
    token? (rows.put (.token id) (.token t)) id' =
      if id' = id then some t else token? rows id' := by
  unfold token?
  rw [Table.get?_put]
  by_cases hid : id' = id
  · rw [if_pos (congrArg Key.token hid), if_pos hid]
  · rw [if_neg (fun h => hid (Key.token.inj h)), if_neg hid]

/-- The token of a view after a write to it. -/
theorem token?_view_put {id : TokenId} {t : AccountRecoveryToken} (id' : TokenId) :
    token? (view (w.put (.token id) (.token t)) c) id' =
      if id' = id then some t else token? (view w c) id' := by
  rw [token?_view, token?_view, token?_put, Table.get?_put]
  by_cases hid : id' = id
  · rw [if_pos (congrArg Key.token hid), if_neg (Option.some_ne_none _), if_pos hid, if_pos hid]
  · rw [if_neg (fun h => hid (Key.token.inj h)), if_neg hid, if_neg hid]

/-- A write to a token leaves the users. -/
theorem user?_view_put {id : TokenId} {row : Row} (id' : UserId) :
    user? (view (w.put (.token id) row) c) id' = user? (view w c) id' := by
  have hkey : (w.put (.token id) row).get? (.user id') = w.get? (.user id') := by
    rw [Table.get?_put, if_neg Key.noConfusion]
  simp only [user?, get?_view, hkey]

/-- One more token that is spent. -/
theorem spent_put {id id' : TokenId} {t : AccountRecoveryToken} (hspent : t.outstanding = false)
    (h : id' = id ∨ Spent (view w c) id') : Spent (view (w.put (.token id) (.token t)) c) id' := by
  by_cases hid : id' = id
  · exact ⟨t, by rw [token?_view_put, if_pos hid], hspent⟩
  · obtain ⟨t', ht', hspent'⟩ := h.resolve_left hid
    exact ⟨t', by rwa [token?_view_put, if_neg hid], hspent'⟩

/-- A write to a token. -/
theorem bind_onToken {id : TokenId} {write : AccountRecoveryToken → Option AccountRecoveryToken}
    {rows : Rows} : (rows.get? (.token id)).bind (onToken write) =
      ((token? rows id).bind write).map .token := by
  unfold token?
  cases rows.get? (.token id) with
  | none => rfl
  | some row => cases row <;> rfl

theorem bind_onUser {id : UserId} {write : User → Option User} {rows : Rows} :
    (rows.get? (.user id)).bind (onUser write) = ((user? rows id).bind write).map .user := by
  unfold user?
  cases rows.get? (.user id) with
  | none => rfl
  | some row => cases row <;> rfl

theorem mem_tokensOf {rows : Rows} {tenant : TenantId} {user : UserId} {id : TokenId}
    (h : id ∈ tokensOf rows tenant user) :
    ∃ t, token? rows id = some t ∧ t.tenant = tenant ∧ t.user = user := by
  obtain ⟨⟨key, row⟩, hmem, hid⟩ := List.mem_filterMap.mp h
  have hstored := (Table.mem_rows_iff _).mp hmem
  cases key <;> cases row <;> try cases hid
  next id' t =>
  dsimp only at hid
  split at hid
  · next howner =>
    obtain rfl := Option.some.inj hid
    exact ⟨t, by rw [token?, hstored], howner⟩
  · cases hid

/-! ## Revoking the tokens -/

section RevokeAll

variable {tenant : TenantId} {user : UserId} {now : Time} {next : Transaction}
  {I : Rows → Rows → Prop} {seen ids : List TokenId}

/-- **The tokens are revoked** one by one: afterwards all that were seen are spent.  `I` is what
the transaction relies on. -/
theorem verified_revokeAll (hspends : ∀ {w c}, I w c → Spends w c)
    (hafter : ∀ {w c n c' n'}, I w c → After w c n c' n' → I w c')
    (hput : ∀ {w c id t}, I w c → token? (view w c) id = some t → t.outstanding = true →
      I (w.put (.token id) (.token { t with revokedAt := some now })) c)
    (hnext : ∀ {w c n}, I w c → (∀ id ∈ seen, Spent (view w c) id) →
      RowLocks.Verified Ages Kept next w c n)
    (hids : ∀ id ∈ ids, ∃ t, token? c id = some t ∧ t.tenant = tenant ∧ t.user = user)
    (hseen : ∀ id ∈ seen, id ∈ ids ∨ Spent (view w c) id) (hI : I w c) :
    RowLocks.Verified Ages Kept (revokeAll tenant user now next ids) w c n := by
  induction ids generalizing w c n with
  | nil => exact hnext hI fun id hid => (hseen id hid).resolve_left List.not_mem_nil
  | cons id rest ih =>
    intro c' n' hlater
    have hI' := hafter hI hlater
    have hids' : ∀ id' ∈ id :: rest, ∃ t, token? c' id' = some t ∧ t.tenant = tenant ∧
        t.user = user := by
      intro id' hid'
      obtain ⟨t, ht, htenant, huser⟩ := hids id' hid'
      obtain ⟨t', ht', hages⟩ := hlater.future id' t ht
      exact ⟨t', ht', hages.tenant.trans htenant, hages.user.trans huser⟩
    have hseen' : ∀ id' ∈ seen, id' = id ∨ id' ∈ rest ∨ Spent (view w c') id' := by
      intro id' hid'
      rcases hseen id' hid' with hmem | hspent
      · exact (List.mem_cons.mp hmem).imp_right .inl
      · exact .inr (.inr (spent_after hspent hlater))
    rw [bind_onToken]
    constructor
    · intro row hrow
      obtain ⟨t', hwrite, rfl⟩ := Option.map_eq_some_iff.mp hrow
      obtain ⟨t, ht, hrevoke⟩ := Option.bind_eq_some_iff.mp hwrite
      unfold revoke at hrevoke
      split at hrevoke
      · next hguard =>
        obtain rfl := Option.some.inj hrevoke
        have hspent :
            ({ t with revokedAt := some now } : AccountRecoveryToken).outstanding = false := by
          simp [AccountRecoveryToken.outstanding]
        refine ih (fun id' hid' => hids' id' (List.mem_cons_of_mem _ hid')) ?_
          (hput hI' ht hguard.2.2)
        intro id' hid'
        rcases hseen' id' hid' with hid | hrest | hold
        · exact .inr (spent_put hspent (.inl hid))
        · exact .inl hrest
        · exact .inr (spent_put hspent (.inr hold))
      · cases hrevoke
    · intro hnone
      refine ih (fun id' hid' => hids' id' (List.mem_cons_of_mem _ hid')) ?_ hI'
      intro id' hid'
      rcases hseen' id' hid' with hid | hrest
      · -- the token is there and was not revoked, so it is spent already
        subst hid
        obtain ⟨t, ht, htenant, huser⟩ := hids' id' List.mem_cons_self
        obtain ⟨t', ht', hages⟩ := (hspends hI').ages id' t ht
        rw [ht', Option.map_eq_none_iff, Option.bind_some, revoke] at hnone
        refine .inr ⟨t', ht', ?_⟩
        by_contra hopen
        rw [if_pos ⟨hages.tenant.trans htenant, hages.user.trans huser,
          eq_true_of_ne_false hopen⟩] at hnone
        cases hnone
      · exact hrest

end RevokeAll

/-! ## The transactions are right -/

abbrev Right (p : Transaction) (w c : Rows) (n : ℕ) : Prop := RowLocks.Verified Ages Kept p w c n

/-- What a transaction has written of one row less. -/
theorem after_of_put {key : Key} {row : Row} (h : After (w.put key row) c n c' n') :
    After w c n c' n' := by
  refine ⟨h.future, h.time, fun key' hkey' => h.own key' ?_, h.kept⟩
  rw [Table.get?_put]
  split
  · exact Option.some_ne_none _
  · exact hkey'

/-- What an issue relies on while it revokes the tokens before. -/
structure Issuing (w c : Rows) : Prop where
  spends : Spends w c
  noUser : ∀ id, w.get? (.user id) = none

/-- **Issuing a token.** -/
theorem verified_issue (tenant : TenantId) (email : String) (token : TokenId) :
    Right (issue tenant email token) .empty c n := by
  intro c₁ n₁ _
  dsimp only [view_empty]
  split
  · intro c₂ n₂ _ c₃ n₃ _
    dsimp only [view_empty]
    split
    · exact trivial
    · next user _ =>
      intro c₄ n₄ _
      dsimp only [view_empty]
      have hids : ∀ id ∈ tokensOf c₄ tenant user, ∃ t, token? c₄ id = some t ∧
          t.tenant = tenant ∧ t.user = user := fun id hid => mem_tokensOf hid
      refine verified_revokeAll (I := Issuing) (fun h => h.spends) ?_ ?_ ?_ hids
        (fun id hid => .inl hid) ⟨spends_empty _, fun _ => rfl⟩
      · intro w c n c' n' h hlater
        exact ⟨h.spends.after hlater, h.noUser⟩
      · intro w c id t h ht hopen
        refine ⟨h.spends.put ht hopen ⟨rfl, rfl, rfl, fun hspent => ?_⟩ ?_, ?_⟩
        · rw [hopen] at hspent
          cases hspent
        · simp [AccountRecoveryToken.outstanding]
        · intro id'
          rw [Table.get?_put, if_neg Key.noConfusion]
          exact h.noUser id'
      · -- all tokens that were seen are spent: the new one is added
        intro w c n hI hseen c' n' hlater hfresh c'' n'' hlater' log hlog
        have hspends : Spends w c'' := (hI.spends.after hlater).after (after_of_put hlater')
        have hnone : token? c'' token = none := by
          have hown := hlater'.own (.token token)
            (by rw [Table.get?_put, if_pos rfl]; exact Option.some_ne_none _)
          rw [get?_view, Option.or_eq_none_iff] at hfresh
          rw [token?, hown, hfresh.2]
        have hages : Ages c'' (view (w.put (.token token)
            (.token ⟨tenant, user, n₂, n₂ + tokenLifetime, none, none⟩)) c'') := by
          intro id t ht
          have hid : id ≠ token := by
            rintro rfl
            rw [hnone] at ht
            cases ht
          rw [token?_view_put, if_neg hid]
          exact hspends.ages id t ht
        refine ⟨hages, hlog.other hages ?_ rfl ?_⟩
        · intro id u hu _
          refine ⟨u, ?_, rfl⟩
          rw [user?_view_put, user?_view, if_pos (hI.noUser id), hu]
        · intro id hid
          have hspent := spent_after (hseen id hid) hlater
          have hne : id ≠ token := by
            rintro rfl
            obtain ⟨t, ht, -⟩ := hspent
            rw [token?, hfresh] at ht
            cases ht
          obtain ⟨t, ht, hspent⟩ := spent_after hspent (after_of_put hlater')
          exact ⟨t, by rwa [token?_view_put, if_neg hne], hspent⟩
  · exact trivial

/-- What a recovery relies on while it revokes the other tokens: it has used its own, which was
good, and stored the digest. -/
structure Using (r : Recovery) (w c : Rows) : Prop where
  spends : Spends w c
  consumed : ∃ t, token? c r.token = some t ∧ t.outstanding = true ∧ t.user = r.user ∧
    r.now < t.expiresAt ∧ w.get? (.token r.token) = some (.token { t with usedAt := some r.now })
  noOther : ∀ id, id ≠ r.user → w.get? (.user id) = none
  stored : ∃ u, w.get? (.user r.user) = some (.user u) ∧ u.credentialDigest = some r.digest

theorem Using.after {r : Recovery} (h : Using r w c)
    (hlater : After w c n c' n') : Using r w c' := by
  obtain ⟨t, ht, hopen, huser, hexpires, hwritten⟩ := h.consumed
  refine ⟨h.spends.after hlater, ⟨t, ?_, hopen, huser, hexpires, hwritten⟩, h.noOther, h.stored⟩
  rw [token?, hlater.own (.token r.token) (by rw [hwritten]; exact Option.some_ne_none _), ← token?,
    ht]

/-- Another token is revoked. -/
theorem Using.put {r : Recovery} {now : Time} (h : Using r w c)
    {id : TokenId} {t : AccountRecoveryToken} (ht : token? (view w c) id = some t)
    (hopen : t.outstanding = true) :
    Using r (w.put (.token id) (.token { t with revokedAt := some now })) c := by
  obtain ⟨own, hown, hgood, huser, hexpires, hwritten⟩ := h.consumed
  obtain ⟨t₀, -, -, hbase⟩ := h.spends.base ht
  have hid : r.token ≠ id := by
    rintro rfl
    rw [(hbase hopen).1] at hwritten
    cases hwritten
  refine ⟨h.spends.put ht hopen ⟨rfl, rfl, rfl, fun hspent => ?_⟩ ?_,
    ⟨own, hown, hgood, huser, hexpires, ?_⟩, ?_, ?_⟩
  · rw [hopen] at hspent
    cases hspent
  · simp [AccountRecoveryToken.outstanding]
  · rw [Table.get?_put, if_neg fun heq => hid (Key.token.inj heq), hwritten]
  · intro id' hne
    rw [Table.get?_put, if_neg Key.noConfusion]
    exact h.noOther id' hne
  · obtain ⟨u, hu, hdigest⟩ := h.stored
    exact ⟨u, by rw [Table.get?_put, if_neg Key.noConfusion, hu], hdigest⟩

/-- The commit of a recovery. -/
theorem Using.commit {r : Recovery} {seen : List TokenId}
    (h : Using r w c) (hseen : ∀ id ∈ seen, Spent (view w c) id) :
    Right (.commit (.recovered r seen)) w c n := by
  intro c' n' hlater log hlog
  have h' := h.after hlater
  obtain ⟨t, ht, hopen, huser, hexpires, hwritten⟩ := h'.consumed
  have htoken : token? (view w c') r.token = some { t with usedAt := some r.now } := by
    rw [token?_view, if_neg (by rw [hwritten]; exact Option.some_ne_none _), token?, hwritten]
  have hrevoked : t.revokedAt = none := by
    simp only [AccountRecoveryToken.outstanding, Bool.and_eq_true,
      Option.isNone_iff_eq_none] at hopen
    exact hopen.2
  refine ⟨h'.spends.ages, hlog.recovery h'.spends.ages ?_ ht hopen htoken
    ⟨huser, rfl, hrevoked, hexpires⟩ ?_ ?_⟩
  · exact fun id hid => spent_after (hseen id hid) hlater
  · intro id hne
    rw [user?_view, if_pos (h'.noOther id hne)]
  · obtain ⟨u, hu, hdigest⟩ := h'.stored
    refine ⟨u, ?_, hdigest⟩
    rw [user?_view, if_neg (by rw [hu]; exact Option.some_ne_none _), user?, hu]

/-- The token of a record. -/
theorem resolve_token {rows : Rows} {token : TokenId} {record : RecoveryTokenRecord}
    (h : resolve rows token = some record) :
    ∃ t, token? rows token = some t ∧ t.tenant = record.tenant ∧ t.user = record.user := by
  unfold resolve at h
  obtain ⟨t, ht, h⟩ := Option.bind_eq_some_iff.mp h
  obtain ⟨u, -, h⟩ := Option.bind_eq_some_iff.mp h
  obtain ⟨status, -, h⟩ := Option.bind_eq_some_iff.mp h
  split at h
  · obtain rfl := Option.some.inj h
    exact ⟨t, ht, rfl, rfl⟩
  · cases h

/-- **Recovering an account.** -/
theorem verified_recover (call : CallId) (token : TokenId) (email : Option String)
    (password : String) : Right (recover call token email password) .empty c n := by
  intro c₁ n₁ _ c₂ n₂ hlater₂
  dsimp only [view_empty]
  split
  · exact trivial
  next record hresolve =>
  obtain ⟨t₁, ht₁, -, huser₁⟩ := resolve_token hresolve
  split
  · intro c₃ n₃ hlater₃
    rw [bind_onToken, view_empty]
    refine ⟨?_, fun _ _ _ _ => trivial⟩
    intro row hrow
    obtain ⟨used, hwrite, rfl⟩ := Option.map_eq_some_iff.mp hrow
    obtain ⟨t, ht, hconsume⟩ := Option.bind_eq_some_iff.mp hwrite
    unfold consume at hconsume
    split at hconsume
    · next hgood =>
      obtain rfl := Option.some.inj hconsume
      have huser : t.user = record.user := by
        obtain ⟨t₂, ht₂, hages₂⟩ := hlater₂.future _ _ ht₁
        obtain ⟨t₃, ht₃, hages₃⟩ := hlater₃.future _ _ ht₂
        obtain rfl := Option.some.inj (ht.symm.trans ht₃)
        exact hages₃.user.trans (hages₂.user.trans huser₁)
      have hspends : Spends (Table.put .empty (.token token)
          (.token { t with usedAt := some n₂ })) c₃ := by
        refine (spends_empty c₃).put (t := t) ht hgood.2.1 ⟨rfl, rfl, rfl, fun hspent => ?_⟩ ?_
        · rw [hgood.2.1] at hspent
          cases hspent
        · simp [AccountRecoveryToken.outstanding]
      dsimp only
      rw [if_pos rfl]
      intro c₄ n₄ hlater₄
      rw [bind_onUser]
      refine ⟨?_, fun _ _ _ _ => trivial⟩
      intro row hrow
      obtain ⟨u', hwrite, rfl⟩ := Option.map_eq_some_iff.mp hrow
      obtain ⟨u, -, hreset⟩ := Option.bind_eq_some_iff.mp hwrite
      unfold reset at hreset
      split at hreset
      · obtain rfl := Option.some.inj hreset
        dsimp only
        rw [if_pos rfl]
        have hown : token? c₄ token = some t := by
          rw [token?, hlater₄.own (.token token)
            (by rw [Table.get?_put, if_pos rfl]; exact Option.some_ne_none _), ← token?, ht]
        set r : Recovery := ⟨token, record.user, ⟨password, .recovery call⟩, n₂⟩ with hr
        have husing : Using r (Table.put (Table.put .empty (.token token)
            (.token { t with usedAt := some n₂ })) (.user record.user) (.user { u with
              credentialDigest := some r.digest, authEpoch := u.authEpoch + 1 })) c₄ := by
          refine ⟨(hspends.after hlater₄).put_user _ _, ⟨t, hown, hgood.2.1, huser, hgood.2.2, ?_⟩,
            ?_, { u with credentialDigest := some r.digest, authEpoch := u.authEpoch + 1 }, ?_, rfl⟩
          · rw [Table.get?_put, if_neg Key.noConfusion, Table.get?_put, if_pos rfl]
          · intro id hne
            rw [Table.get?_put, if_neg fun heq => hne (Key.user.inj heq), Table.get?_put,
              if_neg Key.noConfusion, Table.get?_empty]
          · rw [Table.get?_put, if_pos rfl]
        intro c₅ n₅ hlater₅
        have husing₅ := husing.after hlater₅
        refine verified_revokeAll (I := Using r) (fun h => h.spends)
          (fun h hlater => h.after hlater) (fun h ht hopen => h.put ht hopen)
          (fun h hseen => h.commit hseen) ?_ (fun id hid => .inl hid) husing₅
        intro id hid
        obtain ⟨t', ht', htenant, huser'⟩ := mem_tokensOf hid
        obtain ⟨t₀, ht₀, hages, -⟩ := husing₅.spends.base ht'
        exact ⟨t₀, ht₀, hages.tenant.symm.trans htenant, hages.user.symm.trans huser'⟩
      · cases hreset
    · cases hconsume
  · exact trivial

/-- What another request has written: no token, and no other digest over one. -/
structure Quiet (w c : Rows) : Prop where
  noToken : ∀ id, w.get? (.token id) = none
  users : ∀ id row, w.get? (.user id) = some row → ∃ u u', row = .user u' ∧ user? c id = some u ∧
    (u.credentialDigest.isSome = true → u'.credentialDigest = u.credentialDigest)

theorem Quiet.commit (h : Quiet w c) : Right (.commit .other) w c n := by
  intro c' n' hlater log hlog
  have hages : Ages c' (view w c') := by
    intro id t ht
    exact ⟨t, by rw [token?_view, if_pos (h.noToken id), ht], .refl t⟩
  refine ⟨hages, hlog.other hages ?_ rfl fun id hid => by cases hid⟩
  intro id u hu hdigest
  rw [user?_view]
  split
  · exact ⟨u, hu, rfl⟩
  · next hw =>
    obtain ⟨row, hrow⟩ := Option.ne_none_iff_exists'.mp hw
    obtain ⟨u₀, u', rfl, hu₀, hkeeps⟩ := h.users id row hrow
    have hown : user? c' id = some u₀ := by
      rw [user?, hlater.own (.user id) hw, ← user?, hu₀]
    obtain rfl := Option.some.inj (hu.symm.trans hown)
    exact ⟨u', by rw [user?, hrow], hkeeps hdigest⟩

theorem quiet_empty (c : Rows) : Quiet .empty c := by
  refine ⟨fun _ => rfl, ?_⟩
  intro id row h
  cases h

/-- **Other writes.** -/
theorem verified_writeUser (user : UserId) (write : UserWrite) :
    Right (program (.writeUser user write)) .empty c n := by
  intro c' n' _
  rw [bind_onUser, view_empty]
  refine ⟨?_, fun _ => (quiet_empty c').commit⟩
  intro row hrow
  obtain ⟨u', hbind, rfl⟩ := Option.map_eq_some_iff.mp hrow
  obtain ⟨u, hu, hwrite⟩ := Option.bind_eq_some_iff.mp hbind
  refine Quiet.commit ⟨?_, ?_⟩
  · intro id
    rw [Table.get?_put, if_neg Key.noConfusion, Table.get?_empty]
  · intro id row hwritten
    rw [Table.get?_put] at hwritten
    split at hwritten
    · next hid =>
      obtain rfl : id = user := by injection hid
      obtain rfl := Option.some.inj hwritten
      exact ⟨u, u', rfl, hu, write.keepsDigest u u' hwrite⟩
    · cases hwritten

theorem verified_writeTenant (tenant : TenantId) (status : TenantStatus) :
    Right (program (.writeTenant tenant status)) .empty c n := by
  intro c' n' _
  refine ⟨?_, fun _ => (quiet_empty c').commit⟩
  intro row _
  refine Quiet.commit ⟨?_, ?_⟩
  · intro id
    rw [Table.get?_put, if_neg Key.noConfusion, Table.get?_empty]
  · intro id row hrow
    rw [Table.get?_put, if_neg Key.noConfusion, Table.get?_empty] at hrow
    cases hrow

end Rows

/-! ## Runs -/

/-- **A token recovers once**, whatever runs: issues and recoveries for any users, and writes to
users and tenants, with any statements of the others between those of each. -/
theorem recovery_single_use {first : Rows} {t₀ : ℕ} {st : RowLocks.State Key Row Entry}
    (hst : Reachable (RowLocks.system program first t₀) anyStep st) :
    Recovered st.committed st.log := by
  refine Sound.kept (G := Kept) (sound (F := Ages) (fun _ _ _ => Ages.trans) Ages.refl
    (fun h _ => h) ?_ (recovered_nil first) hst)
  intro op c n
  cases op with
  | issue tenant email token => exact verified_issue tenant email token
  | recover call token email password => exact verified_recover call token email password
  | writeUser user write => exact verified_writeUser user write
  | writeTenant tenant status => exact verified_writeTenant tenant status

/-- A tenant with a member. -/
def oneMember : Rows :=
  (Table.empty.put (.tenant 1) (.tenant .active)).put (.user 7)
    (.user ⟨1, "a@b.c", .tenantDeveloper, .active, some ⟨"old", .setup⟩, 0, none⟩)

/-- Two issues overlap, so that two tokens are good; one of them is used, and the other one is
presented after it. -/
def twoTokens : List (RowLocks.Action Op) :=
  [.start 0 (.issue 1 "a@b.c" 10), .start 1 (.issue 1 "a@b.c" 11)] ++
    (List.replicate 6 [.run 0, .run 1]).flatten ++
    [.start 2 (.recover 5 10 none "new")] ++ List.replicate 8 (.run 2) ++
    [.start 3 (.recover 6 11 none "late")] ++ List.replicate 3 (.run 3)

/-- One recovery, and the other token is spent with it. -/
theorem recovery_single_use_twoTokens : ∃ st,
    Reachable (RowLocks.system program oneMember 100) anyStep st ∧
      st.log.filterMap Entry.recovery = [⟨10, 7, ⟨"new", .recovery 5⟩, 100⟩] ∧
      Recovered st.committed st.log := by
  have hdone : (exec (RowLocks.system program oneMember 100)
      (RowLocks.system program oneMember 100).init twoTokens).map
        (fun st => st.log.filterMap Entry.recovery) =
      some [⟨10, 7, ⟨"new", .recovery 5⟩, 100⟩] := by
    decide +kernel
  obtain ⟨st, hexec, hlog⟩ := Option.map_eq_some_iff.mp hdone
  have hst : Reachable (RowLocks.system program oneMember 100) anyStep st := ⟨_, run_of_exec hexec⟩
  exact ⟨st, hst, hlog, recovery_single_use hst⟩

end Auth.Recovering
