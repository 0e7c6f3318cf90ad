import GraphRec.ApiKeys.Lifetime

/-!
# Delegation: whose scopes a secret carries

`create_key` checks that the role of the caller may delegate the scopes it asks for;
`rotate_key` makes no such check, and its answer carries the scopes of the key, whoever
created it.  So a developer who rotates the key of an administrator obtains the
administrator's scopes.

`no_escalation` shows that this is the only way: the secrets returned in a run carry only
scopes their receivers may delegate just when every rotation is of a key whose scopes the
caller may delegate.
-/

namespace ApiKeys

open Transition
open Auth (TenantId Time TenantStatus Role Principal ApiError)

/-- Does a request that rotates a key find only scopes that its caller may delegate? -/
def delegatesRotated (s : State) : Action → Bool
  | .rotate credential id _ _ now =>
      match authorize credential with
      | .error _ => true
      | .ok p =>
          match owned s.keys p id with
          | none => true
          | some row =>
              !row.rotatable now ||
                row.scopes.all fun scope => (delegatedScopes p.role).contains scope
  | _ => true

/-- Every answer carries scopes that its receiver may delegate. -/
def Delegated (s : State) : Prop :=
  ∀ r ∈ s.returned, r.scopes ⊆ delegatedScopes r.principal.role

/-- The secret, when it is presented, grants the scope. -/
def Authorises (env : Env) (s : State) (secret : Secret) (scope : String) : Prop :=
  ∃ now p, apiKeyPrincipal env s.keys s.tenants secret now = .ok p ∧ scope ∈ p.scopes

/-- Every secret that was returned is answered with, and grants, only scopes that its
receiver may delegate. -/
def NoEscalation (env : Env) (s : State) : Prop :=
  ∀ r ∈ s.returned, r.scopes ⊆ delegatedScopes r.principal.role ∧
    ∀ scope, Authorises env s r.secret scope → scope ∈ delegatedScopes r.principal.role

section Step

variable {env : Env} {s s' : State} {act : Action}

/-- A secret grants the scopes it was answered with. -/
theorem authorises_answered (hinv : KeysInv env s) {r : SecretResponse}
    (hr : r ∈ s.returned) {scope : String} (h : Authorises env s r.secret scope) :
    scope ∈ r.scopes := by
  obtain ⟨now, p, hok, hscope⟩ := h
  obtain ⟨_, row, hrow, _, hscopes⟩ := apiKeyPrincipal_ok hok
  obtain ⟨_, _, _, _, _, hholds⟩ := (acceptedAs_iff hinv).mp ⟨p, hok, rfl⟩
  have hkey : p.apiKey = r.key :=
    secret_unique hinv (mem_of_holds hholds) (mem_secretsOf.mpr ⟨r, hr, rfl, rfl⟩)
  obtain ⟨row', hrow', hsame⟩ := hinv.stored r hr
  rw [hkey] at hrow
  obtain rfl := Option.some.inj (hrow.symm.trans hrow')
  rw [← hsame, ← hscopes]
  exact hscope

/-- What is granted is what was answered, so the answers decide. -/
theorem noEscalation_iff (hinv : KeysInv env s) : NoEscalation env s ↔ Delegated s := by
  constructor
  · intro h r hr
    exact (h r hr).1
  · intro h r hr
    refine ⟨h r hr, ?_⟩
    intro scope hscope
    exact h r hr (authorises_answered hinv hr hscope)

/-- One more answer. -/
theorem delegated_cons (r : SecretResponse) (keys : Table KeyId ApiKey)
    (tenants : TenantId → TenantStatus) :
    Delegated ⟨keys, tenants, r :: s.returned⟩ ↔
      Delegated s ∧ r.scopes ⊆ delegatedScopes r.principal.role := by
  unfold Delegated
  dsimp only
  rw [List.forall_mem_cons]
  exact And.comm

/-- **Step lemma.**  A step keeps the answers within the roles of their receivers just
when it rotates no key beyond its caller's role. -/
theorem delegated_step_iff (hstep : step env s act = some s') :
    Delegated s' ↔ Delegated s ∧ delegatesRotated s act = true := by
  cases step_cases hstep with
  | @created credential p request id encoded now row hid hfresh hauthorized hrow =>
      obtain ⟨_, _, _, _, hscopes⟩ := createKey_ok hrow
      rw [State.created, delegated_cons]
      exact and_congr_right fun _ => ⟨fun _ => rfl, fun _ scope hscope => hscopes scope hscope⟩
  | @rotated credential p id grace encoded now old hfresh hauthorized hold hrotatable =>
      have hscopes : (old.rotated env grace (generateApiKey encoded) now).scopes =
          old.scopes := by
        unfold ApiKey.rotated
        split <;> rfl
      rw [State.replaced, delegated_cons]
      apply and_congr_right
      intro _
      simp only [delegatesRotated, hauthorized, hold, hrotatable, hscopes, Bool.not_true,
        Bool.false_or, List.all_eq_true, List.contains_iff_mem]
      exact Iff.rfl
  | revoked hauthorized hold => exact ⟨fun h => ⟨h, rfl⟩, fun h => h.1⟩
  | refused hact hrotate =>
      refine ⟨fun h => ⟨h, ?_⟩, fun h => h.1⟩
      cases act with
      | create | revoke | setTenantStatus => rfl
      | rotate credential id grace encoded now =>
          cases hauthorized : authorize credential with
          | error e => simp only [delegatesRotated, hauthorized]
          | ok p =>
              cases hold : owned s.keys p id with
              | none => simp only [delegatesRotated, hauthorized, hold]
              | some old =>
                  have hfalse := hrotate credential p id grace encoded now old rfl
                    hauthorized hold
                  simp only [delegatesRotated, hauthorized, hold, hfalse, Bool.not_false,
                    Bool.true_or]
  | tenant => exact ⟨fun h => ⟨h, rfl⟩, fun h => h.1⟩

end Step

/-- **No escalation** through the secrets returned in a run, just when every rotation of
the run is of a key whose scopes its caller may delegate. -/
theorem no_escalation {env : Env} {tenants : TenantId → TenantStatus} {as : List Action}
    {t : State} (hrun : Run (system env tenants) anyStep (initial tenants) as t) :
    NoEscalation env t ↔
      ∀ x ∈ trace (system env tenants) (initial tenants) as,
        delegatesRotated x.1 x.2 = true := by
  rw [noEscalation_iff (keysInv_run hrun)]
  have hiff := hrun.trace_iff (Q := fun _ => True) (P := Delegated)
    (p := fun s act => delegatesRotated s act = true) (fun _ _ _ _ _ _ => trivial)
    (fun _ _ _ _ _ hnext => delegated_step_iff hnext) trivial
  have hinitial : Delegated (initial tenants) := by
    intro r hr
    cases hr
  rw [hiff]
  exact ⟨fun h => h.2, fun h => ⟨hinitial, h⟩⟩

/-- A developer of tenant 1. -/
def developer : Credential :=
  .bearer ⟨2, 1, .tenantDeveloper, Auth.roleScopes .tenantDeveloper, false⟩

/-- The developer rotates a key of its own making. -/
def developerRotates : List Action :=
  [.create administrator ⟨"shop", ["training:write"], none⟩ 1 (repeated 'a') 10,
    .create developer ⟨"feed", ["events:write"], none⟩ 2 (repeated 'b') 20,
    .rotate developer 2 0 (repeated 'c') 30]

/-- No secret of that run exceeds its receiver. -/
theorem no_escalation_developer :
    ∃ t, Run (system plainEnv fun _ => .active) anyStep (initial fun _ => .active)
        developerRotates t ∧ NoEscalation plainEnv t := by
  have hdone : (execWhile (system plainEnv fun _ => .active) delegatesRotated
      (initial fun _ => .active) developerRotates).isSome = true := by
    decide +kernel
  obtain ⟨t, hexec⟩ := Option.isSome_iff_exists.mp hdone
  have hchecked := run_of_execWhile hexec
  have hrun := hchecked.weaken fun _ _ _ => trivial
  exact ⟨t, hrun, (no_escalation hrun).mpr hchecked.trace_ok⟩

/-- **A rotation escalates**: the developer rotates the key of the administrator and holds
a secret with the scope training:write. -/
theorem rotation_escalates :
    ¬ ∀ (as : List Action) (t : State),
      Run (system plainEnv fun _ => .active) anyStep (initial fun _ => .active) as t →
      NoEscalation plainEnv t := by
  intro hall
  have hdone : (exec (system plainEnv fun _ => .active) (initial fun _ => .active)
      [.create administrator ⟨"shop", ["training:write"], none⟩ 1 (repeated 'a') 10,
        .rotate developer 1 0 (repeated 'b') 20]).map (fun t => t.returned.head?) =
      some (some ⟨⟨2, 1, .tenantDeveloper, Auth.roleScopes .tenantDeveloper, false⟩, 1,
        ["training:write"], generateApiKey (repeated 'b')⟩) := by
    decide +kernel
  obtain ⟨t, hexec, ht⟩ := Option.map_eq_some_iff.mp hdone
  have hscopes := (hall _ t (run_of_exec hexec) _ (List.mem_of_mem_head? ht)).1
  exact absurd (hscopes (List.mem_singleton_self _)) (by decide)

end ApiKeys
