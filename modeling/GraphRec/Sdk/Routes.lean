import GraphRec.Api.Endpoints
import GraphRec.Lib.PathTemplate
import GraphRec.Lib.PercentEncoding
import Mathlib.Data.List.Pairwise

/-!
# The paths of the SDK's requests

Each request of the SDK goes to a route of its table, with its parameters quoted into the path.
`httpx` sends the path, the server reads it, and the API dispatches it to an endpoint.

* `unambiguous` — no request is for two endpoints;
* `request_arrives` — a request of the SDK arrives at the endpoint that it is for, with its
  parameters, just when none of them has a slash.
-/

namespace Sdk.Routes

open Api (Endpoint HttpMethod endpoints)
open PathTemplate PercentEncoding

/-! ## The table -/

/-- `Route`, with what a path is built of. -/
structure Route where
  key : String
  method : HttpMethod
  path : String
  deriving DecidableEq, Repr

/-- Health. -/
def healthRoutes : List Route :=
  [⟨"health.check", .get, "/healthz"⟩, ⟨"health.ready", .get, "/readyz"⟩,
   ⟨"meta.plans", .get, "/v1/plans"⟩, ⟨"meta.get", .get, "/v1/meta"⟩]

/-- Tenants and authentication. -/
def tenantRoutes : List Route :=
  [⟨"tenants.register", .post, "/v1/tenants"⟩, ⟨"auth.login", .post, "/v1/auth/login"⟩,
   ⟨"auth.setup_password", .post, "/v1/auth/setup-password"⟩,
   ⟨"auth.recover_password", .post, "/v1/auth/recover-password"⟩,
   ⟨"auth.refresh", .post, "/v1/auth/refresh"⟩, ⟨"auth.logout", .post, "/v1/auth/logout"⟩]

/-- API keys. -/
def apiKeyRoutes : List Route :=
  [⟨"api_keys.list", .get, "/v1/api-keys"⟩, ⟨"api_keys.get", .get, "/v1/api-keys/{key_id}"⟩,
   ⟨"api_keys.create", .post, "/v1/api-keys"⟩,
   ⟨"api_keys.rotate", .post, "/v1/api-keys/{key_id}/rotate"⟩,
   ⟨"api_keys.revoke", .delete, "/v1/api-keys/{key_id}"⟩]

/-- Tenant users. -/
def tenantUserRoutes : List Route :=
  [⟨"tenant_users.list", .get, "/v1/tenant/users"⟩,
   ⟨"tenant_users.invite", .post, "/v1/tenant/users"⟩,
   ⟨"tenant_users.get", .get, "/v1/tenant/users/{user_id}"⟩,
   ⟨"tenant_users.update", .patch, "/v1/tenant/users/{user_id}"⟩,
   ⟨"tenant_users.resend_invitation", .post, "/v1/tenant/users/{user_id}/invitation:resend"⟩,
   ⟨"audit.list", .get, "/v1/audit"⟩,
   ⟨"tenant_users.revoke_invitation", .delete, "/v1/tenant/users/{user_id}/invitation"⟩]

/-- Billing. -/
def billingRoutes : List Route :=
  [⟨"subscription.get", .get, "/v1/subscription"⟩,
   ⟨"subscription.list_requests", .get, "/v1/subscription/requests"⟩,
   ⟨"subscription.request_plan", .post, "/v1/subscription/requests"⟩,
   ⟨"subscription.cancel_request", .post, "/v1/subscription/requests/{request_id}:cancel"⟩,
   ⟨"usage.get", .get, "/v1/usage"⟩, ⟨"usage.trends", .get, "/v1/usage/trends"⟩]

/-- Catalog. -/
def catalogRoutes : List Route :=
  [⟨"products.bulk_upsert", .post, "/v1/products:bulk-upsert"⟩,
   ⟨"products.list_syncs", .get, "/v1/catalog-syncs"⟩,
   ⟨"products.get_sync", .get, "/v1/catalog-syncs/{sync_id}"⟩,
   ⟨"products.list", .get, "/v1/products"⟩, ⟨"products.get", .get, "/v1/products/{external_id}"⟩,
   ⟨"products.upsert", .put, "/v1/products/{external_id}"⟩,
   ⟨"products.update", .patch, "/v1/products/{external_id}"⟩,
   ⟨"products.disable", .post, "/v1/products/{external_id}:disable"⟩]

/-- Customer events. -/
def eventRoutes : List Route :=
  [⟨"events.create", .post, "/v1/events"⟩, ⟨"events.create_batch", .post, "/v1/events/batches"⟩,
   ⟨"events.list", .get, "/v1/events"⟩, ⟨"events.list_batches", .get, "/v1/events/batches"⟩,
   ⟨"events.get_batch", .get, "/v1/events/batches/{batch_id}"⟩]

/-- Datasets. -/
def datasetRoutes : List Route :=
  [⟨"datasets.upload", .post, "/v1/datasets/upload"⟩,
   ⟨"datasets.create_snapshot", .post, "/v1/datasets/snapshots"⟩,
   ⟨"datasets.list_snapshots", .get, "/v1/datasets/snapshots"⟩,
   ⟨"datasets.get_snapshot", .get, "/v1/datasets/snapshots/{snapshot_id}"⟩]

/-- Model registry and training. -/
def modelRoutes : List Route :=
  [⟨"model_versions.create", .post, "/v1/model-versions"⟩,
   ⟨"model_versions.list", .get, "/v1/model-versions"⟩,
   ⟨"model_versions.get", .get, "/v1/model-versions/{version_id}"⟩,
   ⟨"model_versions.activate", .post, "/v1/model-versions/{version_id}:activate"⟩,
   ⟨"model_versions.archive", .post, "/v1/model-versions/{version_id}:archive"⟩,
   ⟨"model_versions.rollback", .post, "/v1/model-versions/{version_id}:rollback"⟩,
   ⟨"training_jobs.create", .post, "/v1/training-jobs"⟩,
   ⟨"training_jobs.list", .get, "/v1/training-jobs"⟩,
   ⟨"training_jobs.get", .get, "/v1/training-jobs/{job_id}"⟩,
   ⟨"training_jobs.cancel", .post, "/v1/training-jobs/{job_id}:cancel"⟩,
   ⟨"retraining_policy.get", .get, "/v1/retraining-policy"⟩,
   ⟨"retraining_policy.update", .put, "/v1/retraining-policy"⟩]

/-- Serving status. -/
def servingRoutes : List Route :=
  [⟨"deployment.get", .get, "/v1/deployment"⟩,
   ⟨"deployment.scaling", .get, "/v1/deployment/scaling"⟩,
   ⟨"metrics.summary", .get, "/v1/metrics/summary"⟩]

/-- Recommendations and feedback. -/
def recommendationRoutes : List Route :=
  [⟨"recommendations.get", .post, "/v1/recommendations"⟩,
   ⟨"recommendations.for_session", .post, "/v1/recommendations/session"⟩,
   ⟨"feedback.impression", .post, "/v1/feedback/impressions"⟩,
   ⟨"feedback.click", .post, "/v1/feedback/clicks"⟩,
   ⟨"feedback.conversion", .post, "/v1/feedback/conversions"⟩,
   ⟨"recommendation_policy.get", .get, "/v1/recommendation-policy"⟩,
   ⟨"recommendation_policy.update", .put, "/v1/recommendation-policy"⟩]

/-- Platform administration. -/
def platformRoutes : List Route :=
  [⟨"account.status", .get, "/v1/tenant/status"⟩,
   ⟨"operators.login", .post, "/v1/platform/auth/login"⟩,
   ⟨"operators.me", .get, "/v1/platform/me"⟩, ⟨"operators.list", .get, "/v1/platform/operators"⟩,
   ⟨"operators.create", .post, "/v1/platform/operators"⟩,
   ⟨"operators.update", .patch, "/v1/platform/operators/{operator_id}"⟩,
   ⟨"platform.list_tenants", .get, "/v1/platform/tenants"⟩,
   ⟨"platform.get_tenant", .get, "/v1/platform/tenants/{tenant_id}"⟩,
   ⟨"platform.get_tenant_quota", .get, "/v1/platform/tenants/{tenant_id}/quotas"⟩,
   ⟨"platform.get_tenant_usage", .get, "/v1/platform/tenants/{tenant_id}/usage"⟩,
   ⟨"platform.assign_tenant_plan", .post, "/v1/platform/tenants/{tenant_id}/plan"⟩,
   ⟨"platform.set_tenant_status", .post, "/v1/platform/tenants/{tenant_id}/status"⟩,
   ⟨"platform.list_plans", .get, "/v1/platform/plans"⟩,
   ⟨"platform.update_plan", .put, "/v1/platform/plans/{plan_id}"⟩,
   ⟨"platform.list_plan_requests", .get, "/v1/platform/plan-requests"⟩,
   ⟨"platform.approve_plan_request", .post, "/v1/platform/plan-requests/{request_id}:approve"⟩,
   ⟨"platform.reject_plan_request", .post, "/v1/platform/plan-requests/{request_id}:reject"⟩,
   ⟨"platform.issue_recovery", .post, "/v1/platform/tenants/{tenant_id}/recovery"⟩,
   ⟨"platform.set_quota_override", .post, "/v1/platform/tenants/{tenant_id}/quotas"⟩,
   ⟨"platform.list_failures", .get, "/v1/platform/failures"⟩,
   ⟨"platform.list_audit_logs", .get, "/v1/platform/audit"⟩,
   ⟨"platform.list_usage", .get, "/v1/platform/usage"⟩,
   ⟨"platform.status", .get, "/v1/platform/status"⟩]

/-- `ROUTES`. -/
def routes : List Route :=
  healthRoutes ++ tenantRoutes ++ apiKeyRoutes ++ tenantUserRoutes ++ billingRoutes ++
    catalogRoutes ++ eventRoutes ++ datasetRoutes ++ modelRoutes ++ servingRoutes ++
    recommendationRoutes ++ platformRoutes

namespace Route

/-- The path, parsed. -/
def tokens (r : Route) : List Token := PathTemplate.tokens r.path.toList

/-- `params`. -/
def params (r : Route) : List (List Char) := PathTemplate.params r.tokens

/-- `build_path`; the values are texts. -/
def buildPath (r : Route) (values : List Char → Option (List Char)) : Except String (List Char) :=
  let missing := r.params.filter fun name => (values name).isNone
  if missing ≠ [] then
    .error ("Missing path parameter(s) for " ++ r.key ++ ": " ++
      ", ".intercalate (missing.map String.ofList))
  else
    match r.params.find? fun name => values name == some [] with
    | some name => .error ("Path parameter '" ++ String.ofList name ++ "' must not be empty")
    | none => .ok (fill (fun name => quote ((values name).getD [])) r.tokens)

end Route

/-! ## The way to the endpoint -/

/-- The path of an endpoint, parsed. -/
def endpointTokens (e : Endpoint) : List Token := PathTemplate.tokens e.path.toList

/-- A segment that `httpx` resolves. -/
def IsDots (segment : List Char) : Prop := segment = ['.'] ∨ segment = ['.', '.']

/-- `httpx`, the server and the router of the API, as their documentation has them. -/
structure Network where
  /-- The path that is sent. -/
  send : List Char → List Char
  /-- The path that the server reads. -/
  read : List Char → List Char
  /-- The endpoint that handles a request, and its path parameters. -/
  dispatch : HttpMethod → List Char → Option (Endpoint × List (List Char))
  send_eq : ∀ target, (∀ segment ∈ target.splitOn '/', ¬ IsDots segment) → send target = target
  read_eq : ∀ target path, unquote target = utf8 path → read target = path
  /-- The first endpoint with the method whose path matches. -/
  dispatch_eq : ∀ before e after method path values, endpoints = before ++ e :: after →
    e.method = method → Matches (endpointTokens e) path values →
    (∀ values', Matches (endpointTokens e) path values' → values' = values) →
    (∀ e' ∈ before, e'.method = method → ∀ values', ¬ Matches (endpointTokens e') path values') →
    dispatch method path = some (e, values)
  dispatch_sound : ∀ method path e values, dispatch method path = some (e, values) →
    e ∈ endpoints ∧ e.method = method ∧ Matches (endpointTokens e) path values

/-! ## Facts about the tables -/

/-- A segment that is no dots, whatever its parameters are that are none. -/
def solid (names : List (List Char)) : List Token → Bool
  | [] => true
  | [.param name] => decide (name ∈ names)
  | segment => segment.any fun t =>
      match t with
      | .char c => c != '.'
      | .param _ => false

/-- What is checked of the tables: paths of two endpoints with one method are apart, and the API has
every route. -/
theorem tables :
    (endpoints.Pairwise fun e e' =>
      e.method = e'.method → apart (endpointTokens e) (endpointTokens e') = true) ∧
    (∀ e ∈ endpoints, (params (endpointTokens e)).length ≤ 1 ∧
      Token.char '%' ∉ endpointTokens e ∧
      ∀ segment ∈ (endpointTokens e).splitOn (.char '/'),
        solid (params (endpointTokens e)) segment = true) ∧
    ∀ r ∈ routes, ∃ e ∈ endpoints, e.method = r.method ∧ e.path = r.path := by
  decide +kernel

/-- The endpoint of a route. -/
theorem endpoint_of_route {r : Route} (hr : r ∈ routes) : ∃ e ∈ endpoints, e.method = r.method ∧
    e.path = r.path ∧ endpointTokens e = r.tokens := by
  obtain ⟨e, he, hmethod, hpath⟩ := tables.2.2 r hr
  exact ⟨e, he, hmethod, hpath, by rw [endpointTokens, hpath, Route.tokens]⟩

/-! ## Requests -/

section Requests

variable {f : List Char → List Char} {ts : List Token} {r : Route}
  {values : List Char → Option (List Char)} {target : List Char}

/-- A character that stays in the filled template. -/
theorem mem_fill {c : Char} (h : Token.char c ∈ ts) : c ∈ fill f ts :=
  List.mem_flatMap.mpr ⟨.char c, h, List.mem_singleton_self c⟩

theorem not_dots_of_mem {c : Char} {segment : List Char} (hc : c ≠ '.') (hmem : c ∈ segment) :
    ¬ IsDots segment := by
  intro hdots
  rcases hdots with rfl | rfl
  · exact hc (List.mem_singleton.mp hmem)
  · simp [hc] at hmem

/-- A solid segment, filled. -/
theorem not_dots_of_solid {names : List (List Char)} (hf : ∀ name ∈ names, ¬ IsDots (f name))
    (h : solid names ts = true) : ¬ IsDots (fill f ts) := by
  unfold solid at h
  split at h
  · intro hdots
    rcases hdots with hone | htwo
    · cases hone
    · cases htwo
  · next name =>
    have hname := hf name (of_decide_eq_true h)
    rwa [fill_param, fill_nil, List.append_nil]
  · obtain ⟨t, ht, hplain⟩ := List.any_eq_true.mp h
    split at hplain
    · next c => exact not_dots_of_mem (bne_iff_ne.mp hplain) (mem_fill ht)
    · cases hplain

/-- A quoted text has no slash. -/
theorem slash_not_mem_quote (cs : List Char) : '/' ∉ quote cs := by
  intro hmem
  have hplain := quote_plain hmem
  revert hplain
  decide

/-- Only dots are quoted as dots. -/
theorem isDots_quote {cs : List Char} (h : IsDots (quote cs)) : IsDots cs := by
  rcases h with hone | htwo
  · have hquote : quote ['.'] = ['.'] := by decide
    exact .inl (quote_injective (hone.trans hquote.symm))
  · have hquote : quote ['.', '.'] = ['.', '.'] := by decide
    exact .inr (quote_injective (htwo.trans hquote.symm))

/-- What the server reads of a template that was filled with quoted texts. -/
theorem unquote_fill (h : Token.char '%' ∉ ts) :
    unquote (fill (fun name => quote (f name)) ts) = utf8 (fill f ts) := by
  induction ts with
  | nil => rfl
  | cons t ts ih =>
    rw [List.mem_cons, not_or] at h
    cases t with
    | char c =>
      have hc : c ≠ '%' := fun heq => h.1 (by rw [heq])
      rw [fill_char, fill_char, unquote_cons hc, ih h.2]
      rfl
    | param name =>
      rw [fill_param, fill_param, unquote_quote, ih h.2]
      exact List.flatMap_append.symm

/-- A path that was built. -/
theorem buildPath_eq_ok (h : r.buildPath values = .ok target) :
    target = fill (fun name => quote ((values name).getD [])) r.tokens ∧
      ∀ name ∈ r.params, ∃ v, values name = some v ∧ v ≠ [] := by
  rw [Route.buildPath] at h
  split at h
  · cases h
  · next hmissing =>
    split at h
    · cases h
    · next hempty =>
      refine ⟨(Except.ok.inj h).symm, fun name hname => ?_⟩
      rw [not_not, List.filter_eq_nil_iff] at hmissing
      have hsome := hmissing name hname
      rw [Bool.not_eq_true, Option.isNone_eq_false_iff, Option.isSome_iff_exists] at hsome
      obtain ⟨v, hv⟩ := hsome
      refine ⟨v, hv, ?_⟩
      intro hnil
      have hfound := List.find?_eq_none.mp hempty name hname
      rw [hv, hnil] at hfound
      exact hfound rfl

/-- No path matches both. -/
def Separate (e e' : Endpoint) : Prop :=
  e.method = e'.method → ∀ path vs vs', Matches (endpointTokens e) path vs →
    ¬ Matches (endpointTokens e') path vs'

instance : Std.Symm Separate where
  symm _ _ h hmethod path vs vs' hm hm' := h hmethod.symm path vs' vs hm' hm

theorem endpoints_separate : endpoints.Pairwise Separate :=
  tables.1.imp fun hapart hmethod _ _ _ h h' => apart_sound (hapart hmethod) h h'

/-- Endpoints of one method whose paths match are one endpoint. -/
theorem unambiguous {e e' : Endpoint} (he : e ∈ endpoints) (he' : e' ∈ endpoints)
    (hmethod : e.method = e'.method) {path : List Char} {vs vs' : List (List Char)}
    (h : Matches (endpointTokens e) path vs) (h' : Matches (endpointTokens e') path vs') :
    e = e' := by
  by_contra hne
  exact endpoints_separate.forall he he' hne hmethod path vs vs' h h'

/-- **Requests arrive.**  A request that the SDK builds arrives at the endpoint of its route, with
the parameters it was given, just when none of them has a slash; none of them is one dot or two. -/
theorem request_arrives (net : Network) (hr : r ∈ routes)
    (hbuild : r.buildPath values = .ok target)
    (hdots : ∀ name ∈ r.params, ∀ v, values name = some v → ¬ IsDots v) :
    (∃ e, e.method = r.method ∧ e.path = r.path ∧
      net.dispatch r.method (net.read (net.send target)) =
        some (e, r.params.map fun name => (values name).getD [])) ↔
    ∀ name ∈ r.params, ∀ v, values name = some v → '/' ∉ v := by
  obtain ⟨htarget, hgiven⟩ := buildPath_eq_ok hbuild
  obtain ⟨e, he, hmethod, hpath, htokens⟩ := endpoint_of_route hr
  obtain ⟨hone, hpercent, hsolid⟩ := tables.2.1 e he
  rw [htokens] at hpercent hsolid
  have hsend : net.send target = target := by
    refine net.send_eq target fun segment hsegment => ?_
    rw [htarget, splitOn_fill fun name => slash_not_mem_quote _] at hsegment
    obtain ⟨ts, hts, rfl⟩ := List.mem_map.mp hsegment
    refine not_dots_of_solid (fun name hname hd => ?_) (hsolid ts hts)
    obtain ⟨v, hv, -⟩ := hgiven name hname
    rw [hv, Option.getD_some] at hd
    exact hdots name hname v hv (isDots_quote hd)
  have hread : net.read target = fill (fun name => (values name).getD []) r.tokens := by
    refine net.read_eq target _ ?_
    rw [htarget, unquote_fill hpercent]
  rw [hsend, hread]
  constructor
  · intro ⟨_, _, _, hdispatch⟩ name hname v hv
    obtain ⟨-, -, hmatches⟩ := net.dispatch_sound _ _ _ _ hdispatch
    refine hmatches.no_slash (List.mem_map.mpr ⟨name, hname, ?_⟩)
    rw [hv, Option.getD_some]
  · intro hslash
    have hmatches : Matches (endpointTokens e)
        (fill (fun name => (values name).getD []) r.tokens)
        (r.params.map fun name => (values name).getD []) := by
      rw [htokens]
      refine matches_fill fun name hname => ?_
      obtain ⟨v, hv, hne⟩ := hgiven name hname
      rw [hv, Option.getD_some]
      exact ⟨hne, hslash name hname v hv⟩
    refine ⟨e, hmethod, hpath, ?_⟩
    obtain ⟨before, after, hsplit⟩ := List.append_of_mem he
    refine net.dispatch_eq before e after _ _ _ hsplit hmethod hmatches ?_ ?_
    · exact fun vs' h' => matches_unique hone h' hmatches
    · intro e' he' hmethod' vs' h'
      have hseparate := endpoints_separate
      rw [hsplit] at hseparate
      exact (List.pairwise_append.mp hseparate).2.2 e' he' e List.mem_cons_self
        (hmethod'.trans hmethod.symm) _ _ _ h' hmatches

end Requests

/-! ## A network -/

/-- `httpx` leaves out a segment of one dot, and of two dots with the segment before it. -/
def dropDots (output : List (List Char)) (segment : List Char) : List (List Char) :=
  if segment = ['.'] then output
  else if segment = ['.', '.'] then
    if output = [[]] then output else output.dropLast
  else output ++ [segment]

theorem foldl_dropDots {segments : List (List Char)} (h : ∀ segment ∈ segments, ¬ IsDots segment)
    (output : List (List Char)) : segments.foldl dropDots output = output ++ segments := by
  induction segments generalizing output with
  | nil => exact (List.append_nil _).symm
  | cons segment segments ih =>
    have hfirst := h segment List.mem_cons_self
    rw [IsDots, not_or] at hfirst
    rw [List.foldl_cons, dropDots, if_neg hfirst.1, if_neg hfirst.2,
      ih fun segment' hmem => h segment' (List.mem_cons_of_mem _ hmem), List.append_assoc]
    rfl

/-- Does an endpoint handle the request? -/
def handles (method : HttpMethod) (path : List Char) (e : Endpoint) :
    Option (Endpoint × List (List Char)) :=
  if e.method = method then (capture (endpointTokens e) path).map (e, ·) else none

theorem handles_eq_some {method : HttpMethod} {path : List Char} {e : Endpoint}
    {found : Endpoint × List (List Char)} (h : handles method path e = some found) :
    found.1 = e ∧ e.method = method ∧ Matches (endpointTokens e) path found.2 := by
  rw [handles] at h
  split at h
  · next hmethod =>
    obtain ⟨values, hvalues, rfl⟩ := Option.map_eq_some_iff.mp h
    exact ⟨rfl, hmethod, capture_sound hvalues⟩
  · cases h

/-- A network that does what the documentation says. -/
def standard : Network where
  send target := ['/'].intercalate ((target.splitOn '/').foldl dropDots [])
  read target := ((unquote target).toByteArray.utf8Decode?.map Array.toList).getD []
  dispatch method path := endpoints.findSome? (handles method path)
  send_eq target h := by
    rw [foldl_dropDots h, List.nil_append, List.intercalate_splitOn]
  read_eq target path h := by
    have hdecode : (utf8 path).toByteArray.utf8Decode? = some path.toArray :=
      List.utf8Decode?_utf8Encode
    rw [h, hdecode]
    rfl
  dispatch_eq before e after method path values hsplit hmethod hmatches hunique hbefore := by
    rw [hsplit, List.findSome?_append, List.findSome?_eq_none_iff.mpr, Option.none_or,
      List.findSome?_cons]
    · obtain ⟨values', hcapture⟩ := Option.isSome_iff_exists.mp (capture_complete hmatches)
      rw [handles, if_pos hmethod, hcapture, Option.map_some,
        hunique values' (capture_sound hcapture)]
    · intro e' he'
      cases hhandles : handles method path e' with
      | none => rfl
      | some found =>
        obtain ⟨-, hmethod', hmatches'⟩ := handles_eq_some hhandles
        exact absurd hmatches' (hbefore e' he' hmethod' found.2)
  dispatch_sound method path e values h := by
    obtain ⟨e', he', hhandles⟩ := List.exists_of_findSome?_eq_some h
    obtain ⟨rfl, hmethod, hmatches⟩ := handles_eq_some hhandles
    exact ⟨he', hmethod, hmatches⟩

/-- `client.products.disable("50% café")`. -/
def disableCafe (name : List Char) : Option (List Char) :=
  if name = "external_id".toList then some "50% café".toList else none

/-- The product is disabled, and no other endpoint is asked. -/
theorem request_arrives_disableCafe : ∃ e, e.method = .post ∧
    e.path = "/v1/products/{external_id}:disable" ∧
    standard.dispatch .post
      (standard.read (standard.send "/v1/products/50%25%20caf%C3%A9:disable".toList)) =
      some (e, ["50% café".toList]) := by
  have hbuild :
      (⟨"products.disable", .post, "/v1/products/{external_id}:disable"⟩ : Route).buildPath
        disableCafe = .ok "/v1/products/50%25%20caf%C3%A9:disable".toList := by
    decide +kernel
  have hvalue : ∀ name v, disableCafe name = some v → v = "50% café".toList := by
    intro name v h
    rw [disableCafe] at h
    split at h
    · exact (Option.some.inj h).symm
    · cases h
  refine (request_arrives standard (by decide +kernel) hbuild ?_).mpr ?_
  · intro name _ v hv
    rw [hvalue name v hv]
    exact not_dots_of_mem (c := '5') (by decide) (by decide)
  · intro name _ v hv
    rw [hvalue name v hv]
    decide

end Sdk.Routes
