import Mathlib.Data.List.Basic

/-!
# The endpoints of the API

The routers of the API in the order in which it includes them, with their methods and paths.
-/

namespace Api

/-- HTTP methods. -/
inductive HttpMethod
  | get
  | post
  | put
  | patch
  | delete
  deriving DecidableEq, Repr

/-- An endpoint, with its path as it is declared. -/
structure Endpoint where
  method : HttpMethod
  path : String
  deriving DecidableEq, Repr

/-- `routes/meta.py`. -/
def metaEndpoints : List Endpoint :=
  [⟨.get, "/v1/meta"⟩, ⟨.get, "/v1/plans"⟩]

/-- `routes/tenants.py`. -/
def tenantsEndpoints : List Endpoint :=
  [⟨.post, "/v1/tenants"⟩]

/-- `routes/account.py`. -/
def accountEndpoints : List Endpoint :=
  [⟨.get, "/v1/tenant/status"⟩]

/-- `routes/audit.py`. -/
def auditEndpoints : List Endpoint :=
  [⟨.get, "/v1/audit"⟩]

/-- `routes/auth.py`. -/
def authEndpoints : List Endpoint :=
  [⟨.post, "/v1/auth/login"⟩, ⟨.post, "/v1/auth/setup-password"⟩,
   ⟨.post, "/v1/auth/recover-password"⟩, ⟨.post, "/v1/auth/refresh"⟩, ⟨.post, "/v1/auth/logout"⟩]

/-- `routes/api_keys.py`. -/
def apiKeysEndpoints : List Endpoint :=
  [⟨.get, "/v1/api-keys"⟩, ⟨.get, "/v1/api-keys/{key_id}"⟩, ⟨.post, "/v1/api-keys"⟩,
   ⟨.post, "/v1/api-keys/{key_id}/rotate"⟩, ⟨.delete, "/v1/api-keys/{key_id}"⟩]

/-- `routes/tenant_users.py`. -/
def tenantUsersEndpoints : List Endpoint :=
  [⟨.get, "/v1/tenant/users"⟩, ⟨.post, "/v1/tenant/users"⟩,
   ⟨.delete, "/v1/tenant/users/{user_id}/invitation"⟩, ⟨.get, "/v1/tenant/users/{user_id}"⟩,
   ⟨.patch, "/v1/tenant/users/{user_id}"⟩,
   ⟨.post, "/v1/tenant/users/{user_id}/invitation:resend"⟩]

/-- `routes/subscriptions.py`. -/
def subscriptionsEndpoints : List Endpoint :=
  [⟨.get, "/v1/subscription"⟩, ⟨.get, "/v1/subscription/requests"⟩,
   ⟨.post, "/v1/subscription/requests"⟩, ⟨.post, "/v1/subscription/requests/{request_id}:cancel"⟩]

/-- `routes/usage.py`. -/
def usageEndpoints : List Endpoint :=
  [⟨.get, "/v1/usage"⟩, ⟨.get, "/v1/usage/trends"⟩]

/-- `routes/products.py`. -/
def productsEndpoints : List Endpoint :=
  [⟨.post, "/v1/products:bulk-upsert"⟩, ⟨.get, "/v1/catalog-syncs"⟩,
   ⟨.get, "/v1/catalog-syncs/{sync_id}"⟩, ⟨.get, "/v1/products"⟩,
   ⟨.get, "/v1/products/{external_id}"⟩, ⟨.put, "/v1/products/{external_id}"⟩,
   ⟨.patch, "/v1/products/{external_id}"⟩, ⟨.post, "/v1/products/{external_id}:disable"⟩]

/-- `routes/events.py`. -/
def eventsEndpoints : List Endpoint :=
  [⟨.post, "/v1/events"⟩, ⟨.get, "/v1/events"⟩, ⟨.post, "/v1/events/batches"⟩,
   ⟨.get, "/v1/events/batches"⟩, ⟨.get, "/v1/events/batches/{batch_id}"⟩]

/-- `routes/datasets.py`. -/
def datasetsEndpoints : List Endpoint :=
  [⟨.post, "/v1/datasets/upload"⟩, ⟨.post, "/v1/datasets/snapshots"⟩,
   ⟨.get, "/v1/datasets/snapshots"⟩, ⟨.get, "/v1/datasets/snapshots/{snapshot_id}"⟩]

/-- `routes/model_versions.py`. -/
def modelVersionsEndpoints : List Endpoint :=
  [⟨.post, "/v1/model-versions"⟩, ⟨.get, "/v1/model-versions"⟩,
   ⟨.get, "/v1/model-versions/{version_id}"⟩, ⟨.post, "/v1/model-versions/{version_id}:activate"⟩,
   ⟨.post, "/v1/model-versions/{version_id}:rollback"⟩, ⟨.post, "/v1/models/{model_id}:rollback"⟩,
   ⟨.post, "/v1/model-versions/{version_id}:archive"⟩, ⟨.post, "/v1/training-jobs"⟩,
   ⟨.get, "/v1/training-jobs"⟩, ⟨.get, "/v1/training-jobs/{job_id}"⟩,
   ⟨.post, "/v1/training-jobs/{job_id}:cancel"⟩]

/-- `routes/deployment.py`. -/
def deploymentEndpoints : List Endpoint :=
  [⟨.get, "/v1/deployment"⟩, ⟨.get, "/v1/metrics/summary"⟩, ⟨.get, "/v1/deployment/scaling"⟩]

/-- `routes/recommendations.py`. -/
def recommendationsEndpoints : List Endpoint :=
  [⟨.post, "/v1/recommendations"⟩, ⟨.post, "/v1/recommendations/session"⟩,
   ⟨.post, "/v1/feedback/impressions"⟩, ⟨.post, "/v1/feedback/clicks"⟩,
   ⟨.post, "/v1/feedback/conversions"⟩]

/-- `routes/retraining.py`. -/
def retrainingEndpoints : List Endpoint :=
  [⟨.get, "/v1/retraining-policy"⟩, ⟨.put, "/v1/retraining-policy"⟩]

/-- `routes/recommendation_policy.py`. -/
def recommendationPolicyEndpoints : List Endpoint :=
  [⟨.get, "/v1/recommendation-policy"⟩, ⟨.put, "/v1/recommendation-policy"⟩]

/-- `routes/platform.py`. -/
def platformEndpoints : List Endpoint :=
  [⟨.get, "/v1/platform/tenants/{tenant_id}/quotas"⟩,
   ⟨.get, "/v1/platform/tenants/{tenant_id}/usage"⟩,
   ⟨.post, "/v1/platform/tenants/{tenant_id}/recovery"⟩,
   ⟨.post, "/v1/platform/tenants/{tenant_id}/plan"⟩, ⟨.get, "/v1/platform/tenants"⟩,
   ⟨.get, "/v1/platform/tenants/{tenant_id}"⟩, ⟨.post, "/v1/platform/tenants/{tenant_id}/status"⟩,
   ⟨.get, "/v1/platform/plans"⟩, ⟨.put, "/v1/platform/plans/{plan_id}"⟩,
   ⟨.post, "/v1/platform/tenants/{tenant_id}/quotas"⟩, ⟨.get, "/v1/platform/failures"⟩,
   ⟨.get, "/v1/platform/audit"⟩, ⟨.get, "/v1/platform/status"⟩, ⟨.get, "/v1/platform/usage"⟩,
   ⟨.get, "/v1/platform/plan-requests"⟩,
   ⟨.post, "/v1/platform/plan-requests/{request_id}:approve"⟩,
   ⟨.post, "/v1/platform/plan-requests/{request_id}:reject"⟩]

/-- `routes/operator_auth.py`. -/
def operatorAuthEndpoints : List Endpoint :=
  [⟨.post, "/v1/platform/auth/login"⟩]

/-- `routes/operators.py`. -/
def operatorsEndpoints : List Endpoint :=
  [⟨.get, "/v1/platform/me"⟩, ⟨.get, "/v1/platform/operators"⟩, ⟨.post, "/v1/platform/operators"⟩,
   ⟨.patch, "/v1/platform/operators/{operator_id}"⟩]

/-- The endpoints of the application itself. -/
def mainEndpoints : List Endpoint :=
  [⟨.get, "/metrics"⟩, ⟨.get, "/healthz"⟩, ⟨.get, "/readyz"⟩]

/-- All of them, in order. -/
def endpoints : List Endpoint :=
  metaEndpoints ++ tenantsEndpoints ++ accountEndpoints ++ auditEndpoints ++ authEndpoints ++
    apiKeysEndpoints ++ tenantUsersEndpoints ++ subscriptionsEndpoints ++ usageEndpoints ++
    productsEndpoints ++ eventsEndpoints ++ datasetsEndpoints ++ modelVersionsEndpoints ++
    deploymentEndpoints ++ recommendationsEndpoints ++ retrainingEndpoints ++
    recommendationPolicyEndpoints ++ platformEndpoints ++ operatorAuthEndpoints ++
    operatorsEndpoints ++ mainEndpoints

end Api
