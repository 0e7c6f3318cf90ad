import GraphRec.Api.Error
import GraphRec.Lib.Table
import GraphRec.Lib.Transactions

/-!
# Platform operators

The accounts of the platform's operators, how a request of one is authenticated, and the two
routes that change them.

* `bootstrap`, `operatorPrincipal` — what the presented credential is;
* `platformAdministrator` — authenticate, then check the roles of the route;
* `createOperator`, `updateOperator` — the routes, statement by statement.

A request authenticates before it writes, in statements of their own, so what it was let in
on may have changed when it commits.  Passwords are taken as hashed.
-/

namespace Operators

open Api Transactions

abbrev OperatorId := ℕ

/-- `ROLES`. -/
inductive Role
  | platform | planManagement | monitoring | audit | operatorAdmin
  deriving DecidableEq, Repr

/-- All of `ROLES`, as sorted by name. -/
def Role.sorted : List Role := [.audit, .monitoring, .operatorAdmin, .planManagement, .platform]

/-- `sorted(set(roles))`. -/
def sortedRoles (roles : List Role) : List Role := Role.sorted.filter fun role => role ∈ roles

/-- `platform_operators.status`. -/
inductive Status
  | active | disabled
  deriving DecidableEq, Repr

/-- A row of `platform_operators`. -/
structure Operator where
  /-- In lower case; the column ignores it. -/
  email : String
  displayName : String
  passwordHash : String
  roles : List Role
  status : Status
  authEpoch : ℕ
  createdBy : Option OperatorId
  deriving DecidableEq, Repr

/-- A security event of these routes. -/
inductive SecurityEvent
  | operatorCreated (id : OperatorId) (roles : List Role) (createdBy : Option OperatorId)
  | operatorUpdated (id : OperatorId) (changed : List String) (changedBy : Option OperatorId)
  deriving DecidableEq, Repr

structure Store where
  operators : Table OperatorId Operator
  securityEvents : List SecurityEvent

/-- `is_production` and `platform_admin_token`. -/
structure Settings where
  isProduction : Bool
  platformAdminToken : Option String

/-- The routes, with their entries of `ROUTE_ROLES`. -/
inductive Route
  | createOperator | updateOperator
  deriving DecidableEq, Repr

def Route.roles : Route → List Role
  | .createOperator | .updateOperator => [.operatorAdmin]

/-- `OperatorPrincipal`; the bootstrap token has no identity. -/
structure Principal where
  operatorId : Option OperatorId
  email : Option String
  roles : List Role
  deriving DecidableEq, Repr

/-- The claims of an operator's token. -/
structure OperatorClaims where
  sub : OperatorId
  av : ℕ
  deriving DecidableEq, Repr

/-- What follows `Bearer` in the header, and what `jwt.decode` makes of it. -/
structure Credential where
  presented : String
  decoded : Except ApiError OperatorClaims

def failed : ApiError :=
  { statusCode := 401, code := "authentication_failed", message := "Authentication failed" }

def tokenExpired : ApiError :=
  { statusCode := 401, code := "token_expired", message := "Access token expired" }

def forbidden : ApiError :=
  { statusCode := 403, code := "insufficient_scope"
    message := "Your operator role does not permit this action" }

/-! ## Authentication -/

/-- `active_operator_exists`. -/
def activeOperatorExists (s : Store) : Bool :=
  s.operators.rows.any fun row => decide (row.2.status = .active)

/-- `_bootstrap`: none when the credential is not the bootstrap token. -/
def bootstrap (settings : Settings) (route : Route) (presented : String) (s : Store) :
    Except ApiError (Option Principal) :=
  if settings.platformAdminToken ≠ some presented then .ok none
  else if settings.isProduction = false then .ok (some ⟨none, none, Role.sorted⟩)
  else if route = .createOperator ∧ activeOperatorExists s = false then
    .ok (some ⟨none, none, [.operatorAdmin]⟩)
  else .error failed

/-- `_operator`: the roles are those of the account now. -/
def operatorPrincipal (claims : OperatorClaims) (s : Store) : Except ApiError Principal :=
  match s.operators.get? claims.sub with
  | none => .error failed
  | some row =>
      if row.status ≠ .active ∨ row.authEpoch ≠ claims.av then .error failed
      else .ok ⟨some claims.sub, some row.email, row.roles⟩

/-- What a route answers. -/
inductive Answer
  | operator (id : OperatorId) (row : Operator)
  | error (e : ApiError)
  deriving DecidableEq, Repr

/-- The transactions of these routes; a principal that was let in is noted. -/
abbrev Transaction := Prog OperatorId Store Principal Unit Answer

/-- `platform_administrator`, in a request that goes on with `next`. -/
def platformAdministrator (settings : Settings) (route : Route) (credential : Credential)
    (next : Principal → Transaction) : Transaction :=
  let authorized := fun principal : Principal =>
    if principal.roles.any fun role => role ∈ route.roles then .note principal (next principal)
    else .done (.error forbidden)
  .look fun s =>
    match bootstrap settings route credential.presented s with
    | .error e => .done (.error e)
    | .ok (some principal) => authorized principal
    | .ok none =>
        match credential.decoded with
        | .error e => .done (.error e)
        | .ok claims =>
            .look fun s =>
              match operatorPrincipal claims s with
              | .error e => .done (.error e)
              | .ok principal => authorized principal

/-! ## The routes -/

/-- `OperatorCreate`. -/
structure OperatorCreate where
  email : String
  displayName : String
  passwordHash : String
  roles : List Role
  deriving DecidableEq, Repr

/-- The row that is inserted. -/
def OperatorCreate.row (payload : OperatorCreate) (principal : Principal) : Operator where
  email := payload.email
  displayName := payload.displayName
  passwordHash := payload.passwordHash
  roles := sortedRoles payload.roles
  status := .active
  authEpoch := 0
  createdBy := principal.operatorId

def duplicateResource : ApiError :=
  { statusCode := 409, code := "duplicate_resource"
    message := "An operator with this email already exists."
    details := .fields [⟨"email", "Already in use"⟩] }

/-- The insert and the security event; an address is used once. -/
def writeCreate (id : OperatorId) (row : Operator) (s : Store) : Except Unit Store :=
  if (s.operators.get? id).isSome ∨ s.operators.rows.any (fun old => old.2.email = row.email) then
    .error ()
  else .ok {
    operators := s.operators.insert id row
    securityEvents := s.securityEvents ++ [.operatorCreated id row.roles row.createdBy] }

/-- `create_operator`, with the identifier it draws. -/
def createOperator (settings : Settings) (credential : Credential) (id : OperatorId)
    (payload : OperatorCreate) : Transaction :=
  platformAdministrator settings .createOperator credential fun principal =>
    let row := payload.row principal
    .attempt (writeCreate id row) (.operator id row) fun _ => .done (.error duplicateResource)

/-- `OperatorUpdate`. -/
structure OperatorUpdate where
  displayName : Option String
  roles : Option (List Role)
  status : Option Status
  passwordHash : Option String
  deriving DecidableEq, Repr

/-- The fields that are given, in order. -/
def OperatorUpdate.changes (payload : OperatorUpdate) : List String :=
  (if payload.displayName.isSome then ["display_name"] else [])
    ++ (if payload.roles.isSome then ["roles"] else [])
    ++ (if payload.status.isSome then ["status"] else [])
    ++ (if payload.passwordHash.isSome then ["password"] else [])

/-- Does the change end the operator's sessions? -/
def OperatorUpdate.endsSessions (payload : OperatorUpdate) : Bool :=
  payload.roles.isSome || payload.status.isSome || payload.passwordHash.isSome

/-- The row after `UPDATE platform_operators SET …`. -/
def OperatorUpdate.apply (payload : OperatorUpdate) (row : Operator) : Operator :=
  { row with
    displayName := payload.displayName.getD row.displayName
    roles := (payload.roles.map sortedRoles).getD row.roles
    status := payload.status.getD row.status
    passwordHash := payload.passwordHash.getD row.passwordHash
    authEpoch := if payload.endsSessions then row.authEpoch + 1 else row.authEpoch }

def validationFailed : ApiError :=
  { statusCode := 422, code := "validation_failed", message := "Provide at least one change." }

def ownAccess : ApiError :=
  { statusCode := 409, code := "conflict"
    message := "You cannot disable yourself or remove your own operator_admin role." }

def operatorNotFound : ApiError :=
  { statusCode := 404, code := "resource_not_found", message := "Operator not found." }

/-- Would an operator lose its own access to this route? -/
def OperatorUpdate.losesAccess (payload : OperatorUpdate) : Bool :=
  decide (payload.status = some .disabled) ||
    payload.roles.any fun roles => decide (Role.operatorAdmin ∉ roles)

/-- The update and the security event. -/
def writeUpdate (id : OperatorId) (payload : OperatorUpdate) (changedBy : Option OperatorId)
    (s : Store) : Store where
  operators := s.operators.update id payload.apply
  securityEvents := s.securityEvents ++ [.operatorUpdated id payload.changes changedBy]

/-- `update_operator`. -/
def updateOperator (settings : Settings) (credential : Credential) (id : OperatorId)
    (payload : OperatorUpdate) : Transaction :=
  platformAdministrator settings .updateOperator credential fun principal =>
    if payload.changes = [] then .done (.error validationFailed)
    else if principal.operatorId = some id ∧ payload.losesAccess = true then
      .done (.error ownAccess)
    else
      .lock id <| .look fun s =>
        match s.operators.get? id with
        | none => .rollback (.done (.error operatorNotFound))
        | some row =>
            .commit (fun s => .ok (writeUpdate id payload principal.operatorId s))
              (.operator id (payload.apply row))

/-- The requests. -/
inductive Op
  | create (credential : Credential) (id : OperatorId) (payload : OperatorCreate)
  | update (credential : Credential) (id : OperatorId) (payload : OperatorUpdate)

/-- The transaction of a request. -/
def program (settings : Settings) : Op → Transaction
  | .create credential id payload => createOperator settings credential id payload
  | .update credential id payload => updateOperator settings credential id payload

end Operators
