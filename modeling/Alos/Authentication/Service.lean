import Mathlib.Data.Finset.Sort
import Alos.Authentication.Directory
import Alos.Containers
import Alos.Errors

/-! # The authentication service

`AuthService` of `alos.authentication.service`.

* `openBoundary` is the part of `register` whose conflicts are swallowed;
* `enlist` is the part after it, whose every exit leaves behind what was
  inserted so far.
-/

namespace Alos.Authentication

open Py

/-- What the service uses of Python's library: `repr`, `str.lower`,
`hashlib.pbkdf2_hmac(…).hex()` of a password and a salt, the hexadecimal
SHA-256 digest, and the order in which a loop takes the elements of a
`frozenset`. Texts are Unicode text without lone surrogates, of which
`.encode("utf-8")` would raise. -/
structure Library where
  repr : Json → String
  lower : String → String
  pbkdf2 : String → String → String
  sha256 : String → String
  elements : Finset String → List String
  mem_elements : ∀ {set : Finset String} {x : String}, x ∈ elements set ↔ x ∈ set

/-- `AccountRecord`: what an account is logged in with, and its place. -/
structure AccountRecord where
  email : String
  passwordHash : String
  actorId : String
  tenantId : String
  organizationId : String
  workspaceId : String
deriving DecidableEq

/-- The service with its directory, its grants and its accounts. -/
structure AuthService where
  directory : IdentityDirectory
  permissions : Grants
  accounts : Table AccountRecord.email

/-- Nobody has registered yet. -/
def AuthService.empty : AuthService where
  directory := .empty
  permissions := .empty
  accounts := .empty

/-- What `register` can raise. -/
inductive RegisterError where
  | platform (e : PlatformError)
  | permissionConflict (e : PermissionConflictError)
  | typeError

variable (lib : Library)

/-! ## The request -/

/-- What `register` reads of its payload before it inserts anything. -/
structure Request where
  email : String
  tenantId : String
  organizationId : String
  workspaceId : String
  divisionId : Option String
  projectId : Option String
  displayName : String
  roles : Finset String
  permissions : Finset String
  scopes : Finset String
  dataScopeValue : String

/-- `payload.get(key)`. -/
def field (payload : Json.Fields) (key : String) : Json := (payload.get? key).getD .null

/-- `str(payload.get(key) or default)`. -/
def textOr (payload : Json.Fields) (key default : String) : String :=
  str lib.repr (Py.or (field payload key) (.str default))

/-- `payload.get(key) or None`, as a text. -/
def text? (payload : Json.Fields) (key : String) : Option String :=
  let value := field payload key
  if truthy value then some (str lib.repr value) else none

/-- `frozenset(str(item) for item in payload.get(key, []))`. -/
def texts (payload : Json.Fields) (key : String) : Except RegisterError (Finset String) :=
  match iter ((payload.get? key).getD (.arr [])) with
  | none => .error .typeError
  | some values => .ok (values.map (str lib.repr)).toFinset

/-- The fields of the payload, with their defaults, and the checks before anything is stored. -/
def readRequest (accounts : Table AccountRecord.email) (payload : Json.Fields) :
    Except RegisterError Request := do
  let email := lib.lower (strip (str lib.repr ((payload.get? "email").getD (.str ""))))
  Except.require (email ≠ "") (.platform
    { code := "INVALID_EMAIL", message := "email is required" })
  Except.require (accounts.get? email = none) (.platform
    { code := "USER_ALREADY_EXISTS", message := "user already exists", statusCode := 409 })
  let roles ← texts lib payload "roles"
  let permissions ← texts lib payload "permissions"
  let scopes ← texts lib payload "scopes"
  return {
    email := email
    tenantId := textOr lib payload "tenant_id" "tenant_default"
    organizationId := textOr lib payload "organization_id" "org_default"
    workspaceId := textOr lib payload "workspace_id" "workspace_default"
    divisionId := text? lib payload "division_id"
    projectId := text? lib payload "project_id"
    displayName :=
      textOr lib payload "display_name" (String.ofList (email.toList.takeWhile (· ≠ '@')))
    roles := roles
    permissions := permissions
    scopes := scopes
    dataScopeValue := str lib.repr
      ((payload.get? "data_scope").getD (.str DataScope.ownAssigned.value)) }

/-- The tenant that a registration opens. -/
def Request.tenant (r : Request) : Tenant where
  tenantId := r.tenantId
  name := r.tenantId

/-- The organization in it. -/
def Request.organization (r : Request) : Organization where
  organizationId := r.organizationId
  tenantId := r.tenantId
  name := r.organizationId

/-- The workspace in that. -/
def Request.workspace (r : Request) : Workspace where
  workspaceId := r.workspaceId
  tenantId := r.tenantId
  organizationId := r.organizationId
  name := r.workspaceId

/-- The actor it adds. -/
def Request.actor (r : Request) (actorId : String) : Actor where
  actorId := actorId
  tenantId := r.tenantId
  organizationId := r.organizationId
  displayName := r.displayName
  divisionId := r.divisionId
  projectId := r.projectId

/-- The membership of the actor in the workspace. -/
def Request.membership (r : Request) (actorId : String) (dataScope : DataScope) :
    Membership where
  actorId := actorId
  tenantId := r.tenantId
  organizationId := r.organizationId
  workspaceId := r.workspaceId
  roles := r.roles
  permissions := r.permissions
  scopes := r.scopes
  dataScope := dataScope
  divisionId := r.divisionId
  projectId := r.projectId

/-- The grant of one of its roles. -/
def Request.grant (r : Request) (role : String) : RoleGrant where
  roleId := role
  tenantId := r.tenantId
  organizationId := r.organizationId
  permissionRefs := r.permissions
  scopeRefs := r.scopes

/-- The account it makes. -/
def Request.account (r : Request) (actorId passwordHash : String) : AccountRecord where
  email := r.email
  passwordHash := passwordHash
  actorId := actorId
  tenantId := r.tenantId
  organizationId := r.organizationId
  workspaceId := r.workspaceId

/-- `DataScope(value)`. -/
def dataScope? (value : String) : Option DataScope :=
  [DataScope.company, .division, .project, .ownAssigned].find? fun scope => scope.value = value

/-! ## Passwords, tokens and responses -/

def hashPassword (password salt : String) : String :=
  "pbkdf2_sha256$" ++ salt ++ "$" ++ lib.pbkdf2 password salt

/-- `s.split("$", 2)` of a text with at least two of them. -/
def splitHash (stored : List Char) : Option (List Char × List Char × List Char) := do
  let (algorithm, rest) ← cut stored
  let (salt, digest) ← cut rest
  return (algorithm, salt, digest)
where
  cut (text : List Char) : Option (List Char × List Char) :=
    match text.dropWhile (· ≠ '$') with
    | [] => none
    | _ :: rest => some (text.takeWhile (· ≠ '$'), rest)

/-- `_verify_password`. -/
def verifyPassword (password storedHash : String) : Bool :=
  match splitHash storedHash.toList with
  | none => false
  | some (algorithm, salt, digest) =>
      String.ofList algorithm = "pbkdf2_sha256" ∧
        lib.pbkdf2 password (String.ofList salt) = String.ofList digest

/-- `_issue_token`: the same for an account at every time. -/
def issueToken (account : AccountRecord) : String :=
  "alos_" ++ lib.sha256 (account.email ++ ":" ++ account.actorId ++ ":" ++ account.workspaceId ++
    ":" ++ account.tenantId)

/-- A text or `None`. -/
def jsonText : Option String → Json
  | none => .null
  | some text => .str text

/-- `sorted(set)`. -/
def jsonSet (set : Finset String) : Json := .arr ((set.sort (· ≤ ·)).map .str)

/-- `_serialize_principal`. -/
def serializePrincipal (principal : Principal) (includeEmail : String)
    (includeName : Option String) : Json.Fields :=
  let response : Json.Fields :=
    [("actor_id", .str principal.actorId),
      ("tenant_id", .str principal.tenantId),
      ("organization_id", .str principal.organizationId),
      ("workspace_id", .str principal.workspaceId),
      ("division_id", jsonText principal.divisionId),
      ("project_id", jsonText principal.projectId),
      ("permissions", jsonSet principal.permissions),
      ("scopes", jsonSet principal.scopes),
      ("roles", jsonSet principal.roles),
      ("data_scope", .str principal.dataScope.value),
      ("active", .bool principal.active)]
  let response := setItem response "email" (.str includeEmail)
  match includeName with
  | none => response
  | some name => setItem response "display_name" (.str name)

/-! ## Registration -/

/-- `try: … except IdentityConflictError: pass`. -/
def attempt (d : IdentityDirectory) (x : Except IdentityConflictError IdentityDirectory) :
    IdentityDirectory :=
  match x with
  | .ok d' => d'
  | .error _ => d

/-- The inserts whose conflicts are swallowed. -/
def openBoundary (d : IdentityDirectory) (r : Request) : IdentityDirectory :=
  let d := attempt d (d.addTenant r.tenant)
  let d := attempt d (d.addOrganization r.organization)
  attempt d (d.addWorkspace r.workspace)

/-- The grants of all roles, as far as the first conflict. -/
def registerGrants (r : Request) :
    List String → Grants → Except PermissionConflictError Unit × Grants
  | [], grants => (.ok (), grants)
  | role :: roles, grants =>
      match grants.register (r.grant role) with
      -- the grants before it stay
      | .error e => (.error e, grants)
      | .ok grants => registerGrants r roles grants

/-- `{"reason": str(exc)}`. -/
def reason (text : String) : Option Json.Fields := some [("reason", .str text)]

/-- The error of a membership that could not be made. -/
def invalidMembership (text : String) : RegisterError := .platform
  { code := "INVALID_SCOPE_OR_IDENTITY"
    message := "membership is outside the backend identity boundary"
    details := reason text }

/-- What `register` does once the boundary is open. -/
def enlist (payload : Json.Fields) (r : Request) (actorId salt : String) (s : AuthService) :
    Except RegisterError Json.Fields × AuthService :=
  match s.directory.addActor (r.actor actorId) with
  | .error e =>
      (.error (.platform
        { code := "IDENTITY_CONFLICT"
          message := "actor identity could not be created"
          statusCode := 409
          details := reason e.message }), s)
  | .ok directory =>
      let s := { s with directory }
      match dataScope? r.dataScopeValue with
      | none =>
          (.error (invalidMembership
            (lib.repr (.str r.dataScopeValue) ++ " is not a valid DataScope")), s)
      | some dataScope =>
          match s.directory.addMembership lib.repr (r.membership actorId dataScope) with
          | .error e => (.error (invalidMembership e.message), s)
          | .ok directory =>
              let s := { s with directory }
              let (granted, permissions) := registerGrants r (lib.elements r.roles) s.permissions
              let s := { s with permissions }
              match granted with
              | .error e => (.error (.permissionConflict e), s)
              | .ok () =>
                  -- the password is looked at when all of this is stored
                  let password := textOr lib payload "password" ""
                  if password.length < 8 then
                    (.error (.platform
                      { code := "WEAK_PASSWORD"
                        message := "password must be at least 8 characters long" }), s)
                  else
                    let account := r.account actorId (hashPassword lib password salt)
                    let s := { s with accounts := s.accounts.put account }
                    match s.directory.principalFor actorId r.workspaceId with
                    | none =>
                        (.error (.platform
                          { code := "PRINCIPAL_NOT_READY"
                            message := "user principal could not be resolved"
                            statusCode := 500 }), s)
                    | some principal =>
                        (.ok (serializePrincipal principal r.email (some r.displayName)), s)

/-- `register`; `uuid` is the beginning of the new UUID and `salt` the new salt. -/
def register (payload : Json.Fields) (uuid salt : String) (s : AuthService) :
    Except RegisterError Json.Fields × AuthService :=
  match readRequest lib s.accounts payload with
  | .error e => (.error e, s)
  | .ok r =>
      enlist lib payload r ("actor_" ++ uuid) salt
        { s with directory := openBoundary s.directory r }

/-! ## Login -/

def accountDisabled : PlatformError where
  code := "ACCOUNT_DISABLED"
  message := "account is not active in the configured workspace"
  statusCode := 403

/-- `login`: one refusal for an unknown email and for a wrong password. -/
def login (s : AuthService) (email password : String) : Except PlatformError Json.Fields :=
  let account := s.accounts.get? (lib.lower (strip email))
  match account.filter fun a => verifyPassword lib password a.passwordHash with
  | none => .error
      { code := "INVALID_CREDENTIALS"
        message := "email or password is invalid"
        statusCode := 401 }
  | some account =>
      match s.directory.principalFor account.actorId account.workspaceId with
      | none => .error accountDisabled
      | some principal =>
          let body := serializePrincipal principal account.email none
          let body := setItem body "token_type" (.str "bearer")
          .ok (setItem body "access_token" (.str (issueToken lib account)))

/-- `whoami`: the principal of a token. -/
def whoami (s : AuthService) (token : String) : Except PlatformError Json.Fields :=
  if token = "" then
    .error
      { code := "MISSING_TOKEN"
        message := "authorization token is required"
        statusCode := 401 }
  else
    match s.accounts.values.find? fun account => issueToken lib account = token with
    | none => .error
        { code := "INVALID_TOKEN"
          message := "token is invalid or expired"
          statusCode := 401 }
    | some account =>
        match s.directory.principalFor account.actorId account.workspaceId with
        | none => .error accountDisabled
        | some principal => .ok (serializePrincipal principal account.email none)

end Alos.Authentication
