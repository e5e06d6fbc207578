import Alos.Authentication.Tokens
import Alos.Json.Dumps
import Alos.Lines

/-! # The principal of a request

`get_current_principal`: the bearer token of the `Authorization` header, what
`whoami` says of it, and the principal that is built from it again.

* `readPrincipal_serialize`: what is serialized is read back;
* `sessions`: whatever is registered, the authority of a header is that of an
  account, and what registers later does not change it;
* `login_session`: the token of a login gives what the login has reported.
-/

namespace Alos.Authentication

open Py

variable (lib : Library)

/-- What `get_current_principal` raises. -/
inductive SessionError where
  | platform (e : PlatformError)
  | keyError (key : String)
  | valueError
  | typeError

/-- The refusal of a request without a token. -/
def missingHeader : PlatformError where
  code := "MISSING_TOKEN"
  message := "authorization header is required"
  statusCode := 401

/-- The token of a header that begins with `Bearer `. -/
def bearerToken (authorization : Option String) : Option String :=
  let header := (authorization.getD "").toList
  if "Bearer ".toList <+: header then
    some (strip (String.ofList ((header.dropWhile (· ≠ ' ')).drop 1)))
  else none

/-- `str(payload[key])`. -/
def readText (payload : Json.Fields) (key : String) : Except SessionError String :=
  match item payload key with
  | .error key => .error (.keyError key)
  | .ok value => .ok (str lib.repr value)

/-- `frozenset(str(item) for item in payload[key])`. -/
def readTexts (payload : Json.Fields) (key : String) : Except SessionError (Finset String) :=
  match item payload key with
  | .error key => .error (.keyError key)
  | .ok value =>
      match iter value with
      | none => .error .typeError
      | some values => .ok (values.map (str lib.repr)).toFinset

/-- The principal that is built from what `whoami` returns. -/
def readPrincipal (payload : Json.Fields) : Except SessionError Principal := do
  let divisionId := text? lib payload "division_id"
  let projectId := text? lib payload "project_id"
  let actorId ← readText lib payload "actor_id"
  let tenantId ← readText lib payload "tenant_id"
  let organizationId ← readText lib payload "organization_id"
  let workspaceId ← readText lib payload "workspace_id"
  let permissions ← readTexts lib payload "permissions"
  let scopes ← readTexts lib payload "scopes"
  let roles ← readTexts lib payload "roles"
  let dataScopeValue ← readText lib payload "data_scope"
  match dataScope? dataScopeValue with
  | none => .error .valueError
  | some dataScope =>
      match item payload "active" with
      | .error key => .error (.keyError key)
      | .ok active =>
          .ok { actorId, tenantId, organizationId, workspaceId, permissions, scopes, roles,
                dataScope, divisionId, projectId, active := truthy active }

/-- `get_current_principal`: the principal a bearer token stands for, or 401. -/
def getCurrentPrincipal (s : AuthService) (authorization : Option String) :
    Except SessionError Principal :=
  match bearerToken authorization with
  | none => .error (.platform missingHeader)
  | some token =>
      match whoami lib s token with
      | .error e => .error (.platform e)
      | .ok payload => readPrincipal lib payload

/-! ## The principal is read back -/

/-- The principal as a request sees it: an empty division or project is none. -/
def sessionOf (principal : Principal) : Principal :=
  { principal with
    divisionId := principal.divisionId.filter (· ≠ "")
    projectId := principal.projectId.filter (· ≠ "") }

variable {lib}

/-- What the fields of a serialized principal are. -/
theorem get?_serialize {principal : Principal} {email key : String} (hkey : key ≠ "email") :
    (serializePrincipal principal email none).get? key = Json.Fields.get?
      [("actor_id", .str principal.actorId),
        ("tenant_id", .str principal.tenantId),
        ("organization_id", .str principal.organizationId),
        ("workspace_id", .str principal.workspaceId),
        ("division_id", jsonText principal.divisionId),
        ("project_id", jsonText principal.projectId),
        ("permissions", jsonSet principal.permissions),
        ("scopes", jsonSet principal.scopes),
        ("roles", jsonSet principal.roles),
        ("data_scope", .str principal.dataScope.value),
        ("active", .bool principal.active)] key := by
  unfold serializePrincipal
  exact (get?_setItem ..).trans (if_neg hkey)

/-- Every data scope is read back from its text. -/
theorem dataScope?_value (scope : DataScope) : dataScope? scope.value = some scope := by
  cases scope <;> decide

/-- A text field is read as it stands. -/
theorem readText_of_get? {payload : Json.Fields} {key text : String}
    (h : payload.get? key = some (.str text)) : readText lib payload key = .ok text := by
  simp only [readText, item, h, str]

/-- A set of texts is read back from its sorted list. -/
theorem readTexts_of_get? {payload : Json.Fields} {key : String} {set : Finset String}
    (h : payload.get? key = some (jsonSet set)) : readTexts lib payload key = .ok set := by
  have htexts : ((set.sort (· ≤ ·)).map Json.str).map (str lib.repr) = set.sort (· ≤ ·) := by
    rw [List.map_map]
    exact List.map_id _
  simp only [readTexts, item, h, jsonSet, iter, htexts, Finset.sort_toFinset]

/-- An optional text is read as it stands, the empty one as none. -/
theorem text?_of_get? {payload : Json.Fields} {key : String} {text : Option String}
    (h : payload.get? key = some (jsonText text)) :
    text? lib payload key = text.filter (· ≠ "") := by
  simp only [text?, field, h, Option.getD_some]
  cases text with
  | none => rfl
  | some text =>
      by_cases hempty : text = ""
      · simp [jsonText, truthy, Option.filter, hempty]
      · simp [jsonText, truthy, str, Option.filter, hempty]

/-- What `whoami` serializes is read back. -/
theorem readPrincipal_serialize (principal : Principal) (email : String) :
    readPrincipal lib (serializePrincipal principal email none) = .ok (sessionOf principal) := by
  -- every field is read back from the one it was written to
  have hget := fun {key : String} => @get?_serialize principal email key
  have hactor : readText lib _ "actor_id" = _ := readText_of_get? (hget (by decide))
  have htenant : readText lib _ "tenant_id" = _ := readText_of_get? (hget (by decide))
  have horganization : readText lib _ "organization_id" = _ := readText_of_get? (hget (by decide))
  have hworkspace : readText lib _ "workspace_id" = _ := readText_of_get? (hget (by decide))
  have hpermissions : readTexts lib _ "permissions" = _ := readTexts_of_get? (hget (by decide))
  have hscopes : readTexts lib _ "scopes" = _ := readTexts_of_get? (hget (by decide))
  have hroles : readTexts lib _ "roles" = _ := readTexts_of_get? (hget (by decide))
  have hdataScope : readText lib _ "data_scope" = _ := readText_of_get? (hget (by decide))
  have hdivision : text? lib _ "division_id" = _ := text?_of_get? (hget (by decide))
  have hproject : text? lib _ "project_id" = _ := text?_of_get? (hget (by decide))
  have hactive : item (serializePrincipal principal email none) "active" =
      .ok (.bool principal.active) := by
    rw [item, hget (by decide)]
    rfl
  simp only [readPrincipal, hactor, htenant, horganization, hworkspace, hpermissions, hscopes,
    hroles, hdataScope, hdivision, hproject, hactive, bind, Except.bind, dataScope?_value]
  rfl

/-! ## What a header gives -/

/-- The account that a header names, and its principal. -/
structure Names (lib : Library) (s : AuthService) (authorization : Option String)
    (a : AccountRecord) (principal : Principal) : Prop where
  token : bearerToken authorization = some (issueToken lib a)
  -- the first account with the token
  account : s.accounts.values.find? (fun b => issueToken lib b = issueToken lib a) = some a
  principal : s.directory.principalFor a.actorId a.workspaceId = some principal

/-- No token is empty. -/
theorem issueToken_ne_empty (a : AccountRecord) : issueToken lib a ≠ "" := by
  rw [issueToken_eq]
  simp

/-- A token is answered with the principal of the first account that has it. -/
theorem whoami_ok {s : AuthService} {token : String} {body : Json.Fields}
    (h : whoami lib s token = .ok body) : ∃ a principal,
      issueToken lib a = token ∧
      s.accounts.values.find? (fun b => issueToken lib b = token) = some a ∧
      s.directory.principalFor a.actorId a.workspaceId = some principal ∧
      body = serializePrincipal principal a.email none := by
  unfold whoami at h
  split at h
  · cases h
  · split at h
    · cases h
    -- the first account that has the token
    · rename_i a hfind
      split at h
      · cases h
      · rename_i principal hprincipal
        cases h
        have htoken := List.find?_some hfind
        exact ⟨a, principal, by simpa using htoken, hfind, hprincipal, rfl⟩

/-- A header gives the principal of the account that it names, and nothing else. -/
theorem getCurrentPrincipal_ok_iff {s : AuthService} {authorization : Option String}
    {p : Principal} : getCurrentPrincipal lib s authorization = .ok p ↔
      ∃ a principal, Names lib s authorization a principal ∧ p = sessionOf principal := by
  constructor
  · intro h
    unfold getCurrentPrincipal at h
    split at h
    · cases h
    · rename_i token htoken
      split at h
      · cases h
      · rename_i body hbody
        rcases whoami_ok hbody with ⟨a, principal, rfl, hfind, hprincipal, rfl⟩
        rw [readPrincipal_serialize] at h
        cases h
        exact ⟨a, principal, ⟨htoken, hfind, hprincipal⟩, rfl⟩
  · rintro ⟨a, principal, ⟨htoken, hfind, hprincipal⟩, rfl⟩
    -- the body that `whoami` gives is read back as the principal
    have hbody : whoami lib s (issueToken lib a) = .ok (serializePrincipal principal a.email none) := by
      unfold whoami
      rw [if_neg (issueToken_ne_empty a), hfind]
      simp only [hprincipal]
    simp only [getCurrentPrincipal, htoken, hbody, readPrincipal_serialize]

/-- Where every account has a principal, a header that gives none is refused as
one that names no account. -/
theorem refused_of_registered {s : AuthService} (h : Registered s) {authorization : Option String}
    {e : SessionError} (he : getCurrentPrincipal lib s authorization = .error e) :
    ∃ refusal, e = .platform refusal ∧ refusal.statusCode = 401 := by
  unfold getCurrentPrincipal at he
  split at he
  · cases he
    exact ⟨_, rfl, rfl⟩
  · rename_i token _
    cases hbody : whoami lib s token with
    | ok body =>
        rcases whoami_ok hbody with ⟨a, principal, -, -, -, rfl⟩
        rw [hbody] at he
        simp only [readPrincipal_serialize, reduceCtorEq] at he
    | error refusal =>
        rw [hbody] at he
        cases he
        refine ⟨refusal, rfl, ?_⟩
        unfold whoami at hbody
        -- a registered account has its principal, so only the token can be wrong
        split at hbody
        · cases hbody
          rfl
        · split at hbody
          · cases hbody
            rfl
          · rename_i a hfind
            rcases h a (List.mem_of_find?_eq_some hfind) with ⟨principal, hprincipal⟩
            simp only [hprincipal, reduceCtorEq] at hbody

/-! ## Later registrations -/

/-- A registration stores at most one account, its own. -/
theorem accounts_enlist (payload : Json.Fields) (r : Request) (actorId salt : String)
    (s : AuthService) : (enlist lib payload r actorId salt s).2.accounts = s.accounts ∨
      ∃ passwordHash, (enlist lib payload r actorId salt s).2.accounts =
        s.accounts.put (r.account actorId passwordHash) := by
  unfold enlist
  -- the account is stored last, past every check
  split
  · exact .inl rfl
  · simp only
    split
    · exact .inl rfl
    · split
      · exact .inl rfl
      · split
        · exact .inl rfl
        · split
          · exact .inl rfl
          · split <;> exact .inr ⟨_, rfl⟩

/-- The e-mail of a request is new. -/
theorem readRequest_email {accounts : Table AccountRecord.email} {payload : Json.Fields}
    {r : Request} (h : readRequest lib accounts payload = .ok r) : accounts.get? r.email = none := by
  unfold readRequest at h
  simp only [Except.bind_eq_ok, Except.require_eq_ok] at h
  rcases h with ⟨_, -, _, hnew, roles, -, permissions, -, scopes, -, hr⟩
  cases hr
  exact hnew

/-- The accounts that a registration finds stay in their places. -/
theorem accounts_next (s : AuthService) (c : Call) :
    s.accounts.values <+: (next lib s c).accounts.values := by
  unfold next register
  split
  · exact List.prefix_refl _
  · rename_i r hread
    have henlist := @accounts_enlist lib c.payload r ("actor_" ++ c.uuid) c.salt
      { s with directory := openBoundary s.directory r }
    rcases henlist with haccounts | ⟨passwordHash, haccounts⟩
    · rw [haccounts]
    · have hnew : ∀ a ∈ s.accounts.values, a.email ≠ r.email :=
        Table.get?_eq_none.1 (readRequest_email hread)
      rw [haccounts, Table.put_values, assign_new _ _ hnew]
      exact List.prefix_append _ _

/-- Accounts are added, never removed and never reordered. -/
theorem accounts_after (s : AuthService) (calls : List Call) :
    s.accounts.values <+: (after lib s calls).accounts.values := by
  induction calls generalizing s with
  | nil => exact List.prefix_refl _
  | cons c calls ih => exact (accounts_next s c).trans (ih (next lib s c))

/-- A header that names an account names it ever after. -/
theorem Names.after {s : AuthService} {authorization : Option String} {a : AccountRecord}
    {principal : Principal} (h : Names lib s authorization a principal) (calls : List Call) :
    Names lib (after lib s calls) authorization a principal where
  token := h.token
  account := by
    -- the accounts before it are the same
    rcases @accounts_after lib s calls with ⟨more, hmore⟩
    rw [← hmore, List.find?_append, h.account]
    rfl
  principal := Grown.principalFor (grown_after s calls) h.principal

/-! ## Every session -/

/-- What headers give after the registrations `calls`. -/
structure Sessions (lib : Library) (calls : List Call) : Prop where
  /-- The authority of a header is that of the account whose token it carries. -/
  authority : ∀ authorization p, getCurrentPrincipal lib (after lib .empty calls) authorization = .ok p →
    ∃ a ∈ (after lib .empty calls).accounts.values,
      bearerToken authorization = some (issueToken lib a) ∧ ∃ principal,
        (after lib .empty calls).directory.principalFor a.actorId a.workspaceId = some principal ∧
          p = sessionOf principal
  /-- Every other header is refused with 401. -/
  refused : ∀ authorization e,
    getCurrentPrincipal lib (after lib .empty calls) authorization = .error e →
      ∃ refusal, e = .platform refusal ∧ refusal.statusCode = 401
  /-- Nobody who registers later changes it. -/
  lasting : ∀ later authorization p,
    getCurrentPrincipal lib (after lib .empty calls) authorization = .ok p →
      getCurrentPrincipal lib (after lib .empty (calls ++ later)) authorization = .ok p

/-- After any calls, a token in use stands for one principal of the directory. -/
theorem sessions (lib : Library) (calls : List Call) : Sessions lib calls where
  authority := by
    intro authorization p hp
    rcases getCurrentPrincipal_ok_iff.1 hp with ⟨a, principal, hnames, rfl⟩
    -- the account was registered, so its principal is in the directory
    have hmem := List.mem_of_find?_eq_some hnames.account
    exact ⟨a, hmem, hnames.token, principal, hnames.principal, rfl⟩
  refused := fun authorization e he => refused_of_registered (registered_after calls) he
  lasting := by
    intro later authorization p hp
    rcases getCurrentPrincipal_ok_iff.1 hp with ⟨a, principal, hnames, rfl⟩
    apply getCurrentPrincipal_ok_iff.2
    refine ⟨a, principal, ?_, rfl⟩
    rw [Authentication.after, List.foldl_append]
    exact hnames.after later

/-! ## Divisions and projects -/

/-- No member is of a division or a project without a name, which a request would see
as none. -/
def Named (d : IdentityDirectory) : Prop :=
  ∀ m ∈ d.memberships.values, m.divisionId ≠ some "" ∧ m.projectId ≠ some ""

/-- What stands for itself in a payload is no empty text. -/
theorem str_ne_empty (hrepr : ∀ value, lib.repr value ≠ "") {value : Json}
    (h : truthy value = true) : str lib.repr value ≠ "" := by
  -- the text of a value is empty for the empty string only
  cases value with
  | null => simp [str]
  | bool b => cases b <;> simp [str]
  | int n =>
      cases n with
      | ofNat n => exact Nat.repr_ne_empty
      | negSucc n =>
          intro hempty
          have hlength : ("-" ++ n.succ.repr).length = 0 := congrArg String.length hempty
          simp [String.length_append] at hlength
  | float x =>
      intro hempty
      have htext : x.text = [] := by simpa [str] using hempty
      exact Json.floatText_ne_nil x htext
  | str text => simpa [truthy, str] using h
  | arr xs => exact hrepr _
  | obj fields => exact hrepr _

/-- An optional text that was read is not empty. -/
theorem text?_ne_empty (hrepr : ∀ value, lib.repr value ≠ "") (payload : Json.Fields)
    (key : String) : text? lib payload key ≠ some "" := by
  unfold text?
  simp only
  split
  · rename_i htruthy
    intro hempty
    exact str_ne_empty hrepr htruthy (Option.some.inj hempty)
  · simp

/-- What a request says of division and project is its own two fields. -/
theorem readRequest_texts {accounts : Table AccountRecord.email} {payload : Json.Fields}
    {r : Request} (h : readRequest lib accounts payload = .ok r) :
    r.divisionId = text? lib payload "division_id" ∧
      r.projectId = text? lib payload "project_id" := by
  unfold readRequest at h
  simp only [Except.bind_eq_ok, Except.require_eq_ok] at h
  rcases h with ⟨_, -, _, -, roles, -, permissions, -, scopes, -, hr⟩
  cases hr
  exact ⟨rfl, rfl⟩

/-- A registration adds at most one member, that of its request. -/
theorem memberships_enlist (payload : Json.Fields) (r : Request) (actorId salt : String)
    (s : AuthService) {m : Membership}
    (hm : m ∈ (enlist lib payload r actorId salt s).2.directory.memberships.values) :
    m ∈ s.directory.memberships.values ∨ ∃ scope, m = r.membership actorId scope := by
  unfold enlist at hm
  split at hm
  · exact .inl hm
  · rename_i withActor hactor
    rcases IdentityDirectory.addActor_ok.1 hactor with ⟨-, actors, -, rfl⟩
    simp only at hm
    split at hm
    · exact .inl hm
    · rename_i dataScope hscope
      split at hm
      · exact .inl hm
      · rename_i withMembership hmembership
        rcases IdentityDirectory.addMembership_ok.1 hmembership with ⟨-, memberships, hinsert, rfl⟩
        rcases Table.insert?_eq_some.1 hinsert with ⟨-, rfl⟩
        -- nothing after the membership touches the directory
        have hput : m ∈ (s.directory.memberships.put (r.membership actorId dataScope)).values := by
          repeat' split at hm
          all_goals exact hm
        rcases Table.mem_put.1 hput with hnew | ⟨hold, -⟩
        · exact .inr ⟨dataScope, hnew⟩
        · exact .inl hold

/-- A registration binds no membership to an empty division or project. -/
theorem Named.next (hrepr : ∀ value, lib.repr value ≠ "") {s : AuthService}
    (h : Named s.directory) (c : Call) : Named (Authentication.next lib s c).directory := by
  unfold Authentication.next register
  split
  · exact h
  · rename_i r hread
    intro m hm
    rcases memberships_enlist _ _ _ _ _ hm with hold | ⟨scope, rfl⟩
    · rw [openBoundary_eq] at hold
      exact h m hold
    · rcases readRequest_texts hread with ⟨hdivision, hproject⟩
      constructor
      · exact fun hempty => text?_ne_empty hrepr _ _ (hdivision.symm.trans hempty)
      · exact fun hempty => text?_ne_empty hrepr _ _ (hproject.symm.trans hempty)

/-- Nor does any number of them. -/
theorem named_after (hrepr : ∀ value, lib.repr value ≠ "") (calls : List Call) :
    Named (after lib .empty calls).directory := by
  have hrun : ∀ s, Named s.directory → Named (after lib s calls).directory := by
    induction calls with
    | nil => exact fun s h => h
    | cons c calls ih => exact fun s h => ih _ (h.next hrepr c)
  exact hrun .empty fun m hm => by cases hm

/-- So a request sees the principal as it is. -/
theorem Named.sessionOf_eq {d : IdentityDirectory} (h : Named d) {actorId workspaceId : String}
    {principal : Principal} (hprincipal : d.principalFor actorId workspaceId = some principal) :
    sessionOf principal = principal := by
  unfold IdentityDirectory.principalFor at hprincipal
  split at hprincipal
  · cases hprincipal
  · rename_i m hm
    split at hprincipal
    · cases hprincipal
    · cases hprincipal
      rcases h m (Table.mem_of_get? hm) with ⟨hdivision, hproject⟩
      -- a binding that is not empty is read back as it is
      have hkept : ∀ text : Option String, text ≠ some "" → text.filter (· ≠ "") = text := by
        intro text htext
        cases text with
        | none => rfl
        | some t => simpa [Option.filter_some] using htext
      simp only [sessionOf, hkept _ hdivision, hkept _ hproject]

/-! ## From a login to a request -/

/-- The response names the authority of the principal. -/
structure Reports (body : Json.Fields) (p : Principal) : Prop where
  actorId : body.get? "actor_id" = some (.str p.actorId)
  tenantId : body.get? "tenant_id" = some (.str p.tenantId)
  organizationId : body.get? "organization_id" = some (.str p.organizationId)
  workspaceId : body.get? "workspace_id" = some (.str p.workspaceId)
  divisionId : body.get? "division_id" = some (jsonText p.divisionId)
  projectId : body.get? "project_id" = some (jsonText p.projectId)
  permissions : body.get? "permissions" = some (jsonSet p.permissions)
  scopes : body.get? "scopes" = some (jsonSet p.scopes)
  roles : body.get? "roles" = some (jsonSet p.roles)
  dataScope : body.get? "data_scope" = some (.str p.dataScope.value)
  active : body.get? "active" = some (.bool p.active)

/-- A serialized principal reports the principal. -/
theorem reports_serialize (principal : Principal) (email : String) :
    Reports (serializePrincipal principal email none) principal := by
  constructor <;> exact get?_serialize (by decide)

/-- Adding the token to the body changes nothing of that. -/
theorem Reports.setItem {body : Json.Fields} {p : Principal} (h : Reports body p) {key : String}
    (hkey : key = "token_type" ∨ key = "access_token") (value : Json) :
    Reports (setItem body key value) p := by
  -- the two keys of the token are none of the principal's
  have hget : ∀ {other}, other ≠ "token_type" → other ≠ "access_token" →
      (Py.setItem body key value).get? other = body.get? other := by
    intro other htype haccess
    rw [get?_setItem, if_neg]
    rcases hkey with rfl | rfl
    · exact htype
    · exact haccess
  constructor
  · exact (hget (by decide) (by decide)).trans h.actorId
  · exact (hget (by decide) (by decide)).trans h.tenantId
  · exact (hget (by decide) (by decide)).trans h.organizationId
  · exact (hget (by decide) (by decide)).trans h.workspaceId
  · exact (hget (by decide) (by decide)).trans h.divisionId
  · exact (hget (by decide) (by decide)).trans h.projectId
  · exact (hget (by decide) (by decide)).trans h.permissions
  · exact (hget (by decide) (by decide)).trans h.scopes
  · exact (hget (by decide) (by decide)).trans h.roles
  · exact (hget (by decide) (by decide)).trans h.dataScope
  · exact (hget (by decide) (by decide)).trans h.active

/-- A login reports the principal of its account, and hands out its token. -/
theorem login_ok {s : AuthService} {email password : String} {body : Json.Fields}
    (h : login lib s email password = .ok body) : ∃ a principal,
      s.accounts.get? (lib.lower (strip email)) = some a ∧
      s.directory.principalFor a.actorId a.workspaceId = some principal ∧
      body.get? "access_token" = some (.str (issueToken lib a)) ∧ Reports body principal := by
  unfold login at h
  simp only at h
  split at h
  · cases h
  · rename_i a haccount
    rw [Option.filter_eq_some_iff] at haccount
    split at h
    · cases h
    · rename_i principal hprincipal
      cases h
      refine ⟨a, principal, haccount.1, hprincipal, by rw [get?_setItem, if_pos rfl], ?_⟩
      -- the body is the serialized principal, with the token added
      have hreports := reports_serialize principal a.email
      exact (hreports.setItem (.inl rfl) _).setItem (.inr rfl) _

/-- Tokens tell the accounts apart whose e-mails do not collide. -/
theorem issueToken_injective {s : AuthService} (hsha : CollisionFree lib s)
    (hfree : ∀ p ∈ s.accounts.values, ∀ q ∈ s.accounts.values, ¬ Collides p q) :
    ∀ p ∈ s.accounts.values, ∀ q ∈ s.accounts.values, issueToken lib p = issueToken lib q → p = q := by
  intro p hp q hq htoken
  rw [issueToken_eq, issueToken_eq, String.append_right_inj] at htoken
  by_contra hne
  have hemail : p.email ≠ q.email := by
    intro hemail
    have hget := Table.get?_of_mem hp
    rw [hemail, Table.get?_of_mem hq] at hget
    exact hne (Option.some.inj hget).symm
  rcases (preimage_eq_iff hemail).1 (hsha p hp q hq htoken) with hcollides | hcollides
  · exact hfree p hp q hq hcollides
  · exact hfree q hq p hp hcollides

/-- A text is spaceless when each of its characters is. -/
theorem spaceless_of_all {t : String} (h : t.toList.all fun c => !isSpace c) :
    ∀ c ∈ t.toList, isSpace c = false := by
  intro c hc
  simpa using List.all_eq_true.1 h c hc

/-- The token is read back from the header that was made of it. -/
theorem bearerToken_bearer {token : String} (h : ∀ c ∈ token.toList, isSpace c = false) :
    bearerToken (some ("Bearer " ++ token)) = some token := by
  have hheader : ("Bearer " ++ token).toList = "Bearer ".toList ++ token.toList :=
    String.toList_append
  have hrest : ("Bearer ".toList ++ token.toList).dropWhile (· ≠ ' ') = ' ' :: token.toList := rfl
  simp only [bearerToken, Option.getD_some, hheader, List.prefix_append, if_true, hrest,
    List.drop_succ_cons, List.drop_zero, String.ofList_toList, strip_eq_self h]

/-- The token of a login, sent as a bearer token, gives the principal that the
login has reported. -/
def LoginsHold (lib : Library) (s : AuthService) : Prop :=
  ∀ email password body, login lib s email password = .ok body →
    ∃ token p, body.get? "access_token" = some (.str token) ∧ Reports body p ∧
      getCurrentPrincipal lib s (some ("Bearer " ++ token)) = .ok p

/-- `hhex` and `hrepr` are facts about hexadecimal digests and about `repr`; `hfree` says
that no e-mail with a colon goes on as another account does. -/
theorem login_session (lib : Library) (calls : List Call)
    (hrepr : ∀ value, lib.repr value ≠ "")
    (hhex : ∀ text, ∀ c ∈ (lib.sha256 text).toList, isSpace c = false)
    (hsha : CollisionFree lib (after lib .empty calls))
    (hfree : ∀ p ∈ (after lib .empty calls).accounts.values,
      ∀ q ∈ (after lib .empty calls).accounts.values, ¬ Collides p q) :
    LoginsHold lib (after lib .empty calls) := by
  intro email password body hlogin
  rcases login_ok hlogin with ⟨a, principal, haccount, hprincipal, htoken, hreports⟩
  refine ⟨issueToken lib a, principal, htoken, hreports, ?_⟩
  rw [← (named_after hrepr calls).sessionOf_eq hprincipal]
  apply getCurrentPrincipal_ok_iff.2
  refine ⟨a, principal, ⟨bearerToken_bearer ?_, ?_, hprincipal⟩, rfl⟩
  · intro c hc
    rw [issueToken_eq, String.toList_append, List.mem_append] at hc
    rcases hc with hc | hc
    · have hprefix : "alos_".toList.all fun c => !isSpace c := by decide
      exact spaceless_of_all hprefix c hc
    · exact hhex _ c hc
  · -- no other account has the token
    have ha := Table.mem_of_get? haccount
    cases hfind : (after lib .empty calls).accounts.values.find? fun b =>
        issueToken lib b = issueToken lib a with
    | none =>
        rw [List.find?_eq_none] at hfind
        exact absurd (by simp) (hfind a ha)
    | some b =>
        have hb := List.find?_some hfind
        rw [decide_eq_true_eq] at hb
        rw [issueToken_injective hsha hfree b (List.mem_of_find?_eq_some hfind) a ha hb]

/-- An e-mail without a colon goes on from no other. -/
theorem not_collides {p q : AccountRecord} (h : ':' ∉ q.email.toList) : ¬ Collides p q := by
  rintro ⟨text, hemail, -⟩
  apply h
  rw [hemail]
  simp

/-- The registration names a division and a project as well. -/
def Call.posted (c : Call) : Call :=
  { c with payload :=
      c.payload ++ [("division_id", .str "div_ops"), ("project_id", .str "proj_tower")] }

/-- Two founders, of whom the second logs in. -/
theorem login_session_founders : LoginsHold digested (after digested .empty
    [founder "ada@alos.id" "tenant_ada" "org_ada" "workspace_ada" "0a1b2c3d4e5f",
      (founder "eve@alos.id" "tenant_eve" "org_eve" "workspace_eve" "5f4e3d2c1b0a").posted]) := by
  refine login_session digested _ ?_ ?_ ?_ ?_
  · intro value
    simp [digested]
  · intro text
    apply spaceless_of_all
    simp only [digested]
    split_ifs <;> decide
  · unfold CollisionFree
    decide
  · intro p hp q hq
    apply not_collides
    revert q
    decide

end Alos.Authentication
