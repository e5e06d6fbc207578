import Alos.Authentication.Session

/-! # What a registration does to those who are registered

A registration may raise after it has inserted some of its records.

* `registrations_settle`: nobody who is registered notices one that raises, and one
  that returns makes the login possible, for the principal that it has reported;
* `roles_agree`: what the roles of a principal are granted is what the principal
  holds, for whoever is registered.
-/

namespace Alos.Authentication

open Py

variable {lib : Library}

/-! ## A registration that raises -/

/-- What the service answers is the same. -/
structure Unaffected (lib : Library) (s s' : AuthService) : Prop where
  login : ∀ email password, login lib s' email password = login lib s email password
  whoami : ∀ token, whoami lib s' token = whoami lib s token
  session : ∀ authorization,
    getCurrentPrincipal lib s' authorization = getCurrentPrincipal lib s authorization

/-- An account that a registration leaves alone logs in as before. -/
theorem Registered.login_eq {s s' : AuthService} (h : Registered s)
    (hgrown : Grown s.directory s'.directory) {email : String}
    (haccount : s'.accounts.get? (lib.lower (strip email)) =
      s.accounts.get? (lib.lower (strip email))) (password : String) :
    login lib s' email password = login lib s email password := by
  unfold login
  simp only [haccount]
  -- the account is found under its email, with its own password
  cases hget : s.accounts.get? (lib.lower (strip email)) with
  | none => rfl
  | some a =>
      cases hfilter : (some a).filter fun a => verifyPassword lib password a.passwordHash with
      | none => rfl
      | some b =>
          rw [Option.filter_eq_some_iff] at hfilter
          cases hfilter.1
          rcases h a (Table.mem_of_get? hget) with ⟨principal, hprincipal⟩
          simp only [hprincipal, Grown.principalFor hgrown hprincipal]

/-- More records in the directory change nothing for those who are registered. -/
theorem Registered.unaffected {s s' : AuthService} (h : Registered s)
    (haccounts : s'.accounts = s.accounts) (hgrown : Grown s.directory s'.directory) :
    Unaffected lib s s' := by
  -- every account keeps its principal
  have hprincipal : ∀ a ∈ s.accounts.values, s'.directory.principalFor a.actorId a.workspaceId =
      s.directory.principalFor a.actorId a.workspaceId := by
    intro a ha
    rcases h a ha with ⟨principal, hprincipal⟩
    rw [hprincipal, Grown.principalFor hgrown hprincipal]
  have hwhoami : ∀ token,
      Authentication.whoami lib s' token = Authentication.whoami lib s token := by
    intro token
    unfold Authentication.whoami
    rw [haccounts]
    split
    · rfl
    · cases hfind : s.accounts.values.find? fun a => issueToken lib a = token with
      | none => rfl
      | some a => simp only [hprincipal a (List.mem_of_find?_eq_some hfind)]
  refine ⟨?_, hwhoami, ?_⟩
  · intro email password
    exact h.login_eq hgrown (by rw [haccounts]) password
  · intro authorization
    unfold getCurrentPrincipal
    simp only [hwhoami]

/-- The account is stored last. -/
theorem accounts_of_error {payload : Json.Fields} {r : Request} {actorId salt : String}
    {s : AuthService} {e : RegisterError}
    (h : (enlist lib payload r actorId salt s).1 = .error e) :
    (enlist lib payload r actorId salt s).2.accounts = s.accounts := by
  unfold enlist at h ⊢
  split
  · rfl
  · rename_i withActor hactor
    simp only [hactor] at h ⊢
    split
    · rfl
    · rename_i dataScope hscope
      simp only [hscope] at h ⊢
      split
      · rfl
      · rename_i withMembership hmembership
        rcases principalFor_isSome hmembership with ⟨principal, hprincipal⟩
        simp only [hmembership, hprincipal] at h ⊢
        split
        · rfl
        · rename_i hgranted
          simp only [hgranted] at h ⊢
          split
          · rfl
          · -- the registration has returned
            rename_i hpassword
            rw [if_neg hpassword] at h
            cases h

/-- A registration that fails leaves the accounts as they are. -/
theorem failed_accounts {s : AuthService} {c : Call} {e : RegisterError}
    (h : (register lib c.payload c.uuid c.salt s).1 = .error e) :
    (next lib s c).accounts = s.accounts := by
  unfold next register
  unfold register at h
  split
  · rfl
  · rename_i r hread
    simp only [hread] at h
    exact accounts_of_error h

/-- So the service answers every login and every token as before. -/
theorem failed_unaffected {s : AuthService} (hs : Registered s) (c : Call) {e : RegisterError}
    (h : (register lib c.payload c.uuid c.salt s).1 = .error e) : Unaffected lib s (next lib s c) :=
  hs.unaffected (failed_accounts h) (grown_next s c)

/-! ## A registration that returns -/

/-- The roles of the principal are granted what it holds, in its organization. -/
def Granted (grants : Grants) (p : Principal) : Prop :=
  ∀ role ∈ p.roles, grants.get? (p.tenantId, p.organizationId, role) = some {
    roleId := role
    tenantId := p.tenantId
    organizationId := p.organizationId
    permissionRefs := p.permissions
    scopeRefs := p.scopes }

/-- A grant is not changed. -/
theorem register_grant_kept {grants grants' : Grants} {grant : RoleGrant}
    (h : grants.register grant = .ok grants') {key : String × String × String} {g : RoleGrant}
    (hg : grants.get? key = some g) : grants'.get? key = some g := by
  rw [(register_grant_ok.1 h).2]
  split
  · rename_i hfree
    exact Table.get?_put_of_none hfree hg
  · exact hg

/-- Registering the grants of a request keeps those that are there. -/
theorem registerGrants_kept {r : Request} {roles : List String} {grants : Grants}
    {key : String × String × String} {g : RoleGrant} (hg : grants.get? key = some g) :
    (registerGrants r roles grants).2.get? key = some g := by
  induction roles generalizing grants with
  | nil => exact hg
  | cons role roles ih =>
      unfold registerGrants
      split
      · exact hg
      · rename_i hregister
        exact ih (register_grant_kept hregister hg)

/-- The loop that ends has granted every role. -/
theorem registerGrants_granted {r : Request} {roles : List String} {grants : Grants}
    (h : (registerGrants r roles grants).1 = .ok ()) : ∀ role ∈ roles,
      (registerGrants r roles grants).2.get? (r.grant role).key = some (r.grant role) := by
  induction roles generalizing grants with
  | nil => simp
  | cons role roles ih =>
      unfold registerGrants at h ⊢
      cases hregister : grants.register (r.grant role) with
      | error e => simp [hregister] at h
      | ok grants' =>
          simp only [hregister] at h ⊢
          -- the grant is new, or was there already
          have hrole : grants'.get? (r.grant role).key = some (r.grant role) := by
            rcases register_grant_ok.1 hregister with ⟨hsame, rfl⟩
            cases hget : grants.get? (r.grant role).key with
            | none =>
                rw [if_pos rfl]
                exact grants.get?_put_self _
            | some g =>
                rw [if_neg (by simp), hget, hsame g hget]
          intro role' hrole'
          rcases List.mem_cons.1 hrole' with rfl | hrole'
          · exact registerGrants_kept hrole
          · exact ih h role' hrole'

/-- What a registration that returns has stored. -/
structure Enlists (lib : Library) (payload : Json.Fields) (r : Request) (actorId salt : String)
    (s s' : AuthService) (p : Principal) : Prop where
  accounts : s'.accounts = s.accounts.put
    (r.account actorId (hashPassword lib (textOr lib payload "password" "") salt))
  principal : s'.directory.principalFor actorId r.workspaceId = some p
  granted : Granted s'.permissions p

/-- A new member is a principal with what its request has asked for. -/
theorem principalFor_member {d d' : IdentityDirectory} {r : Request} {actorId : String}
    {scope : DataScope} (h : d.addMembership lib.repr (r.membership actorId scope) = .ok d') :
    ∃ p, d'.principalFor actorId r.workspaceId = some p ∧
      (p.tenantId = r.tenantId ∧ p.organizationId = r.organizationId) ∧
      p.roles = r.roles ∧ p.permissions = r.permissions ∧ p.scopes = r.scopes := by
  rcases IdentityDirectory.addMembership_ok.1 h with ⟨-, memberships, hinsert, rfl⟩
  rcases Table.insert?_eq_some.1 hinsert with ⟨-, rfl⟩
  have hget : (d.memberships.put (r.membership actorId scope)).get? (actorId, r.workspaceId) =
      some (r.membership actorId scope) := d.memberships.get?_put_self _
  unfold IdentityDirectory.principalFor
  simp only [hget]
  exact ⟨_, rfl, ⟨rfl, rfl⟩, rfl, rfl, rfl⟩

/-- The body of a registration reports the principal that was entered. -/
theorem enlist_ok {payload : Json.Fields} {r : Request} {actorId salt : String} {s : AuthService}
    {body : Json.Fields} (h : (enlist lib payload r actorId salt s).1 = .ok body) :
    ∃ p, body = serializePrincipal p r.email (some r.displayName) ∧
      Enlists lib payload r actorId salt s (enlist lib payload r actorId salt s).2 p := by
  unfold enlist at h ⊢
  -- the checks in the order of the source, each of which may end the registration
  cases hactor : s.directory.addActor (r.actor actorId) with
  | error e => simp [hactor] at h
  | ok withActor =>
      simp only [hactor] at h ⊢
      cases hscope : dataScope? r.dataScopeValue with
      | none => simp [hscope] at h
      | some dataScope =>
          simp only [hscope] at h ⊢
          cases hmembership : withActor.addMembership lib.repr (r.membership actorId dataScope) with
          | error e => simp [hmembership] at h
          | ok withMembership =>
              rcases principalFor_member hmembership with ⟨p, hprincipal, hplace, hheld⟩
              simp only [hmembership, hprincipal] at h ⊢
              cases hgranted : (registerGrants r (lib.elements r.roles) s.permissions).1 with
              | error e => simp [hgranted] at h
              | ok u =>
                  simp only [hgranted] at h ⊢
                  by_cases hpassword : (textOr lib payload "password" "").length < 8
                  · simp [hpassword] at h
                  · rw [if_neg hpassword] at h ⊢
                    cases h
                    refine ⟨p, rfl, rfl, hprincipal, ?_⟩
                    intro role hrole
                    rcases hplace with ⟨htenant, horganization⟩
                    rcases hheld with ⟨hroles, hpermissions, hscopes⟩
                    rw [hroles] at hrole
                    rw [htenant, horganization, hpermissions, hscopes]
                    exact registerGrants_granted hgranted role (lib.mem_elements.2 hrole)

/-- A registration that succeeds has read its request, and reports the principal of it. -/
theorem register_ok {payload : Json.Fields} {uuid salt : String} {s : AuthService}
    {body : Json.Fields} (h : (register lib payload uuid salt s).1 = .ok body) :
    ∃ r p, readRequest lib s.accounts payload = .ok r ∧
      body = serializePrincipal p r.email (some r.displayName) ∧
      Enlists lib payload r ("actor_" ++ uuid) salt s (register lib payload uuid salt s).2 p := by
  unfold register at h ⊢
  cases hread : readRequest lib s.accounts payload with
  | error e => simp [hread] at h
  | ok r =>
      simp only [hread] at h ⊢
      rcases enlist_ok h with ⟨p, hbody, hstored⟩
      exact ⟨r, p, rfl, hbody, ⟨hstored.accounts, hstored.principal, hstored.granted⟩⟩

/-- A hash is that of its own password. -/
theorem verifyPassword_hashPassword {password salt : String} (hsalt : '$' ∉ salt.toList) :
    verifyPassword lib password (hashPassword lib password salt) = true := by
  -- the hash is cut at its dollar signs, which its parts do not have
  have hcut : ∀ xs rest : List Char, '$' ∉ xs →
      splitHash.cut (xs ++ '$' :: rest) = some (xs, rest) := by
    intro xs rest hxs
    have hall : ∀ c ∈ xs, decide (c ≠ '$') = true := by
      intro c hc
      rw [decide_eq_true_eq]
      rintro rfl
      exact hxs hc
    unfold splitHash.cut
    rw [List.dropWhile_append_of_pos hall, List.takeWhile_append_of_pos hall]
    simp
  have htext : (hashPassword lib password salt).toList =
      "pbkdf2_sha256".toList ++
        '$' :: (salt.toList ++ '$' :: (lib.pbkdf2 password salt).toList) := by
    simp [hashPassword, String.toList_append]
  have halgorithm : '$' ∉ "pbkdf2_sha256".toList := by decide
  have hsplit : splitHash (hashPassword lib password salt).toList =
      some ("pbkdf2_sha256".toList, salt.toList, (lib.pbkdf2 password salt).toList) := by
    unfold splitHash
    rw [htext, hcut _ _ halgorithm]
    change (splitHash.cut _).bind _ = _
    rw [hcut _ _ hsalt]
    rfl
  unfold verifyPassword
  simp only [hsplit, String.ofList_toList]
  simp

/-! ## Every registration -/

/-- `str(payload.get("email", ""))`. -/
def emailOf (lib : Library) (payload : Json.Fields) : String :=
  str lib.repr ((payload.get? "email").getD (.str ""))

/-- The account is kept under the stripped address in lower case. -/
theorem email_of_readRequest {accounts : Table AccountRecord.email} {payload : Json.Fields}
    {r : Request} (h : readRequest lib accounts payload = .ok r) :
    r.email = lib.lower (strip (emailOf lib payload)) := by
  unfold readRequest at h
  simp only [Except.bind_eq_ok, Except.require_eq_ok] at h
  rcases h with ⟨_, -, _, -, roles, -, permissions, -, scopes, -, hr⟩
  cases hr
  rfl

/-- A login with the right password issues a token and reports the principal of the account. -/
theorem login_eq {s : AuthService} {email password : String} {a : AccountRecord} {p : Principal}
    (ha : s.accounts.get? (lib.lower (strip email)) = some a)
    (hpassword : verifyPassword lib password a.passwordHash = true)
    (hprincipal : s.directory.principalFor a.actorId a.workspaceId = some p) :
    ∃ body, login lib s email password = .ok body ∧ Reports body p := by
  have hfound : (some a).filter (fun a => verifyPassword lib password a.passwordHash) = some a := by
    rw [Option.filter_some, if_pos hpassword]
  unfold login
  simp only [ha, hfound, hprincipal]
  exact ⟨_, rfl, ((reports_serialize p a.email).setItem (.inl rfl) _).setItem (.inr rfl) _⟩

/-- The body is written from the principal, field by field. -/
theorem reports_registered (p : Principal) (email name : String) :
    Reports (serializePrincipal p email (some name)) p := by
  -- the display name is the one field that is added
  have hget : ∀ {key : String}, key ≠ "display_name" →
      (serializePrincipal p email (some name)).get? key =
        (serializePrincipal p email none).get? key := by
    intro key hkey
    exact (get?_setItem ..).trans (if_neg hkey)
  have hreports := reports_serialize p email
  constructor
  · exact (hget (by decide)).trans hreports.actorId
  · exact (hget (by decide)).trans hreports.tenantId
  · exact (hget (by decide)).trans hreports.organizationId
  · exact (hget (by decide)).trans hreports.workspaceId
  · exact (hget (by decide)).trans hreports.divisionId
  · exact (hget (by decide)).trans hreports.projectId
  · exact (hget (by decide)).trans hreports.permissions
  · exact (hget (by decide)).trans hreports.scopes
  · exact (hget (by decide)).trans hreports.roles
  · exact (hget (by decide)).trans hreports.dataScope
  · exact (hget (by decide)).trans hreports.active

/-- What the registration `c` comes to for those who log in. -/
structure Settles (lib : Library) (s : AuthService) (c : Call) : Prop where
  /-- If it raises, nobody notices. -/
  raised : ∀ e, (register lib c.payload c.uuid c.salt s).1 = .error e →
    Unaffected lib s (next lib s c)
  /-- If it returns, its e-mail and password log in as the principal that it has
  reported. -/
  returned : ∀ body, (register lib c.payload c.uuid c.salt s).1 = .ok body →
    '$' ∉ c.salt.toList → ∃ p body', Reports body p ∧
      login lib (next lib s c) (emailOf lib c.payload) (textOr lib c.payload "password" "") =
        .ok body' ∧ Reports body' p
  /-- The other e-mails log in as before. -/
  others : ∀ email password, lib.lower (strip email) ≠ lib.lower (strip (emailOf lib c.payload)) →
    login lib (next lib s c) email password = login lib s email password

/-- What a registration reports is what the header of the account finds from then on, whichever
registrations come after it. -/
theorem registrations_settle (lib : Library) (calls : List Call) (c : Call) :
    Settles lib (after lib .empty calls) c := by
  have hregistered : Registered (after lib .empty calls) := registered_after calls
  generalize after lib .empty calls = s at hregistered
  refine ⟨fun e he => failed_unaffected hregistered c he, ?_, ?_⟩
  · intro body hbody hsalt
    rcases register_ok hbody with ⟨r, p, hread, rfl, hstored⟩
    have haccount : (next lib s c).accounts.get? (lib.lower (strip (emailOf lib c.payload))) =
        some (r.account ("actor_" ++ c.uuid)
          (hashPassword lib (textOr lib c.payload "password" "") c.salt)) := by
      rw [← email_of_readRequest hread]
      exact (congrArg (Table.get? · r.email) hstored.accounts).trans (Table.get?_put_self ..)
    rcases login_eq haccount (verifyPassword_hashPassword hsalt) hstored.principal with
      ⟨body', hlogin, hreports⟩
    exact ⟨p, body', reports_registered p _ _, hlogin, hreports⟩
  -- a login of another email sees neither the new account nor its place
  · intro email password hemail
    apply hregistered.login_eq (grown_next s c)
    cases hbody : (register lib c.payload c.uuid c.salt s).1 with
    | error e => rw [(failed_accounts hbody : (next lib s c).accounts = _)]
    | ok body =>
        rcases register_ok hbody with ⟨r, p, hread, rfl, hstored⟩
        have hput : (next lib s c).accounts = _ := hstored.accounts
        rw [hput]
        apply Table.get?_put_of_ne
        rw [show AccountRecord.email _ = r.email from rfl, email_of_readRequest hread]
        exact hemail.symm

/-! ## Roles -/

/-- What is held with one more role. -/
def Grants.gather (grants : Grants) (tenantId organizationId : String)
    (held : Finset String × Finset String) (role : String) : Finset String × Finset String :=
  match grants.get? (tenantId, organizationId, role) with
  | none => held
  | some grant =>
      if ¬ grant.active then held
      else (held.1 ∪ grant.permissionRefs, held.2 ∪ grant.scopeRefs)

/-- `PermissionRegistry.resolve`. -/
def Grants.resolve (lib : Library) (grants : Grants) (tenantId organizationId : String)
    (roles : Finset String) : Finset String × Finset String :=
  (lib.elements roles).foldl (grants.gather tenantId organizationId) (∅, ∅)

/-- Every role of the principal brings all that it holds. -/
theorem Granted.gather {grants : Grants} {p : Principal} (h : Granted grants p) {role : String}
    (hrole : role ∈ p.roles) {held : Finset String × Finset String}
    (hheld : held = (∅, ∅) ∨ held = (p.permissions, p.scopes)) :
    grants.gather p.tenantId p.organizationId held role = (p.permissions, p.scopes) := by
  unfold Grants.gather
  rw [h role hrole]
  rcases hheld with rfl | rfl <;> simp

/-- Gathering the grants of roles of the principal adds nothing to what he holds. -/
theorem Granted.foldl_gather {grants : Grants} {p : Principal} (h : Granted grants p)
    {roles : List String} (hroles : ∀ role ∈ roles, role ∈ p.roles) :
    roles.foldl (grants.gather p.tenantId p.organizationId) (p.permissions, p.scopes) =
      (p.permissions, p.scopes) := by
  induction roles with
  | nil => rfl
  | cons role roles ih =>
      rw [List.foldl_cons, h.gather (hroles role List.mem_cons_self) (.inr rfl)]
      exact ih fun role hrole => hroles role (List.mem_cons_of_mem _ hrole)

/-- The roles are granted what the principal holds. -/
theorem Granted.resolve {grants : Grants} {p : Principal} (h : Granted grants p)
    (hroles : p.roles ≠ ∅) :
    grants.resolve lib p.tenantId p.organizationId p.roles = (p.permissions, p.scopes) := by
  have hmem : ∀ role ∈ lib.elements p.roles, role ∈ p.roles := fun _ => lib.mem_elements.1
  unfold Grants.resolve
  cases helements : lib.elements p.roles with
  | nil =>
      rcases Finset.nonempty_iff_ne_empty.2 hroles with ⟨role, hrole⟩
      have hnil := lib.mem_elements.2 hrole
      rw [helements] at hnil
      cases hnil
  | cons role roles =>
      rw [helements] at hmem
      rw [List.foldl_cons, h.gather (hmem role List.mem_cons_self) (.inl rfl)]
      exact h.foldl_gather fun role hrole => hmem role (List.mem_cons_of_mem _ hrole)

/-- Every account has a principal whose roles are granted. -/
def RolesGranted (s : AuthService) : Prop :=
  ∀ a ∈ s.accounts.values, ∃ p,
    s.directory.principalFor a.actorId a.workspaceId = some p ∧ Granted s.permissions p

/-- No registration changes a grant. -/
theorem grants_next (s : AuthService) (c : Call) {key : String × String × String} {g : RoleGrant}
    (hg : s.permissions.get? key = some g) : (next lib s c).permissions.get? key = some g := by
  unfold next register
  split
  · exact hg
  · unfold enlist
    split
    · exact hg
    · simp only
      split
      · exact hg
      · split
        · exact hg
        · -- the grants are the last that is changed before the accounts
          repeat' split
          all_goals exact registerGrants_kept hg

/-- One registration keeps the roles and the grants in step. -/
theorem RolesGranted.next {s : AuthService} (h : RolesGranted s) (c : Call) :
    RolesGranted (next lib s c) := by
  -- accounts from before keep their principals and their grants
  have hkept : ∀ a ∈ s.accounts.values, ∃ p,
      (Authentication.next lib s c).directory.principalFor a.actorId a.workspaceId = some p ∧
        Granted (Authentication.next lib s c).permissions p := by
    intro a ha
    rcases h a ha with ⟨p, hprincipal, hgranted⟩
    refine ⟨p, Grown.principalFor (grown_next s c) hprincipal, ?_⟩
    intro role hrole
    exact grants_next s c (hgranted role hrole)
  cases hbody : (register lib c.payload c.uuid c.salt s).1 with
  | error e =>
      intro a ha
      rw [failed_accounts hbody] at ha
      exact hkept a ha
  | ok body =>
      rcases register_ok hbody with ⟨r, p, -, -, hstored⟩
      have hput : (Authentication.next lib s c).accounts = _ := hstored.accounts
      intro a ha
      rw [hput] at ha
      rcases Table.mem_put.1 ha with rfl | ⟨hold, -⟩
      · exact ⟨p, hstored.principal, hstored.granted⟩
      · exact hkept a hold

/-- So does every sequence of registrations. -/
theorem rolesGranted_after (calls : List Call) : RolesGranted (after lib .empty calls) := by
  have hrun : ∀ s, RolesGranted s → RolesGranted (after lib s calls) := by
    induction calls with
    | nil => exact fun s h => h
    | cons c calls ih => exact fun s h => ih _ (h.next c)
  exact hrun .empty fun a ha => by cases ha

/-- The role grants and the directory agree on those who send requests. -/
structure RolesAgree (lib : Library) (s : AuthService) : Prop where
  /-- What the roles of a principal resolve to is what the principal holds. -/
  resolved : ∀ authorization p, getCurrentPrincipal lib s authorization = .ok p → p.roles ≠ ∅ →
    s.permissions.resolve lib p.tenantId p.organizationId p.roles = (p.permissions, p.scopes)
  /-- Who shares a role of an organization holds the same. -/
  shared : ∀ authorization authorization' p q,
    getCurrentPrincipal lib s authorization = .ok p →
    getCurrentPrincipal lib s authorization' = .ok q →
    p.tenantId = q.tenantId → p.organizationId = q.organizationId →
    (∃ role ∈ p.roles, role ∈ q.roles) → p.permissions = q.permissions ∧ p.scopes = q.scopes

theorem roles_agree (lib : Library) (calls : List Call) :
    RolesAgree lib (after lib .empty calls) := by
  have hgranted : RolesGranted (after lib .empty calls) := rolesGranted_after calls
  generalize after lib .empty calls = s at hgranted
  -- a session stands for an account, whose roles were granted
  have hsession : ∀ authorization p, getCurrentPrincipal lib s authorization = .ok p →
      Granted s.permissions p := by
    intro authorization p hp
    rcases getCurrentPrincipal_ok_iff.1 hp with ⟨a, principal, hnames, rfl⟩
    rcases hgranted a (List.mem_of_find?_eq_some hnames.account) with ⟨p, hprincipal, hroles⟩
    rw [hnames.principal] at hprincipal
    cases hprincipal
    exact hroles
  refine ⟨fun authorization p hp hroles => (hsession authorization p hp).resolve hroles, ?_⟩
  rintro authorization authorization' p q hp hq htenant horganization ⟨role, hrole, hrole'⟩
  have hgrant := hsession authorization p hp role hrole
  rw [htenant, horganization, hsession authorization' q hq role hrole'] at hgrant
  simp only [Option.some.injEq, RoleGrant.mk.injEq] at hgrant
  exact ⟨hgrant.2.2.2.1.symm, hgrant.2.2.2.2.1.symm⟩

end Alos.Authentication
