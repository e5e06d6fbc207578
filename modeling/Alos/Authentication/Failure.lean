import Alos.Authentication.Service

/-! # What a refused registration leaves behind

`register` inserts as it checks, so a later check that fails leaves the earlier
inserts in place.

* `openBoundary_eq` says which records the first three inserts add, and
  `openBoundary_eq_self` when they add none;
* `Accepted` is what a registration needs, in terms of the state before it
  (`register_returns`);
* `atomic_iff`: a refused registration leaves everything as it was if and only
  if the payload itself was refused, or the actor was and the boundary was there
  already;
* `refused_too_late`: two registrations that do not.
-/

namespace Alos.Authentication

open Py

/-! ## The boundary that a registration finds -/

section Boundary

variable (d : IdentityDirectory) (r : Request)

/-- The tenant is free or active. -/
def TenantOpen : Prop := (d.tenants.get? r.tenantId).all fun t => t.active

instance : Decidable (TenantOpen d r) := inferInstanceAs (Decidable (_ = true))

/-- The organization is an active one of the tenant, or it can be inserted. -/
def OrganizationOpen : Prop :=
  match d.organizations.get? r.organizationId with
  | some o => o.active = true ∧ o.tenantId = r.tenantId
  | none => TenantOpen d r

instance : Decidable (OrganizationOpen d r) := by
  unfold OrganizationOpen
  exact match d.organizations.get? r.organizationId with
  | some _ => inferInstance
  | none => inferInstance

/-- The workspace is an active one of the organization, or it can be inserted. -/
def WorkspaceOpen : Prop :=
  match d.workspaces.get? r.workspaceId with
  | some w => w.active = true ∧ w.tenantId = r.tenantId ∧ w.organizationId = r.organizationId
  | none => OrganizationOpen d r

/-- The directory with the tenant, the organization and the workspace inserted,
each where it can be. -/
def opened : IdentityDirectory where
  tenants := d.tenants.setDefault r.tenant
  organizations :=
    if TenantOpen d r then d.organizations.setDefault r.organization else d.organizations
  workspaces := if OrganizationOpen d r then d.workspaces.setDefault r.workspace else d.workspaces
  actors := d.actors
  memberships := d.memberships

/-- The boundary is there, or what is missing of it cannot be inserted. -/
structure Untouched : Prop where
  tenant : ∃ t, d.tenants.get? r.tenantId = some t
  organization : TenantOpen d r → ∃ o, d.organizations.get? r.organizationId = some o
  workspace : OrganizationOpen d r → ∃ w, d.workspaces.get? r.workspaceId = some w

theorem attempt_addTenant (tenant : Tenant) :
    attempt d (d.addTenant tenant) = { d with tenants := d.tenants.setDefault tenant } := by
  unfold IdentityDirectory.addTenant insertUnique Table.setDefault
  cases d.tenants.insert? tenant <;> rfl

theorem attempt_addOrganization (organization : Organization) :
    attempt d (d.addOrganization organization) =
      if (d.tenants.get? organization.tenantId).any fun t => t.active then
        { d with organizations := d.organizations.setDefault organization }
      else d := by
  unfold IdentityDirectory.addOrganization insertUnique Table.setDefault
  simp only [Except.require]
  split
  · cases d.organizations.insert? organization <;> rfl
  · rfl

theorem attempt_addWorkspace (workspace : Workspace) :
    attempt d (d.addWorkspace workspace) =
      if (d.organizations.get? workspace.organizationId).any fun o =>
          o.active ∧ o.tenantId = workspace.tenantId then
        { d with workspaces := d.workspaces.setDefault workspace }
      else d := by
  unfold IdentityDirectory.addWorkspace insertUnique Table.setDefault
  simp only [Except.require]
  split
  · cases d.workspaces.insert? workspace <;> rfl
  · rfl

/-- After the first insert, the tenant is active if it was open before. -/
theorem opened_tenant :
    ((opened d r).tenants.get? r.tenantId).any (fun t => t.active) = true ↔ TenantOpen d r := by
  have hget : (opened d r).tenants.get? r.tenantId =
      some ((d.tenants.get? r.tenantId).getD r.tenant) := d.tenants.get?_setDefault r.tenant
  rw [hget, TenantOpen]
  cases d.tenants.get? r.tenantId <;> simp [Request.tenant]

/-- After the second insert, the organization is an active one of the tenant if
it was open before. -/
theorem opened_organization :
    ((opened d r).organizations.get? r.organizationId).any
      (fun o => o.active ∧ o.tenantId = r.tenantId) = true ↔ OrganizationOpen d r := by
  unfold opened OrganizationOpen
  simp only
  by_cases hopen : TenantOpen d r
  · have hget : (d.organizations.setDefault r.organization).get? r.organizationId =
        some ((d.organizations.get? r.organizationId).getD r.organization) :=
      d.organizations.get?_setDefault r.organization
    rw [if_pos hopen, hget]
    cases d.organizations.get? r.organizationId <;> simp [hopen, Request.organization]
  · rw [if_neg hopen]
    cases d.organizations.get? r.organizationId <;> simp [hopen]

/-- After the third insert, the workspace is an active one of the organization
if it was open before, as far as the organization was open. -/
theorem opened_workspace (hopen : OrganizationOpen d r) :
    ((opened d r).workspaces.get? r.workspaceId).any
      (fun w => w.active ∧ w.tenantId = r.tenantId ∧ w.organizationId = r.organizationId) = true ↔
        WorkspaceOpen d r := by
  have hget : (opened d r).workspaces.get? r.workspaceId =
      some ((d.workspaces.get? r.workspaceId).getD r.workspace) := by
    rw [opened, if_pos hopen]
    exact d.workspaces.get?_setDefault r.workspace
  rw [hget, WorkspaceOpen]
  cases d.workspaces.get? r.workspaceId <;> simp [hopen, Request.workspace]

theorem openBoundary_eq : openBoundary d r = opened d r := by
  have htenant := opened_tenant d r
  have horganization := opened_organization d r
  -- the second insert looks at the first one's table
  have hsecond : attempt { d with tenants := d.tenants.setDefault r.tenant }
      (IdentityDirectory.addOrganization { d with tenants := d.tenants.setDefault r.tenant }
        r.organization) =
      { d with
        tenants := d.tenants.setDefault r.tenant
        organizations := (opened d r).organizations } := by
    rw [attempt_addOrganization]
    change (if ((opened d r).tenants.get? r.tenantId).any (fun t => t.active) then _ else _) = _
    by_cases hopen : TenantOpen d r
    · rw [if_pos (htenant.2 hopen)]
      simp only [opened, if_pos hopen]
    · rw [if_neg (fun h => hopen (htenant.1 h))]
      simp only [opened, if_neg hopen]
  unfold openBoundary
  simp only
  rw [attempt_addTenant, hsecond, attempt_addWorkspace]
  -- the third insert looks at the second one's
  change (if ((opened d r).organizations.get? r.organizationId).any
    (fun o => o.active ∧ o.tenantId = r.tenantId) then _ else _) = _
  by_cases hopen : OrganizationOpen d r
  · rw [if_pos (horganization.2 hopen)]
    simp only [opened, if_pos hopen]
  · rw [if_neg (fun h => hopen (horganization.1 h))]
    simp only [opened, if_neg hopen]

theorem opened_eq_self : opened d r = d ↔ Untouched d r := by
  constructor
  · intro h
    -- nothing is opened when the tenant is there, and what would be below it
    have htenants : d.tenants.setDefault r.tenant = d.tenants :=
      congrArg IdentityDirectory.tenants h
    have horganizations := congrArg IdentityDirectory.organizations h
    have hworkspaces := congrArg IdentityDirectory.workspaces h
    constructor
    · exact Table.setDefault_eq_self.1 htenants
    · intro hopen
      rw [opened, if_pos hopen] at horganizations
      exact Table.setDefault_eq_self.1 horganizations
    · intro hopen
      rw [opened, if_pos hopen] at hworkspaces
      exact Table.setDefault_eq_self.1 hworkspaces
  · intro h
    have htenants : d.tenants.setDefault r.tenant = d.tenants :=
      Table.setDefault_eq_self.2 h.tenant
    have horganizations : (opened d r).organizations = d.organizations := by
      by_cases hopen : TenantOpen d r
      · rw [opened, if_pos hopen]
        exact Table.setDefault_eq_self.2 (h.organization hopen)
      · rw [opened, if_neg hopen]
    have hworkspaces : (opened d r).workspaces = d.workspaces := by
      by_cases hopen : OrganizationOpen d r
      · rw [opened, if_pos hopen]
        exact Table.setDefault_eq_self.2 (h.workspace hopen)
      · rw [opened, if_neg hopen]
    calc opened d r
        = ⟨(opened d r).tenants, (opened d r).organizations, (opened d r).workspaces,
            d.actors, d.memberships⟩ := rfl
      _ = d := by rw [horganizations, hworkspaces, show (opened d r).tenants = d.tenants from htenants]

end Boundary

/-! ## The registrations that return -/

/-- No role is granted something else already. -/
def GrantsFree (grants : Grants) (r : Request) : Prop :=
  ∀ role ∈ r.roles, ∀ g, grants.get? (r.grant role).key = some g → g = r.grant role

theorem register_grant_ok {grants grants' : Grants} {grant : RoleGrant} :
    grants.register grant = .ok grants' ↔
      (∀ g, grants.get? grant.key = some g → g = grant) ∧
        grants' = if grants.get? grant.key = none then grants.put grant else grants := by
  unfold Grants.register
  cases grants.get? grant.key with
  | none => simp [eq_comm]
  | some existing =>
      by_cases hsame : existing = grant
      · simp [hsame, eq_comm]
      · simp [hsame]

/-- The loop ends if no role has another grant: the grants that it makes on the
way are those that it looks for. -/
theorem registerGrants_ok {r : Request} {roles : List String} {grants : Grants} :
    (registerGrants r roles grants).1 = .ok () ↔
      ∀ role ∈ roles, ∀ g, grants.get? (r.grant role).key = some g → g = r.grant role := by
  induction roles generalizing grants with
  | nil => simp [registerGrants]
  | cons role roles ih =>
      unfold registerGrants
      cases hgrant : grants.register (r.grant role) with
      | error e =>
          have hnot : ¬ ∀ g, grants.get? (r.grant role).key = some g → g = r.grant role := by
            intro hfree
            rw [register_grant_ok.2 ⟨hfree, rfl⟩] at hgrant
            cases hgrant
          simp [hnot]
      | ok grants' =>
          obtain ⟨hfree, hgrants'⟩ := register_grant_ok.1 hgrant
          have hsame : ∀ role', (∀ g, grants'.get? (r.grant role').key = some g → g = r.grant role') ↔
              ∀ g, grants.get? (r.grant role').key = some g → g = r.grant role' := by
            intro role'
            rw [hgrants']
            split
            · rename_i hnone
              rw [Table.get?_put]
              split
              · -- the same key, hence the same role
                rename_i hkey
                have hrole : role = role' := by simpa [RoleGrant.key, Request.grant] using hkey
                simp [← hrole, hnone]
              · rfl
            · rfl
          simp only [ih, hsame, List.forall_mem_cons]
          exact (and_iff_right hfree).symm

variable (lib : Library)

/-- What a registration needs, in terms of the state that it finds. -/
structure Accepted (s : AuthService) (payload : Json.Fields) (r : Request) (actorId : String) :
    Prop where
  organization : OrganizationOpen s.directory r
  actor : s.directory.actors.get? actorId = none
  dataScope : (dataScope? r.dataScopeValue).isSome
  workspace : WorkspaceOpen s.directory r
  membership : s.directory.memberships.get? (actorId, r.workspaceId) = none
  grants : GrantsFree s.permissions r
  password : 8 ≤ (textOr lib payload "password" "").length

/-- The actor is refused. -/
def ActorRefused (s : AuthService) (r : Request) (actorId : String) : Prop :=
  ¬ (OrganizationOpen s.directory r ∧ s.directory.actors.get? actorId = none)

section Steps

variable {d d' : IdentityDirectory} {r : Request} {actorId : String}

theorem addActor_opened :
    (opened d r).addActor (r.actor actorId) = .ok d' ↔
      (OrganizationOpen d r ∧ d.actors.get? actorId = none) ∧
        { opened d r with actors := d.actors.put (r.actor actorId) } = d' := by
  have horganization := opened_organization d r
  rw [Option.any_eq_true] at horganization
  simp only [decide_eq_true_eq] at horganization
  rw [IdentityDirectory.addActor_ok, ← horganization]
  constructor
  · rintro ⟨hopen, actors, hinsert, rfl⟩
    obtain ⟨hfree, rfl⟩ := Table.insert?_eq_some.1 hinsert
    exact ⟨⟨hopen, hfree⟩, rfl⟩
  · rintro ⟨⟨hopen, hfree⟩, rfl⟩
    exact ⟨hopen, _, Table.insert?_eq_some.2 ⟨hfree, rfl⟩, rfl⟩

variable {lib}

theorem addMembership_opened {scope : DataScope} (hopen : OrganizationOpen d r) :
    IdentityDirectory.addMembership lib.repr
      { opened d r with actors := d.actors.put (r.actor actorId) } (r.membership actorId scope) =
        .ok d' ↔
      (WorkspaceOpen d r ∧ d.memberships.get? (actorId, r.workspaceId) = none) ∧
        { opened d r with
          actors := d.actors.put (r.actor actorId)
          memberships := d.memberships.put (r.membership actorId scope) } = d' := by
  -- workspace and actor are those that the registration has just added
  have hworkspace := opened_workspace d r hopen
  rw [Option.any_eq_true] at hworkspace
  simp only [decide_eq_true_eq] at hworkspace
  have hactor := d.actors.get?_put_self (r.actor actorId)
  rw [IdentityDirectory.addMembership_ok, ← hworkspace]
  constructor
  · rintro ⟨⟨hplace, -⟩, memberships, hinsert, rfl⟩
    obtain ⟨hfree, rfl⟩ := Table.insert?_eq_some.1 hinsert
    exact ⟨⟨hplace, hfree⟩, rfl⟩
  · rintro ⟨⟨hplace, hfree⟩, rfl⟩
    exact ⟨⟨hplace, _, hactor, rfl, rfl, rfl⟩, _, Table.insert?_eq_some.2 ⟨hfree, rfl⟩, rfl⟩

variable (lib) (payload : Json.Fields) (salt : String) (s : AuthService)

/-- An actor that is refused ends the registration. -/
theorem enlist_refused {e : IdentityConflictError}
    (h : s.directory.addActor (r.actor actorId) = .error e) :
    (∃ e', (enlist lib payload r actorId salt s).1 = .error e') ∧
      (enlist lib payload r actorId salt s).2 = s := by
  unfold enlist
  rw [h]
  exact ⟨⟨_, rfl⟩, rfl⟩

/-- An actor that is inserted stays. -/
theorem enlist_actors (h : s.directory.addActor (r.actor actorId) = .ok d') :
    (enlist lib payload r actorId salt s).2.directory.actors = d'.actors := by
  unfold enlist
  rw [h]
  simp only
  split
  · rfl
  · split
    · rfl
    · rename_i withMembership hmembership
      obtain ⟨-, memberships, -, rfl⟩ := IdentityDirectory.addMembership_ok.1 hmembership
      repeat' split
      all_goals rfl

/-- Who has just become a member is a principal. -/
theorem principalFor_isSome {repr : Json → String} {scope : DataScope}
    (h : d.addMembership repr (r.membership actorId scope) = .ok d') :
    ∃ principal, d'.principalFor actorId r.workspaceId = some principal := by
  obtain ⟨-, memberships, hinsert, rfl⟩ := IdentityDirectory.addMembership_ok.1 h
  obtain ⟨-, rfl⟩ := Table.insert?_eq_some.1 hinsert
  have hget : (d.memberships.put (r.membership actorId scope)).get? (actorId, r.workspaceId) =
      some (r.membership actorId scope) := d.memberships.get?_put_self _
  unfold IdentityDirectory.principalFor
  simp only [hget]
  exact ⟨_, rfl⟩

/-- What is left to check once the actor is inserted. -/
theorem enlist_returns (h : s.directory.addActor (r.actor actorId) = .ok d') :
    (∃ body, (enlist lib payload r actorId salt s).1 = .ok body) ↔
      (∃ scope, dataScope? r.dataScopeValue = some scope ∧
        ∃ d'', d'.addMembership lib.repr (r.membership actorId scope) = .ok d'') ∧
      GrantsFree s.permissions r ∧ 8 ≤ (textOr lib payload "password" "").length := by
  -- the grants are made before the password is checked
  have hgrants : (registerGrants r (lib.elements r.roles) s.permissions).1 = .ok () ↔
      GrantsFree s.permissions r := by
    rw [registerGrants_ok, GrantsFree]
    simp only [lib.mem_elements]
  unfold enlist
  rw [h]
  simp only
  cases hscope : dataScope? r.dataScopeValue with
  | none => simp
  | some scope =>
      simp only [Option.some.injEq, exists_eq_left']
      cases hmembership : d'.addMembership lib.repr (r.membership actorId scope) with
      | error e => simp
      | ok d'' =>
          obtain ⟨principal, hprincipal⟩ := principalFor_isSome hmembership
          rw [← hgrants]
          simp only [hprincipal]
          cases (registerGrants r (lib.elements r.roles) s.permissions).1 with
          | error e => simp
          | ok u =>
              by_cases hpassword : (textOr lib payload "password" "").length < 8
              · simp [hpassword]
              · simp [hpassword, not_lt.1 hpassword]

end Steps

/-! ## Atomicity -/

variable (payload : Json.Fields) (uuid salt : String) (s : AuthService)

/-- If the registration raises, then the directory, the grants and the accounts
are what they were. -/
def Atomic : Prop :=
  ∀ e, (register lib payload uuid salt s).1 = .error e → (register lib payload uuid salt s).2 = s

/-- A payload that can be read is accepted, or its actor is refused where the
boundary is there already. -/
def Unharmed : Prop :=
  ∀ r, readRequest lib s.accounts payload = .ok r →
    Accepted lib s payload r ("actor_" ++ uuid) ∨
      (ActorRefused s r ("actor_" ++ uuid) ∧ Untouched s.directory r)

variable {payload uuid salt s}

theorem register_read {r : Request} (h : readRequest lib s.accounts payload = .ok r) :
    register lib payload uuid salt s =
      enlist lib payload r ("actor_" ++ uuid) salt { s with directory := opened s.directory r } := by
  unfold register
  rw [h]
  simp only [openBoundary_eq]

/-- Once the actor is inserted, a registration returns if the rest is accepted. -/
theorem returns_iff (salt : String) {r : Request} {actorId : String}
    (hactor : OrganizationOpen s.directory r ∧ s.directory.actors.get? actorId = none) :
    (∃ body, (enlist lib payload r actorId salt
        { s with directory := opened s.directory r }).1 = .ok body) ↔
      Accepted lib s payload r actorId := by
  rw [enlist_returns lib payload salt _ (addActor_opened.2 ⟨hactor, rfl⟩)]
  simp only [addMembership_opened hactor.1]
  constructor
  · rintro ⟨⟨scope, hscope, -, ⟨hworkspace, hmembership⟩, -⟩, hgrants, hpassword⟩
    exact {
      organization := hactor.1
      actor := hactor.2
      dataScope := by rw [hscope]; rfl
      workspace := hworkspace
      membership := hmembership
      grants := hgrants
      password := hpassword }
  -- each check passes, so none of them ends the registration
  · intro h
    obtain ⟨scope, hscope⟩ := Option.isSome_iff_exists.1 h.dataScope
    exact ⟨⟨scope, hscope, _, ⟨h.workspace, h.membership⟩, rfl⟩, h.grants, h.password⟩

/-- The actor is refused: what is left behind is the boundary. -/
theorem atomic_of_refused {r : Request} (hread : readRequest lib s.accounts payload = .ok r)
    (hrefused : ActorRefused s r ("actor_" ++ uuid)) :
    Atomic lib payload uuid salt s ↔ Untouched s.directory r := by
  cases hadd : (opened s.directory r).addActor (r.actor ("actor_" ++ uuid)) with
  | ok d' => exact absurd (addActor_opened.1 hadd).1 hrefused
  | error e =>
      obtain ⟨⟨e', hraises⟩, hstate⟩ :=
        enlist_refused lib payload salt { s with directory := opened s.directory r } hadd
      unfold Atomic
      rw [register_read lib hread, hraises, hstate, ← opened_eq_self]
      constructor
      · intro h
        exact congrArg AuthService.directory (h e' rfl)
      · intro h e _
        rw [h]

/-- The actor is inserted: the registration is atomic only if it returns. -/
theorem atomic_of_inserted {r : Request} (hread : readRequest lib s.accounts payload = .ok r)
    (hactor : OrganizationOpen s.directory r ∧
      s.directory.actors.get? ("actor_" ++ uuid) = none) :
    Atomic lib payload uuid salt s ↔ Accepted lib s payload r ("actor_" ++ uuid) := by
  rw [← returns_iff lib salt hactor]
  unfold Atomic
  rw [register_read lib hread]
  constructor
  · intro h
    cases hresult : (enlist lib payload r ("actor_" ++ uuid) salt
        { s with directory := opened s.directory r }).1 with
    | ok body => exact ⟨body, rfl⟩
    | error e =>
        -- the new actor was not there before
        have hactors := enlist_actors lib payload salt
          { s with directory := opened s.directory r } (addActor_opened.2 ⟨hactor, rfl⟩)
        have hget := s.directory.actors.get?_put_self (r.actor ("actor_" ++ uuid))
        rw [h e hresult] at hactors
        change s.directory.actors = s.directory.actors.put (r.actor ("actor_" ++ uuid)) at hactors
        rw [← hactors] at hget
        have hnone := hactor.2
        change s.directory.actors.get? ("actor_" ++ uuid) = some _ at hget
        rw [hnone] at hget
        cases hget
  · rintro ⟨body, hbody⟩ e he
    rw [hbody] at he
    cases he

theorem atomic_iff : Atomic lib payload uuid salt s ↔ Unharmed lib payload uuid s := by
  unfold Unharmed
  cases hread : readRequest lib s.accounts payload with
  | error e =>
      have hstate : (register lib payload uuid salt s).2 = s := by
        unfold register
        rw [hread]
      constructor
      · intro _ r hr
        cases hr
      · intro _ _ _
        exact hstate
  | ok r =>
      simp only [Except.ok.injEq, forall_eq']
      -- past the actor nothing is taken back
      by_cases hactor : OrganizationOpen s.directory r ∧
          s.directory.actors.get? ("actor_" ++ uuid) = none
      · rw [atomic_of_inserted lib hread hactor]
        constructor
        · exact .inl
        · rintro (h | ⟨hrefused, -⟩)
          · exact h
          · exact absurd hactor hrefused
      · rw [atomic_of_refused lib hread hactor]
        constructor
        · intro h
          exact .inr ⟨hactor, h⟩
        · rintro (h | ⟨-, h⟩)
          · exact absurd ⟨h.organization, h.actor⟩ hactor
          · exact h

/-! ## Two registrations that are refused too late -/

/-- A library for the examples: a loop takes the elements in their order. -/
def plain : Library where
  repr _ := ""
  lower := id
  pbkdf2 password _ := password
  sha256 := id
  elements set := Quot.liftOn set.val (List.insertionSort (· ≤ ·)) fun xs ys h =>
    List.Perm.eq_of_pairwise (fun _ _ _ _ => le_antisymm) (List.pairwise_insertionSort _ xs)
      (List.pairwise_insertionSort _ ys)
      ((List.perm_insertionSort _ xs).trans (h.trans (List.perm_insertionSort _ ys).symm))
  mem_elements := by
    rintro ⟨⟨xs⟩, _⟩ x
    exact List.mem_insertionSort _

/-- A registration of a lead. -/
def lead (email password : String) (permissions : List String) : Json.Fields :=
  [("email", .str email), ("password", .str password), ("roles", .arr [.str "lead"]),
    ("permissions", .arr (permissions.map .str))]

/-- The service with one lead. -/
def staffed : AuthService := (register plain (lead "first" "password" []) "0" "salt" .empty).2

/-- Another permission for the same role is refused, and so is a short password,
but the actor and the membership stay. -/
theorem refused_too_late :
    ¬ Atomic plain (lead "second" "password" ["approve"]) "1" "salt" staffed ∧
      ¬ Atomic plain (lead "second" "short" []) "1" "salt" staffed := by
  constructor
  · intro h
    have hstate := h (.permissionConflict ⟨"role grant already exists"⟩) (by rfl)
    have hcount := congrArg (fun s => s.directory.memberships.values.length) hstate
    revert hcount
    decide
  · intro h
    have hstate := h (.platform
      { code := "WEAK_PASSWORD"
        message := "password must be at least 8 characters long" }) (by rfl)
    have hcount := congrArg (fun s => s.directory.memberships.values.length) hstate
    revert hcount
    decide

end Alos.Authentication
