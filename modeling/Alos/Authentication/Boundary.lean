import Mathlib.Logic.Relation
import Alos.Authentication.Service

/-! # The tenant boundary

Registrations swallow the conflicts of their first three inserts and go on, with
ids of the caller's choice. The boundary of tenants and organizations holds
nevertheless, because every record that is stored names one that was stored
before and agrees with it.

* `Added` lists what a registration does to the directory, one insert at a time
  (`register_added`);
* `WellBound` is the boundary, and `WellBound.added` its step lemma;
* `bounded_after`: after any registrations the directory is well bound, and the
  places of any two principals that it gives out are the same if their
  workspaces are.
-/

namespace Alos.Authentication

open Py

/-! ## Inserts -/

/-- One insert into the directory. -/
inductive Added (d d' : IdentityDirectory) : Prop where
  | tenant (tenant : Tenant) (h : d.addTenant tenant = .ok d')
  | organization (organization : Organization) (h : d.addOrganization organization = .ok d')
  | workspace (workspace : Workspace) (h : d.addWorkspace workspace = .ok d')
  | actor (actor : Actor) (h : d.addActor actor = .ok d')
  | membership (repr : Json → String) (membership : Membership)
      (h : d.addMembership repr membership = .ok d')

/-- Inserts, one after the other. -/
abbrev Grown := Relation.ReflTransGen Added

/-- A swallowed conflict inserts nothing. -/
theorem grown_attempt {d : IdentityDirectory}
    {x : Except IdentityConflictError IdentityDirectory} (h : ∀ d', x = .ok d' → Added d d') :
    Grown d (attempt d x) := by
  unfold attempt
  split
  · rename_i d'
    exact .single (h d' rfl)
  · exact .refl

theorem grown_openBoundary (d : IdentityDirectory) (r : Request) : Grown d (openBoundary d r) := by
  have htenant : Grown d (attempt d (d.addTenant r.tenant)) :=
    grown_attempt fun _ => .tenant r.tenant
  have horganization := htenant.trans (grown_attempt fun _ => .organization r.organization)
  exact horganization.trans (grown_attempt fun _ => .workspace r.workspace)

variable {lib : Library}

theorem grown_enlist (payload : Json.Fields) (r : Request) (actorId salt : String)
    (s : AuthService) : Grown s.directory (enlist lib payload r actorId salt s).2.directory := by
  unfold enlist
  split
  · exact .refl
  · rename_i withActor hactor
    have hgrown : Grown s.directory withActor := .single (.actor _ hactor)
    simp only
    split
    · exact hgrown
    · split
      · exact hgrown
      · rename_i withMembership hmembership
        have hgrown := hgrown.tail (.membership _ _ hmembership)
        -- nothing after the membership touches the directory
        repeat' split
        all_goals exact hgrown

/-- A call, with what it draws at random. -/
structure Call where
  payload : Json.Fields
  uuid : String
  salt : String

/-- The service after a registration, whether it returned or raised. -/
def next (lib : Library) (s : AuthService) (c : Call) : AuthService :=
  (register lib c.payload c.uuid c.salt s).2

/-- The service after registrations. -/
def after (lib : Library) (s : AuthService) (calls : List Call) : AuthService :=
  calls.foldl (next lib) s

theorem grown_next (s : AuthService) (c : Call) : Grown s.directory (next lib s c).directory := by
  unfold next register
  split
  · exact .refl
  · rename_i r _
    exact (grown_openBoundary s.directory r).trans
      (grown_enlist c.payload r ("actor_" ++ c.uuid) c.salt
        { s with directory := openBoundary s.directory r })

theorem grown_after (s : AuthService) (calls : List Call) :
    Grown s.directory (after lib s calls).directory := by
  induction calls generalizing s with
  | nil => exact .refl
  | cons c calls ih => exact (grown_next s c).trans (ih (next lib s c))

/-! ## The boundary -/

/-- Every record lies in the boundary of those that it names. -/
structure WellBound (d : IdentityDirectory) : Prop where
  organizations : Refers d.organizations Organization.tenantId d.tenants fun _ _ => True
  workspaces : Refers d.workspaces Workspace.organizationId d.organizations
    fun w o => o.tenantId = w.tenantId
  actors : Refers d.actors Actor.organizationId d.organizations fun a o => o.tenantId = a.tenantId
  joinedActors : Refers d.memberships Membership.actorId d.actors
    fun m a => a.tenantId = m.tenantId ∧ a.organizationId = m.organizationId
  joinedWorkspaces : Refers d.memberships Membership.workspaceId d.workspaces
    fun m w => w.tenantId = m.tenantId ∧ w.organizationId = m.organizationId

theorem wellBound_empty : WellBound .empty := ⟨.empty, .empty, .empty, .empty, .empty⟩

variable {d d' : IdentityDirectory}

/-- An insert keeps the boundary: the new record was checked against the records
that it names, and the records that name others still find them. -/
theorem WellBound.added (h : WellBound d) (hadd : Added d d') : WellBound d' := by
  -- what is added names a place that is there
  cases hadd with
  | tenant tenant hadd =>
      obtain ⟨tenants, hinsert, rfl⟩ := IdentityDirectory.addTenant_ok.1 hadd
      exact { h with organizations := h.organizations.mono (Table.within_insert? hinsert) }
  | organization organization hadd =>
      obtain ⟨⟨t, ht, -⟩, organizations, hinsert, rfl⟩ :=
        IdentityDirectory.addOrganization_ok.1 hadd
      have hwithin := Table.within_insert? hinsert
      exact { h with
        organizations := h.organizations.insert? hinsert ⟨t, ht, trivial⟩
        workspaces := h.workspaces.mono hwithin
        actors := h.actors.mono hwithin }
  | workspace workspace hadd =>
      obtain ⟨⟨o, ho, -, htenant⟩, workspaces, hinsert, rfl⟩ :=
        IdentityDirectory.addWorkspace_ok.1 hadd
      exact { h with
        workspaces := h.workspaces.insert? hinsert ⟨o, ho, htenant⟩
        joinedWorkspaces := h.joinedWorkspaces.mono (Table.within_insert? hinsert) }
  | actor actor hadd =>
      obtain ⟨⟨o, ho, -, htenant⟩, actors, hinsert, rfl⟩ := IdentityDirectory.addActor_ok.1 hadd
      exact { h with
        actors := h.actors.insert? hinsert ⟨o, ho, htenant⟩
        joinedActors := h.joinedActors.mono (Table.within_insert? hinsert) }
  | membership repr membership hadd =>
      obtain ⟨⟨⟨w, hw, -, hplace⟩, a, ha, -, hactor⟩, memberships, hinsert, rfl⟩ :=
        IdentityDirectory.addMembership_ok.1 hadd
      exact { h with
        joinedActors := h.joinedActors.insert? hinsert ⟨a, ha, hactor⟩
        joinedWorkspaces := h.joinedWorkspaces.insert? hinsert ⟨w, hw, hplace⟩ }

theorem WellBound.grown (h : WellBound d) (hgrown : Grown d d') : WellBound d' := by
  induction hgrown with
  | refl => exact h
  | tail _ hadd ih => exact ih.added hadd

/-! ## The principals given out -/

/-- Where a principal works. -/
structure Place where
  tenantId : String
  organizationId : String
  workspaceId : String

def placeOf (principal : Principal) : Place where
  tenantId := principal.tenantId
  organizationId := principal.organizationId
  workspaceId := principal.workspaceId

/-- The place that a response names. -/
structure Shows (body : Json.Fields) (place : Place) : Prop where
  tenantId : body.get? "tenant_id" = some (.str place.tenantId)
  organizationId : body.get? "organization_id" = some (.str place.organizationId)
  workspaceId : body.get? "workspace_id" = some (.str place.workspaceId)

/-- The places of the principals that the service can return. -/
inductive Returned (lib : Library) (s : AuthService) : Place → Prop where
  | principalFor {actorId workspaceId : String} {principal : Principal}
      (h : s.directory.principalFor actorId workspaceId = some principal) :
      Returned lib s (placeOf principal)
  | login {email password : String} {body : Json.Fields} {place : Place}
      (h : login lib s email password = .ok body) (hbody : Shows body place) :
      Returned lib s place
  | whoami {token : String} {body : Json.Fields} {place : Place}
      (h : whoami lib s token = .ok body) (hbody : Shows body place) : Returned lib s place

theorem Shows.setItem {body : Json.Fields} {place : Place} (h : Shows body place) {key : String}
    (hkey : key ≠ "tenant_id" ∧ key ≠ "organization_id" ∧ key ≠ "workspace_id") (value : Json) :
    Shows (setItem body key value) place := by
  obtain ⟨htenant, horganization, hworkspace⟩ := hkey
  constructor
  · rw [get?_setItem, if_neg htenant.symm, h.tenantId]
  · rw [get?_setItem, if_neg horganization.symm, h.organizationId]
  · rw [get?_setItem, if_neg hworkspace.symm, h.workspaceId]

theorem Shows.unique {body : Json.Fields} {p q : Place} (hp : Shows body p) (hq : Shows body q) :
    p = q := by
  have htenant := hp.tenantId.symm.trans hq.tenantId
  have horganization := hp.organizationId.symm.trans hq.organizationId
  have hworkspace := hp.workspaceId.symm.trans hq.workspaceId
  simp only [Option.some.injEq, Json.str.injEq] at htenant horganization hworkspace
  rcases p with ⟨tenantId, organizationId, workspaceId⟩
  rcases q with ⟨tenantId', organizationId', workspaceId'⟩
  simp only [Place.mk.injEq]
  exact ⟨htenant, horganization, hworkspace⟩

theorem shows_serializePrincipal (principal : Principal) (email : String) :
    Shows (serializePrincipal principal email none) (placeOf principal) := by
  unfold serializePrincipal
  exact Shows.setItem ⟨rfl, rfl, rfl⟩ (by decide) _

theorem shows_login {s : AuthService} {email password : String} {body : Json.Fields}
    (h : login lib s email password = .ok body) :
    ∃ actorId workspaceId principal,
      s.directory.principalFor actorId workspaceId = some principal ∧
        Shows body (placeOf principal) := by
  unfold login at h
  simp only at h
  split at h
  · cases h
  · split at h
    · cases h
    · rename_i account _ _ principal hprincipal
      cases h
      have hshows := shows_serializePrincipal principal account.email
      exact ⟨_, _, principal, hprincipal, (hshows.setItem (by decide) _).setItem (by decide) _⟩

theorem shows_whoami {s : AuthService} {token : String} {body : Json.Fields}
    (h : whoami lib s token = .ok body) :
    ∃ actorId workspaceId principal,
      s.directory.principalFor actorId workspaceId = some principal ∧
        Shows body (placeOf principal) := by
  unfold whoami at h
  split at h
  · cases h
  · split at h
    · cases h
    · split at h
      · cases h
      · rename_i account _ _ principal hprincipal
        cases h
        exact ⟨_, _, principal, hprincipal, shows_serializePrincipal principal account.email⟩

/-- Whatever is returned comes from the directory. -/
theorem Returned.exists_principal {s : AuthService} {place : Place} (h : Returned lib s place) :
    ∃ actorId workspaceId principal,
      s.directory.principalFor actorId workspaceId = some principal ∧ place = placeOf principal := by
  cases h with
  | principalFor h => exact ⟨_, _, _, h, rfl⟩
  | login h hbody =>
      obtain ⟨actorId, workspaceId, principal, hprincipal, hshows⟩ := shows_login h
      exact ⟨actorId, workspaceId, principal, hprincipal, hbody.unique hshows⟩
  | whoami h hbody =>
      obtain ⟨actorId, workspaceId, principal, hprincipal, hshows⟩ := shows_whoami h
      exact ⟨actorId, workspaceId, principal, hprincipal, hbody.unique hshows⟩

/-- A principal has the place of a membership. -/
theorem exists_membership {actorId workspaceId : String} {principal : Principal}
    (h : d.principalFor actorId workspaceId = some principal) :
    ∃ m ∈ d.memberships.values, placeOf principal = ⟨m.tenantId, m.organizationId, m.workspaceId⟩ := by
  unfold IdentityDirectory.principalFor at h
  split at h
  · cases h
  · rename_i m hm
    split at h
    · cases h
    · cases h
      exact ⟨m, Table.mem_of_get? hm, rfl⟩

/-- The workspace that two memberships name settles where they are. -/
theorem WellBound.place_eq (h : WellBound d) {m m' : Membership} (hm : m ∈ d.memberships.values)
    (hm' : m' ∈ d.memberships.values) (hworkspace : m.workspaceId = m'.workspaceId) :
    m.tenantId = m'.tenantId ∧ m.organizationId = m'.organizationId := by
  obtain ⟨w, hw, htenant, horganization⟩ := h.joinedWorkspaces m hm
  obtain ⟨w', hw', htenant', horganization'⟩ := h.joinedWorkspaces m' hm'
  rw [hworkspace, hw'] at hw
  cases hw
  exact ⟨htenant.symm.trans htenant', horganization.symm.trans horganization'⟩

/-- The directory is well bound, and the workspace of a principal settles its
tenant and its organization. -/
structure Bounded (lib : Library) (s : AuthService) : Prop where
  directory : WellBound s.directory
  places : ∀ p q, Returned lib s p → Returned lib s q → p.workspaceId = q.workspaceId →
    p.tenantId = q.tenantId ∧ p.organizationId = q.organizationId

theorem WellBound.bounded {s : AuthService} (h : WellBound s.directory) : Bounded lib s := by
  refine ⟨h, ?_⟩
  intro p q hp hq hworkspace
  obtain ⟨_, _, principal, hprincipal, rfl⟩ := hp.exists_principal
  obtain ⟨_, _, principal', hprincipal', rfl⟩ := hq.exists_principal
  obtain ⟨m, hm, hplace⟩ := exists_membership hprincipal
  obtain ⟨m', hm', hplace'⟩ := exists_membership hprincipal'
  rw [hplace, hplace'] at hworkspace ⊢
  exact h.place_eq hm hm' hworkspace

/-- After any registrations, returned or raised, from the empty service. -/
theorem bounded_after (lib : Library) (calls : List Call) :
    Bounded lib (after lib .empty calls) :=
  (wellBound_empty.grown (grown_after .empty calls)).bounded

end Alos.Authentication
