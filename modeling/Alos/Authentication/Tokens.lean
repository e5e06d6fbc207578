import Alos.Authentication.Boundary
import Alos.Authentication.Failure

/-! # The access token of an account

A token is the digest of the e-mail, the actor, the workspace and the tenant of
an account, joined by colons; `whoami` takes the first account with the token.

* `joined_eq_iff`: what it means that two joined lists are the same, for lists
  in general;
* `registered_after`: every account has a principal;
* `roundTrip_iff`: every token leads back to its account unless the e-mail of an
  account goes on where that of another one ends (`Collides`).
-/

namespace Alos.Authentication

open Py

/-! ## Joined lists -/

/-- Two joins at a separator that are the same are cut at the same place, or
one of them at an earlier separator of the other. -/
theorem joined_eq_iff {α : Type} {sep : α} {xs ys rest rest' : List α} :
    xs ++ sep :: rest = ys ++ sep :: rest' ↔
      (xs = ys ∧ rest = rest') ∨
      (∃ zs, ys = xs ++ sep :: zs ∧ rest = zs ++ sep :: rest') ∨
      (∃ zs, xs = ys ++ sep :: zs ∧ rest' = zs ++ sep :: rest) := by
  rw [List.append_eq_append_iff]
  constructor
  -- one of the two first parts is the longer one, by a separator at least
  · rintro (⟨zs, rfl, h⟩ | ⟨zs, rfl, h⟩)
    · cases zs with
      | nil => exact .inl ⟨by simp, by simpa using h⟩
      | cons z zs =>
          rcases List.cons.inj h with ⟨rfl, rfl⟩
          exact .inr (.inl ⟨zs, rfl, rfl⟩)
    · cases zs with
      | nil => exact .inl ⟨by simp, by simpa using h.symm⟩
      | cons z zs =>
          rcases List.cons.inj h with ⟨rfl, rfl⟩
          exact .inr (.inr ⟨zs, rfl, rfl⟩)
  · rintro (⟨rfl, rfl⟩ | ⟨zs, rfl, rfl⟩ | ⟨zs, rfl, rfl⟩)
    · exact .inl ⟨[], by simp, by simp⟩
    · exact .inl ⟨sep :: zs, rfl, rfl⟩
    · exact .inr ⟨sep :: zs, rfl, rfl⟩

/-- The same of texts that are joined by a colon. -/
theorem colon_eq_iff {s t rest rest' : String} :
    s ++ ":" ++ rest = t ++ ":" ++ rest' ↔
      (s = t ∧ rest = rest') ∨
      (∃ u, t = s ++ ":" ++ u ∧ rest = u ++ ":" ++ rest') ∨
      (∃ u, s = t ++ ":" ++ u ∧ rest' = u ++ ":" ++ rest) := by
  have hlist : ∀ a b : String, (a ++ ":" ++ b).toList = a.toList ++ ':' :: b.toList := by
    intro a b
    simp [String.toList_append]
  have hexists : ∀ P : List Char → Prop, (∃ zs, P zs) ↔ ∃ u : String, P u.toList := by
    intro P
    constructor
    · rintro ⟨zs, h⟩
      exact ⟨String.ofList zs, by simpa using h⟩
    · rintro ⟨u, h⟩
      exact ⟨u.toList, h⟩
  rw [← String.toList_inj, hlist, hlist, joined_eq_iff, hexists, hexists]
  simp only [← hlist, String.toList_inj]

/-! ## Every account has a principal -/

/-- The principal of every account can be resolved. -/
def Registered (s : AuthService) : Prop :=
  ∀ a ∈ s.accounts.values, ∃ principal, s.directory.principalFor a.actorId a.workspaceId = some principal

variable {lib : Library} {d d' : IdentityDirectory}

theorem principalFor_congr (h : d'.memberships = d.memberships) (actorId workspaceId : String) :
    d'.principalFor actorId workspaceId = d.principalFor actorId workspaceId := by
  unfold IdentityDirectory.principalFor
  rw [h]

/-- No insert takes a principal away. -/
theorem Added.principalFor (h : Added d d') {actorId workspaceId : String} {principal : Principal}
    (hprincipal : d.principalFor actorId workspaceId = some principal) :
    d'.principalFor actorId workspaceId = some principal := by
  -- only a membership can give a principal, and not to a pair that has one
  cases h with
  | tenant tenant h =>
      rcases IdentityDirectory.addTenant_ok.1 h with ⟨tenants, -, rfl⟩
      rwa [principalFor_congr rfl]
  | organization organization h =>
      rcases IdentityDirectory.addOrganization_ok.1 h with ⟨-, organizations, -, rfl⟩
      rwa [principalFor_congr rfl]
  | workspace workspace h =>
      rcases IdentityDirectory.addWorkspace_ok.1 h with ⟨-, workspaces, -, rfl⟩
      rwa [principalFor_congr rfl]
  | actor actor h =>
      rcases IdentityDirectory.addActor_ok.1 h with ⟨-, actors, -, rfl⟩
      rwa [principalFor_congr rfl]
  | membership repr membership h =>
      rcases IdentityDirectory.addMembership_ok.1 h with ⟨-, memberships, hinsert, rfl⟩
      rcases Table.insert?_eq_some.1 hinsert with ⟨hfree, rfl⟩
      unfold IdentityDirectory.principalFor at hprincipal ⊢
      cases hget : d.memberships.get? (actorId, workspaceId) with
      | none =>
          rw [hget] at hprincipal
          cases hprincipal
      | some m =>
          rw [hget] at hprincipal
          simp only [Table.get?_put_of_none hfree hget]
          exact hprincipal

theorem Grown.principalFor (h : Grown d d') {actorId workspaceId : String} {principal : Principal}
    (hprincipal : d.principalFor actorId workspaceId = some principal) :
    d'.principalFor actorId workspaceId = some principal := by
  induction h with
  | refl => exact hprincipal
  | tail _ hadd ih => exact hadd.principalFor ih

/-- The place has been given out after some of the registrations. -/
def GivenOut (lib : Library) (calls : List Call) (place : Place) : Prop :=
  ∃ n, Returned lib (after lib .empty (calls.take n)) place

/-- What has been given out can be given out to the end. -/
theorem GivenOut.returned {calls : List Call} {place : Place} (h : GivenOut lib calls place) :
    Returned lib (after lib .empty calls) place := by
  rcases h with ⟨n, h⟩
  rcases h.exists_principal with ⟨_, _, principal, hprincipal, rfl⟩
  have hsplit : after lib .empty calls =
      after lib (after lib .empty (calls.take n)) (calls.drop n) := by
    unfold after
    rw [← List.foldl_append, List.take_append_drop]
  rw [hsplit]
  exact .principalFor (Grown.principalFor (grown_after ..) hprincipal)

/-- Principals that are given out at any two times are in one place if they are in one
workspace. -/
theorem GivenOut.place_eq {calls : List Call} {p q : Place} (hp : GivenOut lib calls p)
    (hq : GivenOut lib calls q) (hworkspace : p.workspaceId = q.workspaceId) :
    p.tenantId = q.tenantId ∧ p.organizationId = q.organizationId := by
  have hbounded : Bounded lib (after lib .empty calls) :=
    (wellBound_empty.grown (grown_after .empty calls)).bounded
  exact hbounded.places p q hp.returned hq.returned hworkspace

/-- The account that a registration stores, if any, has a principal. -/
theorem enlist_accounts (payload : Json.Fields) (r : Request) (actorId salt : String)
    (s : AuthService) : ∀ a ∈ (enlist lib payload r actorId salt s).2.accounts.values,
      a ∈ s.accounts.values ∨ ∃ principal, (enlist lib payload r actorId salt s).2.directory.principalFor
        a.actorId a.workspaceId = some principal := by
  unfold enlist
  intro a
  split
  · exact .inl
  · simp only
    split
    · exact .inl
    · split
      · exact .inl
      · rename_i hmembership
        rcases principalFor_isSome hmembership with ⟨principal, hprincipal⟩
        split
        · exact .inl
        · split
          · exact .inl
          · -- the one exit before which the account is stored
            simp only [hprincipal, Table.mem_put]
            rintro (rfl | ⟨ha, -⟩)
            · exact .inr ⟨principal, hprincipal⟩
            · exact .inl ha

theorem Registered.next {s : AuthService} (h : Registered s) (c : Call) :
    Registered (next lib s c) := by
  have hgrown : Grown s.directory (Authentication.next lib s c).directory := grown_next s c
  unfold Authentication.next register at hgrown ⊢
  split
  · exact h
  · rename_i r hread
    rw [hread] at hgrown
    intro a ha
    rcases enlist_accounts _ _ _ _ _ a ha with hold | hnew
    · rcases h a hold with ⟨principal, hprincipal⟩
      exact ⟨principal, Grown.principalFor hgrown hprincipal⟩
    · exact hnew

theorem registered_after (calls : List Call) : Registered (after lib .empty calls) := by
  have hrun : ∀ s, Registered s → Registered (after lib s calls) := by
    induction calls with
    | nil => exact fun s h => h
    | cons c calls ih => exact fun s h => ih _ (h.next c)
  exact hrun .empty fun a ha => by cases ha

/-! ## The round trip -/

/-- What `_issue_token` takes the digest of. -/
def preimage (a : AccountRecord) : String :=
  a.email ++ ":" ++ a.actorId ++ ":" ++ a.workspaceId ++ ":" ++ a.tenantId

theorem issueToken_eq (a : AccountRecord) : issueToken lib a = "alos_" ++ lib.sha256 (preimage a) :=
  rfl

/-- The digests of the registered accounts do not collide. -/
def CollisionFree (lib : Library) (s : AuthService) : Prop :=
  ∀ p ∈ s.accounts.values, ∀ q ∈ s.accounts.values,
    lib.sha256 (preimage p) = lib.sha256 (preimage q) → preimage p = preimage q

/-- The e-mail of `q` goes on where that of `p` ends, with a colon and a text with
which the rest of `p` begins, and the rest of `q` is what is left of it. -/
def Collides (p q : AccountRecord) : Prop :=
  ∃ text, q.email = p.email ++ ":" ++ text ∧
    p.actorId ++ ":" ++ p.workspaceId ++ ":" ++ p.tenantId =
      text ++ ":" ++ (q.actorId ++ ":" ++ q.workspaceId ++ ":" ++ q.tenantId)

/-- A login hands out the token of its account, and every token leads `whoami`
back to the principal of its own account. -/
structure RoundTrip (lib : Library) (s : AuthService) : Prop where
  issued : ∀ email password body, login lib s email password = .ok body →
    ∃ a, s.accounts.get? (lib.lower (strip email)) = some a ∧
      body.get? "access_token" = some (.str (issueToken lib a))
  resolved : ∀ a ∈ s.accounts.values, ∃ principal,
    s.directory.principalFor a.actorId a.workspaceId = some principal ∧
      whoami lib s (issueToken lib a) = .ok (serializePrincipal principal a.email none)

theorem preimage_eq_iff {p q : AccountRecord} (h : p.email ≠ q.email) :
    preimage p = preimage q ↔ Collides p q ∨ Collides q p := by
  have hsplit : ∀ a : AccountRecord, preimage a =
      a.email ++ ":" ++ (a.actorId ++ ":" ++ a.workspaceId ++ ":" ++ a.tenantId) := by
    intro a
    simp only [preimage, String.append_assoc]
  rw [hsplit, hsplit, colon_eq_iff, Collides, Collides]
  simp [h]

/-- What a login returns holds the token of the account. -/
theorem login_issues {s : AuthService} {email password : String} {body : Json.Fields}
    (h : login lib s email password = .ok body) :
    ∃ a, s.accounts.get? (lib.lower (strip email)) = some a ∧
      body.get? "access_token" = some (.str (issueToken lib a)) := by
  unfold login at h
  simp only at h
  split at h
  · cases h
  · rename_i a haccount
    split at h
    · cases h
    · cases h
      rw [Option.filter_eq_some_iff] at haccount
      exact ⟨a, haccount.1, by rw [get?_setItem, if_pos rfl]⟩

/-- A token that only one account has leads to that account. -/
theorem whoami_eq {s : AuthService} {a : AccountRecord} (ha : a ∈ s.accounts.values)
    (honly : ∀ b ∈ s.accounts.values, issueToken lib b = issueToken lib a → b = a)
    {principal : Principal}
    (hprincipal : s.directory.principalFor a.actorId a.workspaceId = some principal) :
    whoami lib s (issueToken lib a) = .ok (serializePrincipal principal a.email none) := by
  have hnonempty : issueToken lib a ≠ "" := by
    rw [issueToken_eq]
    simp
  -- the first account with the token, which may be another one
  have hfind : s.accounts.values.find? (fun b => issueToken lib b = issueToken lib a) = some a := by
    cases hfound : s.accounts.values.find? fun b => issueToken lib b = issueToken lib a with
    | none =>
        rw [List.find?_eq_none] at hfound
        exact absurd (by simp) (hfound a ha)
    | some b =>
        have hb := List.find?_some hfound
        rw [decide_eq_true_eq] at hb
        rw [honly b (List.mem_of_find?_eq_some hfound) hb]
  unfold whoami
  rw [if_neg hnonempty, hfind]
  simp only [hprincipal]

theorem serializePrincipal_email (principal : Principal) (email : String) :
    (serializePrincipal principal email none).get? "email" = some (.str email) := by
  unfold serializePrincipal
  simp only
  rw [get?_setItem, if_pos rfl]

/-- Accounts that collide have one token, which leads to one of them only. -/
theorem not_roundTrip {s : AuthService} {p q : AccountRecord} (hp : p ∈ s.accounts.values)
    (hq : q ∈ s.accounts.values) (hcollides : Collides p q) : ¬ RoundTrip lib s := by
  intro h
  have hne : p.email ≠ q.email := by
    rcases hcollides with ⟨text, hemail, -⟩
    intro hsame
    have hlength := congrArg String.length (hsame.trans hemail)
    have hcolon : ":".length = 1 := rfl
    simp only [String.length_append] at hlength
    omega
  -- the two accounts get one token, and `whoami` answers it with one of them
  have htoken : issueToken lib p = issueToken lib q := by
    rw [issueToken_eq, issueToken_eq, (preimage_eq_iff hne).2 (.inl hcollides)]
  rcases h.resolved p hp with ⟨principal, -, hresolved⟩
  rcases h.resolved q hq with ⟨principal', -, hresolved'⟩
  rw [htoken, hresolved'] at hresolved
  have hbody := congrArg (Json.Fields.get? · "email") (Except.ok.inj hresolved)
  simp only [serializePrincipal_email, Option.some.injEq, Json.str.injEq] at hbody
  exact hne hbody.symm

/-- After any registrations: every token leads back to its account just when the
e-mails of no two accounts collide. -/
theorem roundTrip_iff (lib : Library) (calls : List Call)
    (hsha : CollisionFree lib (after lib .empty calls)) :
    RoundTrip lib (after lib .empty calls) ↔
      ∀ p ∈ (after lib .empty calls).accounts.values, ∀ q ∈ (after lib .empty calls).accounts.values,
        ¬ Collides p q := by
  have hregistered : Registered (after lib .empty calls) := registered_after calls
  generalize after lib .empty calls = s at hsha hregistered
  constructor
  · intro h p hp q hq hcollides
    exact not_roundTrip hp hq hcollides h
  · intro h
    refine ⟨fun email password body => login_issues, ?_⟩
    intro a ha
    rcases hregistered a ha with ⟨principal, hprincipal⟩
    refine ⟨principal, hprincipal, whoami_eq ha ?_ hprincipal⟩
    intro b hb htoken
    by_contra hne
    -- an account is found under its e-mail
    have hemail : b.email ≠ a.email := by
      intro hemail
      have hget := Table.get?_of_mem hb
      rw [hemail, Table.get?_of_mem ha] at hget
      exact hne (Option.some.inj hget).symm
    rw [issueToken_eq, issueToken_eq, String.append_right_inj] at htoken
    rcases (preimage_eq_iff hemail).1 (hsha b hb a ha htoken) with hcollides | hcollides
    · exact h b hb a ha hcollides
    · exact h a ha b hb hcollides

/-- A registration in a tenant, an organization and a workspace of one's own. -/
def founder (email tenantId organizationId workspaceId uuid : String) : Call where
  payload := [("email", .str email), ("password", .str "password1"), ("tenant_id", .str tenantId),
    ("organization_id", .str organizationId), ("workspace_id", .str workspaceId)]
  uuid := uuid
  salt := "5f1d7a84db00d2fce00b31a7fc73224f"

/-- The account of a founder whose password has the digest. -/
def founded (email tenantId organizationId workspaceId uuid digest : String) : AccountRecord where
  email := email
  passwordHash := "pbkdf2_sha256$5f1d7a84db00d2fce00b31a7fc73224f$" ++ digest
  actorId := "actor_" ++ uuid
  tenantId := tenantId
  organizationId := organizationId
  workspaceId := workspaceId

/-- The digests of the password and of the accounts of two founders, who give nothing
but texts, which are not shown by their `repr`. -/
def digested : Library :=
  { plain with
    repr := fun _ => "?"
    pbkdf2 := fun password salt =>
      if password = "password1" ∧ salt = "5f1d7a84db00d2fce00b31a7fc73224f" then
        "dfb1843eea351891bb880edf0bfa67ae9ffd34199c1901a1a9ef8d5c19345906"
      else ""
    sha256 := fun text =>
      if text = "ada@alos.id:actor_0a1b2c3d4e5f:workspace_ada:tenant_ada" then
        "b3ab62cda104c3c19e1dba847d8a5624b9afcca3f42865c8fe1ab2978f2caa10"
      else if text = "eve@alos.id:actor_5f4e3d2c1b0a:workspace_eve:tenant_eve" then
        "b28a3ac15ac5fbe4ccf486c5f0c9e332751e7b6f17e738adb7eac8e9be6e969e"
      else "" }

/-- Two accounts with plain e-mails are told apart. -/
theorem roundTrip_founders :
    let s := after digested .empty
      [founder "ada@alos.id" "tenant_ada" "org_ada" "workspace_ada" "0a1b2c3d4e5f",
        founder "eve@alos.id" "tenant_eve" "org_eve" "workspace_eve" "5f4e3d2c1b0a"]
    s.accounts.values.length = 2 ∧ (RoundTrip digested s ↔
      ∀ p ∈ s.accounts.values, ∀ q ∈ s.accounts.values, ¬ Collides p q) := by
  refine ⟨by decide, roundTrip_iff digested _ ?_⟩
  unfold CollisionFree
  decide

/-- The tenant of the first account is chosen so that its token is that of the
second one. -/
theorem tokens_collide : ¬ RoundTrip plain (after plain .empty
    [founder "ada@alos.id" "actor_5f4e3d2c1b0a:workspace_eve:tenant_eve" "org_ada" "workspace_ada"
        "0a1b2c3d4e5f",
      founder "ada@alos.id:actor_0a1b2c3d4e5f:workspace_ada" "tenant_eve" "org_eve" "workspace_eve"
        "5f4e3d2c1b0a"]) := by
  refine not_roundTrip
    (p := founded "ada@alos.id" "actor_5f4e3d2c1b0a:workspace_eve:tenant_eve" "org_ada"
      "workspace_ada" "0a1b2c3d4e5f" "password1")
    (q := founded "ada@alos.id:actor_0a1b2c3d4e5f:workspace_ada" "tenant_eve" "org_eve"
      "workspace_eve" "5f4e3d2c1b0a" "password1") ?_ ?_ ⟨"actor_0a1b2c3d4e5f:workspace_ada", ?_, ?_⟩
  · decide
  · decide
  · decide
  · decide

end Alos.Authentication
