import Alos.Audit
import Alos.Newest
import Alos.Py

/-! # The audit repositories

`InMemoryAuditRepository` and `SqlAuditRepository` of `alos.audit.repository`. An
append is one atomic step of both. The rows of the database are the events in the
order of their inserts; among rows of one time stamp it answers in any order.

* `runs_agree`: the two give the same listings when the time stamps of every
  tenant increase in the order of the appends;
* `runs_isolated`: what a tenant is listed depends on its own events alone, in
  both.
-/

namespace Alos.Audit

open Py

/-- An event with `occurred_at`. -/
structure StampedEvent where
  event : AuditEvent
  occurredAt : Datetime

/-- The arguments of `list_events`. -/
structure Query where
  tenantId : String
  workspaceId : Option String := none
  limit : Int := 100

/-- The `ValueError` of `list_events`. -/
structure ListingError where
  message : String
deriving DecidableEq, Repr

/-- The refusal of a limit out of range. -/
def limitError : ListingError := ⟨"audit listing limit must be between 1 and 500"⟩

/-- What a listing returns. -/
abbrev Listing := Except ListingError (List StampedEvent)

/-- `not 1 <= limit <= 500` does not hold. -/
def Query.Valid (query : Query) : Prop := 1 ≤ query.limit ∧ query.limit ≤ 500

instance (query : Query) : Decidable query.Valid := inferInstanceAs (Decidable (_ ∧ _))

/-- A query without a workspace asks for all of them. -/
def Query.inWorkspace (query : Query) (e : StampedEvent) : Bool :=
  match query.workspaceId with
  | none => true
  | some workspaceId => e.event.workspaceId = workspaceId

/-- The events that the query is about. -/
def Query.matching (query : Query) (events : List StampedEvent) : List StampedEvent :=
  (events.filter fun e => e.event.tenantId = query.tenantId).filter query.inWorkspace

/-- `InMemoryAuditRepository.list_events`. -/
def listEvents (events : List StampedEvent) (query : Query) : Listing :=
  if ¬ query.Valid then .error limitError
  else .ok (newest query.limit.toNat (query.matching events))

/-- What `SqlAuditRepository.list_events` may return. -/
inductive Selected (rows : List StampedEvent) (query : Query) : Listing → Prop where
  | refused (h : ¬ query.Valid) : Selected rows query (.error limitError)
  | rows {found} (h : query.Valid)
      (hranked : Ranked StampedEvent.occurredAt query.limit.toNat (query.matching rows) found) :
      Selected rows query (.ok found)

/-- What is asked of a repository. -/
inductive Command where
  | append (e : StampedEvent)
  | list (query : Query)

/-- The tenant that a command is about. -/
def Command.tenantId : Command → String
  | .append e => e.event.tenantId
  | .list query => query.tenantId

/-- The event that a command appends. -/
def Command.event? : Command → Option StampedEvent
  | .append e => some e
  | .list _ => none

/-- The events that commands append. -/
def appended (commands : List Command) : List StampedEvent := commands.filterMap Command.event?

/-- The listings of a run of the repository in memory. -/
def memoryRun : List StampedEvent → List Command → List (Query × Listing)
  | _, [] => []
  | events, .append e :: commands => memoryRun (events ++ [e]) commands
  | events, .list query :: commands => (query, listEvents events query) :: memoryRun events commands

/-- The listings of a run of the repository in the database. -/
inductive SqlRun : List StampedEvent → List Command → List (Query × Listing) → Prop where
  | done {rows} : SqlRun rows [] []
  | append {rows e commands listings} (h : SqlRun (rows ++ [e]) commands listings) :
      SqlRun rows (.append e :: commands) listings
  | list {rows query commands listing listings} (hselected : Selected rows query listing)
      (h : SqlRun rows commands listings) :
      SqlRun rows (.list query :: commands) ((query, listing) :: listings)

/-! ## The two agree -/

/-- The time stamps of every tenant increase. -/
def InOrder (events : List StampedEvent) : Prop :=
  ∀ tenantId, Ascending StampedEvent.occurredAt (events.filter fun e => e.event.tenantId = tenantId)

/-- A part of the events is in order too. -/
theorem InOrder.sublist {events events' : List StampedEvent} (h : InOrder events')
    (hsub : events.Sublist events') : InOrder events :=
  fun tenantId => List.Pairwise.sublist (hsub.filter _) (h tenantId)

/-- So are those that match a query. -/
theorem InOrder.matching {events : List StampedEvent} (h : InOrder events) (query : Query) :
    Ascending StampedEvent.occurredAt (query.matching events) :=
  (h query.tenantId).filter _

/-- Of rows in order, the SQL query selects what the list gives. -/
theorem selected_iff {rows : List StampedEvent} (h : InOrder rows) {query : Query} {listing : Listing} :
    Selected rows query listing ↔ listing = listEvents rows query := by
  unfold listEvents
  constructor
  · intro hselected
    cases hselected with
    | refused hinvalid => rw [if_pos hinvalid]
    | rows hvalid hranked => rw [if_neg (not_not.2 hvalid), (ranked_iff (h.matching query)).1 hranked]
  · rintro rfl
    split
    · rename_i hinvalid
      exact .refused hinvalid
    · rename_i hvalid
      exact .rows (not_not.1 hvalid) ((ranked_iff (h.matching query)).2 rfl)

/-- Over the same events, the database has one run: that of the memory. -/
theorem sqlRun_iff {rows : List StampedEvent} {commands : List Command}
    {listings : List (Query × Listing)} (h : InOrder (rows ++ appended commands)) :
    SqlRun rows commands listings ↔ listings = memoryRun rows commands := by
  induction commands generalizing rows listings with
  | nil =>
      constructor
      · intro hrun
        cases hrun
        rfl
      · rintro rfl
        exact .done
  | cons command commands ih =>
      cases command with
      -- an append answers nothing and moves on to the rest
      | append e =>
          have hrest : InOrder ((rows ++ [e]) ++ appended commands) := by
            simpa [appended, Command.event?] using h
          constructor
          · intro hrun
            cases hrun with
            | append hrun => exact (ih hrest).1 hrun
          · intro hlistings
            exact .append ((ih hrest).2 hlistings)
      -- the listing is decided by the rows, which are in order
      | list query =>
          have hrest : InOrder (rows ++ appended commands) := h
          have hrows : InOrder rows := hrest.sublist (List.sublist_append_left _ _)
          constructor
          · intro hrun
            cases hrun with
            | list hselected hrun =>
                rw [(selected_iff hrows).1 hselected, (ih hrest).1 hrun, memoryRun]
          · rintro rfl
            exact .list ((selected_iff hrows).2 rfl) ((ih hrest).2 rfl)

/-- From empty repositories, whatever is appended and listed in which order. -/
theorem runs_agree (commands : List Command) (listings : List (Query × Listing))
    (h : InOrder (appended commands)) :
    SqlRun [] commands listings ↔ listings = memoryRun [] commands :=
  sqlRun_iff (by simpa using h)

/-- Events that come in the order of their times are in order. -/
theorem inOrder_of_ascending {events : List StampedEvent}
    (h : Ascending StampedEvent.occurredAt events) : InOrder events :=
  fun _ => h.filter _

/-- An event of a tenant. -/
def sampleEvent (tenantId entityId : String) (occurredAt : Datetime) : StampedEvent where
  event := {
    eventType := "research.request"
    entityType := "research_request"
    entityId := entityId
    tenantId := tenantId
    organizationId := "org_research"
    workspaceId := "workspace_research"
    actorId := "actor_research"
    correlationId := "corr_audit_001"
    outcome := "SUCCESS" }
  occurredAt := occurredAt

/-- Two tenants append in turn, and one of them lists. -/
def sampleCommands : List Command :=
  [.append (sampleEvent "tenant_a" "research_1" 1), .append (sampleEvent "tenant_b" "research_2" 2),
    .append (sampleEvent "tenant_a" "research_3" 3), .list { tenantId := "tenant_a", limit := 1 }]

/-- Two tenants, a limit that cuts, and the same listings from both repositories. -/
theorem runs_agree_sample :
    SqlRun [] sampleCommands [({ tenantId := "tenant_a", limit := 1 },
      .ok [sampleEvent "tenant_a" "research_3" 3])] := by
  rw [runs_agree sampleCommands]
  · rfl
  · apply inOrder_of_ascending
    unfold Ascending
    decide

/-! ## Tenants are isolated -/

/-- The commands of one tenant. -/
def ownCommands (tenantId : String) (commands : List Command) : List Command :=
  commands.filter fun command => command.tenantId = tenantId

/-- The listings of one tenant. -/
def ownListings (tenantId : String) (listings : List (Query × Listing)) : List (Query × Listing) :=
  listings.filter fun listing => listing.1.tenantId = tenantId

/-- The events of one tenant. -/
def ownEvents (tenantId : String) (events : List StampedEvent) : List StampedEvent :=
  events.filter fun e => e.event.tenantId = tenantId

section Isolation

variable {tenantId : String}

/-- A query of a tenant matches events of that tenant only. -/
theorem matching_ownEvents {query : Query} (h : query.tenantId = tenantId) (events : List StampedEvent) :
    query.matching (ownEvents tenantId events) = query.matching events := by
  subst h
  simp [Query.matching, ownEvents]

/-- So a listing reads events of the tenant only. -/
theorem listEvents_ownEvents {query : Query} (h : query.tenantId = tenantId)
    (events : List StampedEvent) :
    listEvents (ownEvents tenantId events) query = listEvents events query := by
  rw [listEvents, listEvents, matching_ownEvents h]

/-- The same of the selection by SQL. -/
theorem selected_ownEvents {query : Query} (h : query.tenantId = tenantId)
    {rows : List StampedEvent} {listing : Listing} :
    Selected (ownEvents tenantId rows) query listing ↔ Selected rows query listing := by
  have hmatching := matching_ownEvents h rows
  constructor
  · intro hselected
    cases hselected with
    | refused hinvalid => exact .refused hinvalid
    | rows hvalid hranked => exact .rows hvalid (hmatching ▸ hranked)
  · intro hselected
    cases hselected with
    | refused hinvalid => exact .refused hinvalid
    | rows hvalid hranked => exact .rows hvalid (hmatching.symm ▸ hranked)

/-- Appending an event of another tenant adds nothing. -/
theorem ownEvents_snoc (events : List StampedEvent) (e : StampedEvent) :
    ownEvents tenantId (events ++ [e]) =
      if e.event.tenantId = tenantId then ownEvents tenantId events ++ [e]
      else ownEvents tenantId events := by
  unfold ownEvents
  rw [List.filter_append]
  by_cases h : e.event.tenantId = tenantId
  · simp [h]
  · simp [h]

/-- The listings of a tenant are those of a run with its own commands alone. -/
theorem ownListings_memoryRun (events : List StampedEvent) (commands : List Command) :
    ownListings tenantId (memoryRun events commands) =
      memoryRun (ownEvents tenantId events) (ownCommands tenantId commands) := by
  induction commands generalizing events with
  | nil => rfl
  | cons command commands ih =>
      cases command with
      | append e =>
          rw [memoryRun, ih, ownEvents_snoc]
          -- an event of another tenant is in neither run
          by_cases h : e.event.tenantId = tenantId
          · have hown : ownCommands tenantId (.append e :: commands) =
                .append e :: ownCommands tenantId commands := by
              simp [ownCommands, Command.tenantId, h]
            rw [if_pos h, hown, memoryRun]
          · have hown : ownCommands tenantId (.append e :: commands) =
                ownCommands tenantId commands := by
              simp [ownCommands, Command.tenantId, h]
            rw [if_neg h, hown]
      | list query =>
          rw [memoryRun]
          -- a listing of the tenant sees the tenant's events only
          by_cases h : query.tenantId = tenantId
          · have hown : ownCommands tenantId (.list query :: commands) =
                .list query :: ownCommands tenantId commands := by
              simp [ownCommands, Command.tenantId, h]
            rw [hown, memoryRun, listEvents_ownEvents h, ← ih]
            simp [ownListings, h]
          · have hown : ownCommands tenantId (.list query :: commands) =
                ownCommands tenantId commands := by
              simp [ownCommands, Command.tenantId, h]
            rw [hown, ← ih]
            simp [ownListings, h]

/-- What one tenant sees of a run is a run of its own commands. -/
theorem SqlRun.own {rows : List StampedEvent} {commands : List Command}
    {listings : List (Query × Listing)} (h : SqlRun rows commands listings) :
    SqlRun (ownEvents tenantId rows) (ownCommands tenantId commands)
      (ownListings tenantId listings) := by
  -- on the run: the commands of others are left out one by one
  induction h with
  | done => exact .done
  | @append rows e commands listings hrun ih =>
      rw [ownEvents_snoc] at ih
      by_cases h : e.event.tenantId = tenantId
      · rw [if_pos h] at ih
        simpa [ownCommands, Command.tenantId, h] using SqlRun.append ih
      · rw [if_neg h] at ih
        simpa [ownCommands, Command.tenantId, h] using ih
  | @list rows query commands listing listings hselected hrun ih =>
      by_cases h : query.tenantId = tenantId
      · simpa [ownCommands, ownListings, Command.tenantId, h] using
          SqlRun.list ((selected_ownEvents h).2 hselected) ih
      · simpa [ownCommands, ownListings, Command.tenantId, h] using ih

/-- Whatever the rows are, a query selects something. -/
theorem exists_selected (rows : List StampedEvent) (query : Query) :
    ∃ listing, Selected rows query listing := by
  by_cases h : query.Valid
  · rcases exists_ranked StampedEvent.occurredAt query.limit.toNat (query.matching rows) with ⟨found, hranked⟩
    exact ⟨_, .rows h hranked⟩
  · exact ⟨_, .refused h⟩

/-- Every run of the commands of one tenant is what it sees of a run of all. -/
theorem SqlRun.extend {commands : List Command} :
    ∀ {rows : List StampedEvent} {own : List (Query × Listing)},
      SqlRun (ownEvents tenantId rows) (ownCommands tenantId commands) own →
        ∃ listings, SqlRun rows commands listings ∧ ownListings tenantId listings = own := by
  induction commands with
  | nil =>
      intro rows own h
      cases h
      exact ⟨[], .done, rfl⟩
  | cons command commands ih =>
      intro rows own h
      cases command with
      | append e =>
          have hrest : SqlRun (ownEvents tenantId (rows ++ [e])) (ownCommands tenantId commands) own := by
            rw [ownEvents_snoc]
            by_cases htenant : e.event.tenantId = tenantId
            · simp only [ownCommands, Command.tenantId, htenant, decide_true, List.filter_cons_of_pos] at h
              cases h with
              | append hrun =>
                  rw [if_pos htenant]
                  exact hrun
            · rw [if_neg htenant]
              simpa [ownCommands, Command.tenantId, htenant] using h
          rcases ih hrest with ⟨listings, hrun, hown⟩
          exact ⟨listings, .append hrun, hown⟩
      | list query =>
          by_cases htenant : query.tenantId = tenantId
          · simp only [ownCommands, Command.tenantId, htenant, decide_true, List.filter_cons_of_pos] at h
            cases h with
            | list hselected hrun =>
                rcases ih hrun with ⟨listings, hall, hown⟩
                refine ⟨_, .list ((selected_ownEvents htenant).1 hselected) hall, ?_⟩
                simpa [ownListings, htenant] using hown
          · have hrest : SqlRun (ownEvents tenantId rows) (ownCommands tenantId commands) own := by
              simpa [ownCommands, Command.tenantId, htenant] using h
            -- the database answers the others somehow
            rcases exists_selected rows query with ⟨listing, hselected⟩
            rcases ih hrest with ⟨listings, hall, hown⟩
            refine ⟨_, .list hselected hall, ?_⟩
            simpa [ownListings, htenant] using hown

end Isolation

/-- What a tenant is listed is what it would be listed if there were no other. -/
structure Isolated (tenantId : String) (commands : List Command) : Prop where
  memory : ownListings tenantId (memoryRun [] commands) =
    memoryRun [] (ownCommands tenantId commands)
  sql : ∀ own, (∃ listings, SqlRun [] commands listings ∧ ownListings tenantId listings = own) ↔
    SqlRun [] (ownCommands tenantId commands) own

/-- The same for both repositories, along any run. -/
theorem runs_isolated (tenantId : String) (commands : List Command) : Isolated tenantId commands where
  memory := ownListings_memoryRun [] commands
  sql := by
    intro own
    constructor
    · rintro ⟨listings, hrun, rfl⟩
      exact hrun.own
    · intro hrun
      exact SqlRun.extend hrun

end Alos.Audit
