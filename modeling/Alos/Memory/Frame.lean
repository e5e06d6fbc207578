import Mathlib.Data.List.Infix
import Alos.Memory.Repository

/-! # Who may overwrite a memory

Records are filed under an id that their writers choose, and no method looks at
what it overwrites.

* `next_eq`: a call puts one record or changes nothing;
* `keeps_iff`: a step leaves the records of other places and the deleted ones
  alone if and only if it is `Careful`;
* `isolated_iff`: so does a run, if and only if all of its steps are;
* `overwritten` and `revived`: two runs that do not.
-/

namespace Alos.Memory

open Coop Py

/-! ## Runs -/

/-- A call of the repository that writes. -/
inductive Call where
  | write (record : MemoryRecord)
  | expire (memoryId : String) (now : Datetime) (reason : String)
  | delete (memoryId reason : String)

def Call.prog : Call → Op MemoryRecord
  | .write record => Memory.write record
  | .expire memoryId now reason => Memory.expire memoryId now reason
  | .delete memoryId reason => Memory.delete memoryId reason

/-- A call, and how the audit sink answers it. -/
abbrev Step := Call × Env AuditEvent fun _ => Appended

def next (s : Store) (x : Step) : Store := (x.1.prog.alone x.2 s).state

def after (s : Store) (xs : List Step) : Store := xs.foldl next s

theorem after_snoc (s : Store) (xs : List Step) (x : Step) :
    after s (xs ++ [x]) = next (after s xs) x := by
  simp [after]

/-- The record that a call puts, if it is not refused. -/
def Call.written? (s : Store) : Call → Option MemoryRecord
  | .write record => if Blank record.memoryId then none else some record
  | .expire memoryId .. => (s.get? memoryId).map fun record => { record with status := .expired }
  | .delete memoryId .. => (s.get? memoryId).map fun record => { record with status := .deleted }

theorem appendAudit_state (event : AuditEvent) (record : MemoryRecord)
    (env : Env AuditEvent fun _ => Appended) (s : Store) :
    (((appendAudit event).bind fun _ => .ret record).alone env s).state = s := by
  change (Proc.await event _ |>.alone env s).state = s
  rw [Proc.alone]
  cases env 0 event <;> rfl

theorem replaceStatus_state (memoryId : String) (status : MemoryStatus)
    (event : MemoryRecord → AuditEvent) (env : Env AuditEvent fun _ => Appended) (s : Store) :
    ((replaceStatus memoryId status event).alone env s).state =
      match s.get? memoryId with
      | none => s
      | some record => s.put { record with status := status } := by
  unfold replaceStatus get
  simp only [Proc.bind_def, Proc.get_bind, Proc.bind, Proc.alone]
  cases s.get? memoryId with
  | none => rfl
  | some record => exact appendAudit_state (event record) _ env _

/-- A call puts its record, whether or not the event is appended. -/
theorem next_eq (s : Store) (x : Step) :
    next s x = match x.1.written? s with
      | none => s
      | some record => s.put record := by
  rcases x with ⟨c, env⟩
  cases c with
  | write record =>
      unfold next Call.prog write Call.written?
      -- a blank id is refused before anything is put
      by_cases hblank : Blank record.memoryId
      · simp only [Proc.raiseIf, if_pos hblank]
        rfl
      · simp only [Proc.raiseIf, if_neg hblank]
        exact appendAudit_state ..
  | expire memoryId now reason =>
      refine (replaceStatus_state memoryId .expired _ env s).trans ?_
      simp only [Call.written?]
      cases s.get? memoryId <;> rfl
  | delete memoryId reason =>
      refine (replaceStatus_state memoryId .deleted _ env s).trans ?_
      simp only [Call.written?]
      cases s.get? memoryId <;> rfl

/-! ## What a step leaves alone -/

/-- The records are of one tenant, organization and workspace. -/
def SamePlace (a b : MemoryRecord) : Prop :=
  a.tenantId = b.tenantId ∧ a.organizationId = b.organizationId ∧ a.workspaceId = b.workspaceId

/-- A write leaves the records of other places as they are. -/
def LeavesOthers (s s' : Store) (c : Call) : Prop :=
  ∀ record, c = .write record → ∀ other ∈ s.values, ¬ SamePlace other record → other ∈ s'.values

/-- What is deleted stays deleted. -/
def KeepsDeleted (s s' : Store) : Prop :=
  ∀ memoryId record, s.get? memoryId = some record → record.status = .deleted →
    ∃ later, s'.get? memoryId = some later ∧ later.status = .deleted

theorem KeepsDeleted.refl (s : Store) : KeepsDeleted s s :=
  fun _ record hrecord hdeleted => ⟨record, hrecord, hdeleted⟩

theorem KeepsDeleted.trans {s s' s'' : Store} (h : KeepsDeleted s s') (h' : KeepsDeleted s' s'') :
    KeepsDeleted s s'' := by
  intro memoryId record hrecord hdeleted
  obtain ⟨later, hlater, hdeleted'⟩ := h memoryId record hrecord hdeleted
  exact h' memoryId later hlater hdeleted'

/-- The call overwrites no record of another place, and no deleted record by one
of another status. -/
def Careful (s : Store) : Call → Prop
  | .write record => Blank record.memoryId ∨ ∀ old, s.get? record.memoryId = some old →
      SamePlace old record ∧ (old.status = .deleted → record.status = .deleted)
  | .expire memoryId .. => ∀ old, s.get? memoryId = some old → old.status ≠ .deleted
  | .delete .. => True

/-- A put keeps what is deleted, unless it is put over it. -/
theorem keepsDeleted_put {s : Store} {record : MemoryRecord}
    (h : ∀ old, s.get? record.memoryId = some old → old.status = .deleted →
      record.status = .deleted) : KeepsDeleted s (s.put record) := by
  intro memoryId old hold hdeleted
  by_cases hid : record.memoryId = memoryId
  · subst hid
    exact ⟨record, Table.get?_put_self .., h old hold hdeleted⟩
  · exact ⟨old, by rwa [Table.get?_put_of_ne _ hid], hdeleted⟩

theorem leavesOthers_put {s : Store} {record : MemoryRecord}
    (h : ∀ old, s.get? record.memoryId = some old → SamePlace old record) :
    LeavesOthers s (s.put record) (.write record) := by
  intro written hwritten other hother hplace
  cases hwritten
  refine Table.mem_put.2 (.inr ⟨hother, ?_⟩)
  intro hid
  exact hplace (h other (hid ▸ Table.get?_of_mem hother))

theorem keeps_of_careful {s : Store} {x : Step} (h : Careful s x.1) :
    LeavesOthers s (next s x) x.1 ∧ KeepsDeleted s (next s x) := by
  rw [next_eq]
  rcases x with ⟨c, env⟩
  -- a write replaces its record, the others change a status, or nothing
  cases c with
  | write record =>
      simp only [Call.written?]
      by_cases hblank : Blank record.memoryId
      · rw [if_pos hblank]
        exact ⟨fun _ _ other hother _ => hother, .refl s⟩
      · rw [if_neg hblank]
        have hold := h.resolve_left hblank
        exact ⟨leavesOthers_put fun old hget => (hold old hget).1,
          keepsDeleted_put fun old hget => (hold old hget).2⟩
  | expire memoryId now reason =>
      refine ⟨fun _ hwrite => (nomatch hwrite), ?_⟩
      simp only [Call.written?]
      cases hget : s.get? memoryId with
      | none => exact .refl s
      | some record =>
          apply keepsDeleted_put
          intro old hold hdeleted
          rw [Table.key_of_get? hget] at hold
          exact absurd hdeleted (h old hold)
  | delete memoryId reason =>
      refine ⟨fun _ hwrite => (nomatch hwrite), ?_⟩
      simp only [Call.written?]
      cases s.get? memoryId with
      | none => exact .refl s
      | some record => exact keepsDeleted_put fun _ _ _ => rfl

theorem careful_of_keeps {s : Store} {x : Step} (h : LeavesOthers s (next s x) x.1)
    (h' : KeepsDeleted s (next s x)) : Careful s x.1 := by
  rw [next_eq] at h h'
  rcases x with ⟨c, env⟩
  cases c with
  | write record =>
      by_cases hblank : Blank record.memoryId
      · exact .inl hblank
      · right
        simp only [Call.written?, if_neg hblank] at h h'
        intro old hold
        constructor
        · -- another record under the id would have been overwritten
          by_contra hplace
          have hkept := Table.get?_of_mem (h record rfl old (Table.mem_of_get? hold) hplace)
          rw [Table.key_of_get? hold, Table.get?_put_self] at hkept
          cases hkept
          exact hplace ⟨rfl, rfl, rfl⟩
        · intro hdeleted
          obtain ⟨later, hlater, hdeleted'⟩ := h' _ old hold hdeleted
          rw [Table.get?_put_self] at hlater
          cases hlater
          exact hdeleted'
  | expire memoryId now reason =>
      intro old hold hdeleted
      simp only [Call.written?, hold, Option.map_some] at h'
      -- an expired record would stand where the deleted one was
      obtain ⟨later, hlater, hdeleted'⟩ := h' _ old hold hdeleted
      rw [Table.get?_put, if_pos (Table.key_of_get? hold)] at hlater
      cases hlater
      cases hdeleted'
  | delete memoryId reason => trivial

/-- A step is careful if and only if it leaves alone what it has to. -/
theorem keeps_iff {s : Store} {x : Step} :
    (LeavesOthers s (next s x) x.1 ∧ KeepsDeleted s (next s x)) ↔ Careful s x.1 :=
  ⟨fun h => careful_of_keeps h.1 h.2, keeps_of_careful⟩

/-! ## What a run leaves alone -/

/-- In the run no write touches a record of another place, and what is deleted at
some time is deleted ever after. -/
structure Isolated (s : Store) (xs : List Step) : Prop where
  others : ∀ ys x zs, xs = ys ++ x :: zs →
    LeavesOthers (after s ys) (after s (ys ++ [x])) x.1
  deleted : ∀ ys zs ws, xs = ys ++ zs ++ ws → KeepsDeleted (after s ys) (after s (ys ++ zs))

/-- Every step is careful in the state that it finds. -/
def CarefulRun (s : Store) (xs : List Step) : Prop :=
  ∀ ys x zs, xs = ys ++ x :: zs → Careful (after s ys) x.1

/-- Careful steps keep what is deleted, over any part of a run. -/
theorem CarefulRun.keepsDeleted {s : Store} {xs : List Step} (h : CarefulRun s xs)
    {ys zs ws : List Step} (hxs : xs = ys ++ zs ++ ws) :
    KeepsDeleted (after s ys) (after s (ys ++ zs)) := by
  induction zs using List.reverseRecOn generalizing ws with
  | nil =>
      rw [List.append_nil]
      exact .refl _
  | append_singleton zs z ih =>
      have hbefore := @ih (z :: ws) (by rw [hxs]; simp)
      have hcareful := h (ys ++ zs) z ws (by rw [hxs]; simp)
      rw [← List.append_assoc, after_snoc]
      exact hbefore.trans (keeps_of_careful hcareful).2

theorem isolated_iff (s : Store) (xs : List Step) : Isolated s xs ↔ CarefulRun s xs := by
  constructor
  · intro h ys x zs hxs
    -- a part of the run with one step in it
    have hothers := h.others ys x zs hxs
    have hdeleted := h.deleted ys [x] zs (by rw [hxs]; simp)
    rw [after_snoc] at hothers hdeleted
    exact careful_of_keeps hothers hdeleted
  · intro h
    constructor
    · intro ys x zs hxs
      rw [after_snoc]
      exact (keeps_of_careful (h ys x zs hxs)).1
    · intro ys zs ws hxs
      exact h.keepsDeleted hxs

/-! ## Two runs -/

/-- A record of a tenant. -/
def note (tenantId : String) : MemoryRecord where
  memoryId := "memory"
  tenantId := tenantId
  organizationId := "organization"
  workspaceId := "workspace"
  actorId := "actor"
  scopeRefs := ["scope"]
  content := "Decision"
  createdAt := 0

/-- The audit sink answers. -/
def answered : Env AuditEvent fun _ => Appended := fun _ _ => .returned

/-- A second tenant writes under the id of the first. -/
def overwriting : List Step := [(.write (note "tenant_a"), answered), (.write (note "tenant_b"), answered)]

/-- A record is deleted, and then it expires. -/
def reviving : List Step :=
  [(.write (note "tenant_a"), answered), (.delete "memory" "request", answered),
    (.expire "memory" 1 "policy", answered)]

theorem overwritten : (after .empty overwriting).values = [note "tenant_b"] := rfl

theorem revived : (after .empty reviving).values = [{ note "tenant_a" with status := .expired }] :=
  rfl

/-- The record of the first tenant is gone, and the deleted record is expired. -/
theorem overwritten_and_revived :
    ¬ Isolated .empty overwriting ∧ ¬ Isolated .empty reviving := by
  constructor
  · intro h
    -- the record of the other tenant is written over
    have hkept := h.others [(.write (note "tenant_a"), answered)]
      (.write (note "tenant_b"), answered) [] rfl (note "tenant_b") rfl (note "tenant_a")
      List.mem_cons_self (by simp [SamePlace, note])
    have hvalues := overwritten
    unfold overwriting at hvalues
    simp only [List.cons_append, List.nil_append, hvalues, List.mem_singleton] at hkept
    exact absurd (congrArg MemoryRecord.tenantId hkept) (by decide)
  · intro h
    -- the deleted record is expired again, so it is not deleted any more
    obtain ⟨later, hlater, hdeleted⟩ := h.deleted
      [(.write (note "tenant_a"), answered), (.delete "memory" "request", answered)]
      [(.expire "memory" 1 "policy", answered)] [] rfl "memory"
      { note "tenant_a" with status := .deleted } rfl rfl
    have hexpired : (after .empty reviving).get? "memory" =
        some { note "tenant_a" with status := .expired } := by
      rw [Table.get?, revived]
      rfl
    cases hlater.symm.trans hexpired
    cases hdeleted

end Alos.Memory
