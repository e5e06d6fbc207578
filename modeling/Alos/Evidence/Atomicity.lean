import Mathlib.Data.List.Induction
import Alos.Coop.Guards
import Alos.Evidence

/-! # What a failed bundle leaves

Calls of the evidence registry one after the other. Payloads are compared as the
registry compares them, by Python's `==`.

* `exec_keeps`: an id that is stored keeps its payload;
* `registerRefs_append` and `registerRefs_error` take the loop of `bundle` apart;
* `rejected_iff` says on the table before the loop which reference it stops at;
* `evidence_lawful_iff`: every call that raises leaves the registry as it was,
  exactly when the references before the first rejected one were stored already.
-/

namespace Alos.EvidenceRegistry

open Except Py

variable {registry : EvidenceRegistry}

/-! ## One payload -/

theorem Alike.refl (payload : Json.Fields) : registry.Alike payload payload := Equal.refl _

theorem Alike.symm {a b : Json.Fields} (h : registry.Alike a b) : registry.Alike b a :=
  Equal.symm h

theorem Alike.trans {a b c : Json.Fields} (h : registry.Alike a b) (h' : registry.Alike b c) :
    registry.Alike a c :=
  Equal.trans h h'

/-- The payloads of the one table are in the other. -/
def Keeps (registry : EvidenceRegistry) (m m' : EvidenceTable) : Prop :=
  ∀ evidenceId payload, m.get? evidenceId = some (evidenceId, payload) →
    ∃ payload', m'.get? evidenceId = some (evidenceId, payload') ∧ registry.Alike payload payload'

/-- No payload is different, and none is new. -/
structure Unchanged (registry : EvidenceRegistry) (m m' : EvidenceTable) : Prop where
  keeps : registry.Keeps m m'
  nothing_new : ∀ evidenceId, m.get? evidenceId = none → m'.get? evidenceId = none

/-- The payload is stored under its id. -/
def Stores (registry : EvidenceRegistry) (m : EvidenceTable) (payload : Json.Fields) : Prop :=
  ∃ evidenceId stored, registry.evidenceId payload = .ok evidenceId ∧
    m.get? evidenceId = some (evidenceId, stored) ∧ registry.Alike stored payload

theorem Keeps.refl (m : EvidenceTable) : registry.Keeps m m :=
  fun _ payload h => ⟨payload, h, .refl payload⟩

theorem Keeps.trans {m m' m'' : EvidenceTable} (h : registry.Keeps m m')
    (h' : registry.Keeps m' m'') : registry.Keeps m m'' := by
  intro evidenceId payload hget
  rcases h evidenceId payload hget with ⟨payload', hget', halike⟩
  rcases h' evidenceId payload' hget' with ⟨payload'', hget'', halike'⟩
  exact ⟨payload'', hget'', halike.trans halike'⟩

theorem Unchanged.refl (m : EvidenceTable) : registry.Unchanged m m :=
  ⟨.refl m, fun _ h => h⟩

/-- What is stored stays stored, since the table only grows. -/
theorem Stores.mono {m m' : EvidenceTable} {payload : Json.Fields} (h : registry.Stores m payload)
    (hkeeps : registry.Keeps m m') : registry.Stores m' payload := by
  rcases h with ⟨evidenceId, stored, hid, hget, halike⟩
  rcases hkeeps evidenceId stored hget with ⟨stored', hget', halike'⟩
  exact ⟨evidenceId, stored', hid, hget', halike'.symm.trans halike⟩

/-- A payload that is accepted takes no other's place. -/
theorem keeps_put {m : EvidenceTable} {evidenceId : String} {payload : Json.Fields}
    (h : ¬ registry.Differs m evidenceId payload) : registry.Keeps m (m.put (evidenceId, payload)) := by
  intro other stored hget
  by_cases hid : evidenceId = other
  · subst hid
    refine ⟨payload, Table.get?_put_self _ _, ?_⟩
    by_contra hdiffers
    exact h ⟨_, hget, hdiffers⟩
  · exact ⟨stored, (Table.get?_put_of_ne _ hid).trans hget, .refl stored⟩

/-- What differs after a payload has been accepted. -/
theorem differs_put {m : EvidenceTable} {evidenceId other : String} {payload later : Json.Fields}
    (h : ¬ registry.Differs m evidenceId payload) :
    registry.Differs (m.put (evidenceId, payload)) other later ↔
      registry.Differs m other later ∨ (evidenceId = other ∧ ¬ registry.Alike payload later) := by
  unfold Differs at h ⊢
  by_cases hid : evidenceId = other
  · subst hid
    rw [Table.get?_put_self]
    constructor
    · rintro ⟨existing, hexisting, hdiffers⟩
      cases hexisting
      exact .inr ⟨rfl, hdiffers⟩
    · rintro (⟨existing, hexisting, hdiffers⟩ | ⟨-, hdiffers⟩)
      · -- what was stored is equal to the payload
        refine ⟨_, rfl, fun halike => hdiffers ?_⟩
        have hsame : registry.Alike existing.2 payload := by
          by_contra hne
          exact h ⟨existing, hexisting, hne⟩
        exact hsame.trans halike
      · exact ⟨_, rfl, hdiffers⟩
  · rw [Table.get?_put_of_ne m hid]
    simp [hid]

/-- A registration succeeds when the payload has an id, what is stored under it does not differ,
and it validates. -/
theorem register_ok {m m' : EvidenceTable} {payload validated : Json.Fields} :
    registry.register m payload = .ok (validated, m') ↔
      ∃ evidenceId, registry.evidenceId payload = .ok evidenceId ∧
        ¬ registry.Differs m evidenceId payload ∧ validated = payload ∧
        m' = m.put (evidenceId, payload) := by
  rw [register_eq]
  cases registry.evidenceId payload with
  | error e => simp
  | ok evidenceId =>
      by_cases hdiffers : registry.Differs m evidenceId payload
      · simp [hdiffers]
      · simp [hdiffers, eq_comm]

/-! ## The loop -/

section Loop

variable {h : Header}

/-- A reference that is accepted. -/
theorem registerRef_ok {m m' : EvidenceTable} {ref : Json} :
    registry.registerRef h m ref = .ok m' ↔
      ∃ payload evidenceId, ref = .obj payload ∧ h.check payload = .ok () ∧
        registry.evidenceId payload = .ok evidenceId ∧
        ¬ registry.Differs m evidenceId payload ∧ m' = m.put (evidenceId, payload) := by
  unfold registerRef
  cases ref with
  | obj payload =>
      simp only [bind_eq_ok, pure_eq_ok, Prod.exists, register_ok]
      constructor
      · rintro ⟨_, hcheck, _, _, ⟨evidenceId, hid, hdiffers, -, rfl⟩, rfl⟩
        exact ⟨payload, evidenceId, rfl, hcheck, hid, hdiffers, rfl⟩
      · rintro ⟨_, evidenceId, hpayload, hcheck, hid, hdiffers, rfl⟩
        cases hpayload
        exact ⟨(), hcheck, payload, _, ⟨evidenceId, hid, hdiffers, rfl, rfl⟩, rfl⟩
  | _ => simp [throw, throwThe, MonadExceptOf.throw]

/-- References are registered one after the other, up to the first that is refused. -/
theorem registerRefs_append (refs refs' : List Json) (m : EvidenceTable) :
    registry.registerRefs h (refs ++ refs') m =
      match registry.registerRefs h refs m with
      | (.error e, m') => (.error e, m')
      | (.ok (), m') => registry.registerRefs h refs' m' := by
  induction refs generalizing m with
  | nil => rfl
  | cons ref refs ih =>
      simp only [List.cons_append, registerRefs]
      cases registry.registerRef h m ref with
      | error e => rfl
      | ok m' => exact ih m'

/-- A loop that stops, stops at a reference; those before it are registered. -/
theorem registerRefs_error {refs : List Json} {m m' : EvidenceTable} {e : EvidenceError}
    (herror : registry.registerRefs h refs m = (.error e, m')) :
    ∃ pre ref post, refs = pre ++ ref :: post ∧ registry.registerRefs h pre m = (.ok (), m') ∧
      registry.registerRef h m' ref = .error e := by
  -- on the refs: the first that is refused ends the loop
  induction refs generalizing m with
  | nil => cases herror
  | cons ref refs ih =>
      simp only [registerRefs] at herror
      cases href : registry.registerRef h m ref with
      | error e' =>
          rw [href] at herror
          cases herror
          exact ⟨[], ref, refs, rfl, rfl, href⟩
      | ok m1 =>
          rw [href] at herror
          rcases ih herror with ⟨pre, ref', post, rfl, hpre, hrefused⟩
          refine ⟨ref :: pre, ref', post, rfl, ?_, hrefused⟩
          simp only [registerRefs, href, hpre]

variable (registry h) in
/-- What was stored before the references stays, refused or not. -/
theorem registerRefs_keeps (refs : List Json) (m : EvidenceTable) :
    registry.Keeps m (registry.registerRefs h refs m).2 := by
  induction refs generalizing m with
  | nil => exact .refl m
  | cons ref refs ih =>
      simp only [registerRefs]
      cases href : registry.registerRef h m ref with
      | error e => exact .refl m
      | ok m' =>
          rcases registerRef_ok.1 href with ⟨payload, evidenceId, -, -, -, hdiffers, rfl⟩
          exact (keeps_put hdiffers).trans (ih _)

/-- When none is refused, every reference is an object that is stored afterwards. -/
theorem registerRefs_stores {refs : List Json} {m m' : EvidenceTable}
    (hok : registry.registerRefs h refs m = (.ok (), m')) :
    ∀ ref ∈ refs, ∃ payload, ref = .obj payload ∧ registry.Stores m' payload := by
  induction refs generalizing m with
  | nil => simp
  | cons ref refs ih =>
      simp only [registerRefs] at hok
      cases href : registry.registerRef h m ref with
      | error e =>
          rw [href] at hok
          cases hok
      | ok m1 =>
          rw [href] at hok
          rcases registerRef_ok.1 href with ⟨payload, evidenceId, rfl, -, hid, hdiffers, rfl⟩
          simp only [List.mem_cons, forall_eq_or_imp]
          refine ⟨⟨payload, rfl, ?_⟩, ih hok⟩
          -- the later refs keep what this one has stored
          have hstored : registry.Stores (m.put (evidenceId, payload)) payload :=
            ⟨evidenceId, payload, hid, Table.get?_put_self _ _, .refl payload⟩
          have hkeeps := registerRefs_keeps registry h refs (m.put (evidenceId, payload))
          simp only at hok
          rw [hok] at hkeeps
          exact hstored.mono hkeeps

/-- The reference is a payload with the id. -/
def HasId (registry : EvidenceRegistry) (ref : Json) (evidenceId : String) : Prop :=
  ∃ payload, ref = .obj payload ∧ registry.evidenceId payload = .ok evidenceId

/-- The loop adds the ids of its references. -/
theorem registerRefs_new {refs : List Json} {m m' : EvidenceTable}
    (hok : registry.registerRefs h refs m = (.ok (), m')) {evidenceId : String}
    (hnew : m.get? evidenceId = none) (hstored : m'.get? evidenceId ≠ none) :
    ∃ ref ∈ refs, registry.HasId ref evidenceId := by
  induction refs generalizing m with
  | nil =>
      cases hok
      exact absurd hnew hstored
  | cons ref refs ih =>
      simp only [registerRefs] at hok
      cases href : registry.registerRef h m ref with
      | error e =>
          rw [href] at hok
          cases hok
      | ok m1 =>
          rw [href] at hok
          rcases registerRef_ok.1 href with ⟨payload, other, rfl, -, hid, -, rfl⟩
          -- the id is new with this ref, or with a later one
          by_cases hother : other = evidenceId
          · subst hother
            exact ⟨_, List.mem_cons_self, payload, rfl, hid⟩
          · rcases ih hok ((Table.get?_put_of_ne m hother).trans hnew) with ⟨ref, hmem, href⟩
            exact ⟨ref, List.mem_cons_of_mem _ hmem, href⟩

/-- What differs after the loop. -/
theorem differs_registerRefs {refs : List Json} {m m' : EvidenceTable}
    (hok : registry.registerRefs h refs m = (.ok (), m')) {evidenceId : String}
    {later : Json.Fields} :
    registry.Differs m' evidenceId later ↔ registry.Differs m evidenceId later ∨
      ∃ payload, .obj payload ∈ refs ∧ registry.evidenceId payload = .ok evidenceId ∧
        ¬ registry.Alike payload later := by
  -- each ref is compared with the table that the earlier ones leave
  induction refs generalizing m with
  | nil =>
      cases hok
      simp
  | cons ref refs ih =>
      simp only [registerRefs] at hok
      cases href : registry.registerRef h m ref with
      | error e =>
          rw [href] at hok
          cases hok
      | ok m1 =>
          rw [href] at hok
          rcases registerRef_ok.1 href with ⟨payload, other, rfl, -, hid, hdiffers, rfl⟩
          rw [ih hok, differs_put hdiffers, or_assoc]
          refine or_congr_right ?_
          constructor
          · rintro (⟨rfl, hdiffers⟩ | ⟨payload', hmem, h'⟩)
            · exact ⟨payload, List.mem_cons_self, hid, hdiffers⟩
            · exact ⟨payload', List.mem_cons_of_mem _ hmem, h'⟩
          · rintro ⟨payload', hmem, hid', hdiffers'⟩
            rcases List.mem_cons.1 hmem with heq | hmem
            · cases heq
              rw [hid] at hid'
              cases hid'
              exact .inl ⟨rfl, hdiffers'⟩
            · exact .inr ⟨payload', hmem, hid', hdiffers'⟩

/-! ## The reference that the loop stops at -/

/-- The reference does not fit the bundle, is not valid, or has the id of other
evidence that is stored or that is referred to before. -/
def Rejected (registry : EvidenceRegistry) (h : Header) (m : EvidenceTable) (pre : List Json)
    (ref : Json) : Prop :=
  ∀ payload, ref = .obj payload → h.check payload = .ok () →
    ∀ evidenceId, registry.evidenceId payload = .ok evidenceId →
      registry.Differs m evidenceId payload ∨ ∃ earlier, .obj earlier ∈ pre ∧
        registry.evidenceId earlier = .ok evidenceId ∧ ¬ registry.Alike earlier payload

/-- The loop stops at a reference that is rejected. -/
theorem rejected_iff {pre : List Json} {m m' : EvidenceTable}
    (hok : registry.registerRefs h pre m = (.ok (), m')) (ref : Json) :
    registry.Rejected h m pre ref ↔ ∃ e, registry.registerRef h m' ref = .error e := by
  constructor
  · intro hrejected
    cases href : registry.registerRef h m' ref with
    | error e => exact ⟨e, rfl⟩
    | ok m1 =>
        rcases registerRef_ok.1 href with ⟨payload, evidenceId, rfl, hcheck, hid, hdiffers, -⟩
        have hclash := hrejected payload rfl hcheck evidenceId hid
        exact absurd ((differs_registerRefs hok).2 hclash) hdiffers
  · rintro ⟨e, he⟩ payload rfl hcheck evidenceId hid
    by_contra hfits
    have haccepted := registerRef_ok.2 ⟨payload, evidenceId, rfl, hcheck, hid,
      fun hdiffers => hfits ((differs_registerRefs hok).1 hdiffers), rfl⟩
    rw [he] at haccepted
    cases haccepted

/-- No reference of the list is rejected. -/
def Accepted (registry : EvidenceRegistry) (h : Header) (m : EvidenceTable) (refs : List Json) :
    Prop :=
  ∀ pre ref post, refs = pre ++ ref :: post → ¬ registry.Rejected h m pre ref

/-- The loop returns when no reference is rejected. -/
theorem accepted_iff (refs : List Json) (m : EvidenceTable) :
    registry.Accepted h m refs ↔ ∃ m', registry.registerRefs h refs m = (.ok (), m') := by
  constructor
  · intro haccepted
    cases hresult : registry.registerRefs h refs m with
    | mk result m' =>
        cases result with
        | ok u => exact ⟨m', rfl⟩
        | error e =>
            rcases registerRefs_error hresult with ⟨pre, ref, post, hsplit, hpre, href⟩
            exact absurd ((rejected_iff hpre ref).2 ⟨e, href⟩) (haccepted pre ref post hsplit)
  · rintro ⟨m', hok⟩ pre ref post rfl hrejected
    rw [registerRefs_append] at hok
    -- the refs before the refused one were all stored
    cases hpre : registry.registerRefs h pre m with
    | mk result m1 =>
        rw [hpre] at hok
        cases result with
        | error e => cases hok
        | ok u =>
            rcases (rejected_iff hpre ref).1 hrejected with ⟨e, he⟩
            simp only [registerRefs, he] at hok
            cases hok

end Loop

/-! ## Runs -/

inductive Call where
  | register (payload : Json.Fields)
  | bundle (payload : Json.Fields)

section Runs

variable (registry)

/-- A call, and the table that it leaves. -/
def exec (m : EvidenceTable) : Call → Except EvidenceError Json.Fields × EvidenceTable
  | .register payload =>
      match registry.register m payload with
      | .error e => (.error e, m)
      | .ok (validated, m') => (.ok validated, m')
  | .bundle payload => registry.bundle m payload

/-- The table after the calls. -/
def after (m : EvidenceTable) (cs : List Call) : EvidenceTable :=
  cs.foldl (fun m c => (registry.exec m c).2) m

/-- What is promised of a run. -/
structure Lawful (m : EvidenceTable) (cs : List Call) : Prop where
  kept : ∀ pre post, cs = pre ++ post → registry.Keeps (registry.after m pre) (registry.after m cs)
  atomic : ∀ pre c post, cs = pre ++ c :: post →
    ∀ e, (registry.exec (registry.after m pre) c).1 = .error e →
      registry.Unchanged (registry.after m pre) (registry.exec (registry.after m pre) c).2
  complete : ∀ pre payload post, cs = pre ++ .bundle payload :: post →
    ∀ validated, (registry.exec (registry.after m pre) (.bundle payload)).1 = .ok validated →
      ∃ h, registry.header payload = .ok h ∧ ∀ ref ∈ h.evidenceRefs, ∃ evidence,
        ref = .obj evidence ∧
          registry.Stores (registry.exec (registry.after m pre) (.bundle payload)).2 evidence

/-- The references of a bundle before the first one that is rejected are stored. -/
def Careful (m : EvidenceTable) : Call → Prop
  | .register _ => True
  | .bundle payload => ∀ h, registry.header payload = .ok h →
      ∀ pre ref post, h.evidenceRefs = pre ++ ref :: post → registry.Accepted h m pre →
        registry.Rejected h m pre ref →
          ∀ earlier ∈ pre, ∀ evidenceId, registry.HasId earlier evidenceId →
            m.get? evidenceId ≠ none

variable {registry}

/-- A bundle is refused before its loop, or is what the loop comes to. -/
theorem bundle_eq (m : EvidenceTable) (payload : Json.Fields) :
    registry.bundle m payload =
      match registry.header payload with
      | .error e => (.error e, m)
      | .ok h => ((registry.registerRefs h h.evidenceRefs m).1.map fun _ => payload,
          (registry.registerRefs h h.evidenceRefs m).2) := rfl

/-- A call keeps what is stored. -/
theorem exec_keeps (m : EvidenceTable) (c : Call) : registry.Keeps m (registry.exec m c).2 := by
  cases c with
  | register payload =>
      simp only [exec]
      cases hregister : registry.register m payload with
      | error e => exact .refl m
      | ok r =>
          rcases register_ok.1 hregister with ⟨evidenceId, -, hdiffers, -, hput⟩
          simp only [hput]
          exact keeps_put hdiffers
  | bundle payload =>
      simp only [exec, bundle_eq]
      cases registry.header payload with
      | error e => exact .refl m
      | ok h => exact registerRefs_keeps registry h h.evidenceRefs m

/-- No run of calls takes evidence away. -/
theorem after_keeps (m : EvidenceTable) (cs : List Call) : registry.Keeps m (registry.after m cs) := by
  induction cs generalizing m with
  | nil => exact .refl m
  | cons c cs ih => exact (exec_keeps m c).trans (ih _)

/-- A bundle that returns has stored its references. -/
theorem bundle_stores {m : EvidenceTable} {payload validated : Json.Fields}
    (hok : (registry.bundle m payload).1 = .ok validated) :
    ∃ h, registry.header payload = .ok h ∧ ∀ ref ∈ h.evidenceRefs, ∃ evidence,
      ref = .obj evidence ∧ registry.Stores (registry.bundle m payload).2 evidence := by
  rw [bundle_eq] at hok ⊢
  -- a bundle that fails its own checks has registered nothing
  cases hheader : registry.header payload with
  | error e =>
      rw [hheader] at hok
      cases hok
  | ok h =>
      rw [hheader] at hok
      refine ⟨h, rfl, ?_⟩
      simp only at hok ⊢
      cases hresult : registry.registerRefs h h.evidenceRefs m with
      | mk result m' =>
          rw [hresult] at hok
          cases result with
          | error e => cases hok
          | ok u => exact registerRefs_stores hresult

/-- A bundle that fails has registered the references before the rejected one. -/
theorem bundle_error {m : EvidenceTable} {payload : Json.Fields} {h : Header}
    (hheader : registry.header payload = .ok h) {e : EvidenceError}
    (herror : (registry.bundle m payload).1 = .error e) :
    ∃ pre ref post, h.evidenceRefs = pre ++ ref :: post ∧ registry.Accepted h m pre ∧
      registry.Rejected h m pre ref ∧
      registry.registerRefs h pre m = (.ok (), (registry.bundle m payload).2) := by
  rw [bundle_eq, hheader] at herror ⊢
  simp only at herror ⊢
  cases hresult : registry.registerRefs h h.evidenceRefs m with
  | mk result m' =>
      rw [hresult] at herror
      cases result with
      | ok u => cases herror
      | error e' =>
          rcases registerRefs_error hresult with ⟨pre, ref, post, hsplit, hpre, href⟩
          exact ⟨pre, ref, post, hsplit, (accepted_iff pre m).2 ⟨m', hpre⟩,
            (rejected_iff hpre ref).2 ⟨e', href⟩, hpre⟩

/-- A bundle with a reference that is rejected fails, with what is before it. -/
theorem bundle_of_rejected {m : EvidenceTable} {payload : Json.Fields} {h : Header}
    (hheader : registry.header payload = .ok h) {pre post : List Json} {ref : Json}
    (hsplit : h.evidenceRefs = pre ++ ref :: post) (haccepted : registry.Accepted h m pre)
    (hrejected : registry.Rejected h m pre ref) :
    (∃ e, (registry.bundle m payload).1 = .error e) ∧
      registry.registerRefs h pre m = (.ok (), (registry.bundle m payload).2) := by
  rcases (accepted_iff pre m).1 haccepted with ⟨m', hpre⟩
  rcases (rejected_iff hpre ref).1 hrejected with ⟨e, he⟩
  have hresult : registry.registerRefs h h.evidenceRefs m = (.error e, m') := by
    rw [hsplit, registerRefs_append, hpre]
    simp only [registerRefs, he]
  rw [bundle_eq, hheader]
  simp only [hresult]
  exact ⟨⟨e, rfl⟩, hpre⟩

/-- A bundle that fails changes nothing, exactly when it is careful. -/
theorem bundle_atomic_iff (m : EvidenceTable) (payload : Json.Fields) :
    (∀ e, (registry.bundle m payload).1 = .error e →
      registry.Unchanged m (registry.bundle m payload).2) ↔ registry.Careful m (.bundle payload) := by
  constructor
  · intro hatomic h hheader pre ref post hsplit haccepted hrejected earlier hmem evidenceId hid hnew
    rcases bundle_of_rejected hheader hsplit haccepted hrejected with ⟨⟨e, he⟩, hpre⟩
    -- the earlier reference is stored by now
    rcases registerRefs_stores hpre earlier hmem with ⟨payload', hobj, other, stored, hid', hget, -⟩
    rcases hid with ⟨payload'', hobj', hid''⟩
    rw [hobj] at hobj'
    cases hobj'
    rw [hid'] at hid''
    cases hid''
    have hnone := (hatomic e he).nothing_new _ hnew
    rw [hnone] at hget
    cases hget
  · intro hcareful e he
    cases hheader : registry.header payload with
    | error e' =>
        rw [bundle_eq, hheader]
        exact .refl m
    | ok h =>
        rcases bundle_error hheader he with ⟨pre, ref, post, hsplit, haccepted, hrejected, hpre⟩
        have hkeeps := registerRefs_keeps registry h pre m
        rw [hpre] at hkeeps
        refine ⟨hkeeps, fun evidenceId hnew => ?_⟩
        by_contra hstored
        rcases registerRefs_new hpre hnew hstored with ⟨earlier, hmem, hid⟩
        exact hcareful h hheader pre ref post hsplit haccepted hrejected earlier hmem evidenceId hid
          hnew

/-- The law holds all along a run exactly when every bundle of it is careful at the point where it
comes. -/
theorem evidence_lawful_iff (registry : EvidenceRegistry) (m : EvidenceTable) (cs : List Call) :
    registry.Lawful m cs ↔
      ∀ pre c post, cs = pre ++ c :: post → registry.Careful (registry.after m pre) c := by
  constructor
  · intro h pre c post hsplit
    cases c with
    | register payload => trivial
    | bundle payload => exact (bundle_atomic_iff _ payload).1 (h.atomic pre _ post hsplit)
  · intro h
    refine ⟨?_, ?_, ?_⟩
    · rintro pre post rfl
      -- the later calls start in the state the earlier ones leave
      have hafter : registry.after m (pre ++ post) = registry.after (registry.after m pre) post := by
        simp [after]
      rw [hafter]
      exact after_keeps _ post
    · intro pre c post hsplit e he
      cases c with
      | register payload =>
          simp only [exec] at he ⊢
          cases hregister : registry.register (registry.after m pre) payload with
          | error e' => exact .refl _
          | ok r =>
              rw [hregister] at he
              cases he
      | bundle payload => exact (bundle_atomic_iff _ payload).2 (h pre _ post hsplit) e he
    · intro pre payload post _ validated hok
      exact bundle_stores hok

end Runs

/-! ## A bundle of two tenants -/

/-- Every payload is valid. -/
def lenient : EvidenceRegistry where
  contracts := ⟨fun _ => true, fun _ _ => none⟩
  repr := fun _ => ""
  whole := fun _ => none

/-- A reference of the tests, by its tenant and id. -/
def reference (tenantId evidenceId : String) : Json.Fields :=
  [("tenant_id", .str tenantId),
    ("workspace_id", .str "workspace_001"),
    ("evidence_id", .str evidenceId),
    ("source_id", .str "source_policy_001"),
    ("uri", .str "urn:alos:evidence:policy:1"),
    ("captured_at", .str "2026-09-18T00:00:00Z"),
    ("content_hash", .str
      "sha256:e3b0c44298fc1c149afbf4c8996fb92427ae41e4649b934ca495991b7852b855")]

/-- The second reference is of another tenant. -/
def mixedBundle : Json.Fields :=
  [("tenant_id", .str "tenant_a"),
    ("organization_id", .str "organization_001"),
    ("workspace_id", .str "workspace_001"),
    ("evidence_refs", .arr [.obj (reference "tenant_a" "evidence_001"),
      .obj (reference "tenant_b" "evidence_002")])]

/-- The first reference stays registered when the second turns out to be of another tenant. -/
theorem registered_before_the_mismatch : ¬ lenient.Lawful .empty [.bundle mixedBundle] := by
  intro h
  have hraised : (lenient.exec .empty (.bundle mixedBundle)).1 =
      .error (.conflict "evidence tenant does not match bundle") := rfl
  have hunchanged := h.atomic [] (.bundle mixedBundle) [] rfl _ hraised
  have hstored : ((lenient.exec .empty (.bundle mixedBundle)).2.get? "evidence_001").isSome := by
    decide +kernel
  have hnone := hunchanged.nothing_new "evidence_001" rfl
  rw [after, List.foldl_nil] at hnone
  rw [hnone] at hstored
  cases hstored

end Alos.EvidenceRegistry
