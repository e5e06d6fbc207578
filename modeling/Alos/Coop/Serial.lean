import Alos.Coop.System

/-! # Runs in the order of their commits

A run of overlapping calls leaves what the calls would leave one after the
other when each call has a segment at which it *commits*, and until then keeps
the cells of the state that it works on to itself. A `Ledger` says which cells
a suspended call holds, and how far it is (`Pending`, `Settled`); `Keeps` is
what has to be checked of every single segment; `Ledger.serializes` is the
rule.

The invariant compares the state with `serveAll`, in which the calls that have
committed have been served in the order of their commits: the two agree on
every cell that no call holds, and on the part of the state that cannot be
held (`rest`).
-/

namespace Coop

variable {σ Q : Type} {A : Q → Type} {ε α : Type} {C : Type} {κ V W : Type}

/-- How the calls of a system work on the cells of its state. -/
structure Ledger (C σ Q : Type) (A : Q → Type) (ε α κ V W : Type) where
  cell : σ → κ → V
  rest : σ → W
  /-- The effect of a call that runs alone. -/
  serve : σ → C → σ
  /-- An invariant of the shared state. -/
  Inv : σ → Prop
  /-- The cells held by a call that is suspended at a question. -/
  holds : C → Q → κ → Prop
  /-- A suspended call that has not committed: the state, and the state in
  which only the committed calls have been served. -/
  Pending : σ → σ → C → (q : Q) → (A q → Proc σ Q A ε α) → Prop
  /-- A suspended call that has committed. -/
  Settled : C → (q : Q) → (A q → Proc σ Q A ε α) → Prop
  pending_congr : ∀ {s s' served served' c q k}, Pending s served c q k →
    (∀ x, holds c q x → cell s' x = cell s x ∧ cell served' x = cell served x) →
    Pending s' served' c q k
  settled_free : ∀ {c q k}, Settled c q k → ∀ x, ¬ holds c q x

namespace Ledger

variable (L : Ledger C σ Q A ε α κ V W)

/-- The cells that a thread holds. -/
def Holds (th : Thread C σ Q A ε α) (x : κ) : Prop :=
  match th.now with
  | .awaiting q _ => L.holds th.call q x
  | _ => False

/-- No thread holds the cell. -/
def Free (t : Sys C σ Q A ε α) (x : κ) : Prop := ∀ i th, t.threads i = some th → ¬ L.Holds th x

/-- No thread of `js` holds the cell: what can be checked of a given run. -/
def FreeAmong (js : List ℕ) (t : Sys C σ Q A ε α) (x : κ) : Prop :=
  ∀ j ∈ js, ∀ th ∈ t.threads j, ¬ L.Holds th x

theorem free_of_among {js : List ℕ} {t : Sys C σ Q A ε α} {x : κ} (h : L.FreeAmong js t x)
    (hjs : ∀ j, j ∉ js → t.threads j = none) : L.Free t x := by
  intro i th hth
  by_cases hi : i ∈ js
  · exact h i hi th hth
  · rw [hjs i hi] at hth
    cases hth

/-- The calls served one after the other. -/
def serveAll (s : σ) (order : List (ℕ × C)) : σ := order.foldl (fun s x => L.serve s x.2) s

theorem serveAll_snoc (s : σ) (order : List (ℕ × C)) (i : ℕ) (c : C) :
    L.serveAll s (order ++ [(i, c)]) = L.serve (L.serveAll s order) c := by
  simp [serveAll]

/-- The state agrees with `served` wherever no call is at work. -/
structure Agrees (t : Sys C σ Q A ε α) (served : σ) : Prop where
  rest : L.rest t.shared = L.rest served
  cell : ∀ x, L.Free t x → L.cell t.shared x = L.cell served x

/-- What a segment of a call may do that has not committed and held `before`. -/
inductive Move (t : Sys C σ Q A ε α) (served : σ) (c : C) (before : κ → Prop) :
    σ × Yield σ Q A ε α → Prop where
  /-- The call gives up before it has done anything. -/
  | refuse {e} (hbefore : ∀ x, ¬ before x) : Move t served c before (t.shared, .raised e)
  /-- The call is suspended, with more cells in its hands. -/
  | hold {s q k} (hpending : L.Pending s served c q k) (hrest : L.rest s = L.rest t.shared)
      (hcell : ∀ x, ¬ L.holds c q x → L.cell s x = L.cell t.shared x)
      (hkeep : ∀ x, before x → L.holds c q x)
      (hfree : ∀ x, L.holds c q x → before x ∨ L.Free t x) :
      Move t served c before (s, .awaiting q k)
  /-- The call commits. -/
  | commit {s y} (hrest : L.rest s = L.rest (L.serve served c))
      (hcell : ∀ x, before x → L.cell s x = L.cell (L.serve served c) x)
      (hframe : ∀ x, ¬ before x → L.cell s x = L.cell t.shared x ∧
        L.cell (L.serve served c) x = L.cell served x)
      (hy : (∃ a, y = .returned a) ∨ ∃ q k, y = .awaiting q k ∧ L.Settled c q k) :
      Move t served c before (s, y)

/-- The obligations of the single segments, for steps that meet `P`. -/
structure Keeps (prog : C → Proc σ Q A ε α)
    (P : Sys C σ Q A ε α → Step C Q A → Prop) : Prop where
  start : ∀ t i c served, L.Agrees t served → L.Inv t.shared → P t (.call i c) →
    t.threads i = none → L.Inv ((prog c).advance t.shared).1 ∧
      L.Move t served c (fun _ => False) ((prog c).advance t.shared)
  resume : ∀ t i reply served c q k, L.Agrees t served → L.Inv t.shared →
    P t (.resume i reply) → t.threads i = some ⟨c, .awaiting q k⟩ →
    L.Pending t.shared served c q k → L.Inv ((k (reply q)).advance t.shared).1 ∧
      L.Move t served c (L.holds c q) ((k (reply q)).advance t.shared)
  settled : ∀ t i reply c q k, P t (.resume i reply) → t.threads i = some ⟨c, .awaiting q k⟩ →
    L.Settled c q k → ∃ a, (k (reply q)).advance t.shared = (t.shared, .returned a)

/-! ## The invariant -/

/-- How far a thread is; `done` says that its call has committed. -/
inductive Status (s served : σ) (done : Prop) (c : C) : Yield σ Q A ε α → Prop where
  | returned {a} (h : done) : Status s served done c (.returned a)
  | raised {e} (h : ¬ done) : Status s served done c (.raised e)
  | pending {q k} (h : ¬ done) (hpending : L.Pending s served c q k) :
      Status s served done c (.awaiting q k)
  | settled {q k} (h : done) (hsettled : L.Settled c q k) :
      Status s served done c (.awaiting q k)

/-- `order` lists the threads whose calls have committed, with their calls. -/
structure Serial (s : σ) (t : Sys C σ Q A ε α) (order : List (ℕ × C)) : Prop where
  inv : L.Inv t.shared
  nodup : (order.map Prod.fst).Nodup
  listed : ∀ i c, (i, c) ∈ order → ∃ y, t.threads i = some ⟨c, y⟩
  status : ∀ i th, t.threads i = some th →
    L.Status t.shared (L.serveAll s order) ((i, th.call) ∈ order) th.call th.now
  agrees : L.Agrees t (L.serveAll s order)
  exclusive : ∀ i j th th', i ≠ j → t.threads i = some th → t.threads j = some th' →
    ∀ x, L.Holds th x → ¬ L.Holds th' x

/-- The calls that have committed can be listed. -/
def Serializable (s : σ) (t : Sys C σ Q A ε α) : Prop := ∃ order, L.Serial s t order

variable {L} {s : σ} {t : Sys C σ Q A ε α} {order : List (ℕ × C)}

theorem Status.congr {s s' served served' : σ} {done done' : Prop} {c : C}
    {y : Yield σ Q A ε α} (h : L.Status s served done c y) (hdone : done' ↔ done)
    (hcell : ∀ x, L.Holds ⟨c, y⟩ x → L.cell s' x = L.cell s x ∧
      L.cell served' x = L.cell served x) : L.Status s' served' done' c y := by
  cases h with
  | returned h => exact .returned (hdone.2 h)
  | raised h => exact .raised fun hd => h (hdone.1 hd)
  | pending h hpending =>
      exact .pending (fun hd => h (hdone.1 hd)) (L.pending_congr hpending hcell)
  | settled h hsettled => exact .settled (hdone.2 h) hsettled

/-- What all steps of the invariant share: thread `i` moves from holding
`before` to `y`, and leaves alone what the others hold. -/
theorem Serial.step (h : L.Serial s t order) {i : ℕ} {c : C} {input : Input Q A}
    {before : κ → Prop} {s' : σ} {y : Yield σ Q A ε α} {order' : List (ℕ × C)}
    (hinv : L.Inv s')
    (hown : ∀ th, t.threads i = some th → th.call = c ∧ ∀ x, L.Holds th x ↔ before x)
    (hnone : t.threads i = none → ∀ x, ¬ before x)
    (horder : order' = order ∨ order' = order ++ [(i, c)] ∧ (i, c) ∉ order)
    (hstatus : L.Status s' (L.serveAll s order') ((i, c) ∈ order') c y)
    (hrest : L.rest s' = L.rest (L.serveAll s order'))
    (hframe : ∀ x, ¬ before x → ¬ L.Holds ⟨c, y⟩ x → L.cell s' x = L.cell t.shared x ∧
      L.cell (L.serveAll s order') x = L.cell (L.serveAll s order) x)
    (hothers : ∀ x, ¬ before x → L.Holds ⟨c, y⟩ x →
      L.Free t x ∧ L.cell (L.serveAll s order') x = L.cell (L.serveAll s order) x)
    (hleft : ∀ x, before x → ¬ L.Holds ⟨c, y⟩ x →
      L.cell s' x = L.cell (L.serveAll s order') x) :
    L.Serial s (t.land ⟨i, c, input, s', y⟩) order' := by
  -- the other threads hold neither what `i` held nor what it holds now
  have hbefore : ∀ j th x, j ≠ i → t.threads j = some th → L.Holds th x → ¬ before x := by
    intro j th x hj hth hx hb
    cases hi : t.threads i with
    | none => exact hnone hi x hb
    | some own =>
        have hown' := ((hown own hi).2 x).2 hb
        exact h.exclusive i j own th (Ne.symm hj) hi hth x hown' hx
  have hafter : ∀ j th x, j ≠ i → t.threads j = some th → L.Holds th x →
      ¬ L.Holds ⟨c, y⟩ x := by
    intro j th x hj hth hx hy
    exact (hothers x (hbefore j th x hj hth hx) hy).1 j th hth hx
  have hmem : ∀ j d, j ≠ i → ((j, d) ∈ order' ↔ (j, d) ∈ order) := by
    intro j d hj
    rcases horder with rfl | ⟨rfl, -⟩
    · exact Iff.rfl
    · simp [hj]
  have hnew : ∀ j th, (t.land ⟨i, c, input, s', y⟩).threads j = some th →
      (j = i ∧ th = ⟨c, y⟩) ∨ (j ≠ i ∧ t.threads j = some th) := by
    intro j th hth
    by_cases hj : j = i
    · subst hj
      simp only [Sys.land, Function.update_self, Option.some.injEq] at hth
      exact .inl ⟨rfl, hth.symm⟩
    · simp only [Sys.land, Function.update_of_ne hj] at hth
      exact .inr ⟨hj, hth⟩
  refine ⟨hinv, ?_, ?_, ?_, ⟨hrest, ?_⟩, ?_⟩
  · -- no thread is listed twice
    rcases horder with rfl | ⟨rfl, hnot⟩
    · exact h.nodup
    · rw [List.map_append, List.nodup_append]
      refine ⟨h.nodup, by simp, ?_⟩
      rintro j hj j' hj' rfl
      simp only [List.map_cons, List.map_nil, List.mem_singleton] at hj'
      subst hj'
      obtain ⟨⟨j', d⟩, hd, rfl⟩ := List.mem_map.1 hj
      obtain ⟨y', hy'⟩ := h.listed _ _ hd
      have hcall := (hown _ hy').1
      simp only at hcall
      exact hnot (hcall ▸ hd)
  · intro j d hd
    by_cases hj : j = i
    · subst hj
      have hdc : d = c := by
        rcases horder with rfl | ⟨rfl, -⟩
        · obtain ⟨y', hy'⟩ := h.listed _ _ hd
          exact (hown _ hy').1
        · rcases List.mem_append.1 hd with hmem' | hlast
          · obtain ⟨y', hy'⟩ := h.listed _ _ hmem'
            exact (hown _ hy').1
          · simpa using hlast
      subst hdc
      exact ⟨y, by simp [Sys.land]⟩
    · obtain ⟨y', hy'⟩ := h.listed j d ((hmem j d hj).1 hd)
      exact ⟨y', by simpa [Sys.land, hj] using hy'⟩
  · intro j th hth
    rcases hnew j th hth with ⟨rfl, rfl⟩ | ⟨hj, hold⟩
    · exact hstatus
    · apply (h.status j th hold).congr (hmem j th.call hj)
      intro x hx
      exact hframe x (hbefore j th x hj hold hx) (hafter j th x hj hold hx)
  · intro x hfree
    have hnot : ¬ L.Holds ⟨c, y⟩ x := hfree i ⟨c, y⟩ (by simp [Sys.land])
    by_cases hb : before x
    · exact hleft x hb hnot
    · have hfree' : L.Free t x := by
        intro j th hth hx
        by_cases hj : j = i
        · subst hj
          exact hb (((hown th hth).2 x).1 hx)
        · exact hfree j th (by simpa [Sys.land, hj] using hth) hx
      obtain ⟨hcell, hserved⟩ := hframe x hb hnot
      change L.cell s' x = _
      rw [hcell, hserved]
      exact h.agrees.cell x hfree'
  · intro j j' th th' hne hth hth' x hx hx'
    rcases hnew j th hth with ⟨rfl, rfl⟩ | ⟨hj, hold⟩
    · rcases hnew j' th' hth' with ⟨rfl, -⟩ | ⟨hj', hold'⟩
      · exact hne rfl
      · exact hafter j' th' x hj' hold' hx' hx
    · rcases hnew j' th' hth' with ⟨rfl, rfl⟩ | ⟨hj', hold'⟩
      · exact hafter j th x hj hold hx hx'
      · exact h.exclusive j j' th th' hne hold hold' x hx hx'

/-- A segment of a call that has not committed. -/
theorem Serial.move (h : L.Serial s t order) {i : ℕ} {c : C} {input : Input Q A}
    {before : κ → Prop} {landing : σ × Yield σ Q A ε α} (hinv : L.Inv landing.1)
    (hown : ∀ th, t.threads i = some th → th.call = c ∧ ∀ x, L.Holds th x ↔ before x)
    (hnone : t.threads i = none → ∀ x, ¬ before x) (hnot : (i, c) ∉ order)
    (hmove : L.Move t (L.serveAll s order) c before landing) :
    L.Serializable s (t.land ⟨i, c, input, landing⟩) := by
  cases hmove with
  | refuse hbefore =>
      -- the call is not served
      refine ⟨order, h.step hinv hown hnone (.inl rfl) (.raised hnot) h.agrees.rest ?_ ?_ ?_⟩
      · intro x _ _
        exact ⟨rfl, rfl⟩
      · intro x _ hx
        exact hx.elim
      · intro x hx
        exact absurd hx (hbefore x)
  | hold hpending hrest hcell hkeep hfree =>
      -- the call is not served yet, and holds what it has taken
      refine ⟨order, h.step hinv hown hnone (.inl rfl) (.pending hnot hpending)
        (hrest.trans h.agrees.rest) ?_ ?_ ?_⟩
      · intro x _ hx
        exact ⟨hcell x hx, rfl⟩
      · intro x hb hx
        exact ⟨(hfree x hx).resolve_left hb, rfl⟩
      · intro x hb hx
        exact absurd (hkeep x hb) hx
  | @commit s' y hrest hcell hframe hy =>
      have hfree : ∀ x, ¬ L.Holds ⟨c, y⟩ x := by
        intro x hx
        rcases hy with ⟨a, rfl⟩ | ⟨q, k, rfl, hsettled⟩
        · exact hx
        · exact L.settled_free hsettled x hx
      -- the call is served after the earlier ones
      have hserve := L.serveAll_snoc s order i c
      refine ⟨order ++ [(i, c)], h.step hinv hown hnone (.inr ⟨rfl, hnot⟩) ?_ ?_ ?_ ?_ ?_⟩
      · have hdone : (i, c) ∈ order ++ [(i, c)] := by simp
        rcases hy with ⟨a, rfl⟩ | ⟨q, k, rfl, hsettled⟩
        · exact .returned hdone
        · exact .settled hdone hsettled
      · rw [hserve]
        exact hrest
      · intro x hb _
        rw [hserve]
        exact hframe x hb
      · intro x _ hx
        exact absurd hx (hfree x)
      · intro x hb _
        rw [hserve]
        exact hcell x hb

/-! ## The rule -/

variable {prog : C → Proc σ Q A ε α} {P : Sys C σ Q A ε α → Step C Q A → Prop}

theorem Serial.fire (hK : L.Keeps prog P) (h : L.Serial s t order) {x : Step C Q A}
    {f : Firing C σ Q A ε α} (hP : P t x) (hf : fire prog t x = some f) :
    L.Serializable s (t.land f) := by
  cases x with
  | call i c =>
      obtain ⟨hi, rfl⟩ := fire_call_eq_some.1 hf
      obtain ⟨hinv, hmove⟩ := hK.start t i c _ h.agrees h.inv hP hi
      refine h.move hinv ?_ (fun _ _ => id) ?_ hmove
      · intro th hth
        simp [hi] at hth
      · intro hmem
        obtain ⟨y, hy⟩ := h.listed i c hmem
        simp [hi] at hy
  | resume i reply =>
      obtain ⟨c, q, k, hi, rfl⟩ := fire_resume_eq_some.1 hf
      have hown : ∀ th, t.threads i = some th → th.call = c ∧
          ∀ x, L.Holds th x ↔ L.holds c q x := by
        intro th hth
        rw [hi] at hth
        cases hth
        exact ⟨rfl, fun x => Iff.rfl⟩
      have hnone : t.threads i = none → ∀ x, ¬ L.holds c q x := by simp [hi]
      cases h.status i _ hi with
      | pending hnot hpending =>
          obtain ⟨hinv, hmove⟩ := hK.resume t i reply _ c q k h.agrees h.inv hP hi hpending
          exact h.move hinv hown hnone hnot hmove
      | settled hdone hsettled =>
          -- a settled call only returns
          obtain ⟨a, ha⟩ := hK.settled t i reply c q k hP hi hsettled
          have hfree := L.settled_free hsettled
          rw [ha]
          refine ⟨order, h.step h.inv hown hnone (.inl rfl) (.returned hdone) h.agrees.rest ?_ ?_ ?_⟩
          · intro x _ _
            exact ⟨rfl, rfl⟩
          · intro x _ hx
            exact hx.elim
          · intro x hx
            exact absurd hx (hfree x)

theorem serial_init (s : σ) (hs : L.Inv s) : L.Serial s (init s) [] where
  inv := hs
  nodup := by simp
  listed := by simp
  status := by simp [init]
  agrees := ⟨rfl, fun _ _ => rfl⟩
  exclusive := by simp [init]

/-- Once all calls of a run have finished, the state is that in which the
calls that returned have been served one after the other, and no others. -/
theorem serializes (hK : L.Keeps prog P) (hs : L.Inv s) (xs : List (Step C Q A))
    (hP : Along prog P (init s) xs)
    (hfinished : ∀ i th, (run prog (init s) xs).threads i = some th →
      (∃ a, th.now = .returned a) ∨ ∃ e, th.now = .raised e) :
    ∃ order : List (ℕ × C), (order.map Prod.fst).Nodup ∧
      (∀ i c, (i, c) ∈ order ↔ ∃ a, (run prog (init s) xs).threads i = some ⟨c, .returned a⟩) ∧
      L.rest (run prog (init s) xs).shared = L.rest (L.serveAll s order) ∧
      ∀ x, L.cell (run prog (init s) xs).shared x = L.cell (L.serveAll s order) x := by
  have hserial : L.Serializable s (run prog (init s) xs) := by
    apply run_invariant _ _ xs hP
    · exact ⟨[], serial_init s hs⟩
    · rintro t x f ⟨order, ht⟩ hx hf
      exact ht.fire hK hx hf
  rcases hserial with ⟨order, h⟩
  refine ⟨order, h.nodup, ?_, h.agrees.rest, ?_⟩
  · intro i c
    constructor
    · intro hmem
      obtain ⟨y, hy⟩ := h.listed i c hmem
      rcases hfinished i _ hy with ⟨a, rfl⟩ | ⟨e, rfl⟩
      · exact ⟨a, hy⟩
      · cases h.status i _ hy with
        | raised hnot => exact absurd hmem hnot
    · rintro ⟨a, ha⟩
      cases h.status i _ ha with
      | returned hdone => exact hdone
  · intro x
    -- a call that has finished holds nothing
    apply h.agrees.cell
    intro i th hth hx
    obtain ⟨c, y⟩ := th
    rcases hfinished i _ hth with ⟨a, rfl⟩ | ⟨e, rfl⟩ <;> exact hx

end Ledger

end Coop
