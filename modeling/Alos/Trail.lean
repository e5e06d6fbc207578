import Mathlib.Data.List.Basic
import Mathlib.Logic.Function.Basic

/-! # Histories that can be replayed

A trail of events, each about one entity. `fold` says what an event makes of
what is known of its entity. Replaying the whole trail (`told`) comes to the
same as folding the history of each entity by itself (`told_apply`).

* `told_append` and `Sourced.append` put two parts of a trail together;
* `sourced_iff` turns the recursion of `Sourced` into a statement about every
  event of the trail and what came before it.
-/

namespace Trail

variable {κ φ ε : Type} [DecidableEq κ] (entity : ε → κ) (fold : Option φ → ε → Option φ)

/-- What is known of every entity once the event is told. -/
def tell (view : κ → Option φ) (e : ε) : κ → Option φ :=
  Function.update view (entity e) (fold (view (entity e)) e)

/-- What is known once the events are told in their order. -/
def told (view : κ → Option φ) (es : List ε) : κ → Option φ := es.foldl (tell entity fold) view

/-- The events about one entity. -/
def history (es : List ε) (k : κ) : List ε := es.filter fun e => entity e = k

/-- What the events about an entity say of it. -/
def replay (es : List ε) (k : κ) : Option φ := (history entity es k).foldl fold none

/-- Every event meets `P` in what is known before it is told. -/
def Sourced (P : Option φ → ε → Prop) (view : κ → Option φ) : List ε → Prop
  | [] => True
  | e :: es => P (view (entity e)) e ∧ Sourced P (tell entity fold view e) es

variable {entity fold}

theorem told_append (view : κ → Option φ) (es fs : List ε) :
    told entity fold view (es ++ fs) = told entity fold (told entity fold view es) fs :=
  List.foldl_append

/-- Of each entity, the trail says what its own history says. -/
theorem told_apply (view : κ → Option φ) (es : List ε) (k : κ) :
    told entity fold view es k = (history entity es k).foldl fold (view k) := by
  induction es generalizing view with
  | nil => rfl
  | cons e es ih =>
      have htail := ih (tell entity fold view e)
      by_cases hk : entity e = k
      · rw [history, List.filter_cons_of_pos (by simpa using hk)]
        subst hk
        simpa [told, tell, history] using htail
      · rw [history, List.filter_cons_of_neg (by simpa using hk)]
        have hview : tell entity fold view e k = view k := Function.update_of_ne (Ne.symm hk) _ _
        rw [hview] at htail
        exact htail

theorem told_none (es : List ε) (k : κ) :
    told entity fold (fun _ => none) es k = replay entity fold es k := told_apply _ es k

variable {P : Option φ → ε → Prop}

theorem Sourced.append {view : κ → Option φ} {es fs : List ε}
    (hes : Sourced entity fold P view es)
    (hfs : Sourced entity fold P (told entity fold view es) fs) :
    Sourced entity fold P view (es ++ fs) := by
  induction es generalizing view with
  | nil => exact hfs
  | cons e es ih => exact ⟨hes.1, ih hes.2 hfs⟩

theorem sourced_iff {view : κ → Option φ} {es : List ε} :
    Sourced entity fold P view es ↔
      ∀ pre e post, es = pre ++ e :: post → P (told entity fold view pre (entity e)) e := by
  induction es generalizing view with
  | nil => simp [Sourced]
  | cons d es ih =>
      constructor
      · intro h pre e post hes
        -- the event in question is the first one, or a later one
        cases pre with
        | nil =>
            obtain ⟨rfl, -⟩ := List.cons.inj hes
            exact h.1
        | cons d' pre =>
            obtain ⟨rfl, htail⟩ := List.cons.inj hes
            exact ih.1 h.2 pre e post htail
      · intro h
        constructor
        · exact h [] d es rfl
        · apply ih.2
          intro pre e post hes
          have hcons := h (d :: pre) e post
          exact hcons (by rw [hes]; rfl)

end Trail
