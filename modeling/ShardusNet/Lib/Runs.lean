import Mathlib.Logic.Basic
/-!
# Runs of a step relation

Finite runs of a labelled step relation, and the inductions over them that every safety result is an
instance of.

* `Run.invariant`: what holds at the start and is kept by every step holds at the end.
* `Run.invariant_along`: the same for a relation between the events so far and the state.
* `Run.simulate`: a run is matched, event for event, by one of a relation that matches its steps.
* `Run.deterministic`: where the event decides the next state, the events decide the last one.
-/

namespace Runs

/-- A run: the events in order, each taking a step. -/
inductive Run {S E : Type*} (R : S → E → S → Prop) (s : S) : List E → S → Prop
  | refl : Run R s [] s
  | tail {es : List E} {s' s'' : S} {e : E} : Run R s es s' → R s' e s'' → Run R s (es ++ [e]) s''

section
variable {S E : Type*} {R : S → E → S → Prop} {s s' s'' : S} {e : E} {es es' : List E}

/-- What holds of the events so far and the state, and is kept by every step, holds at the end. -/
theorem Run.invariant_along {I : List E → S → Prop} (r : Run R s es s') (h : I [] s)
    (hstep : ∀ {es s' e s''}, I es s' → R s' e s'' → I (es ++ [e]) s'') : I es s' := by
  induction r with
  | refl => exact h
  | tail _ hr ih => exact hstep ih hr

/-- What every step keeps holds at the end when it held at the start. -/
theorem Run.invariant {I : S → Prop} (r : Run R s es s') (h : I s)
    (hstep : ∀ {s' e s''}, I s' → R s' e s'' → I s'') : I s' :=
  r.invariant_along (I := fun _ => I) h hstep

/-- Runs in a row. -/
lemma Run.append (r : Run R s es s') (r' : Run R s' es' s'') : Run R s (es ++ es') s'' := by
  induction r' with
  | refl =>
    rw [List.append_nil]
    exact r
  | tail _ hr ih =>
    rw [← List.append_assoc]
    exact ih.tail hr

/-- A run of one step. -/
lemma Run.single (h : R s e s') : Run R s [e] s' := by
  have r : Run R s ([] ++ [e]) s' := Run.refl.tail h
  exact r

/-- Where every step is matched by one of another relation with the same event, so is every run. -/
theorem Run.simulate {T : Type*} {R' : T → E → T → Prop} {t : T} {I : S → T → Prop}
    (r : Run R s es s') (h : I s t)
    (hstep : ∀ {s' t' e s''}, e ∈ es → I s' t' → R s' e s'' → ∃ t'', R' t' e t'' ∧ I s'' t'') :
    ∃ t', Run R' t es t' ∧ I s' t' := by
  induction r with
  | refl => exact ⟨t, .refl, h⟩
  | tail _ hr ih =>
    obtain ⟨t', r', ht'⟩ := ih fun he => hstep (List.mem_append_left _ he)
    obtain ⟨t'', hr', ht''⟩ := hstep (List.mem_append_right _ (List.mem_singleton_self _)) ht' hr
    exact ⟨t'', r'.tail hr', ht''⟩

/-- Where a state and an event have one next state, the events of a run decide where it ends. -/
theorem Run.deterministic (r : Run R s es s') (r' : Run R s es s'')
    (hR : ∀ {s e s' s''}, R s e s' → R s e s'' → s' = s'') : s' = s'' := by
  induction r generalizing s'' with
  | refl =>
    generalize hes : ([] : List E) = es at r'
    cases r' with
    | refl => rfl
    | tail _ _ => cases (List.append_eq_nil_iff.mp hes.symm).2
  | @tail es s' s₁ e _ hr ih =>
    generalize hes : es ++ [e] = es' at r'
    cases r' with
    | refl => cases (List.append_eq_nil_iff.mp hes).2
    | tail r' hr' =>
      obtain ⟨rfl, he⟩ := List.append_inj' hes rfl
      cases he
      obtain rfl := ih r'
      exact hR hr hr'

end

end Runs
