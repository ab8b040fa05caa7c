import KarteOs.Foundation.Run

/-! # Non-interference by unwinding

A deterministic system answers each label it is given. Some labels are visible to an
observer; the others should not change what it is answered. It is enough that a
relation between states survives an invisible step on one side, and a visible step on
both sides with the same answer: then a run answers the visible labels as the run
without the invisible ones does.
-/

namespace Transition

universe uState uLabel uOutput

variable {State : Type uState} {Label : Type uLabel} {Output : Type uOutput}
  (step : State → Label → State × Output)

/-- The labels of a run with their answers. -/
def answers : State → List Label → List (Label × Output)
  | _, [] => []
  | state, label :: labels => (label, (step state label).2) :: answers (step state label).1 labels

/-- What a step has to do to a relation between states. -/
structure Unwinds (legal : State → Label → Prop) (visible : Label → Bool)
    (related : State → State → Prop) : Prop where
  invisible : ∀ {state other label}, related state other → legal state label →
    visible label = false → related (step state label).1 other
  visible : ∀ {state other label}, related state other → legal state label →
    visible label = true → related (step state label).1 (step other label).1 ∧
      (step state label).2 = (step other label).2

variable {step : State → Label → State × Output} {legal : State → Label → Prop}
  {visible : Label → Bool} {related : State → State → Prop} {state : State}

lemma Unwinds.answers_eq (hunwinds : Unwinds step legal visible related) {labels : List Label}
    {other : State} (hrelated : related state other)
    (hlegal : Allowed legal (fun state label => (step state label).1) state labels) :
    (answers step state labels).filter (fun answer => visible answer.1) =
      answers step other (labels.filter visible) := by
  induction labels generalizing state other with
  | nil => rfl
  | cons label labels ih =>
    obtain ⟨hlabel, hrest⟩ := hlegal
    cases hvisible : visible label with
    | false =>
      rw [answers, List.filter_cons_of_neg (by simpa using hvisible),
        List.filter_cons_of_neg (by simpa using hvisible)]
      exact ih (hunwinds.invisible hrelated hlabel hvisible) hrest
    | true =>
      obtain ⟨hnext, hanswer⟩ := hunwinds.visible hrelated hlabel hvisible
      rw [answers, List.filter_cons_of_pos (by simpa using hvisible),
        List.filter_cons_of_pos (by simpa using hvisible), answers, hanswer, ih hnext hrest]

lemma Unwinds.answers_eq_answers (hunwinds : Unwinds step legal visible related)
    {first second : List Label} (hrelated : related state state)
    (hfirst : Allowed legal (fun state label => (step state label).1) state first)
    (hsecond : Allowed legal (fun state label => (step state label).1) state second)
    (hsame : first.filter visible = second.filter visible) :
    (answers step state first).filter (fun answer => visible answer.1) =
      (answers step state second).filter fun answer => visible answer.1 := by
  rw [hunwinds.answers_eq hrelated hfirst, hunwinds.answers_eq hrelated hsecond, hsame]

end Transition
