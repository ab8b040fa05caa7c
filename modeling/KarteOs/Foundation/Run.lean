import Mathlib.Logic.Relation

/-! # Finite runs of a labelled transition relation

A run is a list of labels together with the steps that consume it. Safety
arguments name an invariant and show that one step preserves it; the rules
below carry it to every state of a run.
-/

namespace Transition

universe uState uLabel

variable {State : Type uState} {Label : Type uLabel}

/-- `Run step s labels t`: the labels lead from `s` to `t`, one step each. -/
inductive Run (step : State → Label → State → Prop) : State → List Label → State → Prop
  | nil (state : State) : Run step state [] state
  | cons {state middle final : State} {label : Label} {labels : List Label} :
      step state label middle → Run step middle labels final →
      Run step state (label :: labels) final

namespace Run

variable {step : State → Label → State → Prop} {labels : List Label}

lemma invariant {good : State → Prop}
    (hstep : ∀ state label next, good state → step state label next → good next)
    {state final : State} (hrun : Run step state labels final) (hstate : good state) :
    good final := by
  induction hrun with
  | nil state => exact hstate
  | cons hhead _ ih => exact ih (hstep _ _ _ hstate hhead)

lemma refines {Abstract : Type*} {related : State → Abstract → Prop}
    {follow : Abstract → Label → Abstract}
    (hstep : ∀ state label next abstract, related state abstract → step state label next →
      related next (follow abstract label)) {state final : State} {abstract : Abstract}
    (hrun : Run step state labels final) (hstate : related state abstract) :
    related final (labels.foldl follow abstract) := by
  induction hrun generalizing abstract with
  | nil state => exact hstate
  | cons hhead _ ih => exact ih (hstep _ _ _ _ hstate hhead)

lemma append {state middle final : State} {first second : List Label}
    (hfirst : Run step state first middle) (hsecond : Run step middle second final) :
    Run step state (first ++ second) final := by
  induction hfirst with
  | nil state => exact hsecond
  | cons hhead _ ih => exact .cons hhead (ih hsecond)

end Run

section
variable (legal : State → Label → Prop) (apply : State → Label → State)

/-- A deterministic step that is taken only where it is legal. -/
def Guarded (state : State) (label : Label) (next : State) : Prop :=
  legal state label ∧ next = apply state label

/-- Every label is legal where its turn comes. -/
def Allowed : State → List Label → Prop
  | _, [] => True
  | state, label :: labels => legal state label ∧ Allowed (apply state label) labels

instance decidableAllowed [∀ state label, Decidable (legal state label)] :
    ∀ state labels, Decidable (Allowed legal apply state labels)
  | _, [] => .isTrue trivial
  | state, label :: labels =>
    have := decidableAllowed (apply state label) labels
    inferInstanceAs (Decidable (legal state label ∧ Allowed legal apply _ labels))

variable {legal apply}
  {good : State → Prop} {first second extra : State → Label → Prop} {state : State}
  {labels : List Label}

/-- Two conditions that agree on the legal steps from good states agree on legal lists of
labels, where the legal steps keep the state good. -/
lemma Allowed.iff_of_good (hiff : ∀ state label, good state → legal state label →
      (first state label ↔ second state label))
    (hgood : ∀ state label, good state → legal state label → good (apply state label))
    (hallowed : Allowed legal apply state labels) (hstate : good state) :
    Allowed first apply state labels ↔ Allowed second apply state labels := by
  induction labels generalizing state with
  | nil => exact Iff.rfl
  | cons label labels ih =>
    exact and_congr (hiff state label hstate hallowed.1)
      (ih hallowed.2 (hgood state label hstate hallowed.1))

lemma Allowed.iff
    (hiff : ∀ state label, legal state label → (first state label ↔ second state label))
    (hallowed : Allowed legal apply state labels) :
    Allowed first apply state labels ↔ Allowed second apply state labels :=
  Allowed.iff_of_good (fun state label (_ : True) => hiff state label)
    (fun _ _ _ _ => trivial) hallowed trivial

/-- Two conditions that agree on the good states agree on lists of labels, where
one of them keeps the state good. -/
lemma Allowed.iff_of_invariant
    (hiff : ∀ state label, good state → (first state label ↔ second state label))
    (hgood : ∀ state label, good state → first state label → good (apply state label))
    (hstate : good state) (labels : List Label) :
    Allowed first apply state labels ↔ Allowed second apply state labels := by
  induction labels generalizing state with
  | nil => exact Iff.rfl
  | cons label labels ih =>
    constructor
    · rintro ⟨hfirst, hrest⟩
      exact ⟨(hiff state label hstate).mp hfirst, (ih (hgood state label hstate hfirst)).mp hrest⟩
    · rintro ⟨hsecond, hrest⟩
      have hfirst := (hiff state label hstate).mpr hsecond
      exact ⟨hfirst, (ih (hgood state label hstate hfirst)).mpr hrest⟩

lemma Allowed.imp_of_good (himp : ∀ state label, good state → legal state label → extra state label)
    (hgood : ∀ state label, good state → legal state label → good (apply state label))
    (hallowed : Allowed legal apply state labels) (hstate : good state) :
    Allowed extra apply state labels := by
  induction labels generalizing state with
  | nil => trivial
  | cons label labels ih =>
    exact ⟨himp state label hstate hallowed.1, ih hallowed.2 (hgood state label hstate hallowed.1)⟩

lemma Allowed.imp (himp : ∀ state label, legal state label → extra state label)
    (hallowed : Allowed legal apply state labels) : Allowed extra apply state labels :=
  hallowed.imp_of_good (fun state label (_ : True) => himp state label)
    (fun _ _ _ _ => trivial) trivial

lemma Allowed.invariant
    (hstep : ∀ state label, good state → legal state label → good (apply state label))
    (hallowed : Allowed legal apply state labels) (hstate : good state) :
    good (labels.foldl apply state) := by
  induction labels generalizing state with
  | nil => exact hstate
  | cons label labels ih => exact ih hallowed.2 (hstep state label hstate hallowed.1)

lemma allowed_iff_forall {legal : Label → Prop} :
    Allowed (fun _ => legal) apply state labels ↔ ∀ label ∈ labels, legal label := by
  induction labels generalizing state with
  | nil => exact iff_of_true trivial nofun
  | cons label labels ih => exact (and_congr_right fun _ => ih).trans List.forall_mem_cons.symm

lemma allowed_append_iff {first second : List Label} : Allowed legal apply state (first ++ second) ↔
      Allowed legal apply state first ∧ Allowed legal apply (first.foldl apply state) second := by
  induction first generalizing state with
  | nil => exact (and_iff_right trivial).symm
  | cons label first ih => exact (and_congr_right fun _ => ih).trans and_assoc.symm

lemma Run.of_allowed (hallowed : Allowed legal apply state labels) :
    Run (Guarded legal apply) state labels (labels.foldl apply state) := by
  induction labels generalizing state with
  | nil => exact .nil state
  | cons label labels ih => exact .cons ⟨hallowed.1, rfl⟩ (ih hallowed.2)

/-- A predicate that the steps preserve where a further condition holds is kept by the
runs that meet the condition at every step. -/
lemma Run.invariant_of_allowed
    (hstep : ∀ state label, good state → legal state label → extra state label →
      good (apply state label)) {final : State}
    (hrun : Run (Guarded legal apply) state labels final)
    (hextra : Allowed extra apply state labels) (hstate : good state) : good final := by
  induction hrun with
  | nil state => exact hstate
  | cons hhead _ ih =>
    obtain ⟨hlegal, rfl⟩ := hhead
    exact ih hextra.2 (hstep _ _ hstate hlegal hextra.1)

end

/-- An endless run: the state and the label at every time. -/
structure Trace (step : State → Label → State → Prop) where
  state : Nat → State
  label : Nat → Label
  steps : ∀ time, step (state time) (label time) (state (time + 1))

namespace Trace

variable {step : State → Label → State → Prop}

lemma invariant_from (trace : Trace step) (good : State → Prop) {start : Nat}
    (hstart : good (trace.state start))
    (hstep : ∀ time, start ≤ time → good (trace.state time) → good (trace.state (time + 1)))
    {time : Nat} (htime : start ≤ time) : good (trace.state time) := by
  induction htime with
  | refl => exact hstart
  | step htime ih => exact hstep _ htime ih

end Trace

end Transition
