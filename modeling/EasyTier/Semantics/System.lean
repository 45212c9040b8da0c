import Mathlib.Algebra.Ring.Nat
import Mathlib.Logic.Basic

/-! # Transition systems and runs under a condition

A system says where runs start and what one labelled step may do. Every temporal result of
the development is stated over the states reached by its runs; where a result needs a
condition on the steps, the condition is read in the state the step leaves.
-/

namespace EasyTier.Semantics

universe u v

/-- Where runs start, and what one labelled step may do. -/
structure System (State : Type u) (Label : Type v) where
  initial : State → Prop
  step : State → Label → State → Prop

namespace System

variable {State : Type u} {Label : Type v}

/-- States reached by runs all of whose steps are allowed in the state they leave. -/
inductive ReachableUnder (system : System State Label) (allowed : State → Label → Prop) :
    State → Prop
  | start {state : State} (starts : system.initial state) : ReachableUnder system allowed state
  | step {before after : State} {label : Label}
      (reached : ReachableUnder system allowed before) (permitted : allowed before label)
      (transition : system.step before label after) : ReachableUnder system allowed after

/-- States reached by any run. -/
def Reachable (system : System State Label) (state : State) : Prop :=
  system.ReachableUnder (fun _ _ => True) state

/-- A run under a condition is a run. -/
theorem ReachableUnder.reachable {system : System State Label}
    {allowed : State → Label → Prop} {state : State}
    (reached : system.ReachableUnder allowed state) : system.Reachable state := by
  induction reached with
  | start starts => exact .start starts
  | step _ _ transition ih => exact .step ih trivial transition

section

variable {system : System State Label} {allowed : State → Label → Prop} {motive : State → Prop}
    (base : ∀ state, system.initial state → motive state)
include base

/-- The invariant rule for steps that leave reachable states. -/
theorem ReachableUnder.invariant_reachable
    (preserved : ∀ before label after, system.Reachable before → motive before →
      allowed before label → system.step before label after → motive after)
    {state : State} (reached : system.ReachableUnder allowed state) : motive state := by
  induction reached with
  | start starts => exact base _ starts
  | step earlier permitted transition ih =>
    exact preserved _ _ _ earlier.reachable ih permitted transition

/-- What holds where runs start and is kept by every allowed step holds throughout. -/
theorem ReachableUnder.invariant
    (preserved : ∀ before label after, motive before → allowed before label →
      system.step before label after → motive after)
    {state : State} (reached : system.ReachableUnder allowed state) : motive state := by
  exact invariant_reachable base (fun before label after _ => preserved before label after) reached

end

/-- The system of a partial step function: a label without a result is not enabled. -/
def ofStep (initial : State → Prop) (step? : State → Label → Option State) :
    System State Label where
  initial := initial
  step before label after := step? before label = some after

/-- Execute labels in order, stopping at the first that is not enabled. -/
def run? (step? : State → Label → Option State) : State → List Label → Option State
  | state, [] => some state
  | state, label :: labels =>
    match step? state label with
    | some next => run? step? next labels
    | none => none

/-- The step function that refuses the steps a condition does not allow. -/
def restrict (allowed : State → Label → Prop) [∀ state label, Decidable (allowed state label)]
    (step? : State → Label → Option State) (state : State) (label : Label) : Option State :=
  if allowed state label then step? state label else none

variable {initial : State → Prop} {step? : State → Label → Option State}
  {allowed : State → Label → Prop} [∀ state label, Decidable (allowed state label)]

/-- Executing labels under a decidable condition ends in a state reached under it. -/
theorem reachableUnder_of_run? {labels : List Label} {before after : State}
    (reached : (ofStep initial step?).ReachableUnder allowed before)
    (ran : run? (restrict allowed step?) before labels = some after) :
    (ofStep initial step?).ReachableUnder allowed after := by
  induction labels generalizing before with
  | nil =>
    cases ran
    exact reached
  | cons label labels ih =>
    unfold run? at ran
    split at ran
    · rename_i next enabled
      by_cases permitted : allowed before label
      · rw [restrict, if_pos permitted] at enabled
        exact ih (.step reached permitted enabled) ran
      · simp [restrict, permitted] at enabled
    · cases ran

/-- An executed list of labels ends in a reachable state. -/
theorem reachable_of_run? {labels : List Label} {before after : State} (starts : initial before)
    (ran : run? step? before labels = some after) : (ofStep initial step?).Reachable after := by
  have unrestricted : restrict (fun _ _ => True) step? = step? := by
    funext state label
    simp [restrict]
  exact reachableUnder_of_run? (.start starts) (by rwa [unrestricted])

/-! A concrete run is executed once; what is then to be shown of its last state follows from a
property of that state which can be decided. -/

variable {goal : State → Prop} (before : State) (labels : List Label) (seen : State → Prop)
  [DecidablePred seen]

theorem exists_of_run?
    (ran : (run? step? before labels).any (fun state => decide (seen state)) = true)
    (holds : ∀ state, run? step? before labels = some state → seen state → goal state) :
    ∃ state, run? step? before labels = some state ∧ goal state := by
  obtain ⟨state, ended, observed⟩ := (Option.any_eq_true _ _).mp ran
  exact ⟨state, ended, holds state ended (of_decide_eq_true observed)⟩

theorem exists_reachable (starts : initial before)
    (ran : (run? step? before labels).any (fun state => decide (seen state)) = true)
    (holds : ∀ state, (ofStep initial step?).Reachable state →
      run? step? before labels = some state → seen state → goal state) :
    ∃ state, (ofStep initial step?).Reachable state ∧ goal state := by
  obtain ⟨state, ended, observed⟩ := exists_of_run? before labels seen ran fun _ _ => id
  have reached := reachable_of_run? starts ended
  exact ⟨state, reached, holds state reached ended observed⟩

theorem exists_reachableUnder (starts : initial before)
    (ran :
      (run? (restrict allowed step?) before labels).any (fun state => decide (seen state)) = true)
    (holds : ∀ state, (ofStep initial step?).ReachableUnder allowed state → seen state →
      goal state) :
    ∃ state, (ofStep initial step?).ReachableUnder allowed state ∧ goal state := by
  obtain ⟨state, ended, observed⟩ := exists_of_run? before labels seen ran fun _ _ => id
  have reached := reachableUnder_of_run? (.start starts) ended
  exact ⟨state, reached, holds state reached observed⟩

end System

end EasyTier.Semantics
