import Mathlib.Data.List.Basic

namespace Paulastorm.Library

/-! Labelled machines whose steps may be refused.

A machine is an executable partial step function.  A run is a list of labels,
each accepted in turn, under a condition on the label and on the state it is
taken from.  Invariants and projections are proved once here, by induction on
the run.
-/

/-- A machine: the successor of a state under a label, if the label is enabled. -/
structure Machine (State : Type u) (Label : Type v) where
  step : Label → State → Option State

namespace Machine

variable {State : Type u} {Label : Type v} {Other : Type w} {OtherLabel : Type x}

/-- Execute a list of labels, each of which must meet `allowed` where it is taken. -/
def run (machine : Machine State Label) (allowed : Label → State → Prop)
    [∀ label state, Decidable (allowed label state)] : List Label → State → Option State
  | [], state => some state
  | label :: rest, state =>
      if allowed label state then
        match machine.step label state with
        | none => none
        | some next => machine.run allowed rest next
      else none

/-- A run whose every step satisfies `allowed`. -/
inductive Runs (machine : Machine State Label) (allowed : Label → State → Prop) :
    State → List Label → State → Prop
  | refl (state : State) : Runs machine allowed state [] state
  | step {before middle after : State} {label : Label} {labels : List Label} :
      allowed label before →
      machine.step label before = some middle →
      Runs machine allowed middle labels after →
      Runs machine allowed before (label :: labels) after

/-- The condition that every step meets. -/
def anyStep : Label → State → Prop := fun _ _ => True

instance (label : Label) (state : State) : Decidable (anyStep label state) :=
  inferInstanceAs (Decidable True)

variable {machine : Machine State Label} {other : Machine Other OtherLabel}
  {allowed stronger : Label → State → Prop} {before middle after : State}
  {labels first second : List Label}

theorem Runs.append (left : machine.Runs allowed before first middle)
    (right : machine.Runs allowed middle second after) :
    machine.Runs allowed before (first ++ second) after := by
  induction left with
  | refl => exact right
  | step permitted taken _ ih => exact .step permitted taken (ih right)

/-- A run has a state after any of its labels. -/
theorem Runs.split (run : machine.Runs allowed before (first ++ second) after) :
    ∃ middle, machine.Runs allowed before first middle ∧ machine.Runs allowed middle second after := by
  induction first generalizing before with
  | nil => exact ⟨before, .refl _, run⟩
  | cons label rest ih =>
      cases run with
      | step permitted taken continued =>
          obtain ⟨middle, left, right⟩ := ih continued
          exact ⟨middle, .step permitted taken left, right⟩

theorem Runs.weaken (run : machine.Runs stronger before labels after)
    (implies : ∀ label state, stronger label state → allowed label state) :
    machine.Runs allowed before labels after := by
  induction run with
  | refl => exact .refl _
  | step permitted taken _ ih => exact .step (implies _ _ permitted) taken ih

/-- The executable runner and the run relation agree. -/
theorem run_eq_some_iff [∀ label state, Decidable (allowed label state)] :
    machine.run allowed labels before = some after ↔ machine.Runs allowed before labels after := by
  induction labels generalizing before with
  | nil =>
      constructor
      · intro finished
        cases finished
        exact .refl _
      · intro finished
        cases finished
        rfl
  | cons label rest ih =>
      constructor
      · intro executed
        simp only [run] at executed
        split at executed
        next permitted =>
          cases taken : machine.step label before with
          | none => simp [taken] at executed
          | some next =>
              simp only [taken] at executed
              exact .step permitted taken (ih.mp executed)
        next => cases executed
      · intro executed
        cases executed with
        | step permitted taken continued =>
            simp only [run, if_pos permitted, taken]
            exact ih.mpr continued

/-- A run may be observed by executing it. -/
theorem runs_of_observed [∀ label state, Decidable (allowed label state)] {observe : State → Other}
    {seen : Other} (executed : (machine.run allowed labels before).map observe = some seen) :
    ∃ after, machine.Runs allowed before labels after ∧ observe after = seen := by
  obtain ⟨after, finished, observed⟩ := Option.map_eq_some_iff.mp executed
  exact ⟨after, run_eq_some_iff.mp finished, observed⟩

theorem runs_getD [∀ label state, Decidable (allowed label state)] (labels : List Label)
    (before : State) (finished : (machine.run allowed labels before).isSome = true) :
    machine.Runs allowed before labels ((machine.run allowed labels before).getD before) := by
  obtain ⟨after, executed⟩ := Option.isSome_iff_exists.mp finished
  rw [executed]
  exact run_eq_some_iff.mp executed

theorem Runs.restrict {kept : Label → Prop} (run : machine.Runs allowed before labels after)
    (within : ∀ label ∈ labels, kept label) :
    machine.Runs (fun label state => allowed label state ∧ kept label) before labels after := by
  induction run with
  | refl => exact .refl _
  | step permitted taken _ ih =>
      have rest := ih fun label member => within label (List.mem_cons_of_mem _ member)
      exact .step ⟨permitted, within _ List.mem_cons_self⟩ taken rest

/-- What every permitted step preserves, every run preserves. -/
theorem Runs.invariant {motive : State → Prop}
    (preserved : ∀ label state next, allowed label state →
      machine.step label state = some next → motive state → motive next)
    (run : machine.Runs allowed before labels after) (initial : motive before) :
    motive after := by
  induction run with
  | refl => exact initial
  | step permitted taken _ ih => exact ih (preserved _ _ _ permitted taken initial)

/-- A run follows the function that every permitted step follows. -/
theorem Runs.refines {abstract : Label → Other → Other} {relation : State → Other → Prop}
    {initial : Other}
    (follows : ∀ label state next seen, allowed label state →
      machine.step label state = some next → relation state seen →
      relation next (abstract label seen))
    (run : machine.Runs allowed before labels after) (related : relation before initial) :
    relation after (labels.foldl (fun seen label => abstract label seen) initial) := by
  induction run generalizing initial with
  | refl => exact related
  | step permitted taken _ ih => exact ih (follows _ _ _ _ permitted taken related)

end Machine

end Paulastorm.Library
