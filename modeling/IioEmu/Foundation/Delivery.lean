import IioEmu.Foundation.Noninterference
import Mathlib.Algebra.Ring.Nat

/-! # Runs that deliver a sequence

A state stands at a position of a sequence, and a step delivers the values from there on.
Whoever takes the steps, a run then delivers one window of the sequence: nothing is left out
and nothing comes twice. -/

namespace IioEmu.Execution

variable {State Action Output Error Value : Type}

/-! ## Steps taken -/

section Taken

variable {step : State → Action → Except Error State} {initial next state : State}
  {action other : Action} {actions : List Action}

theorem taken_head : Taken step initial (action :: actions) initial action :=
  ⟨[], ⟨actions, rfl⟩, rfl⟩

theorem Taken.later (taken : Taken step next actions state other)
    (stepped : step initial action = .ok next) :
    Taken step initial (action :: actions) state other := by
  rcases taken with ⟨prior, inside, ran⟩
  refine ⟨action :: prior, ?_, ?_⟩
  · rw [List.cons_append, List.cons_prefix_cons]
    exact ⟨rfl, inside⟩
  · rw [run_cons_eq_ok_iff]
    exact ⟨next, stepped, ran⟩

end Taken

/-! ## Delivered values -/

/-- A step allowed delivers as many values as it asks for, from the position on. -/
structure Delivers (step : State → Action → Except Error (Output × State))
    (window : Nat → Nat → List Value) (stands : Nat → State → Prop)
    (Allowed : State → Action → Prop) (asked : Action → Nat)
    (delivered : Action × Output → List Value) : Prop where
  empty : ∀ start, window start 0 = []
  joined : ∀ start first second,
    window start (first + second) = window start first ++ window (start + first) second
  delivers : ∀ {start state action output next}, stands start state →
    Allowed state action →
    step state action = .ok (output, next) →
      delivered (action, output) = window start (asked action) ∧
        stands (start + asked action) next

variable {step : State → Action → Except Error (Output × State)}
  {window : Nat → Nat → List Value} {stands : Nat → State → Prop}
  {Allowed : State → Action → Prop} {asked : Action → Nat}
  {delivered : Action × Output → List Value}

/-- A run delivers the window of all its steps together. -/
theorem Delivers.record (delivers : Delivers step window stands Allowed asked delivered)
    {actions : List Action} {start : Nat} {initial final : State}
    {outputs : List (Action × Output)} (standing : stands start initial)
    (allowed : ∀ state action, Taken (advance step) initial actions state action →
      Allowed state action)
    (ran : record step initial actions = .ok (outputs, final)) :
    outputs.flatMap delivered = window start (actions.map asked).sum ∧
      stands (start + (actions.map asked).sum) final := by
  induction actions generalizing start initial outputs with
  | nil =>
      cases ran
      exact ⟨(delivers.empty start).symm, standing⟩
  | cons action actions induction =>
      rw [record_cons_eq_ok_iff] at ran
      rcases ran with ⟨output, next, later, taken, rest, rfl⟩
      have moved : advance step initial action = .ok next :=
        (advance_eq_ok_iff step).mpr ⟨output, taken⟩
      rcases delivers.delivers standing (allowed initial action taken_head) taken with
        ⟨here, standingNext⟩
      rcases induction standingNext
        (fun state other takenLater => allowed state other (takenLater.later moved)) rest with
        ⟨there, standingFinal⟩
      rw [List.map_cons, List.sum_cons, ← Nat.add_assoc]
      refine ⟨?_, standingFinal⟩
      rw [List.flatMap_cons, here, there, delivers.joined]

end IioEmu.Execution
