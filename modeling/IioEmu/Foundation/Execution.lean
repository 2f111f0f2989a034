import Mathlib.Data.List.Infix

/-! # Runs of a step function

A system is a step function that may refuse an action. The lemmas here carry
what one step preserves to every state of a run. -/

namespace IioEmu.Execution

variable {State Action Error : Type} (step : State → Action → Except Error State)

def run (initial : State) (actions : List Action) : Except Error State :=
  actions.foldlM step initial

@[simp] theorem run_nil (initial : State) : run step initial [] = .ok initial := rfl

@[simp] theorem run_cons (initial : State) (action : Action) (actions : List Action) :
    run step initial (action :: actions) =
      (step initial action >>= fun next => run step next actions) := rfl

@[simp] theorem run_singleton (initial : State) (action : Action) :
    run step initial [action] = step initial action := by
  cases stepped : step initial action <;> simp [stepped, bind, Except.bind]

theorem run_append (initial : State) (first second : List Action) :
    run step initial (first ++ second) =
      (run step initial first >>= fun middle => run step middle second) := by
  simp [run, List.foldlM_append]

theorem run_append_eq_ok_iff {initial final : State} {first second : List Action} :
    run step initial (first ++ second) = .ok final ↔
      ∃ middle, run step initial first = .ok middle ∧
        run step middle second = .ok final := by
  rw [run_append]
  cases run step initial first <;> simp [bind, Except.bind]

theorem run_cons_eq_ok_iff {initial final : State} {action : Action}
    {actions : List Action} :
    run step initial (action :: actions) = .ok final ↔
      ∃ next, step initial action = .ok next ∧ run step next actions = .ok final := by
  rw [run_cons]
  cases step initial action <;> simp [bind, Except.bind]

def Reached (initial : State) (actions : List Action) (state : State) : Prop :=
  ∃ prior, prior <+: actions ∧ run step initial prior = .ok state

def Taken (initial : State) (actions : List Action) (state : State)
    (action : Action) : Prop :=
  ∃ prior, prior ++ [action] <+: actions ∧ run step initial prior = .ok state

theorem Taken.reached {initial state : State} {actions : List Action} {action : Action}
    (taken : Taken step initial actions state action) :
    Reached step initial actions state := by
  rcases taken with ⟨prior, inside, ran⟩
  exact ⟨prior, (List.prefix_append _ _).trans inside, ran⟩

theorem Taken.mem {initial state : State} {actions : List Action} {action : Action}
    (taken : Taken step initial actions state action) : action ∈ actions := by
  rcases taken with ⟨prior, inside, _⟩
  exact inside.subset (by simp)

theorem Taken.next_reached {initial state next : State} {actions : List Action}
    {action : Action} (taken : Taken step initial actions state action)
    (stepped : step state action = .ok next) :
    Reached step initial actions next := by
  rcases taken with ⟨prior, inside, ran⟩
  refine ⟨prior ++ [action], inside, ?_⟩
  rw [run_append_eq_ok_iff]
  exact ⟨state, ran, by simp [stepped, bind, Except.bind]⟩

theorem Taken.steps {initial final state : State} {actions : List Action}
    {action : Action} (taken : Taken step initial actions state action)
    (ends : run step initial actions = .ok final) :
    ∃ next, step state action = .ok next := by
  rcases taken with ⟨prior, ⟨rest, equal⟩, ran⟩
  subst equal
  rw [List.append_assoc, run_append_eq_ok_iff] at ends
  rcases ends with ⟨middle, ranPrior, ranRest⟩
  rw [ran] at ranPrior
  cases ranPrior
  rw [List.singleton_append, run_cons_eq_ok_iff] at ranRest
  exact ⟨ranRest.choose, ranRest.choose_spec.1⟩

/-- What holds at the start and is preserved by every step taken holds of
every state passed through. -/
theorem reached_invariant {initial : State} {actions : List Action}
    (Invariant : State → Prop) (start : Invariant initial)
    (preserved : ∀ state action next, Taken step initial actions state action →
      step state action = .ok next → Invariant state → Invariant next) :
    ∀ state, Reached step initial actions state → Invariant state := by
  rintro state ⟨prior, inside, ran⟩
  induction prior using List.reverseRecOn generalizing state with
  | nil =>
      cases ran
      exact start
  | append_singleton prior action induction =>
      rw [run_append_eq_ok_iff] at ran
      rcases ran with ⟨middle, ranPrior, ranLast⟩
      rw [run_cons_eq_ok_iff] at ranLast
      rcases ranLast with ⟨next, stepped, ended⟩
      cases ended
      have middleHolds : Invariant middle :=
        induction middle ((List.prefix_append _ _).trans inside) ranPrior
      exact preserved middle action state ⟨prior, inside, ranPrior⟩ stepped middleHolds

/-- When no step fails under an invariant, no run does. -/
theorem run_returns (Invariant : State → Prop) {initial : State}
    (start : Invariant initial) (actions : List Action)
    (returns : ∀ state, Invariant state → ∀ action ∈ actions,
      ∃ next, step state action = .ok next ∧ Invariant next) :
    ∃ final, run step initial actions = .ok final := by
  induction actions generalizing initial with
  | nil => exact ⟨initial, rfl⟩
  | cons action actions induction =>
      rcases returns initial start action (by simp) with ⟨next, stepped, holds⟩
      rcases induction holds (fun state invariant action member =>
        returns state invariant action (by simp [member])) with ⟨final, ran⟩
      refine ⟨final, ?_⟩
      rw [run_cons_eq_ok_iff]
      exact ⟨next, stepped, ran⟩

end IioEmu.Execution
