import IioEmu.Foundation.Execution
import IioEmu.Foundation.Noninterference

/-! # Parts of a machine

A part of a machine takes steps of its own when the machine takes one. A run of the whole is
then, seen from the part, a run of the part. -/

namespace IioEmu.Execution

variable {State Action Output Error Part PartAction : Type}

theorem run_keeps {View : Type} {step : State → Action → Except Error State}
    (view : State → View) (kept : ∀ {state action next},
      step state action = .ok next → view next = view state)
    {initial final : State} {actions : List Action}
    (ran : run step initial actions = .ok final) : view final = view initial := by
  apply reached_invariant step (fun state => view state = view initial) rfl ?_ final
    ⟨actions, List.prefix_rfl, ran⟩
  intro state action next _ stepped same
  exact (kept stepped).trans same

section Projected

variable (step : State → Action → Except Error (Output × State))
  (project : State → Action → List PartAction)

def projected (initial : State) : List Action → List PartAction
  | [] => []
  | action :: actions =>
      match step initial action with
      | .ok (_, next) => project initial action ++ projected next actions
      | .error _ => []

variable {step project} {initial next : State} {action : Action} {actions : List Action}
  {output : Output}

theorem projected_cons (taken : step initial action = .ok (output, next)) :
    projected step project initial (action :: actions) =
      project initial action ++ projected step project next actions := by
  rw [projected, taken]

def Simulates (step : State → Action → Except Error (Output × State))
    (partStep : Part → PartAction → Except Error Part) (part : State → Part)
    (project : State → Action → List PartAction) : Prop :=
  ∀ {state action output next}, step state action = .ok (output, next) →
    run partStep (part state) (project state action) = .ok (part next)

theorem Simulates.run_projected {partStep : Part → PartAction → Except Error Part}
    {part : State → Part}
    (simulates : Simulates step partStep part project) {final : State}
    {outputs : List (Action × Output)}
    (ran : record step initial actions = .ok (outputs, final)) :
    run partStep (part initial) (projected step project initial actions) =
    .ok (part final) := by
  induction actions generalizing initial outputs with
  | nil =>
      cases ran
      rfl
  | cons action actions induction =>
      rw [record_cons_eq_ok_iff] at ran
      rcases ran with ⟨output, next, later, taken, rest, _⟩
      rw [projected_cons taken, run_append_eq_ok_iff]
      exact ⟨part next, simulates taken, induction rest⟩

end Projected

section Abstracted

variable {Abstract : Type}

def abstracted (view : State → Abstract) {Answer : Type}
    (result : Except Error (Answer × State)) :
    Except Error (Answer × Abstract) :=
  (fun taken => (taken.1, view taken.2)) <$> result

theorem abstracted_eq_ok_iff {Answer : Type} {view : State → Abstract}
    {result : Except Error (Answer × State)} {answer : Answer} {seen : Abstract} :
    abstracted view result = .ok (answer, seen) ↔
      ∃ state, result = .ok (answer, state) ∧ view state = seen := by
  cases result with
  | error fault => simp [abstracted, Functor.map, Except.map]
  | ok taken => simp [abstracted, Functor.map, Except.map, Prod.ext_iff, and_assoc]

/-- From states of the invariant a step of the machine is, through the view, the step of the
abstract machine, and a fault its fault. -/
structure Abstracts (step : State → Action → Except Error (Output × State))
    (abstractStep : Abstract → Action → Except Error (Output × Abstract))
    (view : State → Abstract) (Allowed : Action → Prop)
    (Invariant : State → Prop) : Prop where
  preserved : ∀ {state action output next}, Allowed action → Invariant state →
    step state action = .ok (output, next) → Invariant next
  commutes : ∀ {state action}, Allowed action → Invariant state →
    abstractStep (view state) action = abstracted view (step state action)

/-- A run of the machine is a run of the abstract machine, with the same outputs, and ends in
the same fault if it ends in one. -/
theorem Abstracts.record_eq {step : State → Action → Except Error (Output × State)}
    {abstractStep : Abstract → Action → Except Error (Output × Abstract)}
    {view : State → Abstract} {Allowed : Action → Prop} {Invariant : State → Prop}
    (abstracts : Abstracts step abstractStep view Allowed Invariant)
    {actions : List Action} (allowed : ∀ action ∈ actions,
      Allowed action) {initial : State}
    (start : Invariant initial) :
    record abstractStep (view initial) actions =
    abstracted view (record step initial actions) := by
  induction actions generalizing initial with
  | nil => rfl
  | cons action actions induction =>
      have permitted : Allowed action := allowed action (by simp)
      rw [record, record, abstracts.commutes permitted start]
      cases taken : step initial action with
      | error fault => rfl
      | ok result =>
          have rest := induction
            (fun later member => allowed later (List.mem_cons_of_mem _ member))
            (abstracts.preserved permitted start taken)
          simp only [abstracted, Functor.map, Except.map, bind, Except.bind] at rest ⊢
          rw [rest]
          cases record step result.2 actions <;> rfl

/-- Domains that do not see each other in the abstract machine do not see each other: a run
returns exactly when the part of each domain does, and tells each what its part tells it. -/
theorem Abstracts.keeps_apart {step : State → Action → Except Error (Output × State)}
    {abstractStep : Abstract → Action → Except Error (Output × Abstract)}
    {view : State → Abstract} {Allowed : Action → Prop} {Invariant : State → Prop}
    (abstracts : Abstracts step abstractStep view Allowed Invariant)
    {Domain : Type} [DecidableEq Domain] {domain : Action → Domain}
    {Permitted : Action → Prop} {Holds : Abstract → Prop}
    {agrees : Domain → Abstract → Abstract → Prop}
    (unwinds : Unwinds abstractStep domain Permitted Holds agrees) {actions : List Action}
    (allowed : ∀ action ∈ actions, Allowed action) (permitted : ∀ action ∈ actions,
      Permitted action) {initial : State}
    (start : Invariant initial) (holds : Holds (view initial)) :
    ((∃ result, record step initial actions = .ok result) ↔
        ∀ d, ∃ result, record step initial (purge domain d actions) = .ok result) ∧
      ∀ outputs final, record step initial actions = .ok (outputs, final) → ∀ d, ∃ after,
        record step initial (purge domain d actions) =
        .ok (told domain d outputs, after) ∧
          agrees d (view final) (view after) := by
  have refines {part : List Action} (inside : ∀ action ∈ part, action ∈ actions) :
      record abstractStep (view initial) part =
          abstracted view (record step initial part) :=
    abstracts.record_eq (fun action member => allowed action (inside action member)) start
  have returns {part : List Action} (inside : ∀ action ∈ part, action ∈ actions) :
      (∃ result, record step initial part = .ok result) ↔
        ∃ result, record abstractStep (view initial) part = .ok result := by
    rw [refines inside]
    cases record step initial part <;> simp [abstracted, Functor.map, Except.map]
  have purged (d : Domain) : ∀ action ∈ purge domain d actions, action ∈ actions :=
    fun _ member => mem_of_mem_purge member
  constructor
  · rw [returns fun _ member => member, unwinds.returns_iff permitted holds]
    exact forall_congr' fun d => (returns (purged d)).symm
  · intro outputs final ran d
    have whole := @refines actions fun _ member => member
    have seen : record abstractStep (view initial) actions =
        .ok (outputs, view final) := by
      rw [whole, ran]
      rfl
    rcases unwinds.record_purge (d := d) permitted holds holds
      ((unwinds.equivalence d).refl (view initial)) seen with ⟨after, alone, agree⟩
    rw [refines (purged d), abstracted_eq_ok_iff] at alone
    rcases alone with ⟨state, ranAlone, rfl⟩
    exact ⟨state, ranAlone, agree⟩

end Abstracted

end IioEmu.Execution
