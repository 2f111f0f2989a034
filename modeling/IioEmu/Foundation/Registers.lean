import IioEmu.Foundation.Noninterference

/-! # Registers

A register holds what was written to it last, in every run of a machine whose single steps
keep it so. -/

namespace IioEmu.Execution

variable {State Action Output Error Value : Type} (writes : Action → Option Value)

def lastWritten (actions : List Action) (value : Value) : Value :=
  actions.foldl (fun value action => (writes action).getD value) value

variable {writes} {step : State → Action → Except Error (Output × State)}
  {holds : Value → State → Prop} {actions : List Action} {initial final : State}
  {outputs : List (Action × Output)} {value : Value}

theorem holds_lastWritten
    (kept : ∀ {value state action output next}, action ∈ actions → holds value state →
      step state action = .ok (output, next) → holds ((writes action).getD value) next)
    (start : holds value initial)
    (ran : record step initial actions = .ok (outputs, final)) :
    holds (lastWritten writes actions value) final := by
  induction actions generalizing initial outputs value with
  | nil =>
      cases ran
      exact start
  | cons action actions induction =>
      rw [record_cons_eq_ok_iff] at ran
      rcases ran with ⟨output, next, later, taken, rest, rfl⟩
      apply induction ?_ (kept (by simp) start taken) rest
      intro value state other result after member
      exact kept (List.mem_cons_of_mem _ member)

/-- An action of a run finds in the register what was written before it. -/
theorem found_lastWritten
    (kept : ∀ {value state action output next}, action ∈ actions → holds value state →
      step state action = .ok (output, next) → holds ((writes action).getD value) next)
    (start : holds value initial)
    (ran : record step initial actions = .ok (outputs, final))
    {before after : List Action} {action : Action}
    (split : actions = before ++ action :: after) :
    ∃ state output next, holds (lastWritten writes before value) state ∧
      step state action = .ok (output, next) ∧
      outputs[before.length]? = some (action, output) := by
  subst split
  rw [record_append_eq_ok_iff] at ran
  rcases ran with ⟨state, earlier, later, ranBefore, ranAfter, rfl⟩
  rw [record_cons_eq_ok_iff] at ranAfter
  rcases ranAfter with ⟨output, next, rest, taken, _, rfl⟩
  have found : holds (lastWritten writes before value) state :=
    holds_lastWritten (fun member => kept (List.mem_append_left _ member)) start ranBefore
  refine ⟨state, output, next, found, taken, ?_⟩
  have length : earlier.length = before.length := by
    rw [← actions_of_record step ranBefore, List.length_map]
  rw [← length, List.getElem?_append_right (Nat.le_refl _), Nat.sub_self]
  rfl

end IioEmu.Execution
