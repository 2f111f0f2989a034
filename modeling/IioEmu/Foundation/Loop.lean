import IioEmu.Foundation.Outcome

/-! # While loops

A loop is its guard and its body. Running it takes a number of passes that
bounds the search; a loop that is still at its guard afterwards has no result
there. The rules below are the ones of a total-correctness logic: an
invariant, a variant, and an invariant that shows the loop never ends. -/

namespace IioEmu

structure Loop (State : Type) where
  guard : State → Bool
  body : State → Outcome State

namespace Loop

variable {State : Type} (loop : Loop State)

def run : Nat → State → Option (Outcome State)
  | 0, state => if loop.guard state then none else some (.ok state)
  | passes + 1, state =>
      if loop.guard state then
        match loop.body state with
        | .ok next => run passes next
        | .error fault => some (.error fault)
      else
        some (.ok state)

/-- The outcome of the loop when its caller knows that a loop which ends does
so within the given number of passes. -/
def outcome (passes : Nat) (state : State) : Outcome State :=
  (loop.run passes state).getD (.error .diverges)

/-- The second state is at the head of the loop after some passes from the
first. -/
inductive Heads : State → State → Prop
  | start (state : State) : Heads state state
  | pass {state next head : State} : loop.guard state = true →
      loop.body state = .ok next → Heads next head → Heads state head

theorem run_of_not_guard {state : State} (done : loop.guard state = false)
    (passes : Nat) : loop.run passes state = some (.ok state) := by
  cases passes <;> simp [run, done]

theorem run_succ_of_ok {state next : State} (enters : loop.guard state = true)
    (passed : loop.body state = .ok next) (passes : Nat) :
    loop.run (passes + 1) state = loop.run passes next := by
  simp [run, enters, passed]

theorem run_succ_of_error {state : State} {fault : Fault}
    (enters : loop.guard state = true) (failed : loop.body state = .error fault)
    (passes : Nat) : loop.run (passes + 1) state = some (.error fault) := by
  simp [run, enters, failed]

/-- What one pass preserves holds at every head of the loop. -/
theorem heads_invariant (Invariant : State → Prop)
    (preserved : ∀ state next, Invariant state → loop.guard state = true →
      loop.body state = .ok next → Invariant next)
    {state head : State} (heads : loop.Heads state head)
    (start : Invariant state) : Invariant head := by
  induction heads with
  | start => exact start
  | pass enters passed _ induction =>
      exact induction (preserved _ _ start enters passed)

/-- Total correctness: under an invariant whose passes all return and lower the
variant, the loop ends within the variant, at a head that satisfies the
invariant and leaves the guard. -/
theorem run_total (Invariant : State → Prop) (variant : State → Nat)
    (passes : ∀ state, Invariant state → loop.guard state = true →
      ∃ next, loop.body state = .ok next ∧ Invariant next ∧
        variant next < variant state)
    (state : State) (start : Invariant state) (limit : Nat)
    (bounded : variant state ≤ limit) :
    ∃ final, loop.run limit state = some (.ok final) ∧ Invariant final ∧
      loop.guard final = false := by
  induction limit generalizing state with
  | zero =>
      cases enters : loop.guard state with
      | false => exact ⟨state, loop.run_of_not_guard enters 0, start, enters⟩
      | true =>
          rcases passes state start enters with ⟨next, _, _, lower⟩
          omega
  | succ limit induction =>
      cases enters : loop.guard state with
      | false => exact ⟨state, loop.run_of_not_guard enters _, start, enters⟩
      | true =>
          rcases passes state start enters with ⟨next, passed, holds, lower⟩
          rw [loop.run_succ_of_ok enters passed]
          exact induction next holds (by omega)

/-- An invariant that keeps the guard up and every pass returning leaves the
loop without a result for every number of passes. -/
theorem run_eq_none (Invariant : State → Prop)
    (passes : ∀ state, Invariant state → loop.guard state = true ∧
      ∃ next, loop.body state = .ok next ∧ Invariant next)
    {state : State} (start : Invariant state) (limit : Nat) :
    loop.run limit state = none := by
  induction limit generalizing state with
  | zero => simp [run, (passes state start).1]
  | succ limit induction =>
      rcases passes state start with ⟨enters, next, passed, holds⟩
      rw [loop.run_succ_of_ok enters passed]
      exact induction holds

theorem outcome_of_run {passes : Nat} {state : State} {result : Outcome State}
    (ran : loop.run passes state = some result) :
    loop.outcome passes state = result := by
  simp [outcome, ran]

theorem outcome_of_none {passes : Nat} {state : State}
    (ran : loop.run passes state = none) :
    loop.outcome passes state = .error .diverges := by
  simp [outcome, ran]

theorem run_of_outcome {passes : Nat} {state final : State}
    (returned : loop.outcome passes state = .ok final) :
    loop.run passes state = some (.ok final) := by
  cases ran : loop.run passes state with
  | none =>
      rw [loop.outcome_of_none ran] at returned
      cases returned
  | some result =>
      rw [loop.outcome_of_run ran] at returned
      rw [returned]

def Ends (state : State) : Prop :=
  ∃ passes final, loop.run passes state = some (.ok final)

theorem ends_of_outcome {passes : Nat} {state final : State}
    (returned : loop.outcome passes state = .ok final) : loop.Ends state :=
  ⟨passes, final, loop.run_of_outcome returned⟩

theorem not_ends_of_none {state : State} (ran : ∀ limit, loop.run limit state = none) :
    ¬ loop.Ends state := by
  rintro ⟨passes, final, ended⟩
  rw [ran passes] at ended
  cases ended

theorem heads_of_run_ok {passes : Nat} {state final : State}
    (ran : loop.run passes state = some (.ok final)) :
    loop.Heads state final ∧ loop.guard final = false := by
  induction passes generalizing state with
  | zero =>
      cases enters : loop.guard state with
      | true => simp [run, enters] at ran
      | false =>
          rw [loop.run_of_not_guard enters] at ran
          cases ran
          exact ⟨.start _, enters⟩
  | succ passes induction =>
      cases enters : loop.guard state with
      | false =>
          rw [loop.run_of_not_guard enters] at ran
          cases ran
          exact ⟨.start _, enters⟩
      | true =>
          cases passed : loop.body state with
          | error fault =>
              rw [loop.run_succ_of_error enters passed] at ran
              cases ran
          | ok next =>
              rw [loop.run_succ_of_ok enters passed] at ran
              exact ⟨.pass enters passed (induction ran).1, (induction ran).2⟩

theorem outcome_invariant (Invariant : State → Prop)
    (preserved : ∀ state next, Invariant state → loop.guard state = true →
      loop.body state = .ok next → Invariant next)
    {passes : Nat} {state final : State} (start : Invariant state)
    (returned : loop.outcome passes state = .ok final) :
    Invariant final ∧ loop.guard final = false := by
  have reached := loop.heads_of_run_ok (loop.run_of_outcome returned)
  exact ⟨loop.heads_invariant Invariant preserved reached.1 start, reached.2⟩

theorem run_of_variant (Invariant : State → Prop) (variant : State → Nat)
    (lowers : ∀ state next, Invariant state → loop.guard state = true →
      loop.body state = .ok next → Invariant next ∧ variant next < variant state)
    {passes : Nat} {state final : State} (start : Invariant state)
    (ran : loop.run passes state = some (.ok final)) (limit : Nat)
    (bounded : variant state ≤ limit) : loop.run limit state = some (.ok final) := by
  induction passes generalizing state limit with
  | zero =>
      cases enters : loop.guard state with
      | true => simp [run, enters] at ran
      | false =>
          rw [loop.run_of_not_guard enters] at ran ⊢
          exact ran
  | succ passes induction =>
      cases enters : loop.guard state with
      | false =>
          rw [loop.run_of_not_guard enters] at ran ⊢
          exact ran
      | true =>
          cases passed : loop.body state with
          | error fault =>
              rw [loop.run_succ_of_error enters passed] at ran
              cases ran
          | ok next =>
              rw [loop.run_succ_of_ok enters passed] at ran
              rcases lowers state next start enters passed with ⟨holds, lower⟩
              cases limit with
              | zero => omega
              | succ limit =>
                  rw [loop.run_succ_of_ok enters passed]
                  exact induction holds ran limit (by omega)

end Loop

end IioEmu
