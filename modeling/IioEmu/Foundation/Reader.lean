import Mathlib.Algebra.GroupWithZero.Nat
import IioEmu.Foundation.Outcome

/-! # Readers

A reader takes a number of values from a state and leaves another state. Reads one
after the other join what each of them returned. -/

namespace IioEmu

section Reads

variable {σ α : Type} (read : σ → Nat → Outcome (List α × σ))

def readMany : σ → List Nat → Outcome (List α × σ)
  | state, [] => .ok ([], state)
  | state, count :: counts => do
      let (values, next) ← read state count
      let (rest, last) ← readMany next counts
      return (values ++ rest, last)

/-- Reads of some counts return what one read of their sum returns, all values that were
asked for, and leave the same position. -/
def SplitsAlike {π : Type} (position : σ → π) (state : σ) (counts : List Nat) : Prop :=
  ∃ values many single, readMany read state counts = .ok (values, many) ∧
    read state counts.sum = .ok (values, single) ∧ values.length = counts.sum ∧
    position many = position single

variable {read}

theorem readMany_window (window : Nat → Nat → List α) (stands : Nat → σ → Prop)
    (Readable : Nat → Prop)
    (empty : ∀ start, window start 0 = [])
    (joined : ∀ start first second,
      window start (first + second) = window start first ++ window (start + first) second)
    (parts : ∀ first second, Readable (first + second) → Readable first ∧ Readable second)
    (delivers : ∀ start state count, stands start state → Readable count →
      ∃ next, read state count = .ok (window start count, next) ∧
      stands (start + count) next)
    (counts : List Nat) {start : Nat} {state : σ} (standing : stands start state)
    (readable : Readable counts.sum) :
    ∃ last, readMany read state counts = .ok (window start counts.sum, last) ∧
      stands (start + counts.sum) last := by
  induction counts generalizing start state with
  | nil => exact ⟨state, by simp [readMany, empty], by simpa using standing⟩
  | cons count counts induction =>
      rw [List.sum_cons] at readable ⊢
      have both := parts _ _ readable
      rcases delivers start state count standing both.1 with ⟨next, first, further⟩
      rcases induction further both.2 with ⟨last, rest, arrived⟩
      refine ⟨last, ?_, ?_⟩
      · simp [readMany, first, rest, joined]
      · rwa [Nat.add_assoc] at arrived

/-- Windows of one sequence do not depend on how they are asked for. -/
theorem splitsAlike_of_window (window : Nat → Nat → List α) (stands : Nat → σ → Prop)
    (Readable : Nat → Prop) {π : Type} {position : σ → π}
    (empty : ∀ start, window start 0 = [])
    (joined : ∀ start first second,
      window start (first + second) = window start first ++ window (start + first) second)
    (length : ∀ start count, (window start count).length = count)
    (parts : ∀ first second, Readable (first + second) → Readable first ∧ Readable second)
    (delivers : ∀ start state count, stands start state → Readable count →
      ∃ next, read state count = .ok (window start count, next) ∧
      stands (start + count) next)
    (placed : ∀ start state other, stands start state → stands start other →
      position state = position other)
    {counts : List Nat} {start : Nat} {state : σ} (standing : stands start state)
    (readable : Readable counts.sum) : SplitsAlike read position state counts := by
  rcases readMany_window window stands Readable empty joined parts delivers counts standing
    readable with ⟨many, split, arrived⟩
  rcases delivers start state counts.sum standing readable with ⟨single, whole, there⟩
  exact ⟨_, many, single, split, whole, length _ _, placed _ _ _ arrived there⟩

end Reads

end IioEmu
