import IioEmu.Foundation.Execution
import Mathlib.Data.List.Count
import Mathlib.Logic.Function.Basic

/-! # Threads on cells of their own

Threads share a memory and take their turns in any order. Where no two of them work on the
same cell, a thread ends where its own turns take it, whatever the schedule. -/

namespace IioEmu.Execution

variable {Thread Cell Content Local Error : Type}

/-! ## One thread -/

section Turns

variable (turn : Thread → Content × Local → Except Error (Content × Local))

def turns (thread : Thread) : Nat → Content × Local → Except Error (Content × Local)
  | 0, state => .ok state
  | count + 1, state => turn thread state >>= turns thread count

variable {turn} {thread : Thread} {state after : Content × Local}

theorem turns_succ_eq_ok_iff {count : Nat} :
    turns turn thread (count + 1) state = .ok after ↔
      ∃ next, turn thread state = .ok next ∧
      turns turn thread count next = .ok after := by
  rw [turns]
  cases turn thread state <;> simp [bind, Except.bind]

theorem turns_add_eq_ok_iff {first second : Nat} :
    turns turn thread (first + second) state = .ok after ↔
      ∃ middle, turns turn thread first state = .ok middle ∧
        turns turn thread second middle = .ok after := by
  induction first generalizing state with
  | zero => simp [turns]
  | succ first induction =>
      rw [Nat.succ_add]
      constructor
      · intro taken
        rcases turns_succ_eq_ok_iff.mp taken with ⟨next, here, there⟩
        rcases induction.mp there with ⟨middle, before, behind⟩
        exact ⟨middle, turns_succ_eq_ok_iff.mpr ⟨next, here, before⟩, behind⟩
      · rintro ⟨middle, before, behind⟩
        rcases turns_succ_eq_ok_iff.mp before with ⟨next, here, there⟩
        exact turns_succ_eq_ok_iff.mpr ⟨next, here, induction.mpr ⟨middle, there, behind⟩⟩

theorem turns_of_fixed (fixed : turn thread state = .ok state) (count : Nat) :
    turns turn thread count state = .ok state := by
  induction count with
  | zero => rfl
  | succ count induction => exact turns_succ_eq_ok_iff.mpr ⟨state, fixed, induction⟩

end Turns

/-! ## All threads -/

section Schedules

structure Machine (Thread Cell Content Local : Type) where
  memory : Cell → Content
  locals : Thread → Local

variable (turn : Thread → Content × Local → Except Error (Content × Local))
  (cell : Thread → Cell)

namespace Machine

def sees (machine : Machine Thread Cell Content Local)
    (thread : Thread) : Content × Local :=
  (machine.memory (cell thread), machine.locals thread)

variable [DecidableEq Thread] [DecidableEq Cell]

def store (machine : Machine Thread Cell Content Local) (thread : Thread)
    (after : Content × Local) : Machine Thread Cell Content Local where
  memory := Function.update machine.memory (cell thread) after.1
  locals := Function.update machine.locals thread after.2

def takeTurn (machine : Machine Thread Cell Content Local) (thread : Thread) :
    Except Error (Machine Thread Cell Content Local) :=
  turn thread (machine.sees cell thread) >>= fun after =>
    .ok (machine.store cell thread after)

end Machine

variable [DecidableEq Thread] [DecidableEq Cell] {turn cell}
  {machine final : Machine Thread Cell Content Local} {thread other : Thread}
  {schedule : List Thread}

theorem Machine.takeTurn_eq_ok_iff {next : Machine Thread Cell Content Local} :
    machine.takeTurn turn cell thread = .ok next ↔
      ∃ after, turn thread (machine.sees cell thread) = .ok after ∧
        next = machine.store cell thread after := by
  rw [takeTurn]
  cases turn thread (machine.sees cell thread) <;> simp [bind, Except.bind, eq_comm]

theorem Machine.sees_store_self
    (machine : Machine Thread Cell Content Local) (thread : Thread)
    (after : Content × Local) :
    (machine.store cell thread after).sees cell thread = after := by
  simp [sees, store]

theorem Machine.sees_store_of_ne (injective : Function.Injective cell)
    (machine : Machine Thread Cell Content Local) (different : other ≠ thread)
    (after : Content × Local) :
    (machine.store cell thread after).sees cell other = machine.sees cell other := by
  have cells : cell other ≠ cell thread := fun same => different (injective same)
  simp [sees, store, Function.update_of_ne different, Function.update_of_ne cells]

/-- A schedule leaves every thread where its own turns leave it. -/
theorem sees_of_run (injective : Function.Injective cell)
    (ran : run (Machine.takeTurn turn cell) machine schedule = .ok final)
    (thread : Thread) :
    turns turn thread (schedule.count thread) (machine.sees cell thread) =
      .ok (final.sees cell thread) := by
  induction schedule generalizing machine with
  | nil =>
      cases ran
      rfl
  | cons other schedule induction =>
      rcases (run_cons_eq_ok_iff _).mp ran with ⟨next, taken, rest⟩
      rcases Machine.takeTurn_eq_ok_iff.mp taken with ⟨after, turned, rfl⟩
      have later := induction rest
      by_cases same : other = thread
      · subst same
        rw [Machine.sees_store_self] at later
        rw [List.count_cons_self, turns_succ_eq_ok_iff]
        exact ⟨after, turned, later⟩
      · rw [Machine.sees_store_of_ne injective _ (Ne.symm same)] at later
        rw [List.count_cons_of_ne same]
        exact later

theorem memory_of_run
    (ran : run (Machine.takeTurn turn cell) machine schedule = .ok final) {other : Cell}
    (apart : ∀ thread, other ≠ cell thread) :
    final.memory other = machine.memory other := by
  apply reached_invariant (Machine.takeTurn turn cell)
    (fun state => state.memory other = machine.memory other) rfl ?_ final
    ⟨schedule, List.prefix_rfl, ran⟩
  intro state thread next _ taken same
  rcases Machine.takeTurn_eq_ok_iff.mp taken with ⟨after, _, rfl⟩
  simp only [Machine.store, Function.update_of_ne (apart thread), same]

/-- A schedule runs to its end where every thread alone does. -/
theorem run_returns_of_turns (injective : Function.Injective cell)
    (machine : Machine Thread Cell Content Local)
    (alone : ∀ thread, ∃ after, turns turn thread (schedule.count thread)
      (machine.sees cell thread) = .ok after) :
    ∃ final, run (Machine.takeTurn turn cell) machine schedule = .ok final := by
  induction schedule generalizing machine with
  | nil => exact ⟨machine, rfl⟩
  | cons thread schedule induction =>
      rcases alone thread with ⟨after, own⟩
      rw [List.count_cons_self, turns_succ_eq_ok_iff] at own
      rcases own with ⟨next, turned, rest⟩
      have returns :
          ∃ final, run (Machine.takeTurn turn cell) (machine.store cell thread next)
          schedule = .ok final := by
        apply induction
        intro other
        by_cases same : thread = other
        · subst same
          rw [Machine.sees_store_self]
          exact ⟨after, rest⟩
        · rw [Machine.sees_store_of_ne injective _ (Ne.symm same)]
          rcases alone other with ⟨ended, others⟩
          rw [List.count_cons_of_ne same] at others
          exact ⟨ended, others⟩
      rcases returns with ⟨final, ran⟩
      exact ⟨final, (run_cons_eq_ok_iff _).mpr
        ⟨_, Machine.takeTurn_eq_ok_iff.mpr ⟨next, turned, rfl⟩, ran⟩⟩

end Schedules

end IioEmu.Execution
