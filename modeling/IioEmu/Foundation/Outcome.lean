import Mathlib.Algebra.Group.Nat.Defs
import Mathlib.Data.List.Basic

/-! # Outcomes of a C++ call

A call either returns a value or ends in a `Fault`. The two unsigned widths
of the modelled platform are natural numbers reduced after each operation
that can leave their range. -/

namespace IioEmu

/-- The ways a call can fail to return: an exception of the standard library
leaves it, it steps into undefined behaviour, or it never ends. -/
inductive Fault
  | outOfRange
  | invalidArgument
  | lengthError
  | outOfBounds
  | nullPointer
  | divisionByZero
  | indeterminateValue
  | diverges
  deriving DecidableEq, Repr

def Fault.isException : Fault → Bool
  | .outOfRange | .invalidArgument | .lengthError => true
  | _ => false

abbrev Outcome := Except Fault

namespace Outcome

theorem bind_eq_ok {α β : Type} {first : Outcome α} {rest : α → Outcome β}
    {result : β} :
    (first >>= rest) = .ok result ↔
      ∃ value, first = .ok value ∧ rest value = .ok result := by
  cases first with
  | error fault => simp [bind, Except.bind]
  | ok value => simp [bind, Except.bind]

@[simp] theorem ok_bind {α β : Type} (value : α) (rest : α → Outcome β) :
    (Except.ok value >>= rest) = rest value := rfl

@[simp] theorem error_bind {α β : Type} (fault : Fault) (rest : α → Outcome β) :
    (Except.error fault >>= rest) = .error fault := rfl

theorem map_eq_ok {α β : Type} {call : Outcome α} {view : α → β} {result : β} :
    view <$> call = .ok result ↔ ∃ value, call = .ok value ∧ view value = result := by
  cases call with
  | error fault => simp [Functor.map, Except.map]
  | ok value => simp [Functor.map, Except.map]

@[simp] theorem pure_eq_ok {α : Type} (value : α) :
    (pure value : Outcome α) = .ok value := rfl

theorem returns_of_mapM {α β : Type} {call : α → Outcome β}
    {values : List α} {results : List β} (returned : values.mapM call = .ok results) :
    (∀ value ∈ values, ∃ result ∈ results, call value = .ok result) ∧
      results.length = values.length ∧
      ∀ result ∈ results, ∃ value ∈ values, call value = .ok result := by
  induction values generalizing results with
  | nil =>
      cases returned
      simp
  | cons value values induction =>
      rw [List.mapM_cons] at returned
      simp only [Outcome.bind_eq_ok, Outcome.pure_eq_ok, Except.ok.injEq] at returned
      rcases returned with ⟨result, first, others, rest, rfl⟩
      rcases induction rest with ⟨forward, length, backward⟩
      refine ⟨?_, by rw [List.length_cons, List.length_cons, length], ?_⟩
      · intro other member
        rcases List.mem_cons.mp member with rfl | member
        · exact ⟨result, List.mem_cons_self, first⟩
        · rcases forward other member with ⟨found, among, makes⟩
          exact ⟨found, List.mem_cons_of_mem _ among, makes⟩
      · intro found member
        rcases List.mem_cons.mp member with rfl | member
        · exact ⟨value, List.mem_cons_self, first⟩
        · rcases backward found member with ⟨other, among, makes⟩
          exact ⟨other, List.mem_cons_of_mem _ among, makes⟩

def NoThrow {α : Type} (call : Outcome α) : Prop :=
  ∀ fault, call = .error fault → fault.isException = false

theorem noThrow_ok {α : Type} (value : α) : NoThrow (.ok value) := by
  intro fault failed
  cases failed

theorem noThrow_error {α : Type} {fault : Fault} (undefined : fault.isException = false) :
    NoThrow (.error fault : Outcome α) := by
  intro other failed
  cases failed
  exact undefined

theorem NoThrow.bind {α β : Type} {first : Outcome α} {rest : α → Outcome β}
    (firstQuiet : NoThrow first) (restQuiet : ∀ value, NoThrow (rest value)) :
    NoThrow (first >>= rest) := by
  cases called : first with
  | error fault => exact noThrow_error (firstQuiet fault called)
  | ok value => exact restQuiet value

end Outcome

/-! ## Unsigned arithmetic -/

def wrap32 (value : Nat) : Nat := value % 2 ^ 32

def wrap64 (value : Nat) : Nat := value % 2 ^ 64

theorem wrap32_lt (value : Nat) : wrap32 value < 2 ^ 32 :=
  Nat.mod_lt _ (by decide)

theorem wrap32_of_lt {value : Nat} (small : value < 2 ^ 32) : wrap32 value = value :=
  Nat.mod_eq_of_lt small

theorem wrap32_le (value : Nat) : wrap32 value ≤ value := Nat.mod_le _ _

theorem wrap64_of_lt {value : Nat} (small : value < 2 ^ 64) : wrap64 value = value :=
  Nat.mod_eq_of_lt small

/-- Subtraction of two `size_t` values: it wraps when it falls below zero. -/
def sub64 (left right : Nat) : Nat :=
  if right ≤ left then left - right else 2 ^ 64 + left - right

theorem sub64_of_le {left right : Nat} (ordered : right ≤ left) :
    sub64 left right = left - right := by
  simp [sub64, ordered]

theorem sub64_of_lt {left right : Nat} (below : left < right) :
    sub64 left right = 2 ^ 64 + left - right := by
  simp [sub64, Nat.not_le.mpr below]

/-! ## Checked vector access -/

def vectorAt {α : Type} (values : List α) (index : Nat) : Outcome α :=
  match values[index]? with
  | some value => .ok value
  | none => .error .outOfRange

@[simp] theorem vectorAt_of_lt {α : Type} {values : List α} {index : Nat}
    (inRange : index < values.length) :
    vectorAt values index = .ok values[index] := by
  simp [vectorAt, inRange]

theorem vectorAt_of_le {α : Type} {values : List α} {index : Nat}
    (outside : values.length ≤ index) :
    vectorAt values index = .error .outOfRange := by
  simp [vectorAt, outside]

theorem vectorAt_eq_ok_iff {α : Type} {values : List α} {index : Nat} {value : α} :
    vectorAt values index = .ok value ↔ values[index]? = some value := by
  unfold vectorAt
  cases values[index]? <;> simp

def assignAt {α : Type} (values : List α) (index : Nat) (value : α) : Outcome (List α) :=
  if index < values.length then .ok (values.set index value) else .error .outOfRange

/-- `std::vector::reserve`: only a request above `max_size` leaves it. -/
def reserve (elementSize request : Nat) : Outcome Unit :=
  if request ≤ (2 ^ 63 - 1) / elementSize then .ok () else .error .lengthError

end IioEmu
