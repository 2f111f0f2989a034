import IioEmu.Foundation.Numerals
import Mathlib.Tactic.Linarith

/-! # Quantisation

A value is cut to an integer towards zero, and the integer is stored in a word. A signed
format of some bits has the values of a two's complement number of that many bits. -/

namespace IioEmu

def SignedIn (bits : Nat) (value : Int) : Prop :=
  -2 ^ (bits - 1) ≤ value ∧ value < 2 ^ (bits - 1)

instance (bits : Nat) (value : Int) : Decidable (SignedIn bits value) :=
  inferInstanceAs (Decidable (_ ∧ _))

section Truncation

variable {value : Rat} {bound : Int}

theorem le_truncate_iff (nonpositive : bound ≤ 0) :
    bound ≤ truncate value ↔ (bound : Rat) - 1 < value := by
  have small : (bound : Rat) ≤ 0 := by exact_mod_cast nonpositive
  unfold truncate
  split
  · rename_i positive
    have floored : 0 ≤ value.floor := Rat.le_floor_iff.mpr (by exact_mod_cast positive)
    apply iff_of_true
    · omega
    · linarith
  · have before : bound ≤ value.ceil ↔ bound - 1 < value.ceil := by omega
    rw [before, Rat.lt_ceil_iff, Int.cast_sub, Int.cast_one]

theorem truncate_lt_iff (positive : 0 < bound) :
    truncate value < bound ↔ value < (bound : Rat) := by
  have large : (0 : Rat) < bound := by exact_mod_cast positive
  unfold truncate
  split
  · rw [Rat.floor_lt_iff]
  · rename_i negative
    have ceiled : value.ceil ≤ 0 := Rat.ceil_le_iff.mpr (by
      rw [Int.cast_zero]
      linarith)
    apply iff_of_true
    · omega
    · linarith

/-- The values that are cut to a value of the format. -/
theorem signedIn_truncate_iff (bits : Nat) :
    SignedIn bits (truncate value) ↔
      -(2 ^ (bits - 1) : Rat) - 1 < value ∧ value < (2 ^ (bits - 1) : Rat) := by
  have positive : (0 : Int) < 2 ^ (bits - 1) := Int.pow_pos (by decide)
  rw [SignedIn, le_truncate_iff (by omega), truncate_lt_iff positive]
  push_cast
  exact Iff.rfl

end Truncation

section Words

variable {bits width : Nat} {value : Int}

theorem SignedIn.mono (signed : SignedIn bits value) (fewer : bits ≤ width) :
    SignedIn width value := by
  have wider : (2 : Int) ^ (bits - 1) ≤ 2 ^ (width - 1) := by
    apply pow_le_pow_right₀ (by decide)
    omega
  rcases signed with ⟨lower, upper⟩
  constructor
  · omega
  · omega

theorem SignedIn.toInt_ofInt (signed : SignedIn width value) (positive : 0 < width) :
    (BitVec.ofInt width value).toInt = value :=
  BitVec.toInt_ofInt_eq_self positive signed.1 signed.2

theorem SignedIn.isInt (signed : SignedIn 32 value) : IsInt value := signed

theorem toInt_ofInt_toInt {value : Rat} (positive : 0 < width) (narrow : width ≤ 32)
    (signed : SignedIn width (truncate value)) :
    (BitVec.ofInt width (Double.toInt value)).toInt = truncate value := by
  have converted : Double.toInt value = truncate value :=
    if_pos (signed.mono narrow).isInt
  rw [converted, signed.toInt_ofInt positive]

end Words

@[simp] theorem truncate_intCast (value : Int) : truncate (value : Rat) = value := by
  unfold truncate
  split
  · exact Rat.floor_intCast value
  · exact Rat.ceil_intCast value

end IioEmu
