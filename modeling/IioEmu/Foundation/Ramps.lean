import Mathlib.LinearAlgebra.AffineSpace.Ordered
import Mathlib.Tactic.Linarith

/-! # Straight lines between two values

On a straight line from one value to another, later points lie further along. -/

namespace IioEmu

section Lines

variable {k : Type} [Field k] [LinearOrder k] [IsStrictOrderedRing k]

def Towards (first earlier later second : k) : Prop :=
  (first ≤ earlier ∧ earlier ≤ later ∧ later ≤ second) ∨
    (second ≤ later ∧ later ≤ earlier ∧ earlier ≤ first)

def lineAt (first second portion : k) : k := AffineMap.lineMap first second portion

omit [LinearOrder k] [IsStrictOrderedRing k] in
theorem lineAt_eq (first second portion : k) :
    lineAt first second portion = portion * (second - first) + first :=
  AffineMap.lineMap_apply_ring' first second portion

omit [LinearOrder k] [IsStrictOrderedRing k] in
theorem lineAt_one (first second : k) : lineAt first second 1 = second :=
  AffineMap.lineMap_apply_one first second

theorem lineAt_lt_lineAt_iff {first second p q : k} (rising : first < second) :
    lineAt first second p < lineAt first second q ↔ p < q :=
  lineMap_lt_lineMap_iff_of_lt' rising

/-- A straight line moves monotonically from its first end towards its second one. -/
theorem towards_lineAt (first second : k) {p q : k} (start : 0 ≤ p) (order : p ≤ q)
    (stop : q ≤ 1) :
    Towards first (lineAt first second p) (lineAt first second q) second := by
  simp only [Towards, lineAt_eq]
  rcases le_total first second with rising | falling
  · have slope : 0 ≤ second - first := sub_nonneg.mpr rising
    have early := mul_nonneg start slope
    have between := mul_le_mul_of_nonneg_right order slope
    have late := mul_le_mul_of_nonneg_right stop slope
    left
    refine ⟨?_, ?_, ?_⟩ <;> linarith
  · have slope : second - first ≤ 0 := sub_nonpos.mpr falling
    have early := mul_nonpos_of_nonneg_of_nonpos start slope
    have between := mul_le_mul_of_nonpos_right order slope
    have late := mul_le_mul_of_nonpos_right stop slope
    right
    refine ⟨?_, ?_, ?_⟩ <;> linarith

end Lines

end IioEmu
