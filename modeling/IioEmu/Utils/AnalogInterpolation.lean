import IioEmu.Foundation.Ramps
import IioEmu.Utils.Utility
import Mathlib.Tactic.FieldSimp

/-! # Interpolated waveforms

In exact arithmetic the values added up after a sample lie on the straight line to its
neighbour. The last of them is the neighbour itself, which is then put out again. -/

namespace IioEmu

section Lines

variable {ratio : Nat}

theorem getElem?_rampFrom (last val : Rat) {count offset : Nat}
    (inside : offset < count) :
    (rampFrom last val count)[offset]? = some (last + (offset + 1 : Nat) * val) := by
  induction count generalizing last offset with
  | zero => omega
  | succ count induction =>
      cases offset with
      | zero => simp [rampFrom]
      | succ offset =>
          rw [rampFrom, List.getElem?_cons_succ, induction (last + val) (by omega)]
          congr 1
          push_cast
          ring

theorem getElem?_interpolationBlock (current next : Rat) {offset : Nat}
    (inside : offset ≤ ratio) :
    (interpolationBlock ratio current next)[offset]? =
      some (lineAt current next ((offset : Rat) / ratio)) := by
  rw [interpolationBlock, lineAt_eq]
  cases offset with
  | zero => simp
  | succ offset =>
      rw [List.getElem?_cons_succ, getElem?_rampFrom _ _ inside]
      congr 1
      change current + ((offset + 1 : Nat) : Rat) *
        ((next - current) / ((ratio : Int) : Rat)) = _
      push_cast
      ring

structure KeepsWaveform (src : List Rat) (ratio : Nat) (dest : List Rat) : Prop where
  length_eq : dest.length = (src.length - 1) * ratio + src.length
  original : ∀ i, i < src.length → dest[i * (ratio + 1)]? = src[i]?
  between : ∀ i first second, src[i]? = some first → src[i + 1]? = some second →
    ∀ p q, i * (ratio + 1) ≤ p → p ≤ q → q ≤ (i + 1) * (ratio + 1) →
      ∃ earlier later, dest[p]? = some earlier ∧ dest[q]? = some later ∧
        Towards first earlier later second

def waveform (ratio : Nat) (src : List Rat) (last : Rat) : List Rat :=
  segments (interpolationBlock ratio) src ++ [last]

variable {src : List Rat} {last : Rat}

theorem length_segments_interpolationBlock (ratio : Nat) (src : List Rat) :
    (segments (interpolationBlock ratio) src).length = (src.length - 1) * (ratio + 1) :=
  length_segments (length_interpolationBlock ratio) src

theorem length_waveform (final : src.getLast? = some last) :
    (waveform ratio src last).length = (src.length - 1) * ratio + src.length := by
  have positive : 1 ≤ src.length := List.length_pos_of_mem (List.mem_of_getLast? final)
  have spread : (src.length - 1) * (ratio + 1) =
      (src.length - 1) * ratio + (src.length - 1) :=
    Nat.mul_succ _ _
  rw [waveform, List.length_append, length_segments_interpolationBlock,
    List.length_singleton]
  omega

theorem getElem?_waveform_block {i offset : Nat} {first second : Rat}
    (current : src[i]? = some first) (next : src[i + 1]? = some second)
    (inside : offset ≤ ratio) :
    (waveform ratio src last)[i * (ratio + 1) + offset]? =
      (interpolationBlock ratio first second)[offset]? := by
  have neighbour : i + 1 < src.length := (List.getElem?_eq_some_iff.mp next).1
  have counted := length_segments_interpolationBlock ratio src
  have blockEnd : (i + 1) * (ratio + 1) ≤ (src.length - 1) * (ratio + 1) :=
    Nat.mul_le_mul_right _ (by omega)
  have nextBlock :
    (i + 1) * (ratio + 1) = i * (ratio + 1) + (ratio + 1) := Nat.succ_mul _ _
  rw [waveform, List.getElem?_append_left (by omega)]
  exact getElem?_segments (length_interpolationBlock ratio) current next (by omega)

theorem getElem?_waveform_original (final : src.getLast? = some last) {i : Nat}
    (inside : i < src.length) :
    (waveform ratio src last)[i * (ratio + 1)]? = src[i]? := by
  by_cases closing : i = src.length - 1
  · have counted := length_segments_interpolationBlock ratio src
    subst closing
    rw [waveform, ← counted, List.getElem?_concat_length, ← final,
      List.getLast?_eq_getElem?]
  · have next : i + 1 < src.length := by omega
    have started := @getElem?_waveform_block ratio src last i 0 src[i] src[i + 1]
      (List.getElem?_eq_getElem inside) (List.getElem?_eq_getElem next) (Nat.zero_le _)
    rw [Nat.add_zero] at started
    rw [started, interpolationBlock, List.getElem?_cons_zero,
      List.getElem?_eq_getElem inside]

theorem getElem?_waveform (final : src.getLast? = some last) {i offset : Nat}
    {first second : Rat} (current : src[i]? = some first)
    (next : src[i + 1]? = some second) (positive : 0 < ratio)
    (inside : offset ≤ ratio + 1) :
    (waveform ratio src last)[i * (ratio + 1) + offset]? =
      some (lineAt first second (((min offset ratio : Nat) : Rat) / ratio)) := by
  by_cases block : offset ≤ ratio
  · rw [getElem?_waveform_block current next block,
      getElem?_interpolationBlock first second block, Nat.min_eq_left block]
  · have closing : offset = ratio + 1 := by omega
    have neighbour : i + 1 < src.length := (List.getElem?_eq_some_iff.mp next).1
    have whole : (ratio : Rat) ≠ 0 := Nat.cast_ne_zero.mpr (by omega)
    rw [closing, ← Nat.succ_mul, getElem?_waveform_original final neighbour, next,
      Nat.min_eq_right (by omega), div_self whole, lineAt_one]

theorem keepsWaveform_waveform (final : src.getLast? = some last) (positive : 0 < ratio) :
    KeepsWaveform src ratio (waveform ratio src last) where
  length_eq := length_waveform final
  original i inside := getElem?_waveform_original final inside
  between := by
    intro i first second current next p q start order stop
    have nextBlock :
      (i + 1) * (ratio + 1) = i * (ratio + 1) + (ratio + 1) := Nat.succ_mul _ _
    have early : i * (ratio + 1) + (p - i * (ratio + 1)) = p := by omega
    have late : i * (ratio + 1) + (q - i * (ratio + 1)) = q := by omega
    have atEarlier := getElem?_waveform final current next positive
      (show p - i * (ratio + 1) ≤ ratio + 1 by omega)
    have atLater := getElem?_waveform final current next positive
      (show q - i * (ratio + 1) ≤ ratio + 1 by omega)
    rw [early] at atEarlier
    rw [late] at atLater
    refine ⟨_, _, atEarlier, atLater, ?_⟩
    have width : (0 : Rat) < ratio := Nat.cast_pos.mpr positive
    apply towards_lineAt
    · exact div_nonneg (Nat.cast_nonneg _) width.le
    · apply div_le_div_of_nonneg_right _ width.le
      exact Nat.cast_le.mpr (by omega)
    · rw [div_le_one width]
      exact Nat.cast_le.mpr (Nat.min_le_right _ _)

end Lines

/-- Interpolation keeps the waveform of every non-empty vector whose indices fit the loop
counter and whose result fits a vector of doubles. -/
theorem analogicalInterpolation_keepsWaveform (src : List Rat) (ratio : Nat)
    (nonempty : src ≠ []) (indexed : src.length < 2 ^ 32) (several : 2 ≤ ratio)
    (fits : (src.length - 1) * ratio + src.length ≤ (2 ^ 63 - 1) / 8) :
    ∃ dest, analogicalInterpolation src ratio = .ok dest ∧
    KeepsWaveform src ratio dest := by
  have final : src.getLast? = some (src.getLast nonempty) :=
    List.getLast?_eq_some_getLast nonempty
  exact ⟨waveform ratio src (src.getLast nonempty),
    analogicalInterpolation_eq several final (by omega) fits,
    keepsWaveform_waveform final (by omega)⟩

theorem falling_then_rising_keeps :
    ([2, 0, 1] : List Rat) ≠ [] ∧ ([2, 0, 1] : List Rat).length < 2 ^ 32 ∧ 2 ≤ 4 ∧
      (([2, 0, 1] : List Rat).length - 1) * 4 + ([2, 0, 1] : List Rat).length ≤
        (2 ^ 63 - 1) / 8 ∧
      ∃ dest, analogicalInterpolation ([2, 0, 1] : List Rat) 4 = .ok dest ∧
        KeepsWaveform [2, 0, 1] 4 dest :=
  ⟨by decide, by decide, by decide, by decide,
    analogicalInterpolation_keepsWaveform [2, 0, 1] 4 (by decide) (by decide) (by decide)
      (by decide)⟩

theorem long_vector_is_refused :
    List.replicate (2 ^ 31) (0 : Rat) ≠ [] ∧
      (List.replicate (2 ^ 31) (0 : Rat)).length < 2 ^ 32 ∧ 2 ≤ 2 ^ 31 ∧ 2 ^ 31 < 2 ^ 32 ∧
      ¬ ∃ dest, analogicalInterpolation
      (List.replicate (2 ^ 31) (0 : Rat)) (2 ^ 31) = .ok dest ∧
        KeepsWaveform (List.replicate (2 ^ 31) 0) (2 ^ 31) dest := by
  have nonempty : List.replicate (2 ^ 31) (0 : Rat) ≠ [] := by
    apply List.ne_nil_of_length_pos
    rw [List.length_replicate]
    exact Nat.two_pow_pos 31
  refine ⟨nonempty, ?_, by decide, by decide, ?_⟩
  · rw [List.length_replicate]
    decide
  · rintro ⟨dest, returned, _⟩
    have accepted := (analogicalInterpolation_returns_iff (by decide)).mp ⟨dest, returned⟩
    rw [List.length_replicate] at accepted
    omega

/-! ## Repeated samples -/

def RisesAt (dest : List Rat) (p : Nat) : Prop :=
  ∃ earlier later, dest[p]? = some earlier ∧ dest[p + 1]? = some later ∧ earlier < later

def IncreasesStrictly (src : List Rat) (ratio : Nat) : Prop :=
  ∃ dest, analogicalInterpolation src ratio = .ok dest ∧ dest.Pairwise (· < ·)

theorem risesAt_of_pairwise {dest : List Rat}
    (increasing : dest.Pairwise (· < ·)) {p : Nat}
    (inside : p + 1 < dest.length) : RisesAt dest p :=
  ⟨dest[p], dest[p + 1], List.getElem?_eq_getElem _, List.getElem?_eq_getElem _,
    List.pairwise_iff_getElem.mp increasing p (p + 1) _ _ (Nat.lt_succ_self p)⟩

section Increasing

variable {src : List Rat} {ratio : Nat} {last : Rat}

theorem risesAt_waveform_block (increasing : src.Pairwise (· < ·))
    (final : src.getLast? = some last) (positive : 0 < ratio) {i offset : Nat}
    (neighbour : i + 1 < src.length) (inside : offset ≤ ratio) :
    RisesAt (waveform ratio src last) (i * (ratio + 1) + offset) ↔ offset < ratio := by
  have rising : src[i] < src[i + 1] :=
    List.pairwise_iff_getElem.mp increasing i (i + 1) _ _ (Nat.lt_succ_self i)
  have current : src[i]? = some src[i] := List.getElem?_eq_getElem _
  have next : src[i + 1]? = some src[i + 1] := List.getElem?_eq_getElem neighbour
  have atEarlier := getElem?_waveform final current next positive
    (show offset ≤ ratio + 1 by omega)
  have atLater := getElem?_waveform final current next positive
    (show offset + 1 ≤ ratio + 1 by omega)
  have width : (0 : Rat) < ratio := Nat.cast_pos.mpr positive
  rw [RisesAt, Nat.add_assoc, atEarlier, atLater]
  constructor
  · rintro ⟨earlier, later, equalEarlier, equalLater, larger⟩
    rw [Option.some.injEq] at equalEarlier equalLater
    rw [← equalEarlier, ← equalLater, lineAt_lt_lineAt_iff rising,
      div_lt_div_iff_of_pos_right width, Nat.cast_lt] at larger
    omega
  · intro before
    refine ⟨_, _, rfl, rfl, ?_⟩
    rw [lineAt_lt_lineAt_iff rising, div_lt_div_iff_of_pos_right width, Nat.cast_lt]
    omega

theorem risesAt_waveform_iff (increasing : src.Pairwise (· < ·))
    (final : src.getLast? = some last) (positive : 0 < ratio) {p : Nat}
    (inside : p + 1 < (waveform ratio src last).length) :
    RisesAt (waveform ratio src last) p ↔ ¬ ratio + 1 ∣ p + 1 := by
  rw [waveform, List.length_append, length_segments_interpolationBlock,
    List.length_singleton] at inside
  have divided : p / (ratio + 1) * (ratio + 1) + p % (ratio + 1) = p :=
    Nat.div_add_mod' p _
  have block : p / (ratio + 1) < src.length - 1 :=
    (Nat.div_lt_iff_lt_mul (by omega)).mpr (by omega)
  generalize p / (ratio + 1) = i at divided block
  have offset : p % (ratio + 1) < ratio + 1 := Nat.mod_lt p (by omega)
  generalize p % (ratio + 1) = rest at divided offset
  subst divided
  rw [risesAt_waveform_block increasing final positive (by omega) (by omega),
    Nat.add_assoc, Nat.dvd_add_right (Nat.dvd_mul_left _ _)]
  constructor
  · intro before whole
    have reached := Nat.le_of_dvd (by omega) whole
    omega
  · intro apart
    by_contra reached
    apply apart
    rw [show rest = ratio by omega]

/-- The output for an increasing vector stops rising exactly before each of its samples after
the first, so that it never increases strictly. -/
theorem never_increases_strictly (increasing : src.Pairwise (· < ·))
    (neighbours : 2 ≤ src.length) (several : 2 ≤ ratio) :
    ¬ IncreasesStrictly src ratio ∧
      ∀ dest, analogicalInterpolation src ratio = .ok dest →
        ∀ p, p + 1 < dest.length → (RisesAt dest p ↔ ¬ ratio + 1 ∣ p + 1) := by
  have rises : ∀ dest, analogicalInterpolation src ratio = .ok dest →
      ∀ p, p + 1 < dest.length → (RisesAt dest p ↔ ¬ ratio + 1 ∣ p + 1) := by
    intro dest returned p inside
    rcases analogicalInterpolation_of_ok several returned with ⟨value, final, rfl⟩
    exact risesAt_waveform_iff increasing final (by omega) inside
  refine ⟨?_, rises⟩
  rintro ⟨dest, returned, strict⟩
  have longer := length_of_analogicalInterpolation several returned
  have spread : 1 * (ratio + 1) ≤ (src.length - 1) * (ratio + 1) :=
    Nat.mul_le_mul_right _ (by omega)
  have inside : ratio + 1 < dest.length := by omega
  exact (rises dest returned ratio inside).mp (risesAt_of_pairwise strict inside)
    (Nat.dvd_refl _)

end Increasing

theorem two_steps_never_increase_strictly :
    ([0, 1, 4] : List Rat).Pairwise (· < ·) ∧ 2 ≤ ([0, 1, 4] : List Rat).length ∧ 2 ≤ 3 ∧
      ¬ IncreasesStrictly [0, 1, 4] 3 ∧
      ∀ dest, analogicalInterpolation ([0, 1, 4] : List Rat) 3 = .ok dest →
        ∀ p, p + 1 < dest.length → (RisesAt dest p ↔ ¬ 3 + 1 ∣ p + 1) :=
  ⟨by decide, by decide, by decide,
    never_increases_strictly (by decide) (by decide) (by decide)⟩

theorem rising_step_ends_twice :
    ([0, 1] : List Rat).Pairwise (· < ·) ∧ 2 ≤ ([0, 1] : List Rat).length ∧
      analogicalInterpolation ([0, 1] : List Rat) 2 = .ok [0, 1 / 2, 1, 1] ∧
      ¬ IncreasesStrictly [0, 1] 2 := by
  have emitted :
      analogicalInterpolation ([0, 1] : List Rat) 2 = .ok [0, 1 / 2, 1, 1] := by
    decide +kernel
  refine ⟨by decide, by decide, emitted, ?_⟩
  rintro ⟨dest, returned, strict⟩
  rw [emitted, Except.ok.injEq] at returned
  subst returned
  exact absurd strict (by decide)

end IioEmu
