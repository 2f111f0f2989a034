import IioEmu.Devices.M2kDAC.CursorSafety

/-! # What a reader of the transmitter gets

The cursor is reduced by the length of the vector, cut to 32 bits. A length that this cuts to
zero leaves nothing to reduce by. -/

namespace IioEmu.M2kDAC

section Delivered

variable {δ : Type}

theorem transferLoop_body_returns {samples : List δ} (reduced : wrap32 samples.length ≠ 0)
    {state : TransferState δ} (inside : state.currentIndex < samples.length) :
    ∃ next, (transferLoop samples).body state = .ok next ∧
      next.currentIndex < samples.length ∧
      (0 < state.samplesCount → next.samplesCount < state.samplesCount) := by
  have copied := memcpy_of_le (remainingSamples_inside inside)
  have body : (transferLoop samples).body state = .ok {
      buffer := state.buffer ++
        (samples.drop state.currentIndex).take (state.remainingSamples samples)
      samplesCount := state.samplesCount - state.remainingSamples samples
      currentIndex :=
        wrap32 (state.currentIndex + wrap32 (state.remainingSamples samples)) %
        wrap32 samples.length } := by
    simp only [transferLoop, copied, Outcome.ok_bind, if_neg reduced, Outcome.pure_eq_ok]
  refine ⟨_, body, transferLoop_body_inside body, ?_⟩
  intro wanted
  have some : 0 < state.remainingSamples samples := by
    rw [TransferState.remainingSamples, sub64_of_le (by omega)]
    omega
  simp only
  omega

variable [Double δ] {dac : M2kDAC δ} {samplesCount : Nat}

theorem length_of_transferSamplesToRXDevice {delivered : List δ} {next : M2kDAC δ}
    (returned : dac.transferSamplesToRXDevice samplesCount = .ok (delivered, next)) :
    delivered.length = samplesCount := by
  simp only [transferSamplesToRXDevice, Outcome.bind_eq_ok, Outcome.pure_eq_ok,
    Except.ok.injEq, Prod.mk.injEq] at returned
  rcases returned with ⟨final, looped, rfl, _⟩
  have counted : final.buffer.length + final.samplesCount = samplesCount ∧
      (transferLoop (dac.storedForRead samplesCount)).guard final = false := by
    refine Loop.outcome_invariant _
      (fun state => state.buffer.length + state.samplesCount =
        samplesCount) ?_ (by simp) looped
    intro state after holds _ passed
    simp only [transferLoop, Outcome.bind_eq_ok] at passed
    rcases passed with ⟨copied, read, stepped⟩
    split at stepped
    · cases stepped
    · cases stepped
      have within : state.remainingSamples (dac.storedForRead samplesCount) ≤
          state.samplesCount := Nat.min_le_right _ _
      simp only [List.length_append, (length_of_memcpy read).1]
      omega
  have done : final.samplesCount = 0 := by simpa [transferLoop] using counted.2
  omega

/-- Nothing is wanted, or the length of the vector is not cut to zero. -/
def Delivers (dac : M2kDAC δ) (samplesCount : Nat) : Prop :=
  samplesCount = 0 ∨ wrap32 (dac.storedForRead samplesCount).length ≠ 0

theorem CursorValid.transfer_returns_iff (valid : CursorValid dac) :
    (∃ delivered next,
      dac.transferSamplesToRXDevice samplesCount = .ok (delivered, next)) ↔
      dac.Delivers samplesCount := by
  rw [Delivers]
  simp only [transferSamplesToRXDevice, Outcome.bind_eq_ok, Outcome.pure_eq_ok,
    Except.ok.injEq, Prod.mk.injEq]
  constructor
  · rintro ⟨_, _, final, looped, _, _⟩
    by_contra neither
    rw [not_or, not_not] at neither
    have enters : (transferLoop (dac.storedForRead samplesCount)).guard
        ⟨[], samplesCount, dac.currentIndex⟩ = true := by
      simp only [transferLoop, decide_eq_true_eq]
      omega
    have inside := valid.inside_stored (Nat.pos_of_ne_zero neither.1)
    have copied := memcpy_of_le (@remainingSamples_inside δ _
      ⟨[], samplesCount, dac.currentIndex⟩ inside)
    have fails : (transferLoop (dac.storedForRead samplesCount)).body
        ⟨[], samplesCount, dac.currentIndex⟩ = .error .divisionByZero := by
      simp only [transferLoop, copied, Outcome.ok_bind, if_pos neither.2]
    rw [Loop.outcome_of_run _ (Loop.run_succ_of_error _ enters fails samplesCount)] at looped
    cases looped
  · intro reduced
    have looped : ∃ final, (transferLoop (dac.storedForRead samplesCount)).outcome
        (samplesCount + 1) ⟨[], samplesCount, dac.currentIndex⟩ = .ok final := by
      by_cases none : samplesCount = 0
      · subst none
        exact ⟨_, Loop.outcome_of_run _ (Loop.run_of_not_guard _ rfl _)⟩
      · have inside := valid.inside_stored (Nat.pos_of_ne_zero none)
        have looped := (transferLoop (dac.storedForRead samplesCount)).run_total
          (fun state => state.currentIndex < (dac.storedForRead samplesCount).length)
          TransferState.samplesCount
          (by
            intro state holds enters
            rcases transferLoop_body_returns (reduced.resolve_left none) holds with
              ⟨next, passed, kept, lower⟩
            exact ⟨next, passed, kept, lower (by simpa [transferLoop] using enters)⟩)
          ⟨[], samplesCount, dac.currentIndex⟩ inside (samplesCount + 1) (Nat.le_succ _)
        rcases looped with ⟨final, ran, _⟩
        exact ⟨final, Loop.outcome_of_run _ ran⟩
    rcases looped with ⟨final, looped⟩
    exact ⟨_, _, final, looped, rfl, rfl⟩

end Delivered

end IioEmu.M2kDAC
