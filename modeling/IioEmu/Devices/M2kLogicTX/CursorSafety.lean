import IioEmu.Devices.M2kLogicTX.M2kLogicTX

/-! # Cursor safety of the logic transmitter

A read accesses the samples with a checked `at`, so a cursor outside the
vector makes it throw. Cancelling empties the vector and leaves the cursor
where the last reader stopped. -/

namespace IioEmu.M2kLogicTX

open Execution

variable {δ : Type}

def ReadsInRange (tx : M2kLogicTX δ) : Prop :=
  ∀ samplesCount, ∃ delivered next,
    tx.transferSamplesToRXDevice samplesCount = .ok (delivered, next)

def CursorValid (tx : M2kLogicTX δ) : Prop :=
  tx.currentIndex < tx.samples.length ∨ (tx.samples = [] ∧ tx.currentIndex = 0)

theorem CursorValid.transfer {tx : M2kLogicTX δ} (valid : CursorValid tx)
    (samplesCount : Nat) :
    ∃ delivered next, tx.transferSamplesToRXDevice samplesCount = .ok (delivered, next) ∧
      CursorValid next := by
  rcases valid with inside | ⟨empty, start⟩
  · have nonempty : tx.samples.isEmpty = false := by
      cases stored : tx.samples with
      | nil => simp [stored] at inside
      | cons head tail => rfl
    rcases readCyclic_returns inside samplesCount with
      ⟨delivered, final, read, finalInside⟩
    refine ⟨delivered, { tx with currentIndex := final }, ?_, .inl finalInside⟩
    simp [transferSamplesToRXDevice, nonempty, read]
  · cases samplesCount with
    | zero =>
        refine ⟨[], tx, ?_, .inr ⟨empty, start⟩⟩
        cases tx
        simp_all [transferSamplesToRXDevice, readCyclic]
    | succ samplesCount =>
        have filled :
            tx.currentIndex < (List.replicate (samplesCount + 1) 0#16).length := by
          simp [start]
        rcases readCyclic_returns filled (samplesCount + 1) with
          ⟨delivered, final, read, finalInside⟩
        refine ⟨delivered, { tx with
          samples := List.replicate (samplesCount + 1) 0#16
          currentIndex := final }, ?_, .inl finalInside⟩
        simp [transferSamplesToRXDevice, empty, read]

theorem readsInRange_iff_cursorValid (tx : M2kLogicTX δ) :
    ReadsInRange tx ↔ CursorValid tx := by
  constructor
  · intro inRange
    rcases inRange 1 with ⟨delivered, next, returned⟩
    by_contra invalid
    -- One sample is enough: its access is already outside the vector.
    have outside : (if tx.samples.isEmpty then List.replicate 1 0#16
        else tx.samples).length ≤ tx.currentIndex := by
      simp only [CursorValid, not_or, not_and] at invalid
      cases stored : tx.samples with
      | nil =>
          have moved := invalid.2 stored
          simp
          omega
      | cons head tail =>
          have beyond := invalid.1
          rw [stored] at beyond
          simpa using beyond
    rw [transferSamplesToRXDevice, readCyclic_of_le outside 0,
      Outcome.error_bind] at returned
    cases returned
  · intro valid samplesCount
    rcases valid.transfer samplesCount with ⟨delivered, next, returned, _⟩
    exact ⟨delivered, next, returned⟩

section Runs

variable [Double δ] [LibXml2] [TinyIIOD]

theorem CursorValid.step {tx next : M2kLogicTX δ} {action : Action}
    (valid : CursorValid tx) (atStart : action = .cancelBuffer → tx.currentIndex = 0)
    (stepped : tx.step action = .ok next) : CursorValid next := by
  cases action with
  | openDev sampleSize mask cyclic =>
      rw [step_openDev] at stepped
      exact stepped ▸ valid
  | closeDev =>
      rw [step_closeDev] at stepped
      exact stepped ▸ valid
  | writeDev buf offset bytesCount =>
      rcases step_writeDev.mp stepped with ⟨words, _, rfl⟩
      cases pending : tx.resetBuffer with
      | true =>
          cases words with
          | nil => exact .inr ⟨rfl, rfl⟩
          | cons word words => exact .inl (by simp)
      | false =>
          rcases valid with inside | ⟨empty, start⟩
          · apply Or.inl
            simp only [Bool.false_eq_true, if_false, List.length_append]
            omega
          · cases words with
            | nil => exact .inr (by simp [empty, start])
            | cons word words => exact .inl (by simp [empty, start])
  | transferMemToDev doc bytesCount =>
      rcases step_transferMemToDev.mp stepped with ⟨loaded, samples, _, interpolated, rfl⟩
      have length := length_digitalInterpolation interpolated
      rcases valid with inside | ⟨empty, start⟩
      · refine .inl (Nat.lt_of_lt_of_le inside ?_)
        rw [length]
        split
        · exact Nat.le_refl _
        · exact Nat.le_mul_of_pos_right _ (by omega)
      · refine .inr ⟨List.length_eq_zero_iff.mp ?_, start⟩
        simp [length, empty]
  | cancelBuffer =>
      rw [step_cancelBuffer] at stepped
      subst stepped
      exact .inr ⟨rfl, atStart rfl⟩
  | transferSamplesToRXDevice samplesCount =>
      rcases step_transferSamplesToRXDevice.mp stepped with ⟨delivered, returned⟩
      rcases valid.transfer samplesCount with ⟨_, after, returnedValid, afterValid⟩
      rw [returned, Except.ok.injEq, Prod.mk.injEq] at returnedValid
      exact returnedValid.2 ▸ afterValid

/-- Over whole runs from construction, every state reads in range exactly when
the buffer is only ever cancelled with the cursor at the start. -/
theorem reads_in_range_iff_cancelled_at_start (deviceId : String) (samplerate : δ)
    (actions : List Action) :
    (∀ tx, Reached step (construct deviceId samplerate) actions tx → ReadsInRange tx) ↔
      ∀ tx, Taken step (construct deviceId samplerate) actions tx .cancelBuffer →
        tx.currentIndex = 0 := by
  constructor
  · intro inRange tx taken
    have emptied : CursorValid { tx with samples := [] } := by
      rw [← readsInRange_iff_cursorValid]
      exact inRange _ (taken.next_reached step (step_cancelBuffer.mpr rfl))
    rcases emptied with inside | ⟨_, start⟩
    · simp at inside
    · exact start
  · intro atStart tx reached
    rw [readsInRange_iff_cursorValid]
    apply reached_invariant step CursorValid (.inr ⟨rfl, rfl⟩) _ tx reached
    intro state action next taken stepped valid
    exact valid.step (fun cancelled => atStart state (cancelled ▸ taken)) stepped

end Runs

open scoped Reference in
/-- Three of four samples are read, the client disconnects, and the next reader
asks for two: the cursor is past the two fresh samples. -/
theorem read_after_cancel_out_of_range :
    ¬ ∀ (actions : List Action) (tx : M2kLogicTX Rat),
      Reached step (construct "iio:device9" 0) actions tx → ReadsInRange tx := by
  intro inRange
  have reached : Reached step (construct "iio:device9" (0 : Rat))
      [.writeDev (bytesOfWords [1, 2, 3, 4]) 0 8,
        .transferSamplesToRXDevice 3, .cancelBuffer]
      { construct "iio:device9" 0 with currentIndex := 3 } :=
    ⟨_, List.prefix_rfl, rfl⟩
  rcases inRange _ _ reached 2 with ⟨delivered, next, returned⟩
  have thrown : ({ construct "iio:device9" (0 : Rat) with currentIndex := 3 } :
      M2kLogicTX Rat).transferSamplesToRXDevice 2 = .error .outOfRange := rfl
  rw [thrown] at returned
  cases returned

end IioEmu.M2kLogicTX
