import IioEmu.Adalm2000.Document
import IioEmu.Devices.M2kDAC.M2kDAC

/-! # Cursor safety of the analog transmitter

Each pass of a read copies a block from the cursor on. Closing empties the
vector and leaves the cursor where the last reader stopped. -/

namespace IioEmu.M2kDAC

open Execution

variable {δ : Type} [Double δ]

def ReadsInRange (dac : M2kDAC δ) : Prop :=
  ∀ samplesCount pass,
    (transferLoop (dac.storedForRead samplesCount)).Heads
        ⟨[], samplesCount, dac.currentIndex⟩ pass →
    (transferLoop (dac.storedForRead samplesCount)).guard pass = true →
      pass.currentIndex < (dac.storedForRead samplesCount).length ∧
      pass.currentIndex + pass.remainingSamples (dac.storedForRead samplesCount) ≤
        (dac.storedForRead samplesCount).length

def CursorValid (dac : M2kDAC δ) : Prop :=
  dac.currentIndex < dac.samples.length ∨ (dac.samples = [] ∧ dac.currentIndex = 0)

omit [Double δ] in
theorem transferLoop_body_inside {samples : List δ} {pass next : TransferState δ}
    (passed : (transferLoop samples).body pass = .ok next) :
    next.currentIndex < samples.length := by
  simp only [transferLoop, Outcome.bind_eq_ok] at passed
  rcases passed with ⟨copied, _, stepped⟩
  by_cases multiple : wrap32 samples.length = 0
  · simp [multiple] at stepped
  · simp only [multiple, if_false, Outcome.pure_eq_ok, Except.ok.injEq] at stepped
    subst stepped
    exact Nat.lt_of_lt_of_le (Nat.mod_lt _ (by omega)) (wrap32_le _)

omit [Double δ] in
theorem remainingSamples_inside {samples : List δ} {pass : TransferState δ}
    (inside : pass.currentIndex < samples.length) :
    pass.currentIndex + pass.remainingSamples samples ≤ samples.length := by
  rw [TransferState.remainingSamples, sub64_of_le (by omega)]
  omega

theorem CursorValid.inside_stored {dac : M2kDAC δ} (valid : CursorValid dac)
    {samplesCount : Nat} (positive : 0 < samplesCount) :
    dac.currentIndex < (dac.storedForRead samplesCount).length := by
  rcases valid with inside | ⟨empty, start⟩
  · cases stored : dac.samples with
    | nil => simp [stored] at inside
    | cons head tail => simpa [storedForRead, stored] using inside
  · simp [storedForRead, empty, start, positive]

theorem readsInRange_iff_cursorValid (dac : M2kDAC δ) :
    ReadsInRange dac ↔ CursorValid dac := by
  constructor
  · intro inRange
    have first := (inRange 1 _ (.start _) (by simp [transferLoop])).1
    cases stored : dac.samples with
    | nil =>
        refine .inr ⟨stored, ?_⟩
        simpa [storedForRead, stored] using first
    | cons head tail =>
        apply Or.inl
        simpa [storedForRead, stored] using first
  · intro valid samplesCount pass heads enters
    have inside : 0 < pass.samplesCount →
        pass.currentIndex < (dac.storedForRead samplesCount).length := by
      refine Loop.heads_invariant _
        (fun pass => 0 < pass.samplesCount →
          pass.currentIndex < (dac.storedForRead samplesCount).length)
        ?_ heads valid.inside_stored
      intro pass next _ _ passed _
      exact transferLoop_body_inside passed
    have entered := inside (by simpa [transferLoop] using enters)
    exact ⟨entered, remainingSamples_inside entered⟩

theorem CursorValid.transfer {dac next : M2kDAC δ} (valid : CursorValid dac)
    {samplesCount : Nat} {delivered : List δ}
    (returned : dac.transferSamplesToRXDevice samplesCount = .ok (delivered, next)) :
    CursorValid next := by
  simp only [transferSamplesToRXDevice, Outcome.bind_eq_ok, Outcome.pure_eq_ok,
    Except.ok.injEq, Prod.mk.injEq] at returned
  rcases returned with ⟨final, looped, _, rfl⟩
  cases samplesCount with
  | zero =>
      have unread : final = ⟨[], 0, dac.currentIndex⟩ := by
        rw [Loop.outcome_of_run _
          (Loop.run_of_not_guard _ (by simp [transferLoop]) _)] at looped
        exact (Except.ok.inj looped).symm
      subst unread
      rcases valid with inside | ⟨empty, start⟩
      · apply Or.inl
        cases stored : dac.samples with
        | nil => simp [stored] at inside
        | cons head tail => simpa [storedForRead, stored] using inside
      · exact .inr ⟨by simp [storedForRead, empty], start⟩
  | succ samplesCount =>
      refine .inl (Loop.outcome_invariant _
        (fun pass => pass.currentIndex < (dac.storedForRead (samplesCount + 1)).length)
        ?_ (valid.inside_stored (by omega)) looped).1
      intro pass after _ _ passed
      exact transferLoop_body_inside passed

section Runs

variable [LibXml2] [TinyIIOD]

/-- Every operation keeps a valid cursor valid, closing provided it stands at
the start. -/
theorem CursorValid.step {dac next : M2kDAC δ} {action : Action}
    (valid : CursorValid dac) (atStart : action = .closeDev → dac.currentIndex = 0)
    (stepped : dac.step action = .ok next) : CursorValid next := by
  cases action with
  | openDev doc sampleSize mask cyclic =>
      rcases step_openDev.mp stepped with ⟨loaded, returned, rfl⟩
      rw [eq_of_loadCalibValues returned]
      exact valid
  | closeDev =>
      rw [step_closeDev] at stepped
      subst stepped
      exact .inr ⟨rfl, atStart rfl⟩
  | writeDev buf offset bytesCount =>
      rcases step_writeDev.mp stepped with ⟨_, rfl⟩ | ⟨_, _, volts, _, _, rfl⟩
      · exact valid
      · have clearedValid : CursorValid dac.cleared := by
          rw [cleared]
          split
          · exact .inr ⟨rfl, rfl⟩
          · exact valid
        rcases clearedValid with inside | ⟨empty, start⟩
        · apply Or.inl
          rw [List.length_append]
          exact Nat.lt_of_lt_of_le inside (Nat.le_add_right _ _)
        · cases volts with
          | nil => exact .inr ⟨by simp [empty], start⟩
          | cons volt volts => exact .inl (by simp [empty, start])
  | transferMemToDev doc bytesCount =>
      rcases step_transferMemToDev.mp stepped with
        ⟨loaded, samples, returned, interpolated, rfl⟩
      have cursor := congrArg M2kDAC.currentIndex (eq_of_loadCalibValues returned)
      have longer := length_le_of_analogicalInterpolation interpolated
      rcases valid with inside | ⟨empty, start⟩
      · exact .inl (Nat.lt_of_lt_of_le (by rw [cursor]; exact inside) longer)
      · refine .inr ⟨?_, cursor.trans start⟩
        rw [empty] at interpolated
        by_cases single : loaded.ratio < 2
        · rw [analogicalInterpolation, if_pos single] at interpolated
          exact (Except.ok.inj interpolated).symm
        · rw [analogicalInterpolation_nil (by omega) loaded.ratio_lt] at interpolated
          cases interpolated
  | cancelBuffer =>
      rw [step_cancelBuffer] at stepped
      subst stepped
      exact .inr ⟨rfl, rfl⟩
  | transferSamplesToRXDevice samplesCount =>
      rcases step_transferSamplesToRXDevice.mp stepped with ⟨delivered, returned⟩
      exact valid.transfer returned

/-- Over whole runs from construction, every state reads in range exactly when
the device is only ever closed with the cursor at the start. -/
theorem reads_in_range_iff_closed_at_start (deviceId : String) (cyclic enable : Bool)
    (samplerate : δ) (oversamplingRatio : Nat) (actions : List Action) :
    (∀ dac, Reached step (construct deviceId cyclic enable samplerate oversamplingRatio)
        actions dac → ReadsInRange dac) ↔
      ∀ dac, Taken step (construct deviceId cyclic enable samplerate oversamplingRatio)
        actions dac .closeDev → dac.currentIndex = 0 := by
  constructor
  · intro inRange dac taken
    have emptied : CursorValid { dac with samples := [] } := by
      rw [← readsInRange_iff_cursorValid]
      exact inRange _ (taken.next_reached step (step_closeDev.mpr rfl))
    rcases emptied with inside | ⟨_, start⟩
    · simp at inside
    · exact start
  · intro atStart dac reached
    rw [readsInRange_iff_cursorValid]
    apply reached_invariant step CursorValid (.inr ⟨rfl, rfl⟩) _ dac reached
    intro state action next taken stepped valid
    exact valid.step (fun closed => atStart state (closed ▸ taken)) stepped

end Runs

open scoped Reference in
/-- Three of four samples are read and the device is closed: the next reader,
who asks for two, starts past the two fresh samples. -/
theorem read_after_close_out_of_range :
    ¬ ∀ (actions : List Action) (dac : M2kDAC Rat),
      Reached step (construct "iio:device6" false false 0 0) actions dac →
        ReadsInRange dac := by
  intro inRange
  have closed : (run step (construct "iio:device6" false false (0 : Rat) 0)
      [.openDev (some Adalm2000Document.adalm2000Xml) 2 1 false,
       .writeDev (bytesOfWords [0, 16, 32, 48]) 0 8,
       .transferSamplesToRXDevice 3,
       .closeDev]).map (fun dac => (dac.currentIndex, dac.samples)) = .ok (3, []) := by
    decide +kernel
  rcases Outcome.map_eq_ok.mp closed with ⟨dac, returned, fields⟩
  have cursor : dac.currentIndex = 3 := congrArg Prod.fst fields
  have emptied : dac.samples = [] := congrArg Prod.snd fields
  have outside := (inRange _ dac ⟨_, List.prefix_rfl, returned⟩ 2 _ (.start _)
    (by simp [transferLoop])).1
  simp [cursor, emptied, storedForRead] at outside

end IioEmu.M2kDAC
