import IioEmu.Adalm2000.Document
import IioEmu.Devices.Frames
import IioEmu.Devices.M2kDAC.M2kDAC

/-! # Frame isolation of the analog transmitter

The flag that makes a write start over is set by the constructor and by every
transfer, and only the writes of a frame clear it: each frame starts over. The
rates are read from one document throughout. -/

namespace IioEmu.M2kDAC

open Execution

section Runs

variable {δ : Type} [Double δ] [LibXml2] [TinyIIOD] {doc : Option XmlDoc}

def chunkAction (chunk : Chunk) : Action :=
  .writeDev chunk.buf chunk.offset chunk.bytesCount

def frameActions (doc : Option XmlDoc) (frame : Frame) : List Action :=
  frame.chunks.map chunkAction ++ [.transferMemToDev doc frame.bytesCount]

inductive Segment
  | openDev (sampleSize mask : Nat) (cyclic : Bool)
  | closeDev
  | cancelBuffer
  | transferSamplesToRXDevice (samplesCount : Nat)
  | frame (sent : Frame)

def Segment.actions (doc : Option XmlDoc) : Segment → List Action
  | .openDev sampleSize mask cyclic => [.openDev doc sampleSize mask cyclic]
  | .closeDev => [.closeDev]
  | .cancelBuffer => [.cancelBuffer]
  | .transferSamplesToRXDevice samplesCount => [.transferSamplesToRXDevice samplesCount]
  | .frame sent => frameActions doc sent

def segmentStep (doc : Option XmlDoc) (dac : M2kDAC δ) (segment : Segment) :
    Outcome (M2kDAC δ) :=
  run step dac (segment.actions doc)

def openedAfter (opened : Option Nat) : Segment → Option Nat
  | .openDev _ mask _ => some mask
  | _ => opened

def openedMask (segments : List Segment) : Option Nat :=
  segments.foldl openedAfter none

/-! ## Rates -/

theorem loadCalibValues_of_deviceId {dac other loaded : M2kDAC δ}
    (returned : dac.loadCalibValues doc = .ok loaded)
    (same : other.deviceId = dac.deviceId) :
    other.loadCalibValues doc = .ok { other with
      samplerate := loaded.samplerate, oversamplingRatio :=
        loaded.oversamplingRatio } := by
  simp only [loadCalibValues, same, Outcome.bind_eq_ok, Outcome.pure_eq_ok,
    Except.ok.injEq] at returned ⊢
  rcases returned with ⟨first, firstRead, text, textRead, second, secondRead, value,
    valueRead, rfl⟩
  exact ⟨first, firstRead, text, textRead, second, secondRead, value, valueRead, rfl⟩

theorem rates_eq_of_deviceId {dac other loaded rated : M2kDAC δ}
    (returned : dac.loadCalibValues doc = .ok loaded)
    (fixed : other.loadCalibValues doc = .ok rated)
    (same : dac.deviceId = other.deviceId) :
    loaded.samplerate = rated.samplerate ∧
      loaded.oversamplingRatio = rated.oversamplingRatio := by
  have again := loadCalibValues_of_deviceId fixed same
  rw [returned, Except.ok.injEq] at again
  constructor
  · rw [again]
  · rw [again]

/-- Loading the rates again would change nothing. -/
def Rated (doc : Option XmlDoc) (dac : M2kDAC δ) : Prop :=
  dac.loadCalibValues doc = .ok dac

theorem rated_of_loaded {dac loaded next : M2kDAC δ}
    (returned : dac.loadCalibValues doc = .ok loaded)
    (named : next.deviceId = dac.deviceId) (rate : next.samplerate = loaded.samplerate)
    (oversampling : next.oversamplingRatio = loaded.oversamplingRatio) :
    Rated doc next := by
  have again := loadCalibValues_of_deviceId returned named
  rw [← rate, ← oversampling] at again
  exact again

/-! ## One frame -/

theorem run_chunkActions_keeps {dac next : M2kDAC δ} {chunks : List Chunk}
    (ran : run step dac (chunks.map chunkAction) = .ok next) :
    next = { dac with
      samples := next.samples
      currentIndex := next.currentIndex
      resetBuffer := next.resetBuffer } := by
  induction chunks generalizing dac with
  | nil =>
      cases ran
      rfl
  | cons chunk chunks induction =>
      rw [List.map_cons, run_cons_eq_ok_iff] at ran
      rcases ran with ⟨middle, stepped, rest⟩
      rcases step_writeDev.mp stepped with ⟨_, rfl⟩ | ⟨_, _, volts, _, _, rfl⟩
      · exact induction rest
      · rw [induction rest, cleared]
        split <;> rfl

theorem step_chunkAction {dac next : M2kDAC δ} {chunk : Chunk}
    (enabled : dac.enable = true) (stepped : dac.step (chunkAction chunk) = .ok next) :
    ∃ volts, chunk.words.mapM dac.convertRawToVolts = .ok volts ∧
      next = { dac.cleared with samples := dac.cleared.samples ++ volts } := by
  rcases step_writeDev.mp stepped with ⟨disabled, _⟩ | ⟨_, words, volts,
    read, converted, rfl⟩
  · simp [enabled] at disabled
  · rw [chunk.loadWords] at read
    cases read
    refine ⟨volts, ?_, rfl⟩
    rw [← converted, cleared]
    split <;> rfl

theorem run_chunkActions {dac next : M2kDAC δ} {chunks : List Chunk}
    (ran : run step dac (chunks.map chunkAction) = .ok next)
    (enabled : dac.enable = true) (appending : dac.resetBuffer = false) :
    ∃ volts, (chunks.flatMap Chunk.words).mapM dac.convertRawToVolts = .ok volts ∧
      next = { dac with samples := dac.samples ++ volts } := by
  induction chunks generalizing dac with
  | nil =>
      cases ran
      exact ⟨[], rfl, by simp⟩
  | cons chunk chunks induction =>
      rw [List.map_cons, run_cons_eq_ok_iff] at ran
      rcases ran with ⟨middle, stepped, rest⟩
      rcases step_chunkAction enabled stepped with ⟨volts, converted, rfl⟩
      have appended : dac.cleared = dac := by simp [cleared, appending]
      rw [appended] at rest
      rcases induction rest enabled appending with ⟨later, laterConverted, rfl⟩
      refine ⟨volts ++ later, ?_, by simp⟩
      rw [List.flatMap_cons, List.mapM_append, converted]
      change (chunks.flatMap Chunk.words).mapM dac.convertRawToVolts = .ok later
        at laterConverted
      rw [laterConverted]
      rfl

theorem run_frame_chunks {dac next : M2kDAC δ} {frame : Frame}
    (ran : run step dac (frame.chunks.map chunkAction) = .ok next)
    (enabled : dac.enable = true) (pending : dac.resetBuffer = true) :
    ∃ volts, frame.words.mapM dac.convertRawToVolts = .ok volts ∧
      next = { dac with samples := volts, currentIndex := 0, resetBuffer := false } := by
  rw [Frame.chunks, List.map_cons, run_cons_eq_ok_iff] at ran
  rcases ran with ⟨middle, stepped, rest⟩
  rcases step_chunkAction enabled stepped with ⟨volts, converted, rfl⟩
  have emptied : dac.cleared =
      { dac with samples := [], currentIndex := 0, resetBuffer := false } := by
    simp [cleared, pending]
  rw [emptied] at rest
  rcases run_chunkActions rest enabled rfl with ⟨later, laterConverted, rfl⟩
  refine ⟨volts ++ later, ?_, by simp⟩
  rw [Frame.words, Frame.chunks, List.flatMap_cons, List.mapM_append, converted]
  change (frame.more.flatMap Chunk.words).mapM dac.convertRawToVolts = .ok later
    at laterConverted
  rw [laterConverted]
  rfl

theorem segmentStep_frame {dac next : M2kDAC δ} {frame : Frame}
    (completed : dac.segmentStep doc (.frame frame) = .ok next) :
    ∃ written loaded, run step dac (frame.chunks.map chunkAction) = .ok written ∧
      written.loadCalibValues doc = .ok loaded ∧
      analogicalInterpolation written.samples loaded.ratio = .ok next.samples ∧
      next = { loaded with samples := next.samples, resetBuffer := true } := by
  rw [segmentStep, Segment.actions, frameActions, run_append_eq_ok_iff] at completed
  rcases completed with ⟨written, ran, transferred⟩
  rw [run_singleton] at transferred
  rcases step_transferMemToDev.mp transferred with ⟨loaded, samples,
    returned, upsampled, rfl⟩
  exact ⟨written, loaded, ran, returned, upsampled, rfl⟩

/-! ## Whole runs -/

structure Between (doc : Option XmlDoc) (deviceId : String) (opened : Option Nat)
    (dac : M2kDAC δ) : Prop where
  named : dac.deviceId = deviceId
  pending : dac.resetBuffer = true
  enabled : ∀ mask, opened = some mask → dac.enable = (mask != 0)
  rated : opened ≠ none → Rated doc dac

theorem Between.enabled_of_opened {deviceId : String}
    {opened : Option Nat} {dac : M2kDAC δ} (between : Between doc deviceId opened dac)
    {mask : Nat} (equal : opened = some mask) (nonzero : mask ≠ 0) :
    dac.enable = true := by
  rw [between.enabled mask equal]
  simpa using nonzero

theorem Between.step {deviceId : String} {opened : Option Nat} {dac next : M2kDAC δ}
    {segment : Segment} (between : Between doc deviceId opened dac)
    (stepped : dac.segmentStep doc segment = .ok next) :
    Between doc deviceId (openedAfter opened segment) next := by
  cases segment with
  | openDev sampleSize mask cyclic =>
      rw [segmentStep, Segment.actions, run_singleton] at stepped
      rcases step_openDev.mp stepped with ⟨loaded, returned, rfl⟩
      have kept := eq_of_loadCalibValues returned
      have named : loaded.deviceId = dac.deviceId := by rw [kept]
      have pending : loaded.resetBuffer = dac.resetBuffer := by rw [kept]
      refine ⟨named.trans between.named, pending.trans between.pending, ?_, ?_⟩
      · intro other equal
        cases equal
        rfl
      · intro _
        exact rated_of_loaded returned named rfl rfl
  | closeDev =>
      rw [segmentStep, Segment.actions, run_singleton] at stepped
      rw [step_closeDev.mp stepped]
      refine ⟨between.named, between.pending, between.enabled, ?_⟩
      intro opened
      exact rated_of_loaded (between.rated opened) rfl rfl rfl
  | cancelBuffer =>
      rw [segmentStep, Segment.actions, run_singleton] at stepped
      rw [step_cancelBuffer.mp stepped]
      refine ⟨between.named, between.pending, between.enabled, ?_⟩
      intro opened
      exact rated_of_loaded (between.rated opened) rfl rfl rfl
  | transferSamplesToRXDevice samplesCount =>
      rw [segmentStep, Segment.actions, run_singleton] at stepped
      rcases step_transferSamplesToRXDevice.mp stepped with ⟨delivered, read⟩
      rw [transferSamplesToRXDevice, Outcome.bind_eq_ok] at read
      rcases read with ⟨_, _, equal⟩
      cases equal
      refine ⟨between.named, between.pending, between.enabled, ?_⟩
      intro opened
      exact rated_of_loaded (between.rated opened) rfl rfl rfl
  | frame sent =>
      rcases segmentStep_frame stepped with ⟨written, loaded, ran, returned, _, ended⟩
      have writes := run_chunkActions_keeps ran
      have loads := eq_of_loadCalibValues returned
      have named : loaded.deviceId = written.deviceId := by rw [loads]
      have writtenNamed : written.deviceId = dac.deviceId := by rw [writes]
      have enabled : loaded.enable = written.enable := by rw [loads]
      have writtenEnabled : written.enable = dac.enable := by rw [writes]
      rw [ended]
      refine ⟨named.trans (writtenNamed.trans between.named), rfl, ?_, ?_⟩
      · intro mask equal
        exact (enabled.trans writtenEnabled).trans (between.enabled mask equal)
      · intro _
        exact rated_of_loaded returned named rfl rfl

theorem between_of_run {deviceId : String} {cyclic enable : Bool} {samplerate : δ}
    {oversamplingRatio : Nat} {prior : List Segment} {dac : M2kDAC δ}
    (ran : run (segmentStep doc)
      (construct deviceId cyclic enable samplerate oversamplingRatio) prior = .ok dac) :
    Between doc deviceId (openedMask prior) dac := by
  induction prior using List.reverseRecOn generalizing dac with
  | nil =>
      cases ran
      exact ⟨rfl, rfl, by simp [openedMask], by simp [openedMask]⟩
  | append_singleton prior segment induction =>
      rw [run_append_eq_ok_iff] at ran
      rcases ran with ⟨middle, ranPrior, ranLast⟩
      rw [run_singleton] at ranLast
      have last : openedMask (prior ++ [segment]) =
          openedAfter (openedMask prior) segment := by
        rw [openedMask, List.foldl_append]
        rfl
      rw [last]
      exact (induction ranPrior).step ranLast

omit [LibXml2] [TinyIIOD] in
theorem convertRawToVolts_of_samplerate {dac other : M2kDAC δ}
    (same : dac.samplerate = other.samplerate) :
    dac.convertRawToVolts = other.convertRawToVolts := by
  funext raw
  simp only [convertRawToVolts, getFilterCompensation, same]

omit [LibXml2] [TinyIIOD] in
theorem ratio_of_rates {dac other : M2kDAC δ} (same : dac.samplerate = other.samplerate)
    (sameOversampling : dac.oversamplingRatio = other.oversamplingRatio) :
    dac.ratio = other.ratio := by
  rw [ratio, ratio, same, sameOversampling]

omit [LibXml2] [TinyIIOD] in
theorem mapM_convertRawToVolts {dac : M2kDAC δ} {compensation : δ}
    (supported : dac.getFilterCompensation = .ok compensation) (words : List Word) :
    ∃ volts, words.mapM dac.convertRawToVolts = .ok volts ∧
      volts.length = words.length := by
  induction words with
  | nil => exact ⟨[], rfl, rfl⟩
  | cons word words induction =>
      rcases induction with ⟨volts, converted, length⟩
      have first : dac.convertRawToVolts word =
          .ok (-((Double.ofInt (word.toInt >>> (4 : Nat)) + (0.5 : δ)) * compensation *
            calibVlsb)) := by
        rw [convertRawToVolts, supported]
        rfl
      rw [List.mapM_cons, first, converted]
      exact ⟨_, rfl, congrArg Nat.succ length⟩

theorem run_chunkActions_returns {dac : M2kDAC δ} {compensation : δ}
    (supported : dac.getFilterCompensation = .ok compensation) (chunks : List Chunk) :
    ∃ next, run step dac (chunks.map chunkAction) = .ok next := by
  induction chunks generalizing dac with
  | nil => exact ⟨dac, rfl⟩
  | cons chunk chunks induction =>
      have clearedSupported : dac.cleared.getFilterCompensation = .ok compensation := by
        rw [← supported, cleared]
        split <;> rfl
      rcases mapM_convertRawToVolts clearedSupported chunk.words with
        ⟨volts, converted, _⟩
      cases enabled : dac.enable with
      | false =>
          have stepped : dac.step (chunkAction chunk) = .ok dac :=
            step_writeDev.mpr (.inl ⟨enabled, rfl⟩)
          rw [List.map_cons, run_cons, stepped, Outcome.ok_bind]
          exact induction supported
      | true =>
          have stepped : dac.step (chunkAction chunk) =
              .ok { dac.cleared with samples := dac.cleared.samples ++ volts } :=
            step_writeDev.mpr (.inr ⟨enabled, _, volts, chunk.loadWords, converted, rfl⟩)
          rw [List.map_cons, run_cons, stepped, Outcome.ok_bind]
          exact induction clearedSupported

/-- At supported rates a frame with a word in it completes, as long as the loop
counter can index its words and a vector can hold the result. -/
theorem frame_completes {deviceId : String} {cyclic enable : Bool} {samplerate : δ}
    {oversamplingRatio : Nat} {rated : M2kDAC δ}
    (fixed : (construct deviceId cyclic enable samplerate oversamplingRatio).loadCalibValues
      doc = .ok rated)
    {compensation : δ} (supported : rated.getFilterCompensation = .ok compensation)
    {prior : List Segment} {dac : M2kDAC δ}
    (ran : run (segmentStep doc)
      (construct deviceId cyclic enable samplerate oversamplingRatio) prior = .ok dac)
    {mask : Nat} (opened : openedMask prior = some mask) (nonzero : mask ≠ 0)
    {frame : Frame} (holding : frame.words ≠ []) (indexed : frame.words.length ≤ 2 ^ 32)
    (fits : (frame.words.length - 1) * rated.ratio +
      frame.words.length ≤ (2 ^ 63 - 1) / 8) :
    ∃ next, dac.segmentStep doc (.frame frame) = .ok next := by
  have between := between_of_run ran
  have enabled := between.enabled_of_opened opened nonzero
  rw [opened] at between
  have rates := rates_eq_of_deviceId (between.rated (by simp)) fixed between.named
  have dacSupported : dac.getFilterCompensation = .ok compensation := by
    rw [← supported, getFilterCompensation, getFilterCompensation, rates.1]
  rcases run_chunkActions_returns dacSupported frame.chunks with ⟨written, writes⟩
  rcases run_frame_chunks writes enabled between.pending with ⟨volts, converted, stored⟩
  rcases mapM_convertRawToVolts dacSupported frame.words with
    ⟨same, sameConverted, length⟩
  rw [converted] at sameConverted
  cases sameConverted
  have nonempty : volts ≠ [] := by
    rw [← List.length_pos_iff, length]
    exact List.length_pos_iff.mpr holding
  have ⟨samples, upsampled⟩ : ∃ samples,
      analogicalInterpolation volts rated.ratio = .ok samples :=
    analogicalInterpolation_returns nonempty (by omega) (by rw [length]; exact fits)
  have named : written.deviceId = deviceId := by
    rw [stored]
    exact between.named
  have loaded := loadCalibValues_of_deviceId fixed named
  have held : written.samples = volts := by rw [stored]
  rw [← held] at upsampled
  rw [segmentStep, Segment.actions, frameActions, run_append, writes, Outcome.ok_bind,
    run_singleton]
  exact ⟨_, step_transferMemToDev.mpr ⟨_, samples, loaded, upsampled, rfl⟩⟩

theorem isolated_of_completed {deviceId : String} {cyclic enable : Bool} {samplerate : δ}
    {oversamplingRatio : Nat} {rated : M2kDAC δ}
    (fixed : (construct deviceId cyclic enable samplerate oversamplingRatio).loadCalibValues
      doc = .ok rated)
    {prior : List Segment} {dac : M2kDAC δ}
    (ran : run (segmentStep doc)
      (construct deviceId cyclic enable samplerate oversamplingRatio) prior = .ok dac)
    {mask : Nat} (opened : openedMask prior = some mask) (nonzero : mask ≠ 0)
    {frame : Frame} {next : M2kDAC δ}
    (completed : dac.segmentStep doc (.frame frame) = .ok next) :
    next.currentIndex = 0 ∧ ∃ volts,
    frame.words.mapM rated.convertRawToVolts = .ok volts ∧
      analogicalInterpolation volts rated.ratio = .ok next.samples := by
  have between := between_of_run ran
  have enabled := between.enabled_of_opened opened nonzero
  rw [opened] at between
  have rates := rates_eq_of_deviceId (between.rated (by simp)) fixed between.named
  rcases segmentStep_frame completed with ⟨written, loaded, writes,
    returned, upsampled, ended⟩
  rcases run_frame_chunks writes enabled between.pending with ⟨volts, converted, rfl⟩
  have loadedRates := rates_eq_of_deviceId returned fixed between.named
  constructor
  · rw [ended, eq_of_loadCalibValues returned]
  · refine ⟨volts, ?_, ?_⟩
    · rw [← convertRawToVolts_of_samplerate rates.1]
      exact converted
    · rw [← ratio_of_rates loadedRates.1 loadedRates.2]
      exact upsampled

/-- In every run from construction with one document, a frame that follows an
opening with a non-zero mask is isolated once it completes, and at a supported
rate it completes whenever it holds a word and the vectors can hold the result. -/
theorem frame_isolated {deviceId : String} {cyclic enable : Bool} {samplerate : δ}
    {oversamplingRatio : Nat} {rated : M2kDAC δ}
    (fixed : (construct deviceId cyclic enable samplerate oversamplingRatio).loadCalibValues
      doc = .ok rated)
    {prior : List Segment} {dac : M2kDAC δ}
    (ran : run (segmentStep doc)
      (construct deviceId cyclic enable samplerate oversamplingRatio) prior = .ok dac)
    {mask : Nat} (opened : openedMask prior = some mask) (nonzero : mask ≠ 0)
    (frame : Frame) :
    (∀ next, dac.segmentStep doc (.frame frame) = .ok next →
      next.currentIndex = 0 ∧
        ∃ volts, frame.words.mapM rated.convertRawToVolts = .ok volts ∧
          analogicalInterpolation volts rated.ratio = .ok next.samples) ∧
    (∀ compensation, rated.getFilterCompensation = .ok compensation → frame.words ≠ [] →
      frame.words.length ≤ 2 ^ 32 →
      (frame.words.length - 1) * rated.ratio + frame.words.length ≤ (2 ^ 63 - 1) / 8 →
      ∃ next, dac.segmentStep doc (.frame frame) = .ok next) := by
  constructor
  · intro next completed
    exact isolated_of_completed fixed ran opened nonzero completed
  · intro compensation supported holding indexed fits
    exact frame_completes fixed supported ran opened nonzero holding indexed fits

end Runs

open scoped Reference in
theorem frame_of_two_writes_isolated :
    ∃ next : M2kDAC Rat,
      segmentStep (some Adalm2000Document.adalm2000Xml)
          { construct "iio:device6" false true 75000000 1 with cyclic := true }
          (.frame ⟨⟨0, [0, 16]⟩, [⟨4, [32]⟩], 6⟩) = .ok next ∧
        next.currentIndex = 0 ∧
        ∃ volts, [0, 16, 32].mapM
            (construct "iio:device6" false false (75000000 : Rat) 1).convertRawToVolts =
              .ok volts ∧
          analogicalInterpolation volts 1 = .ok next.samples := by
  have opened : run (segmentStep (some Adalm2000Document.adalm2000Xml))
      (construct "iio:device6" false false (0 : Rat) 0) [.openDev 2 1 true] =
        .ok { construct "iio:device6" false true 75000000 1 with cyclic := true } := by
    decide +kernel
  have fixed : (construct "iio:device6" false false (0 : Rat) 0).loadCalibValues
      (some Adalm2000Document.adalm2000Xml) =
        .ok (construct "iio:device6" false false 75000000 1) := by
    decide +kernel
  have single : (construct "iio:device6" false false (75000000 : Rat) 1).ratio = 1 := by
    decide +kernel
  have supported : (construct "iio:device6" false false (75000000 : Rat)
      1).getFilterCompensation = .ok 1 := by
    decide +kernel
  have isolated := frame_isolated fixed opened rfl (by decide)
    ⟨⟨0, [0, 16]⟩, [⟨4, [32]⟩], 6⟩
  rw [single] at isolated
  rcases isolated.2 1 supported (by decide) (by decide) (by decide) with ⟨next, completed⟩
  exact ⟨next, completed, isolated.1 next completed⟩

end IioEmu.M2kDAC
