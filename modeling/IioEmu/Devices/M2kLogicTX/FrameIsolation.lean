import IioEmu.Adalm2000.Document
import IioEmu.Devices.Frames
import IioEmu.Devices.M2kLogicTX.M2kLogicTX

/-! # Frame isolation of the logic transmitter

A frame starts over when the flag of the last transfer is set. The constructor
leaves the flag clear, so the first frame is stored behind whatever an earlier
reader put into the empty vector. -/

namespace IioEmu.M2kLogicTX

open Execution

section Runs

variable {δ : Type} [Double δ] [LibXml2] [TinyIIOD]

def chunkAction (chunk : Chunk) : Action :=
  .writeDev chunk.buf chunk.offset chunk.bytesCount

def frameActions (doc : Option XmlDoc) (frame : Frame) : List Action :=
  frame.chunks.map chunkAction ++ [.transferMemToDev doc frame.bytesCount]

inductive Segment
  | openDev (sampleSize mask : Nat) (cyclic : Bool)
  | closeDev
  | cancelBuffer
  | transferSamplesToRXDevice (samplesCount : Nat)
  | frame (doc : Option XmlDoc) (frame : Frame)

def Segment.isFrame : Segment → Bool
  | .frame _ _ => true
  | _ => false

def Segment.actions : Segment → List Action
  | .openDev sampleSize mask cyclic => [.openDev sampleSize mask cyclic]
  | .closeDev => [.closeDev]
  | .cancelBuffer => [.cancelBuffer]
  | .transferSamplesToRXDevice samplesCount => [.transferSamplesToRXDevice samplesCount]
  | .frame doc sent => frameActions doc sent

def segmentStep (tx : M2kLogicTX δ) (segment : Segment) : Outcome (M2kLogicTX δ) :=
  run step tx segment.actions

/-! ## One frame -/

def keptSamples (tx : M2kLogicTX δ) : List Word :=
  if tx.resetBuffer then [] else tx.samples

def keptIndex (tx : M2kLogicTX δ) : Nat := if tx.resetBuffer then 0 else tx.currentIndex

theorem step_chunkAction (tx : M2kLogicTX δ) (chunk : Chunk) :
    tx.step (chunkAction chunk) = .ok { tx with
      samples := tx.keptSamples ++ chunk.words
      currentIndex := tx.keptIndex
      resetBuffer := false } := by
  refine step_writeDev.mpr ⟨chunk.words, chunk.loadWords, ?_⟩
  cases tx with
  | mk deviceId samples currentIndex samplerate resetBuffer =>
      cases resetBuffer <;> simp [keptSamples, keptIndex]

theorem run_chunkActions (tx : M2kLogicTX δ) (appending : tx.resetBuffer = false)
    (chunks : List Chunk) :
    run step tx (chunks.map chunkAction) = .ok { tx with
      samples := tx.samples ++ chunks.flatMap Chunk.words } := by
  induction chunks generalizing tx with
  | nil => simp
  | cons chunk chunks induction =>
      rw [List.map_cons, run_cons, step_chunkAction, Outcome.ok_bind, induction _ rfl]
      simp [keptSamples, keptIndex, appending, List.append_assoc]

theorem run_frame_chunks (tx : M2kLogicTX δ) (frame : Frame) :
    run step tx (frame.chunks.map chunkAction) = .ok { tx with
      samples := tx.keptSamples ++ frame.words
      currentIndex := tx.keptIndex
      resetBuffer := false } := by
  rw [Frame.chunks, List.map_cons, run_cons, step_chunkAction, Outcome.ok_bind,
    run_chunkActions _ rfl]
  simp [Frame.words, Frame.chunks, List.append_assoc]

theorem loadValues_of_deviceId {tx other loaded : M2kLogicTX δ} {doc : Option XmlDoc}
    (returned : tx.loadValues doc = .ok loaded) (same : other.deviceId = tx.deviceId) :
    other.loadValues doc = .ok { other with samplerate := loaded.samplerate } := by
  simp only [loadValues, same, Outcome.bind_eq_ok, Outcome.pure_eq_ok,
    Except.ok.injEq] at returned ⊢
  rcases returned with ⟨read, readOk, text, textOk, rfl⟩
  exact ⟨read, readOk, text, textOk, rfl⟩

theorem segmentStep_frame {tx next : M2kLogicTX δ} {doc : Option XmlDoc} {frame : Frame}
    (completed : tx.segmentStep (.frame doc frame) = .ok next) :
    next.currentIndex = tx.keptIndex ∧ next.resetBuffer = true ∧
      ∃ loaded, tx.loadValues doc = .ok loaded ∧
        digitalInterpolation (tx.keptSamples ++ frame.words) loaded.ratio =
          .ok next.samples := by
  rw [segmentStep, Segment.actions, frameActions, run_append, run_frame_chunks,
    Outcome.ok_bind, run_singleton] at completed
  rcases step_transferMemToDev.mp completed with ⟨loaded, samples,
    returned, upsampled, rfl⟩
  exact ⟨rfl, rfl, _, loadValues_of_deviceId returned rfl, upsampled⟩

/-- After the frame the device holds the frame's words, upsampled at the rate
the transfer read, and nothing else. -/
def Isolated (tx next : M2kLogicTX δ) (doc : Option XmlDoc) (frame : Frame) : Prop :=
  next.currentIndex = 0 ∧ ∃ loaded, tx.loadValues doc = .ok loaded ∧
    digitalInterpolation frame.words loaded.ratio = .ok next.samples

def CleanStart (tx : M2kLogicTX δ) : Prop :=
  tx.resetBuffer = true ∨ (tx.samples = [] ∧ tx.currentIndex = 0)

omit [Double δ] [LibXml2] [TinyIIOD] in
theorem cleanStart_iff_kept (tx : M2kLogicTX δ) :
    CleanStart tx ↔ tx.keptSamples = [] ∧ tx.keptIndex = 0 := by
  cases flag : tx.resetBuffer <;> simp [CleanStart, keptSamples, keptIndex, flag]

omit [LibXml2] [TinyIIOD] in
theorem kept_eq_nil_of_upsampled {kept words samples : List Word} {ratio : Nat}
    (together : digitalInterpolation (kept ++ words) ratio = .ok samples)
    (alone : digitalInterpolation words ratio = .ok samples) : kept = [] := by
  have lengths := (length_digitalInterpolation together).symm.trans
    (length_digitalInterpolation alone)
  rw [← List.length_eq_zero_iff]
  rw [List.length_append] at lengths
  split at lengths
  · omega
  · have positive : 0 < ratio := by omega
    have equal := Nat.eq_of_mul_eq_mul_right positive lengths
    omega

theorem isolated_iff_cleanStart {tx next : M2kLogicTX δ} {doc : Option XmlDoc}
    {frame : Frame} (completed : tx.segmentStep (.frame doc frame) = .ok next) :
    Isolated tx next doc frame ↔ CleanStart tx := by
  rcases segmentStep_frame completed with ⟨index, _, loaded, returned, together⟩
  rw [cleanStart_iff_kept, Isolated, index]
  constructor
  · rintro ⟨start, other, otherReturned, alone⟩
    rw [returned] at otherReturned
    cases otherReturned
    exact ⟨kept_eq_nil_of_upsampled together alone, start⟩
  · rintro ⟨nothing, start⟩
    rw [nothing, List.nil_append] at together
    exact ⟨start, loaded, returned, together⟩

/-! ## Whole runs -/

theorem resetBuffer_of_segmentStep {tx next : M2kLogicTX δ} {segment : Segment}
    (stepped : tx.segmentStep segment = .ok next) :
    next.resetBuffer = (tx.resetBuffer || segment.isFrame) := by
  cases segment with
  | frame doc frame =>
      rw [(segmentStep_frame stepped).2.1, Segment.isFrame, Bool.or_true]
  | openDev sampleSize mask cyclic =>
      rw [segmentStep, Segment.actions, run_singleton] at stepped
      simp [step_openDev.mp stepped, Segment.isFrame]
  | closeDev =>
      rw [segmentStep, Segment.actions, run_singleton] at stepped
      simp [step_closeDev.mp stepped, Segment.isFrame]
  | cancelBuffer =>
      rw [segmentStep, Segment.actions, run_singleton] at stepped
      simp [step_cancelBuffer.mp stepped, Segment.isFrame]
  | transferSamplesToRXDevice samplesCount =>
      rw [segmentStep, Segment.actions, run_singleton] at stepped
      rcases step_transferSamplesToRXDevice.mp stepped with ⟨delivered, read⟩
      rw [transferSamplesToRXDevice, Outcome.bind_eq_ok] at read
      rcases read with ⟨_, _, equal⟩
      cases equal
      simp [Segment.isFrame]

/-- From construction on the flag tells whether a frame has completed. -/
theorem resetBuffer_of_run {deviceId : String} {samplerate : δ} {prior : List Segment}
    {tx : M2kLogicTX δ}
    (ran : run segmentStep (construct deviceId samplerate) prior = .ok tx) :
    tx.resetBuffer = prior.any Segment.isFrame := by
  induction prior using List.reverseRecOn generalizing tx with
  | nil =>
      cases ran
      rfl
  | append_singleton prior segment induction =>
      rw [run_append_eq_ok_iff] at ran
      rcases ran with ⟨middle, ranPrior, ranLast⟩
      rw [run_singleton] at ranLast
      rw [resetBuffer_of_segmentStep ranLast, induction ranPrior, List.any_append]
      simp

/-- Over whole runs from construction, every completed frame is isolated exactly
when the first one finds no samples and the cursor at the start. -/
theorem frames_isolated_iff_first_starts_clean (deviceId : String) (samplerate : δ)
    (segments : List Segment) :
    (∀ tx doc frame next,
        Taken segmentStep (construct deviceId samplerate) segments tx (.frame doc frame) →
        tx.segmentStep (.frame doc frame) = .ok next → Isolated tx next doc frame) ↔
      ∀ prior tx doc frame next, prior ++ [.frame doc frame] <+: segments →
        prior.any Segment.isFrame = false →
        run segmentStep (construct deviceId samplerate) prior = .ok tx →
        tx.segmentStep (.frame doc frame) = .ok next →
          tx.samples = [] ∧ tx.currentIndex = 0 := by
  constructor
  · intro isolated prior tx doc frame next inside first ran completed
    have clean := (isolated_iff_cleanStart completed).mp
      (isolated tx doc frame next ⟨prior, inside, ran⟩ completed)
    rw [CleanStart, resetBuffer_of_run ran, first] at clean
    simpa using clean
  · intro clean tx doc frame next taken completed
    rcases taken with ⟨prior, inside, ran⟩
    rw [isolated_iff_cleanStart completed, CleanStart, resetBuffer_of_run ran]
    cases first : prior.any Segment.isFrame with
    | true => exact .inl rfl
    | false => exact .inr (clean prior tx doc frame next inside first ran completed)

end Runs

open scoped Reference in
/-- A reader comes before the first frame: the zeros it was given stay in front
of the frame's words. -/
theorem frame_after_read_keeps_zeros :
    ¬ ∀ (segments : List Segment) (tx next : M2kLogicTX Rat) doc frame,
      Taken segmentStep (construct "iio:device9" 0) segments tx (.frame doc frame) →
      tx.segmentStep (.frame doc frame) = .ok next → Isolated tx next doc frame := by
  intro isolated
  let doc := some Adalm2000Document.adalm2000Xml
  let frame : Frame := ⟨⟨0, [1, 2]⟩, [], 4⟩
  let tx : M2kLogicTX Rat := { construct "iio:device9" 0 with samples := [0, 0, 0] }
  have stored : (tx.segmentStep (.frame doc frame)).map samples =
      .ok [0, 0, 0, 1, 2] := by decide +kernel
  rcases Outcome.map_eq_ok.mp stored with ⟨next, completed, kept⟩
  have taken : Taken segmentStep (construct "iio:device9" (0 : Rat))
      [.transferSamplesToRXDevice 3, .frame doc frame] tx (.frame doc frame) :=
    ⟨[.transferSamplesToRXDevice 3], List.prefix_rfl, rfl⟩
  have single : (tx.loadValues doc).map ratio = .ok 1 := by decide +kernel
  rcases Outcome.map_eq_ok.mp single with ⟨rated, ratedReturned, one⟩
  rcases (isolated _ tx next doc frame taken completed).2 with ⟨loaded, returned, alone⟩
  rw [ratedReturned] at returned
  cases returned
  rw [one, kept] at alone
  cases alone

end IioEmu.M2kLogicTX
