import IioEmu.Foundation.Execution
import IioEmu.Utils.AttrOpsXml
import IioEmu.Utils.Utility

/-! # The analog transmitter

A DAC stores voltages. A write is scaled for the sampling rate loaded last, a
transfer upsamples what is stored, and the receiver reads it in blocks. -/

namespace IioEmu

structure M2kDAC (δ : Type) where
  deviceId : String
  cyclic : Bool
  enable : Bool
  currentIndex : Nat
  samplerate : δ
  oversamplingRatio : Nat
  samples : List δ
  resetBuffer : Bool
  deriving DecidableEq

namespace M2kDAC

variable {δ : Type}

/-! ## The reader's loop -/

structure TransferState (δ : Type) where
  buffer : List δ
  samplesCount : Nat
  currentIndex : Nat

def TransferState.remainingSamples (samples : List δ) (state : TransferState δ) : Nat :=
  min (sub64 samples.length state.currentIndex) state.samplesCount

def transferLoop (samples : List δ) : Loop (TransferState δ) where
  guard state := 0 < state.samplesCount
  body state := do
    let remaining := state.remainingSamples samples
    let copied ← memcpy samples state.currentIndex remaining
    if wrap32 samples.length = 0 then .error .divisionByZero
    else return {
      buffer := state.buffer ++ copied
      samplesCount := state.samplesCount - remaining
      currentIndex :=
        wrap32 (state.currentIndex + wrap32 remaining) % wrap32 samples.length }

variable [Double δ]

/-- A read of an empty vector first fills it with as many zeros as it wants. -/
def storedForRead (dac : M2kDAC δ) (samplesCount : Nat) : List δ :=
  if dac.samples.isEmpty then List.replicate samplesCount (0.0 : δ) else dac.samples

def transferSamplesToRXDevice (dac : M2kDAC δ) (samplesCount : Nat) :
    Outcome (List δ × M2kDAC δ) := do
  let stored := dac.storedForRead samplesCount
  let final ← (transferLoop stored).outcome (samplesCount + 1)
    ⟨[], samplesCount, dac.currentIndex⟩
  return (final.buffer,
    { dac with samples := stored, currentIndex := final.currentIndex })

/-! ## Operations -/

/-- The constructor leaves the fields given here unset. -/
def construct (deviceId : String) (cyclic enable : Bool) (samplerate : δ)
    (oversamplingRatio : Nat) : M2kDAC δ where
  deviceId := deviceId
  cyclic := cyclic
  enable := enable
  currentIndex := 0
  samplerate := samplerate
  oversamplingRatio := oversamplingRatio
  samples := []
  resetBuffer := true

def calibVlsb : δ := (10.0 : δ) / Double.ofInt ((1 <<< 12) - 1)

def filterCompensationTable : List (δ × δ) :=
  [(75e6, 1.00), (75e5, 1.525879), (75e4, 1.164153),
    (75e3, 1.776357), (75e2, 1.355253), (75e1, 1.033976)]

def getFilterCompensation (dac : M2kDAC δ) : Outcome δ :=
  match filterCompensationTable.lookup dac.samplerate with
  | some compensation => .ok compensation
  | none => .error .outOfRange

def convertRawToVolts (dac : M2kDAC δ) (raw : Word) : Outcome δ := do
  let filterCompensation ← dac.getFilterCompensation
  return -((Double.ofInt (raw.toInt >>> (4 : Nat)) + (0.5 : δ)) *
    filterCompensation * calibVlsb)

def ratio (dac : M2kDAC δ) : Nat :=
  Double.toUnsigned ((75e6 : δ) / (dac.samplerate / Double.ofInt dac.oversamplingRatio))

theorem ratio_lt (dac : M2kDAC δ) : dac.ratio < 2 ^ 32 := Double.toUnsigned_lt _

variable [LibXml2] [TinyIIOD]

/-- Both attributes are read into one buffer. -/
def loadCalibValues (dac : M2kDAC δ) (doc : Option XmlDoc) : Outcome (M2kDAC δ) := do
  let (_, tmpAttr) ← readDeviceAttr doc dac.deviceId "sampling_frequency"
    (uninitialised TinyIIOD.IIOD_BUFFER_SIZE) TinyIIOD.IIOD_BUFFER_SIZE .device
  let samplingFrequency ← cString tmpAttr
  let (_, tmpAttr) ← readDeviceAttr doc dac.deviceId "oversampling_ratio" tmpAttr
    TinyIIOD.IIOD_BUFFER_SIZE .device
  let oversamplingRatio ← cString tmpAttr >>= stoi
  return { dac with
    samplerate := safeStod samplingFrequency
    oversamplingRatio := unsignedOfInt oversamplingRatio }

def openDev (dac : M2kDAC δ) (doc : Option XmlDoc) (_sampleSize mask : Nat)
    (cyclic : Bool) : Outcome (Int × M2kDAC δ) := do
  let loaded ← dac.loadCalibValues doc
  return (0, { loaded with cyclic := cyclic, enable := mask != 0 })

def closeDev (dac : M2kDAC δ) : Outcome (Int × M2kDAC δ) :=
  .ok (0, { dac with samples := [] })

/-- A write that follows a transfer starts over. -/
def cleared (dac : M2kDAC δ) : M2kDAC δ :=
  if dac.resetBuffer then
    { dac with samples := [], currentIndex := 0, resetBuffer := false }
  else dac

def writeDev (dac : M2kDAC δ) (buf : List Byte) (_offset bytesCount : Nat) :
    Outcome (Int × M2kDAC δ) :=
  if !dac.enable then .ok (0, dac)
  else do
    let words ← loadWords buf (bytesCount / 2)
    let volts ← words.mapM dac.cleared.convertRawToVolts
    return ((bytesCount : Int),
      { dac.cleared with samples := dac.cleared.samples ++ volts })

def resample (dac : M2kDAC δ) (doc : Option XmlDoc) : Outcome (List δ × M2kDAC δ) := do
  let loaded ← dac.loadCalibValues doc
  if loaded.ratio < 2 then
    return (loaded.samples, loaded)
  else
    let samples ← analogicalInterpolation loaded.samples loaded.ratio
    return (samples, loaded)

def transferMemToDev (dac : M2kDAC δ) (doc : Option XmlDoc) (_bytesCount : Nat) :
    Outcome (Int × M2kDAC δ) := do
  let (samples, loaded) ← dac.resample doc
  return (0, { loaded with samples := samples, resetBuffer := true })

def cancelBuffer (dac : M2kDAC δ) : Outcome (Int × M2kDAC δ) :=
  .ok (0, { dac with samples := [], currentIndex := 0 })

inductive Action
  | openDev (doc : Option XmlDoc) (sampleSize mask : Nat) (cyclic : Bool)
  | closeDev
  | writeDev (buf : List Byte) (offset bytesCount : Nat)
  | transferMemToDev (doc : Option XmlDoc) (bytesCount : Nat)
  | cancelBuffer
  | transferSamplesToRXDevice (samplesCount : Nat)

def step (dac : M2kDAC δ) : Action → Outcome (M2kDAC δ)
  | .openDev doc sampleSize mask cyclic => Prod.snd <$> dac.openDev doc sampleSize mask cyclic
  | .closeDev => Prod.snd <$> dac.closeDev
  | .writeDev buf offset bytesCount => Prod.snd <$> dac.writeDev buf offset bytesCount
  | .transferMemToDev doc bytesCount => Prod.snd <$> dac.transferMemToDev doc bytesCount
  | .cancelBuffer => Prod.snd <$> dac.cancelBuffer
  | .transferSamplesToRXDevice samplesCount =>
      Prod.snd <$> dac.transferSamplesToRXDevice samplesCount

/-! ## What each operation does -/

section Operations

variable {dac next : M2kDAC δ}

theorem step_closeDev : dac.step .closeDev = .ok next ↔
    next = { dac with samples := [] } := by
  simp [step, closeDev, eq_comm]

theorem step_cancelBuffer :
    dac.step .cancelBuffer = .ok next ↔
      next = { dac with samples := [], currentIndex := 0 } := by
  simp [step, cancelBuffer, eq_comm]

theorem eq_of_loadCalibValues {doc : Option XmlDoc} {loaded : M2kDAC δ}
    (returned : dac.loadCalibValues doc = .ok loaded) :
    loaded = { dac with
      samplerate := loaded.samplerate, oversamplingRatio :=
        loaded.oversamplingRatio } := by
  simp only [loadCalibValues, Outcome.bind_eq_ok, Outcome.pure_eq_ok,
    Except.ok.injEq] at returned
  rcases returned with ⟨_, _, _, _, _, _, _, _, rfl⟩
  rfl

theorem step_openDev {doc : Option XmlDoc} {sampleSize mask : Nat} {cyclic : Bool} :
    dac.step (.openDev doc sampleSize mask cyclic) = .ok next ↔
      ∃ loaded, dac.loadCalibValues doc = .ok loaded ∧
        next = { loaded with cyclic := cyclic, enable := mask != 0 } := by
  cases returned : dac.loadCalibValues doc with
  | error fault => simp [step, openDev, returned]
  | ok loaded => simp [step, openDev, returned, eq_comm]

theorem step_writeDev {buf : List Byte} {offset bytesCount : Nat} :
    dac.step (.writeDev buf offset bytesCount) = .ok next ↔
      (dac.enable = false ∧ next = dac) ∨
      (dac.enable = true ∧ ∃ words volts, loadWords buf (bytesCount / 2) = .ok words ∧
        words.mapM dac.cleared.convertRawToVolts = .ok volts ∧
        next = { dac.cleared with samples := dac.cleared.samples ++ volts }) := by
  cases enabled : dac.enable with
  | false =>
      have ignored : dac.step (.writeDev buf offset bytesCount) = .ok dac := by
        simp [step, writeDev, enabled]
      rw [ignored]
      simp [eq_comm]
  | true =>
      cases read : loadWords buf (bytesCount / 2) with
      | error fault => simp [step, writeDev, enabled, read]
      | ok words =>
          cases converted : words.mapM dac.cleared.convertRawToVolts with
          | error fault => simp [step, writeDev, enabled, read, converted]
          | ok volts => simp [step, writeDev, enabled, read, converted, eq_comm]

theorem resample_eq (doc : Option XmlDoc) :
    dac.resample doc = dac.loadCalibValues doc >>= fun loaded =>
      analogicalInterpolation loaded.samples loaded.ratio >>= fun samples =>
        .ok (samples, loaded) := by
  rw [resample]
  congr 1
  funext loaded
  split
  · rename_i single
    rw [analogicalInterpolation, if_pos single]
    rfl
  · rfl

theorem resample_eq_ok_iff {doc : Option XmlDoc} {samples : List δ}
    {loaded : M2kDAC δ} :
    dac.resample doc = .ok (samples, loaded) ↔
      dac.loadCalibValues doc = .ok loaded ∧
        analogicalInterpolation dac.samples loaded.ratio = .ok samples := by
  simp only [resample_eq, Outcome.bind_eq_ok, Except.ok.injEq, Prod.mk.injEq]
  constructor
  · rintro ⟨rated, returned, _, interpolated, rfl, rfl⟩
    have kept := congrArg M2kDAC.samples (eq_of_loadCalibValues returned)
    exact ⟨returned, kept ▸ interpolated⟩
  · rintro ⟨returned, interpolated⟩
    have kept := congrArg M2kDAC.samples (eq_of_loadCalibValues returned)
    exact ⟨loaded, returned, samples, kept ▸ interpolated, rfl, rfl⟩

theorem step_transferMemToDev {doc : Option XmlDoc} {bytesCount : Nat} :
    dac.step (.transferMemToDev doc bytesCount) = .ok next ↔
      ∃ loaded samples, dac.loadCalibValues doc = .ok loaded ∧
        analogicalInterpolation dac.samples loaded.ratio = .ok samples ∧
        next = { loaded with samples := samples, resetBuffer := true } := by
  simp only [step, transferMemToDev, Outcome.map_eq_ok, Outcome.bind_eq_ok,
    Outcome.pure_eq_ok, Except.ok.injEq]
  constructor
  · rintro ⟨_, ⟨⟨samples, loaded⟩, resampled, rfl⟩, rfl⟩
    rw [resample_eq_ok_iff] at resampled
    exact ⟨loaded, samples, resampled.1, resampled.2, rfl⟩
  · rintro ⟨loaded, samples, returned, interpolated, rfl⟩
    exact ⟨_, ⟨(samples, loaded), resample_eq_ok_iff.mpr ⟨returned, interpolated⟩, rfl⟩, rfl⟩

omit [LibXml2] [TinyIIOD] [Double δ] in
theorem transferLoop_body_eq {samples : List δ} (indexed : samples.length < 2 ^ 32)
    {state : TransferState δ} (inside : state.currentIndex < samples.length) :
    ∃ copied, copied = min (samples.length - state.currentIndex) state.samplesCount ∧
      (transferLoop samples).body state = .ok {
        buffer := state.buffer ++ cyclicWindow samples state.currentIndex copied
        samplesCount := state.samplesCount - copied
        currentIndex := (state.currentIndex + copied) % samples.length } := by
  have block : state.remainingSamples samples =
      min (samples.length - state.currentIndex) state.samplesCount := by
    rw [TransferState.remainingSamples, sub64_of_le (by omega)]
  generalize remains : state.remainingSamples samples = remaining at block
  have copied : memcpy samples state.currentIndex remaining =
      .ok (cyclicWindow samples state.currentIndex remaining) := by
    rw [memcpy_of_le (by omega), cyclicWindow_of_le (by omega)]
  have counter : wrap32 (state.currentIndex + wrap32 remaining) =
      state.currentIndex + remaining := by
    rw [wrap32_of_lt (show remaining < 2 ^ 32 by omega), wrap32_of_lt (by omega)]
  refine ⟨remaining, block, ?_⟩
  simp only [transferLoop, remains, copied, Outcome.ok_bind, wrap32_of_lt indexed,
    show ¬ samples.length = 0 by omega, if_false, counter, Outcome.pure_eq_ok]

omit [LibXml2] [TinyIIOD] [Double δ] in
/-- The passes of a read copy the blocks of one window. -/
theorem transferLoop_outcome {samples : List δ} (indexed : samples.length < 2 ^ 32)
    {start : Nat} (inside : start < samples.length) (samplesCount : Nat) :
    (transferLoop samples).outcome (samplesCount + 1) ⟨[], samplesCount, start⟩ =
      .ok ⟨cyclicWindow samples start samplesCount, 0,
        (start + samplesCount) % samples.length⟩ := by
  have looped := (transferLoop samples).run_total
    (fun state => state.samplesCount ≤ samplesCount ∧
      state.buffer = cyclicWindow samples start (samplesCount - state.samplesCount) ∧
      state.currentIndex = (start + (samplesCount - state.samplesCount)) % samples.length)
    TransferState.samplesCount
    (by
      intro state holds enters
      rcases holds with ⟨within, delivered, cursor⟩
      simp only [transferLoop, decide_eq_true_eq] at enters
      have bound : state.currentIndex < samples.length := by
        rw [cursor]
        exact Nat.mod_lt _ (by omega)
      rcases transferLoop_body_eq indexed bound with ⟨copied, block, passed⟩
      have further : samplesCount - (state.samplesCount - copied) =
          samplesCount - state.samplesCount + copied := by omega
      refine ⟨_, passed, ⟨?_, ?_, ?_⟩, ?_⟩
      · simp only
        omega
      · simp only [further, cyclicWindow_add, delivered, cursor, cyclicWindow_mod]
      · simp only [further, cursor, Nat.mod_add_mod, Nat.add_assoc]
      · simp only
        omega)
    ⟨[], samplesCount, start⟩ (by simp [Nat.mod_eq_of_lt inside])
      (samplesCount + 1) (by simp)
  rcases looped with ⟨final, ran, ⟨_, delivered, cursor⟩, done⟩
  have finished : final.samplesCount = 0 := by simpa [transferLoop] using done
  rw [Loop.outcome_of_run _ ran]
  rw [finished, Nat.sub_zero] at delivered cursor
  rw [← delivered, ← cursor, ← finished]

omit [LibXml2] [TinyIIOD] in
/-- With the cursor inside its vector the device plays the vector in a loop. -/
theorem transferSamplesToRXDevice_eq (indexed : dac.samples.length < 2 ^ 32)
    (inside : dac.currentIndex < dac.samples.length) (samplesCount : Nat) :
    dac.transferSamplesToRXDevice samplesCount =
      .ok (cyclicWindow dac.samples dac.currentIndex samplesCount, { dac with
        currentIndex := (dac.currentIndex + samplesCount) % dac.samples.length }) := by
  have filled : dac.samples.isEmpty = false := by
    rw [List.isEmpty_eq_false_iff_exists_mem]
    exact ⟨dac.samples[dac.currentIndex], List.getElem_mem inside⟩
  simp [transferSamplesToRXDevice, storedForRead, filled,
    transferLoop_outcome indexed inside]

theorem step_transferSamplesToRXDevice {samplesCount : Nat} :
    dac.step (.transferSamplesToRXDevice samplesCount) = .ok next ↔
      ∃ delivered, dac.transferSamplesToRXDevice samplesCount =
      .ok (delivered, next) := by
  simp [step, Outcome.map_eq_ok]

end Operations

end M2kDAC

end IioEmu
