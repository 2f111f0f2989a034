import IioEmu.Devices.M2kDAC.M2kDAC

/-! # The analog receiver

A read loads the calibration, takes as many voltages from each of the two connected
transmitters as the ratio asks for, averages them in blocks and converts the averages to
raw words, the first channel before the second. -/

namespace IioEmu

structure M2kADC (δ : Type) where
  deviceId : String
  samplerate : δ
  oversamplingRatio : Nat
  range : List CharArray
  hwOffset : List δ
  deriving DecidableEq

namespace M2kADC

variable {δ : Type} [Double δ]

/-! ## Calibration -/

def filterCompensationTable : List (δ × δ) :=
  [(1e8, 1.00), (1e7, 1.05), (1e6, 1.10), (1e5, 1.15), (1e4, 1.20), (1e3, 1.26)]

def getCalibGain (adc : M2kADC δ) (channel : Nat) : Outcome δ := do
  let range ← vectorAt adc.range channel
  if ← arrayStartsWith range "high".toList then return 0.21229
  else if ← arrayStartsWith range "low".toList then return 0.02017
  else return Double.ofInt 0

/-- A rate that is not in the table has no compensation, and no exception either. -/
def getFilterCompensation (adc : M2kADC δ) : δ :=
  (filterCompensationTable.lookup adc.samplerate).getD 0.0

/-- The conversion to `int16_t` keeps the low bits of the integer. -/
def rawOfVolts (voltage hwGain filterCompensation offset : δ) : Word :=
  let correctionGain : δ := Double.ofInt 1
  BitVec.ofInt 16 (Double.toInt
    ((voltage - offset) / (correctionGain * filterCompensation) *
      (Double.ofInt 2048 * (1.3 : δ) * hwGain) / (0.78 : δ)))

def convertVoltToRaw (adc : M2kADC δ) (voltage : δ) (channel : Nat) : Outcome Word := do
  let hwGain ← adc.getCalibGain channel
  let hwOffset ← vectorAt adc.hwOffset channel
  return rawOfVolts voltage hwGain adc.getFilterCompensation (-hwOffset)

def convertRawToVoltsVerticalOffset (adc : M2kADC δ) (raw : Word) (channel : Nat) :
    Outcome δ := do
  let hwRangeGain ← adc.getCalibGain channel
  return Double.ofInt raw.toInt * (2.693 : δ) * (1.2 : δ) /
    (Double.ofInt (1 <<< 12) * hwRangeGain * (1.3 : δ))

variable [LibXml2] [TinyIIOD]

/-- The constructor leaves the two rates unset. -/
def construct (deviceId : String) (samplerate : δ)
    (oversamplingRatio : Nat) : M2kADC δ where
  deviceId := deviceId
  samplerate := samplerate
  oversamplingRatio := oversamplingRatio
  range := List.replicate 2 (List.replicate TinyIIOD.IIOD_BUFFER_SIZE (some nul))
  hwOffset := List.replicate 2 (0.0 : δ)

def loadRange (adc : M2kADC δ) (doc : Option XmlDoc) (channel : Nat) (name : String) :
    Outcome (M2kADC δ) := do
  let array ← vectorAt adc.range channel
  let (_, array) ← readChannelAttr doc "iio:device11" name false "gain" array
    TinyIIOD.IIOD_BUFFER_SIZE
  return { adc with range := adc.range.set channel array }

/-- The offset of a channel: the difference of two attributes, as an `int16_t`, in volts.
Both are read into the one buffer. -/
def loadOffset (adc : M2kADC δ) (doc : Option XmlDoc) (channel : Nat)
    (dacName adcName : String) (tmpAttr : CharArray) :
    Outcome (CharArray × M2kADC δ) := do
  let (_, tmpAttr) ← readChannelAttr doc "iio:device2" dacName true "raw" tmpAttr
    TinyIIOD.IIOD_BUFFER_SIZE
  let raw ← cString tmpAttr
  let (_, tmpAttr) ← readChannelAttr doc "iio:device0" adcName false "calibbias" tmpAttr
    TinyIIOD.IIOD_BUFFER_SIZE
  let calibbias ← cString tmpAttr
  let difference : δ := safeStod raw - safeStod calibbias
  let offset ← adc.convertRawToVoltsVerticalOffset
    (BitVec.ofInt 16 (Double.toInt difference)) channel
  let hwOffset ← assignAt adc.hwOffset channel offset
  return (tmpAttr, { adc with hwOffset := hwOffset })

/-- The two rates come from the device `iio:device0`, whatever this device is called. -/
def loadRates (adc : M2kADC δ) (doc : Option XmlDoc) (tmpAttr : CharArray) :
    Outcome (M2kADC δ) := do
  let (_, tmpAttr) ← readDeviceAttr doc "iio:device0" "sampling_frequency" tmpAttr
    TinyIIOD.IIOD_BUFFER_SIZE .device
  let samplingFrequency ← cString tmpAttr
  let (_, tmpAttr) ← readDeviceAttr doc "iio:device0" "oversampling_ratio" tmpAttr
    TinyIIOD.IIOD_BUFFER_SIZE .device
  let oversamplingRatio ← cString tmpAttr >>= stoi
  return { adc with
    samplerate := safeStod samplingFrequency
    oversamplingRatio := unsignedOfInt oversamplingRatio }

def loadCalibValues (adc : M2kADC δ) (doc : Option XmlDoc) : Outcome (M2kADC δ) := do
  let adc ← adc.loadRange doc 0 "voltage0"
  let adc ← adc.loadRange doc 1 "voltage1"
  let (tmpAttr, adc) ← adc.loadOffset doc 0 "voltage2" "voltage0"
    (uninitialised TinyIIOD.IIOD_BUFFER_SIZE)
  let (tmpAttr, adc) ← adc.loadOffset doc 1 "voltage3" "voltage1" tmpAttr
  adc.loadRates doc tmpAttr

/-! ## Reading -/

def ratio (adc : M2kADC δ) : Nat :=
  Double.toUnsigned ((1e8 : δ) / (adc.samplerate / Double.ofInt adc.oversamplingRatio))

def samplesCount (adc : M2kADC δ) (bytesCount : Nat) : Nat :=
  wrap64 (bytesCount / 4 * adc.ratio)

omit [LibXml2] [TinyIIOD] in
/-- The test on the ratio repeats the one inside the decimation. -/
def resample (devOut : Option (M2kDAC δ)) (size ratio : Nat) :
    Outcome (List δ × M2kDAC δ) := do
  reserve 8 size
  match devOut with
  | none => .error .nullPointer
  | some dac =>
      let (tmpSamples, dac) ← dac.transferSamplesToRXDevice size
      if ratio < 2 then
        return (tmpSamples, dac)
      else
        let dest ← analogicalDecimation tmpSamples ratio
        return (dest, dac)

def convertPair (adc : M2kADC δ) (dacASamples dacBSamples : List δ) (i : Nat) :
    Outcome (List Word) := do
  let voltageA ← vectorAt dacASamples i
  let rawA ← adc.convertVoltToRaw voltageA 0
  let voltageB ← vectorAt dacBSamples i
  let rawB ← adc.convertVoltToRaw voltageB 1
  return [rawA, rawB]

/-- The bytes stored in the caller's buffer, and the devices afterwards. Each channel is
read by a thread of its own, and both are joined before their samples are used. -/
def readDev (adc : M2kADC δ) (doc : Option XmlDoc) (channel1 channel2 : Option (M2kDAC δ))
    (_offset bytesCount : Nat) :
    Outcome (Int × List Byte × M2kADC δ × M2kDAC δ × M2kDAC δ) := do
  let adc ← adc.loadCalibValues doc
  reserve 2 (bytesCount / 2)
  let size := adc.samplesCount bytesCount
  let (dacASamples, dacA) ← resample channel1 size adc.ratio
  let (dacBSamples, dacB) ← resample channel2 size adc.ratio
  let samples ← (List.range (bytesCount / 4)).mapM
    (adc.convertPair dacASamples dacBSamples)
  let bytes ← memcpy (bytesOfWords samples.flatten) 0 bytesCount
  return ((bytesCount : Int), bytes, adc, dacA, dacB)

/-! ## What a channel is read as -/

section Resample

variable {devOut : Option (M2kDAC δ)} {size ratio : Nat} {dest : List δ} {next : M2kDAC δ}

omit [LibXml2] [TinyIIOD]

theorem resample_eq (dac : M2kDAC δ) (size ratio : Nat) :
    resample (some dac) size ratio = reserve 8 size >>= fun _ =>
      dac.transferSamplesToRXDevice size >>= fun transferred =>
        analogicalDecimation transferred.1 ratio >>= fun dest => .ok (dest,
        transferred.2) := by
  unfold resample
  congr 1
  funext _
  simp only
  congr 1
  funext transferred
  split
  · rename_i single
    rw [analogicalDecimation, if_pos single]
    rfl
  · rfl

end Resample

end M2kADC

end IioEmu
