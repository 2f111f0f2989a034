import IioEmu.Devices.M2kLogicTX.M2kLogicTX

/-! # The logic receiver

A read takes as many samples from the connected transmitter as the ratio asks
for and decimates them. The transmitter is the device behind the first
connection, `none` while nothing is connected. -/

namespace IioEmu

structure M2kLogicRX (δ : Type) where
  deviceId : String
  samplerate : δ
  deriving DecidableEq

namespace M2kLogicRX

variable {δ : Type} [Double δ] [LibXml2] [TinyIIOD]

def loadValues (rx : M2kLogicRX δ) (doc : Option XmlDoc) : Outcome (M2kLogicRX δ) := do
  let (_, tmpAttr) ← readDeviceAttr doc rx.deviceId "sampling_frequency"
    (uninitialised TinyIIOD.IIOD_BUFFER_SIZE) TinyIIOD.IIOD_BUFFER_SIZE .device
  let text ← cString tmpAttr
  return { rx with samplerate := safeStod text }

def ratio (rx : M2kLogicRX δ) : Nat := Double.toUnsigned ((1e8 : δ) / rx.samplerate)

def samplesCount (rx : M2kLogicRX δ) (len : Nat) : Nat := wrap64 (len / 2 * rx.ratio)

/-- Constructing the vector of samples fails as reserving it would. -/
def resample (rx : M2kLogicRX δ) (doc : Option XmlDoc)
    (connection : Option (M2kLogicTX δ)) (_channel len : Nat) :
    Outcome (List Word × M2kLogicRX δ × M2kLogicTX δ) := do
  let loaded ← rx.loadValues doc
  reserve 2 (loaded.samplesCount len)
  match connection with
  | none => .error .nullPointer
  | some tx =>
      let (tmpSamples, tx) ← tx.transferSamplesToRXDevice (loaded.samplesCount len)
      let samples ← digitalDecimation tmpSamples loaded.ratio
      return (samples, loaded, tx)

def readDev (rx : M2kLogicRX δ) (doc : Option XmlDoc)
    (connection : Option (M2kLogicTX δ)) (_offset bytesCount : Nat) :
    Outcome (Int × List Byte × M2kLogicRX δ × M2kLogicTX δ) := do
  let (samples, rx, tx) ← rx.resample doc connection 0 bytesCount
  let bytes ← memcpy (bytesOfWords samples) 0 bytesCount
  return ((bytesCount : Int), bytes, rx, tx)

end M2kLogicRX

end IioEmu
