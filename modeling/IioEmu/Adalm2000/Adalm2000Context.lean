import IioEmu.Adalm2000.Document
import IioEmu.Utils.AttributeStore
import IioEmu.Utils.Utility

/-! # The power supplies of the context

A write to a supply channel of `iio:device3` is followed by a write of the value
an ADC would measure to `iio:device13`. The texts of the values last computed are
kept beside the document. -/

namespace IioEmu

inductive CalibrationCoefficient
  | dacOffsetPos
  | dacGainPos
  | adcOffsetPos
  | adcGainPos
  | dacOffsetNeg
  | dacGainNeg
  | adcOffsetNeg
  | adcGainNeg
  deriving DecidableEq, Repr

def CalibrationCoefficient.index : CalibrationCoefficient → Nat
  | dacOffsetPos => 0
  | dacGainPos => 1
  | adcOffsetPos => 2
  | adcGainPos => 3
  | dacOffsetNeg => 4
  | dacGainNeg => 5
  | adcOffsetNeg => 6
  | adcGainNeg => 7

structure Adalm2000Context (δ : Type) where
  doc : Option XmlDoc
  psCalibCoefficients : List δ
  psWriteCoefficients : List δ
  psReadCoefficients : List δ
  psCurrentValues : List String

namespace Adalm2000Context

variable {δ : Type} [Double δ]

def calibrated (context : Adalm2000Context δ) (coefficient : CalibrationCoefficient) :
    Outcome δ :=
  vectorAt context.psCalibCoefficients coefficient.index

def convertPSDACRawToVolts (context : Adalm2000Context δ) (channel : Nat) (value : Int) :
    Outcome δ := do
  let offset ← context.calibrated (if channel = 0 then .dacOffsetPos else .dacOffsetNeg)
  let gain ← context.calibrated (if channel = 0 then .dacGainPos else .dacGainNeg)
  let coefficient ← vectorAt context.psWriteCoefficients channel
  return (Double.ofInt value / gain - offset) / coefficient

def convertPSADCVoltsToRaw (context : Adalm2000Context δ) (channel : Nat) (value : δ) :
    Outcome Int := do
  let offset ← context.calibrated (if channel = 0 then .adcOffsetPos else .adcOffsetNeg)
  let gain ← context.calibrated (if channel = 0 then .adcGainPos else .adcGainNeg)
  let coefficient ← vectorAt context.psReadCoefficients channel
  return Double.toInt ((value / gain - offset) / coefficient)

variable [LibXml2] [TinyIIOD]

def calibAttrs : List String :=
  ["cal,offset_pos_dac", "cal,gain_pos_dac", "cal,offset_pos_adc", "cal,gain_pos_adc",
    "cal,offset_neg_dac", "cal,gain_neg_dac", "cal,offset_neg_adc", "cal,gain_neg_adc"]

/-- One pass of the loop over the attributes, which share a buffer. -/
def loadCoefficient (doc : Option XmlDoc) (loaded : CharArray × List δ)
    (attrName : String) : Outcome (CharArray × List δ) := do
  let (_, buf) ← readContextAttr doc attrName loaded.1 TinyIIOD.IIOD_BUFFER_SIZE
  let text ← cString buf
  return (buf, loaded.2 ++ [safeStod text])

def loadPSCalibCoef (doc : Option XmlDoc) : Outcome (List δ) := do
  let (_, coefficients) ← calibAttrs.foldlM (loadCoefficient doc)
    (uninitialised TinyIIOD.IIOD_BUFFER_SIZE, [])
  return coefficients

def psWriteCoefficientsOf : List δ :=
  [(4095.0 : δ) / ((5.02 : δ) * (1.2 : δ)), (4095.0 : δ) / (-(5.1 : δ) * (1.2 : δ))]

def psReadCoefficientsOf : List δ :=
  [(6.4 : δ) / (4095.0 : δ), -(6.4 : δ) / (4095.0 : δ)]

/-- The constructor, as far as the supplies go. -/
def construct : Outcome (Adalm2000Context δ) := do
  let coefficients ← loadPSCalibCoef (some Adalm2000Document.adalm2000Xml)
  return {
    doc := some Adalm2000Document.adalm2000Xml
    psCalibCoefficients := coefficients
    psWriteCoefficients := psWriteCoefficientsOf
    psReadCoefficients := psReadCoefficientsOf
    psCurrentValues := ["", ""] }

def supplyOf (channel : String) : Nat × String :=
  if startsWith channel "voltage0" then (0, "voltage2") else (1, "voltage1")

def refreshCurrentValue (context : Adalm2000Context δ) (channelIdx : Nat)
    (buf : CharArray) : Outcome (Adalm2000Context δ) := do
  let value ← cString buf >>= stoi
  let voltage ← context.convertPSDACRawToVolts channelIdx value
  let result ← context.convertPSADCVoltsToRaw channelIdx voltage
  let values ← assignAt context.psCurrentValues channelIdx (toString result)
  return { context with psCurrentValues := values }

/-- The write of `iio:device13` that follows a write to a supply channel. The
powerdown attribute is read into a buffer on the stack. -/
def writeReadBack (context : Adalm2000Context δ) (stack : StackBuffer Char)
    (deviceId channel : String) (chOut : Bool) : Outcome (Adalm2000Context δ) := do
  let (channelIdx, channelRead) := supplyOf channel
  let (_, buffer) ← readChannelAttr context.doc deviceId channel chOut "powerdown"
    stack.1 TinyIIOD.IIOD_BUFFER_SIZE
  let down ← arrayStartsWith buffer ['1']
  let text ← if down then .ok "0" else vectorAt context.psCurrentValues channelIdx
  let (_, doc) ← writeChannelAttr context.doc "iio:device13" channelRead false "raw"
    (terminated text) text.length
  return { context with doc := doc }

def chWriteAttr (context : Adalm2000Context δ) (deviceId channel : String) (chOut : Bool)
    (attr : String) (buf : CharArray) (len : Nat) :
    Outcome (Int × Adalm2000Context δ) := do
  let (ret, doc) ← writeChannelAttr context.doc deviceId channel chOut attr buf len
  let stored := { context with doc := doc }
  if startsWith deviceId "iio:device3" then
    let refreshed ←
      if startsWith attr "raw" then stored.refreshCurrentValue (supplyOf channel).1 buf
      else .ok stored
    -- No value of the buffer is known where the read of powerdown finds no attribute.
    let finished ← refreshed.writeReadBack (.unknown Char) deviceId channel chOut
    return (ret, finished)
  else
    return (ret, stored)

/-! ## The constructor returns -/

def Readable (tree : XmlNode) (attr : String) : Prop :=
  ∃ text ∈ contextValue tree attr, NulFree text ∧ text.length < 63

instance (tree : XmlNode) (attr : String) : Decidable (Readable tree attr) := by
  unfold Readable
  infer_instance

theorem foldlM_loadCoefficient {document : XmlDoc} {tree : XmlNode}
    (rooted : document.root = some tree) {attrs : List String}
    (readable : ∀ attr ∈ attrs, Readable tree attr) (loaded : CharArray × List δ)
    (sized : loaded.1.length = TinyIIOD.IIOD_BUFFER_SIZE) :
    ∃ final, attrs.foldlM (loadCoefficient (some document)) loaded = .ok final ∧
      final.2.length = loaded.2.length + attrs.length := by
  induction attrs generalizing loaded with
  | nil => exact ⟨loaded, rfl, rfl⟩
  | cons attr attrs induction =>
      rcases readable attr (by simp) with ⟨text, value, free, short⟩
      have large := TinyIIOD.bufferSize_large
      have room : text.length < loaded.1.length := by omega
      have read := readContextAttr_of_value rooted value free room
        (show text.length < TinyIIOD.IIOD_BUFFER_SIZE by omega)
      have stepped : loadCoefficient (some document) loaded attr =
          .ok (terminated text ++ loaded.1.drop (text.length + 1),
            loaded.2 ++ [safeStod text]) := by
        simp only [loadCoefficient, read, Outcome.ok_bind, cString_terminated_append free]
        rfl
      have kept : (terminated text ++ loaded.1.drop (text.length + 1)).length =
          TinyIIOD.IIOD_BUFFER_SIZE := by
        rw [List.length_append, length_terminated, List.length_drop]
        omega
      rcases induction (fun other member => readable other (by simp [member]))
        (terminated text ++ loaded.1.drop (text.length + 1), loaded.2 ++ [safeStod text])
        kept with ⟨final, ran, counted⟩
      refine ⟨final, ?_, ?_⟩
      · rw [List.foldlM_cons, stepped]
        exact ran
      · rw [counted]
        simp only [List.length_append, List.length_cons, List.length_nil]
        omega

theorem construct_returns :
    ∃ initial : Adalm2000Context δ, construct = .ok initial ∧
      initial.doc = some Adalm2000Document.adalm2000Xml ∧
      initial.psCalibCoefficients.length = 8 ∧
      initial.psWriteCoefficients.length = 2 ∧ initial.psReadCoefficients.length = 2 ∧
      initial.psCurrentValues = ["", ""] := by
  have readable : ∀ tree ∈ Adalm2000Document.adalm2000Xml.root, ∀ attr ∈ calibAttrs,
      Readable tree attr := by
    decide +kernel
  cases rooted : Adalm2000Document.adalm2000Xml.root with
  | none => cases rooted
  | some tree =>
      rcases foldlM_loadCoefficient (δ := δ) rooted (readable tree rooted)
        (uninitialised TinyIIOD.IIOD_BUFFER_SIZE, [])
        (by rw [uninitialised, List.length_replicate]) with ⟨final, ran, counted⟩
      refine ⟨⟨some Adalm2000Document.adalm2000Xml, final.2, psWriteCoefficientsOf,
        psReadCoefficientsOf, ["", ""]⟩, ?_, rfl, ?_, rfl, rfl, rfl⟩
      · simp only [construct, loadPSCalibCoef, ran, Outcome.ok_bind]
        rfl
      · exact counted

end Adalm2000Context

end IioEmu
