import IioEmu.Devices.M2kADC.Calibration
import IioEmu.Devices.StoredRates

/-! # The texts an analog read depends on

A read loads the gain, the offset and the bias of each channel, and the two rates. All of them
are texts that a client may have stored. What a load makes of them, step by step, is the
receiver `withTexts`. -/

namespace IioEmu.M2kADC

structure AdcTexts where
  gain : Fin 2 → String
  raw : Fin 2 → String
  calibbias : Fin 2 → String
  rates : RateTexts

abbrev channel1 : Fin 2 := ⟨0, Nat.two_pos⟩

abbrev channel2 : Fin 2 := ⟨1, Nat.one_lt_two⟩

def adcName (channel : Fin 2) : String :=
  if channel.val = 0 then "voltage0" else "voltage1"

def dacName (channel : Fin 2) : String :=
  if channel.val = 0 then "voltage2" else "voltage3"

def gainKey (channel : Fin 2) : AttributeKey :=
  .channel "iio:device11" (adcName channel) false "gain"

def rawKey (channel : Fin 2) : AttributeKey :=
  .channel "iio:device2" (dacName channel) true "raw"

def calibbiasKey (channel : Fin 2) : AttributeKey :=
  .channel "iio:device0" (adcName channel) false "calibbias"

section StoredTexts

variable [LibXml2] [TinyIIOD]

def Holds (doc : Option XmlDoc) (key : AttributeKey) (text : String) : Prop :=
  contents doc key = .ok (some (some text)) ∧ NulFree text

structure HoldsTexts (doc : Option XmlDoc) (texts : AdcTexts) : Prop where
  gain : ∀ channel, Holds doc (gainKey channel) (texts.gain channel)
  raw : ∀ channel, Holds doc (rawKey channel) (texts.raw channel)
  calibbias : ∀ channel, Holds doc (calibbiasKey channel) (texts.calibbias channel)
  rates : HoldsRates doc "iio:device0" texts.rates.samplingFrequency
    texts.rates.oversamplingRatio

structure AdcTexts.Fit (texts : AdcTexts) : Prop where
  gain : ∀ channel, FitsBuffer (texts.gain channel)
  raw : ∀ channel, FitsBuffer (texts.raw channel)
  calibbias : ∀ channel, FitsBuffer (texts.calibbias channel)
  samplingFrequency : FitsBuffer texts.rates.samplingFrequency
  oversamplingRatio : FitsBuffer texts.rates.oversamplingRatio

def overwritten (text : String) (buf : CharArray) : CharArray :=
  terminated text ++ buf.drop (text.length + 1)

/-! ## What a load computes -/

variable {δ : Type} [Double δ]

def gainOf (δ : Type) [Double δ] (text : String) : δ :=
  if startsWith text "high" then 0.21229
  else if startsWith text "low" then 0.02017
  else Double.ofInt 0

def offsetOf (texts : AdcTexts) (channel : Fin 2) : δ :=
  let difference : δ := safeStod (texts.raw channel) - safeStod (texts.calibbias channel)
  Double.ofInt (BitVec.ofInt 16 (Double.toInt difference)).toInt * (2.693 : δ) * (1.2 : δ) /
    (Double.ofInt (1 <<< 12) * gainOf δ (texts.gain channel) * (1.3 : δ))

def withRange (adc : M2kADC δ) (channel : Fin 2) (text : String) : M2kADC δ :=
  { adc with
    range := adc.range.set channel (overwritten text (adc.range[channel.val]?.getD [])) }

def withOffset (adc : M2kADC δ) (channel : Fin 2) (offset : δ) : M2kADC δ :=
  { adc with hwOffset := adc.hwOffset.set channel offset }

def withRates (adc : M2kADC δ) (samplingFrequency : String) (ratio : Int) : M2kADC δ :=
  { adc with
    samplerate := safeStod samplingFrequency, oversamplingRatio := unsignedOfInt ratio }

def withTexts (adc : M2kADC δ) (texts : AdcTexts) (ratio : Int) : M2kADC δ :=
  ((((adc.withRange channel1 (texts.gain channel1)).withRange channel2
    (texts.gain channel2)).withOffset channel1 (offsetOf texts channel1)).withOffset channel2
      (offsetOf texts channel2)).withRates texts.rates.samplingFrequency ratio

/-! ## The size of what it works on -/

structure Sized (adc : M2kADC δ) : Prop where
  ranges : adc.range.length = 2
  arrays : ∀ array ∈ adc.range, array.length = TinyIIOD.IIOD_BUFFER_SIZE
  offsets : adc.hwOffset.length = 2

omit [LibXml2] in
theorem sized_construct (deviceId : String) (samplerate : δ) (oversamplingRatio : Nat) :
    (construct deviceId samplerate oversamplingRatio).Sized := by
  refine ⟨rfl, ?_, rfl⟩
  intro array member
  rw [List.eq_of_mem_replicate member, List.length_replicate]

omit [LibXml2] [Double δ] in
theorem Sized.setRange {adc : M2kADC δ} (sized : adc.Sized)
    (channel : Nat) {array : CharArray}
    (length : array.length = TinyIIOD.IIOD_BUFFER_SIZE) :
    Sized { adc with range := adc.range.set channel array } := by
  refine ⟨by rw [List.length_set, sized.ranges], ?_, sized.offsets⟩
  intro other member
  rcases List.mem_or_eq_of_mem_set member with kept | new
  · exact sized.arrays other kept
  · rw [new, length]

omit [LibXml2] [Double δ] in
theorem Sized.setOffset {adc : M2kADC δ} (sized : adc.Sized)
    (channel : Nat) (offset : δ) :
    Sized { adc with hwOffset := adc.hwOffset.set channel offset } :=
  ⟨sized.ranges, sized.arrays, by rw [List.length_set, sized.offsets]⟩

/-! ## One step at a time -/

section Steps

variable {doc : Option XmlDoc} {texts : AdcTexts} {adc loaded : M2kADC δ}

omit [LibXml2] in
theorem length_overwritten {text : String} (fits : FitsBuffer text) {buf : CharArray}
    (sized : buf.length = TinyIIOD.IIOD_BUFFER_SIZE) :
    (overwritten text buf).length = TinyIIOD.IIOD_BUFFER_SIZE :=
  length_after_read fits sized

omit [LibXml2] [TinyIIOD] in
theorem cString_overwritten {text : String} (free : NulFree text) (buf : CharArray) :
    cString (overwritten text buf) = .ok text :=
  cString_terminated_append free _

theorem readText_iff {key : AttributeKey} {text : String} (holds : Holds doc key text)
    {buf : CharArray} (sized : buf.length = TinyIIOD.IIOD_BUFFER_SIZE)
    {stored : CharArray} :
    (∃ ret, key.read doc buf TinyIIOD.IIOD_BUFFER_SIZE = .ok (ret, stored)) ↔
      FitsBuffer text ∧ stored = overwritten text buf := by
  simp only [read_text_iff holds.1 holds.2 sized, overwritten]
  constructor
  · rintro ⟨ret, fits, _, equal⟩
    exact ⟨fits, equal⟩
  · rintro ⟨fits, equal⟩
    exact ⟨_, fits, rfl, equal⟩

def HasGain (adc : M2kADC δ) (channel : Fin 2) (text : String) : Prop :=
  ∃ rest, adc.range[channel.val]? = some (terminated text ++ rest)

omit [LibXml2] [TinyIIOD] in
theorem HasGain.getCalibGain {channel : Fin 2} {text : String}
    (ranged : adc.HasGain channel text) :
    adc.getCalibGain channel = .ok (gainOf δ text) := by
  rcases ranged with ⟨rest, stored⟩
  have high := @arrayStartsWith_terminated_append "high" (by decide) text rest
  have low := @arrayStartsWith_terminated_append "low" (by decide) text rest
  have array : vectorAt adc.range channel = .ok (terminated text ++ rest) :=
    vectorAt_eq_ok_iff.mpr stored
  simp only [M2kADC.getCalibGain, array, high, low, Outcome.ok_bind, gainOf]
  cases startsWith text "high" with
  | true => rfl
  | false => cases startsWith text "low" <;> rfl

omit [Double δ] in
theorem loadRange_iff {channel : Fin 2}
    (holds : Holds doc (gainKey channel) (texts.gain channel)) (sized : adc.Sized) :
    adc.loadRange doc channel (adcName channel) = .ok loaded ↔
      FitsBuffer (texts.gain channel) ∧
      loaded = adc.withRange channel (texts.gain channel) := by
  have inside : channel.val < adc.range.length := by
    rw [sized.ranges]
    exact channel.isLt
  have length := sized.arrays _ (List.getElem_mem inside)
  have read (stored : CharArray) :
      (∃ ret, readChannelAttr doc "iio:device11" (adcName channel) false "gain"
        adc.range[channel.val] TinyIIOD.IIOD_BUFFER_SIZE = .ok (ret, stored)) ↔ _ :=
    readText_iff holds length
  rw [loadRange_eq_ok_iff, withRange, List.getElem?_eq_getElem inside, Option.getD_some]
  constructor
  · rintro ⟨array, stored, ret, present, returned, rfl⟩
    cases present
    rcases (read stored).mp ⟨ret, returned⟩ with ⟨fits, rfl⟩
    exact ⟨fits, rfl⟩
  · rintro ⟨fits, rfl⟩
    rcases (read _).mpr ⟨fits, rfl⟩ with ⟨ret, returned⟩
    exact ⟨_, _, ret, rfl, returned, rfl⟩

theorem loadOffset_iff {channel : Fin 2}
    (holdsRaw : Holds doc (rawKey channel) (texts.raw channel))
    (holdsBias : Holds doc (calibbiasKey channel) (texts.calibbias channel))
    (ranged : adc.HasGain channel (texts.gain channel))
    (inside : channel.val < adc.hwOffset.length) {tmpAttr left : CharArray}
    (sized : tmpAttr.length = TinyIIOD.IIOD_BUFFER_SIZE) :
    adc.loadOffset doc channel (dacName channel) (adcName channel) tmpAttr =
    .ok (left, loaded) ↔
      FitsBuffer (texts.raw channel) ∧ FitsBuffer (texts.calibbias channel) ∧
        left = overwritten (texts.calibbias channel)
          (overwritten (texts.raw channel) tmpAttr) ∧
        loaded = adc.withOffset channel (offsetOf texts channel) := by
  have readRaw (stored : CharArray) :
      (∃ ret, readChannelAttr doc "iio:device2" (dacName channel) true "raw" tmpAttr
        TinyIIOD.IIOD_BUFFER_SIZE = .ok (ret, stored)) ↔ _ := readText_iff holdsRaw sized
  have readBias (fits : FitsBuffer (texts.raw channel)) (stored : CharArray) :
      (∃ ret, readChannelAttr doc "iio:device0" (adcName channel) false "calibbias"
        (overwritten (texts.raw channel) tmpAttr) TinyIIOD.IIOD_BUFFER_SIZE =
          .ok (ret, stored)) ↔ _ := readText_iff holdsBias (length_overwritten fits sized)
  have gain := ranged.getCalibGain
  have converted (raw : Word) : adc.convertRawToVoltsVerticalOffset raw channel =
      .ok (Double.ofInt raw.toInt * (2.693 : δ) * (1.2 : δ) /
        (Double.ofInt (1 <<< 12) * gainOf δ (texts.gain channel) * (1.3 : δ))) := by
    rw [convertRawToVoltsVerticalOffset, gain]
    rfl
  rw [loadOffset_eq_ok_iff]
  constructor
  · rintro ⟨raw, middle, calibbias, rawRead, rawText, biasRead, biasText,
      offset, volts, _, rfl⟩
    rcases (readRaw middle).mp rawRead with ⟨fits, rfl⟩
    rcases (readBias fits left).mp biasRead with ⟨biasFits, rfl⟩
    rw [cString_overwritten holdsRaw.2, Except.ok.injEq] at rawText
    rw [cString_overwritten holdsBias.2, Except.ok.injEq] at biasText
    rw [converted, Except.ok.injEq] at volts
    subst rawText biasText volts
    exact ⟨fits, biasFits, rfl, rfl⟩
  · rintro ⟨fits, biasFits, rfl, rfl⟩
    exact ⟨_, _, _, (readRaw _).mpr ⟨fits, rfl⟩, cString_overwritten holdsRaw.2 _,
      (readBias fits _).mpr ⟨biasFits, rfl⟩, cString_overwritten holdsBias.2 _, _,
      converted _, inside, rfl⟩

theorem loadRates_iff
    (holds : HoldsRates doc "iio:device0" texts.rates.samplingFrequency
      texts.rates.oversamplingRatio) {tmpAttr : CharArray}
    (sized : tmpAttr.length = TinyIIOD.IIOD_BUFFER_SIZE) :
    adc.loadRates doc tmpAttr = .ok loaded ↔
      FitsBuffer texts.rates.samplingFrequency ∧
      FitsBuffer texts.rates.oversamplingRatio ∧
        ∃ ratio, stoi texts.rates.oversamplingRatio = .ok ratio ∧
          loaded = adc.withRates texts.rates.samplingFrequency ratio :=
  holds.read_iff sized fun frequency ratio => adc.withRates frequency ratio

omit [LibXml2] [Double δ] in
theorem sized_withRange (sized : adc.Sized) (channel : Fin 2) {text : String}
    (fits : FitsBuffer text) : (adc.withRange channel text).Sized := by
  have inside : channel.val < adc.range.length := by
    rw [sized.ranges]
    exact channel.isLt
  rw [withRange, List.getElem?_eq_getElem inside, Option.getD_some]
  exact sized.setRange channel
    (length_overwritten fits (sized.arrays _ (List.getElem_mem inside)))

omit [LibXml2] [Double δ] in
theorem hasGain_withRange (sized : adc.Sized) (channel : Fin 2) (text : String) :
    (adc.withRange channel text).HasGain channel text := by
  have inside : channel.val < adc.range.length := by
    rw [sized.ranges]
    exact channel.isLt
  exact ⟨_, List.getElem?_set_self inside⟩

omit [LibXml2] [TinyIIOD] [Double δ] in
theorem HasGain.withRange {channel other : Fin 2} {text : String}
    (ranged : adc.HasGain channel text) (different : channel ≠ other)
    (replaced : String) :
    (adc.withRange other replaced).HasGain channel text := by
  rcases ranged with ⟨rest, stored⟩
  refine ⟨rest, ?_⟩
  rw [M2kADC.withRange,
    List.getElem?_set_ne (fun equal => different (Fin.ext equal.symm)), stored]

def withRanges (adc : M2kADC δ) (texts : AdcTexts) : M2kADC δ :=
  (adc.withRange channel1 (texts.gain channel1)).withRange channel2 (texts.gain channel2)

omit [LibXml2] [Double δ] in
theorem hasGain_withRanges (sized : adc.Sized) (fits : FitsBuffer (texts.gain 0))
    (channel : Fin 2) : (adc.withRanges texts).HasGain channel (texts.gain channel) := by
  revert channel
  rw [Fin.forall_fin_two]
  constructor
  · exact (hasGain_withRange sized 0 _).withRange (by decide) _
  · exact hasGain_withRange (sized_withRange sized 0 fits) 1 _

/-- A load returns exactly where every text fits its buffer and the oversampling ratio is an
integer. -/
theorem loadCalibValues_iff (holds : HoldsTexts doc texts) (sized : adc.Sized) :
    adc.loadCalibValues doc = .ok loaded ↔
      texts.Fit ∧ ∃ ratio, stoi texts.rates.oversamplingRatio = .ok ratio ∧
        loaded = adc.withTexts texts ratio := by
  have buffered :
      (uninitialised TinyIIOD.IIOD_BUFFER_SIZE).length = TinyIIOD.IIOD_BUFFER_SIZE :=
    List.length_replicate
  have inside0 : 0 < (adc.withRanges texts).hwOffset.length := by
    rw [withRanges, withRange, withRange, sized.offsets]
    exact Nat.two_pos
  have inside1 : 1 < ((adc.withRanges texts).withOffset 0
      (offsetOf texts 0 : δ)).hwOffset.length := by
    rw [withOffset, List.length_set, withRanges, withRange, withRange, sized.offsets]
    exact Nat.one_lt_two
  have range0 (ranged : M2kADC δ) :
      adc.loadRange doc 0 "voltage0" = .ok ranged ↔ _ :=
        loadRange_iff (holds.gain 0) sized
  have range1 (fits : FitsBuffer (texts.gain 0)) (calibrated : M2kADC δ) :
      (adc.withRange 0 (texts.gain 0)).loadRange doc 1 "voltage1" = .ok calibrated ↔ _ :=
    loadRange_iff (holds.gain 1) (sized_withRange sized 0 fits)
  have offset0 (fits : FitsBuffer (texts.gain 0)) (middle : CharArray) (first : M2kADC δ) :
      (adc.withRanges texts).loadOffset doc 0 "voltage2" "voltage0"
        (uninitialised TinyIIOD.IIOD_BUFFER_SIZE) = .ok (middle, first) ↔ _ :=
    loadOffset_iff (holds.raw 0) (holds.calibbias 0) (hasGain_withRanges sized fits 0)
      inside0 buffered
  have offset1 (fits : FitsBuffer (texts.gain 0)) {tmpAttr : CharArray}
      (length : tmpAttr.length = TinyIIOD.IIOD_BUFFER_SIZE) (left : CharArray)
      (second : M2kADC δ) :
      ((adc.withRanges texts).withOffset 0 (offsetOf texts 0)).loadOffset doc 1 "voltage3"
        "voltage1" tmpAttr = .ok (left, second) ↔ _ :=
    have gain : ((adc.withRanges texts).withOffset 0 (offsetOf texts 0)).HasGain 1
        (texts.gain 1) := hasGain_withRanges sized fits 1
    loadOffset_iff (holds.raw 1) (holds.calibbias 1) gain inside1 length
  simp only [loadCalibValues, Outcome.bind_eq_ok, Prod.exists, range0]
  constructor
  · rintro ⟨_, ⟨gainFits, rfl⟩, _, ranged, middle, _, calibrated,
      tmpAttr, _, biased, rates⟩
    rcases (range1 gainFits _).mp ranged with ⟨gainFits', rfl⟩
    rcases (offset0 gainFits _ _).mp calibrated with ⟨rawFits, biasFits, rfl, rfl⟩
    have length := length_overwritten biasFits (length_overwritten rawFits buffered)
    rcases (offset1 gainFits length _ _).mp biased with ⟨rawFits', biasFits', rfl, rfl⟩
    rcases (loadRates_iff holds.rates
      (length_overwritten biasFits' (length_overwritten rawFits' length))).mp rates with
        ⟨frequencyFits, ratioFits, ratio, spelled, rfl⟩
    refine ⟨⟨?_, ?_, ?_, frequencyFits, ratioFits⟩, ratio, spelled, rfl⟩
    · exact Fin.forall_fin_two.mpr ⟨gainFits, gainFits'⟩
    · exact Fin.forall_fin_two.mpr ⟨rawFits, rawFits'⟩
    · exact Fin.forall_fin_two.mpr ⟨biasFits, biasFits'⟩
  · rintro ⟨fit, ratio, spelled, rfl⟩
    have length :=
      length_overwritten (fit.calibbias 0) (length_overwritten (fit.raw 0) buffered)
    have length' :=
      length_overwritten (fit.calibbias 1) (length_overwritten (fit.raw 1) length)
    exact ⟨_, ⟨fit.gain 0, rfl⟩, _, (range1 (fit.gain 0) _).mpr ⟨fit.gain 1, rfl⟩, _, _,
      (offset0 (fit.gain 0) _ _).mpr ⟨fit.raw 0, fit.calibbias 0, rfl, rfl⟩, _, _,
      (offset1 (fit.gain 0) length _ _).mpr ⟨fit.raw 1, fit.calibbias 1, rfl, rfl⟩,
      (loadRates_iff holds.rates length').mpr
        ⟨fit.samplingFrequency, fit.oversamplingRatio, ratio, spelled, rfl⟩⟩

end Steps

/-! ## Any document -/

section AnyDocument

variable {doc : Option XmlDoc} {adc loaded : M2kADC δ}

omit [TinyIIOD] in
theorem length_of_readChannelAttr {deviceId channel attr : String} {chOut : Bool}
    {buf stored : CharArray} {len : Nat} {ret : Int}
    (read : readChannelAttr doc deviceId channel chOut attr buf len = .ok (ret, stored)) :
    stored.length = buf.length := by
  unfold readChannelAttr at read
  cases doc with
  | none =>
      cases read
      rfl
  | some document =>
      simp only [Outcome.bind_eq_ok] at read
      rcases read with ⟨found, _, read⟩
      cases found with
      | none =>
          cases read
          rfl
      | some nodeAttr => exact length_of_copyValue read

omit [Double δ] in
theorem Sized.loadRange {channel : Nat} {name : String} (sized : adc.Sized)
    (returned : adc.loadRange doc channel name = .ok loaded) : loaded.Sized := by
  rcases loadRange_eq_ok_iff.mp returned with ⟨array, stored, ret, present, read, rfl⟩
  apply sized.setRange
  rw [length_of_readChannelAttr read]
  exact sized.arrays array (List.mem_of_getElem? present)

theorem Sized.loadOffset {channel : Nat} {dacName adcName : String}
    {tmpAttr left : CharArray} (sized : adc.Sized)
    (returned : adc.loadOffset doc channel dacName adcName tmpAttr = .ok (left, loaded)) :
    loaded.Sized := by
  rcases loadOffset_eq_ok_iff.mp returned with ⟨_, _, _, _, _, _, _, offset, _, _, rfl⟩
  exact sized.setOffset channel offset

/-- A load keeps the sizes, whatever the document holds. -/
theorem Sized.loadCalibValues (sized : adc.Sized)
    (returned : adc.loadCalibValues doc = .ok loaded) : loaded.Sized := by
  rcases loadCalibValues_eq_ok returned with ⟨ranged, calibrated, first, second, middle,
    tmpAttr, rangedOk, calibratedOk, firstOk, secondOk, sameRange, sameOffset, _⟩
  have ranges := (sized.loadRange rangedOk).loadRange calibratedOk
  have offsets := (ranges.loadOffset firstOk).loadOffset secondOk
  refine ⟨?_, ?_, ?_⟩
  · rw [sameRange, ranges.ranges]
  · rw [sameRange]
    exact ranges.arrays
  · rw [sameOffset, offsets.offsets]

end AnyDocument

end StoredTexts

end IioEmu.M2kADC
