import IioEmu.Devices.M2kADC.M2kADC

/-! # Calibration is loaded once

Each read loads the calibration again. Loading writes every value it uses, from the
document and from itself, so a second load from the same document changes nothing. -/

namespace IioEmu

theorem copyValue_again {value : Option String} {buf stored : CharArray} {len : Nat}
    {ret : Int} (copied : copyValue value buf len = .ok (ret, stored)) :
    copyValue value stored len = .ok (ret, stored) := by
  cases value with
  | none => cases copied
  | some text =>
      simp only [copyValue, Outcome.bind_eq_ok, Outcome.pure_eq_ok, Except.ok.injEq,
        Prod.mk.injEq] at copied ⊢
      rcases copied with ⟨count, counted, chars, read, array, kept,
        length, measured, rfl, rfl⟩
      have room : chars.length ≤ buf.length := by
        by_contra small
        rw [store_of_lt (by omega)] at kept
        cases kept
      rw [store_of_le room] at kept
      cases kept
      refine ⟨count, counted, chars, read, _, ?_, length, measured, rfl, rfl⟩
      rw [store_of_le (by simp), List.drop_left]

theorem readChannelAttr_again [LibXml2] {doc : Option XmlDoc} {deviceId channel : String}
    {chOut : Bool} {attr : String} {buf stored : CharArray} {len : Nat} {ret : Int}
    (read : readChannelAttr doc deviceId channel chOut attr buf len = .ok (ret, stored)) :
    readChannelAttr doc deviceId channel chOut attr stored len = .ok (ret, stored) := by
  unfold readChannelAttr at read ⊢
  cases doc with
  | none =>
      cases read
      rfl
  | some document =>
      simp only [Outcome.bind_eq_ok] at read ⊢
      rcases read with ⟨found, located, read⟩
      apply Exists.intro found
      apply And.intro located
      cases found with
      | none =>
          cases read
          rfl
      | some nodeAttr => exact copyValue_again read

namespace M2kADC

variable {δ : Type} [Double δ] [LibXml2] [TinyIIOD]

section Ranges

variable {adc loaded : M2kADC δ} {doc : Option XmlDoc} {channel : Nat} {name : String}

omit [Double δ] in
theorem loadRange_eq_ok_iff :
    adc.loadRange doc channel name = .ok loaded ↔
      ∃ array stored ret, adc.range[channel]? = some array ∧
        readChannelAttr doc "iio:device11" name false "gain" array
          TinyIIOD.IIOD_BUFFER_SIZE = .ok (ret, stored) ∧
        loaded = { adc with range := adc.range.set channel stored } := by
  simp only [loadRange, Outcome.bind_eq_ok, Outcome.pure_eq_ok, Except.ok.injEq,
    vectorAt_eq_ok_iff, Prod.exists]
  constructor
  · intro returned
    rcases returned with ⟨array, present, ret, stored, read, equal⟩
    exact ⟨array, stored, ret, present, read, equal.symm⟩
  · intro returned
    rcases returned with ⟨array, stored, ret, present, read, equal⟩
    exact ⟨array, present, ret, stored, read, equal.symm⟩

omit [Double δ] in
theorem loadRange_again {other : M2kADC δ}
    (returned : adc.loadRange doc channel name = .ok loaded)
    (same : other.range[channel]? = loaded.range[channel]?) :
    other.loadRange doc channel name = .ok other := by
  rw [loadRange_eq_ok_iff] at returned ⊢
  rcases returned with ⟨array, stored, ret, present, read, rfl⟩
  have inside : channel < adc.range.length := by
    by_contra outside
    rw [List.getElem?_eq_none (by omega)] at present
    cases present
  have kept : other.range[channel]? = some stored := by
    rw [same, List.getElem?_set_self inside]
  refine ⟨stored, stored, ret, kept, readChannelAttr_again read, ?_⟩
  rw [List.getElem?_eq_some_iff] at kept
  rcases kept with ⟨bound, kept⟩
  rw [← kept, List.set_getElem_self]

end Ranges

/-! ## Offsets -/

section Offsets

variable {adc loaded : M2kADC δ} {doc : Option XmlDoc} {channel : Nat}
  {dacName adcName : String} {tmpAttr left : CharArray}

omit [LibXml2] [TinyIIOD] in
theorem getCalibGain_congr {other : M2kADC δ} (same : other.range = adc.range)
    (channel : Nat) : other.getCalibGain channel = adc.getCalibGain channel := by
  rw [getCalibGain, getCalibGain, same]

omit [LibXml2] [TinyIIOD] in
theorem convertRawToVoltsVerticalOffset_congr {other : M2kADC δ}
    (same : other.range = adc.range) (raw : Word) (channel : Nat) :
    other.convertRawToVoltsVerticalOffset raw channel =
      adc.convertRawToVoltsVerticalOffset raw channel := by
  rw [convertRawToVoltsVerticalOffset, convertRawToVoltsVerticalOffset,
    getCalibGain_congr same]

theorem loadOffset_eq_ok_iff :
    adc.loadOffset doc channel dacName adcName tmpAttr = .ok (left, loaded) ↔
      ∃ raw middle calibbias, (∃ ret, readChannelAttr doc "iio:device2" dacName true "raw"
          tmpAttr TinyIIOD.IIOD_BUFFER_SIZE = .ok (ret, middle)) ∧
        cString middle = .ok raw ∧
        (∃ ret, readChannelAttr doc "iio:device0" adcName false "calibbias" middle
          TinyIIOD.IIOD_BUFFER_SIZE = .ok (ret, left)) ∧
        cString left = .ok calibbias ∧
        ∃ offset : δ, adc.convertRawToVoltsVerticalOffset (BitVec.ofInt 16 (Double.toInt
          ((safeStod raw : δ) - safeStod calibbias))) channel = .ok offset ∧
        channel < adc.hwOffset.length ∧
        loaded = { adc with hwOffset := adc.hwOffset.set channel offset } := by
  simp only [loadOffset, Outcome.bind_eq_ok, Outcome.pure_eq_ok, Except.ok.injEq,
    Prod.exists, Prod.mk.injEq]
  constructor
  · intro returned
    rcases returned with ⟨first, middle, readRaw, raw, rawText, second, last, readBias,
      calibbias, biasText, offset, converted, offsets, assigned, rfl, rfl⟩
    rw [assignAt] at assigned
    split at assigned
    · rename_i inside
      cases assigned
      exact ⟨raw, middle, calibbias, ⟨first, readRaw⟩, rawText,
        ⟨second, readBias⟩, biasText, offset, converted, inside, rfl⟩
    · cases assigned
  · intro returned
    rcases returned with ⟨raw, middle, calibbias, ⟨first, readRaw⟩, rawText,
      ⟨second, readBias⟩, biasText, offset, converted, inside, rfl⟩
    refine ⟨first, middle, readRaw, raw, rawText, second, left, readBias,
      calibbias, biasText, offset, converted, _, ?_, rfl, rfl⟩
    rw [assignAt, if_pos inside]

theorem loadOffset_again {other : M2kADC δ}
    (returned : adc.loadOffset doc channel dacName adcName tmpAttr = .ok (left, loaded))
    (sameRange : other.range = adc.range)
    (same : other.hwOffset[channel]? = loaded.hwOffset[channel]?) :
    other.loadOffset doc channel dacName adcName tmpAttr = .ok (left, other) := by
  rw [loadOffset_eq_ok_iff] at returned ⊢
  rcases returned with ⟨raw, middle, calibbias, readRaw, rawText,
    readBias, biasText, offset, converted, inside, rfl⟩
  rw [List.getElem?_set_self inside, List.getElem?_eq_some_iff] at same
  rcases same with ⟨bound, kept⟩
  refine ⟨raw, middle, calibbias, readRaw, rawText, readBias, biasText,
    offset, ?_, bound, ?_⟩
  · rwa [convertRawToVoltsVerticalOffset_congr sameRange]
  · rw [← kept, List.set_getElem_self]

end Offsets

/-! ## All of it -/

section Loaded

variable {adc loaded : M2kADC δ} {doc : Option XmlDoc}

theorem loadCalibValues_eq_ok (returned : adc.loadCalibValues doc = .ok loaded) :
    ∃ ranged calibrated first second middle tmpAttr,
      adc.loadRange doc 0 "voltage0" = .ok ranged ∧
      ranged.loadRange doc 1 "voltage1" = .ok calibrated ∧
      calibrated.loadOffset doc 0 "voltage2" "voltage0"
        (uninitialised TinyIIOD.IIOD_BUFFER_SIZE) = .ok (middle, first) ∧
      first.loadOffset doc 1 "voltage3" "voltage1" middle = .ok (tmpAttr, second) ∧
      loaded.range = calibrated.range ∧ loaded.hwOffset = second.hwOffset ∧
      ∀ other : M2kADC δ, other.loadRates doc tmpAttr =
        .ok { other with
          samplerate := loaded.samplerate
          oversamplingRatio := loaded.oversamplingRatio } := by
  simp only [loadCalibValues, Outcome.bind_eq_ok, Prod.exists] at returned
  rcases returned with ⟨ranged, rangedOk, calibrated, calibratedOk,
    middle, first, firstOk, tmpAttr, second, secondOk, rates⟩
  refine ⟨ranged, calibrated, first, second, middle, tmpAttr, rangedOk,
    calibratedOk, firstOk, secondOk, ?_⟩
  rcases loadOffset_eq_ok_iff.mp firstOk with ⟨_, _, _, _, _, _, _, _, _, _, firstEq⟩
  rcases loadOffset_eq_ok_iff.mp secondOk with ⟨_, _, _, _, _, _, _, _, _, _, secondEq⟩
  simp only [loadRates, Outcome.bind_eq_ok, Prod.exists] at rates
  rcases rates with ⟨ret, read, readRate, text, rateText, ret', read', readRatio, value,
    ⟨text', ratioText, converted⟩, equal⟩
  cases equal
  refine ⟨?_, rfl, ?_⟩
  · rw [secondEq, firstEq]
  · intro other
    simp only [loadRates, readRate, rateText, readRatio, ratioText, converted,
      Outcome.ok_bind, Outcome.pure_eq_ok]

theorem loadCalibValues_again (returned : adc.loadCalibValues doc = .ok loaded) :
    loaded.loadCalibValues doc = .ok loaded := by
  rcases loadCalibValues_eq_ok returned with ⟨ranged, calibrated, first, second, middle,
    tmpAttr, rangedOk, calibratedOk, firstOk, secondOk, sameRange, sameOffset, rates⟩
  have range0 : loaded.range[0]? = ranged.range[0]? := by
    rcases loadRange_eq_ok_iff.mp calibratedOk with ⟨_, _, _, _, _, rfl⟩
    rw [sameRange, List.getElem?_set_ne (by decide)]
  have range1 : loaded.range[1]? = calibrated.range[1]? := by rw [sameRange]
  have offset0 : loaded.hwOffset[0]? = first.hwOffset[0]? := by
    rcases loadOffset_eq_ok_iff.mp secondOk with ⟨_, _, _, _, _, _, _, _, _, _, rfl⟩
    rw [sameOffset, List.getElem?_set_ne (by decide)]
  have offset1 : loaded.hwOffset[1]? = second.hwOffset[1]? := by rw [sameOffset]
  have keptRange : loaded.range = first.range := by
    rcases loadOffset_eq_ok_iff.mp firstOk with ⟨_, _, _, _, _, _, _, _, _, _, rfl⟩
    exact sameRange
  simp only [loadCalibValues, loadRange_again rangedOk range0,
    loadRange_again calibratedOk range1, loadOffset_again firstOk sameRange offset0,
    loadOffset_again secondOk keptRange offset1, rates, Outcome.ok_bind]

theorem convertVoltToRaw_returns (returned : adc.loadCalibValues doc = .ok loaded)
    (channel : Fin 2) : ∃ convert : δ → Word, ∀ voltage,
      loaded.convertVoltToRaw voltage channel = .ok (convert voltage) := by
  rcases loadCalibValues_eq_ok returned with ⟨ranged, calibrated, first, second, middle,
    tmpAttr, _, _, firstOk, secondOk, sameRange, sameOffset, _⟩
  rcases loadOffset_eq_ok_iff.mp firstOk with ⟨_, _, _, _, _, _, _, offset, converted0,
    inside0, firstEq⟩
  rcases loadOffset_eq_ok_iff.mp secondOk with ⟨_, _, _, _, _, _, _, offset', converted1,
    inside1, secondEq⟩
  have gains : ∃ gain, loaded.getCalibGain channel = .ok gain := by
    rw [convertRawToVoltsVerticalOffset, Outcome.bind_eq_ok] at converted0 converted1
    rcases converted0 with ⟨gain0, found0, _⟩
    rcases converted1 with ⟨gain1, found1, _⟩
    rw [getCalibGain_congr (by rw [firstEq])] at found1
    revert channel
    rw [Fin.forall_fin_two]
    exact ⟨⟨gain0, (getCalibGain_congr sameRange 0).trans found0⟩,
      ⟨gain1, (getCalibGain_congr sameRange 1).trans found1⟩⟩
  have inside : (channel : Nat) < loaded.hwOffset.length := by
    rw [sameOffset, secondEq, List.length_set]
    omega
  rcases gains with ⟨gain, found⟩
  apply Exists.intro fun voltage =>
    rawOfVolts voltage gain loaded.getFilterCompensation
      (-loaded.hwOffset[(channel : Nat)])
  intro voltage
  simp only [convertVoltToRaw, found, vectorAt_of_lt inside, Outcome.ok_bind,
    Outcome.pure_eq_ok]

end Loaded

end M2kADC

end IioEmu
