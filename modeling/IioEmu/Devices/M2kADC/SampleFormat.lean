import IioEmu.Devices.M2kADC.TotalReads
import IioEmu.Foundation.Quantisation
import Mathlib.Tactic.FieldSimp
import Mathlib.Tactic.NormNum

/-! # Which samples fit the declared format

Both channels declare samples of twelve signed bits. A sample adds what the offset contributes
to what the voltage of the transmitter contributes, and the sum is not limited to twelve bits. -/

namespace IioEmu.M2kADC

open Execution

/-! ## Settings -/

inductive Gain where
  | low
  | high
  deriving DecidableEq

def Gain.text : Gain → String
  | .low => "low"
  | .high => "high"

def Gain.value : Gain → Rat
  | .low => 0.02017
  | .high => 0.21229

def adcRates : List Rat := [1000, 10000, 100000, 1000000, 10000000, 100000000]

def dacRates : List Rat := [750, 7500, 75000, 750000, 7500000, 75000000]

structure Setting where
  gain : Gain
  adcRate : Rat
  dacRate : Rat
  raw : Int
  calibbias : Int
  adcRate_mem : adcRate ∈ adcRates
  dacRate_mem : dacRate ∈ dacRates
  raw_range : 0 ≤ raw ∧ raw ≤ 4095
  calibbias_range : 0 ≤ calibbias ∧ calibbias ≤ 4095

namespace Setting

variable (setting : Setting)

def adcCompensation : Rat := (filterCompensationTable.lookup setting.adcRate).getD 0

def dacCompensation : Rat :=
  (M2kDAC.filterCompensationTable.lookup setting.dacRate).getD 0

def bias : Int := setting.raw - setting.calibbias

def taken (word : Word) : Rat :=
  ((word.toInt >>> (4 : Nat) : Int) + 1 / 2) *
    (setting.dacCompensation * setting.gain.value * (20480 / 2457))

def uncompensated (word : Word) : Rat := setting.bias * (2693 / 1300) - setting.taken word

def Fits (word : Word) : Prop :=
  (setting.taken word - 2049 * setting.adcCompensation) * (1300 / 2693) < setting.bias ∧
    setting.bias < (setting.taken word + 2048 * setting.adcCompensation) * (1300 / 2693)

instance (word : Word) : Decidable (setting.Fits word) :=
  inferInstanceAs (Decidable (_ ∧ _))

/-! ## The size of a sample -/

theorem lookup_adcRate : filterCompensationTable.lookup setting.adcRate =
    some setting.adcCompensation ∧ 1 ≤ setting.adcCompensation := by
  have listed : ∀ rate ∈ adcRates,
      filterCompensationTable.lookup rate =
        some ((filterCompensationTable.lookup rate).getD (0 : Rat)) ∧
      1 ≤ (filterCompensationTable.lookup rate).getD (0 : Rat) := by decide +kernel
  exact listed _ setting.adcRate_mem

theorem lookup_dacRate : M2kDAC.filterCompensationTable.lookup setting.dacRate =
    some setting.dacCompensation ∧ 0 ≤ setting.dacCompensation ∧
    setting.dacCompensation ≤ 2 := by
  have listed : ∀ rate ∈ dacRates,
      M2kDAC.filterCompensationTable.lookup rate =
        some ((M2kDAC.filterCompensationTable.lookup rate).getD (0 : Rat)) ∧
      0 ≤ (M2kDAC.filterCompensationTable.lookup rate).getD (0 : Rat) ∧
      (M2kDAC.filterCompensationTable.lookup rate).getD (0 : Rat) ≤ 2 := by decide +kernel
  exact listed _ setting.dacRate_mem

theorem gain_bounds : 0 < setting.gain.value ∧ setting.gain.value ≤ 1 / 4 := by
  cases setting.gain with
  | low => decide +kernel
  | high => decide +kernel

theorem bias_bounds : -4095 ≤ setting.bias ∧ setting.bias ≤ 4095 := by
  rcases setting.raw_range with ⟨rawLower, rawUpper⟩
  rcases setting.calibbias_range with ⟨calibbiasLower, calibbiasUpper⟩
  rw [bias]
  omega

theorem shifted_bounds (word : Word) :
    -2048 ≤ word.toInt >>> (4 : Nat) ∧ word.toInt >>> (4 : Nat) ≤ 2047 := by
  have lower := BitVec.le_toInt word
  have upper := BitVec.toInt_lt (x := word)
  rw [Int.shiftRight_eq_div_pow]
  omega

theorem taken_bounds (word : Word) :
    -9000 ≤ setting.taken word ∧ setting.taken word ≤ 9000 := by
  rcases setting.gain_bounds with ⟨gainPositive, gainSmall⟩
  rcases setting.lookup_dacRate with ⟨_, compensationPositive, compensationSmall⟩
  rcases shifted_bounds word with ⟨codeLower, codeUpper⟩
  have lower : (-2048 : Rat) ≤ (word.toInt >>> (4 : Nat) : Int) := by
    exact_mod_cast codeLower
  have upper : ((word.toInt >>> (4 : Nat) : Int) : Rat) ≤ 2047 := by
    exact_mod_cast codeUpper
  have scaled : setting.dacCompensation * setting.gain.value ≤ 2 * (1 / 4) :=
    mul_le_mul compensationSmall gainSmall gainPositive.le (by norm_num)
  have positive : 0 ≤ setting.dacCompensation * setting.gain.value :=
    mul_nonneg compensationPositive gainPositive.le
  have step : 0 ≤ setting.dacCompensation * setting.gain.value * (20480 / 2457) ∧
      setting.dacCompensation * setting.gain.value * (20480 / 2457) ≤ 4.25 := by
    constructor
    · positivity
    · linarith
  rw [taken]
  constructor
  · nlinarith [mul_le_mul_of_nonneg_right lower step.1]
  · nlinarith [mul_le_mul_of_nonneg_right upper step.1]

theorem signedIn_word (word : Word) :
    SignedIn 16 (truncate (setting.uncompensated word / setting.adcCompensation)) := by
  rcases setting.lookup_adcRate with ⟨_, atLeastOne⟩
  rcases setting.taken_bounds word with ⟨takenLower, takenUpper⟩
  rcases setting.bias_bounds with ⟨biasLower, biasUpper⟩
  have lower : (-4095 : Rat) ≤ setting.bias := by exact_mod_cast biasLower
  have upper : (setting.bias : Rat) ≤ 4095 := by exact_mod_cast biasUpper
  have positive : 0 < setting.adcCompensation := by linarith
  rw [signedIn_truncate_iff, lt_div_iff₀ positive, div_lt_iff₀ positive, uncompensated]
  norm_num
  constructor <;> linarith

theorem signedIn_format_iff (word : Word) :
    SignedIn 12 (truncate (setting.uncompensated word / setting.adcCompensation)) ↔
      setting.Fits word := by
  rcases setting.lookup_adcRate with ⟨_, atLeastOne⟩
  have positive : 0 < setting.adcCompensation := by linarith
  rw [signedIn_truncate_iff, lt_div_iff₀ positive, div_lt_iff₀ positive,
    uncompensated, Fits]
  norm_num
  constructor
  · rintro ⟨lower, upper⟩
    constructor <;> linarith
  · rintro ⟨lower, upper⟩
    constructor <;> linarith

end Setting

/-! ## What the code computes -/

section Computed

variable (setting : Setting)

def Setting.hwOffset : Rat :=
  Double.ofInt setting.bias * (2.693 : Rat) * (1.2 : Rat) /
    (Double.ofInt (1 <<< 12) * setting.gain.value * (1.3 : Rat))

def Setting.voltage (word : Word) : Rat :=
  -((Double.ofInt (word.toInt >>> (4 : Nat)) + (0.5 : Rat)) * setting.dacCompensation *
    M2kDAC.calibVlsb)

theorem rawOfVolts_eq (word : Word) :
    rawOfVolts (setting.voltage word) setting.gain.value setting.adcCompensation
      (-setting.hwOffset) =
        BitVec.ofInt 16
          (Double.toInt (setting.uncompensated word / setting.adcCompensation)) := by
  rcases setting.gain_bounds with ⟨gainPositive, _⟩
  rcases setting.lookup_adcRate with ⟨_, atLeastOne⟩
  have gain : setting.gain.value ≠ 0 := gainPositive.ne'
  have compensation : setting.adcCompensation ≠ 0 := by linarith
  have vlsb : (M2kDAC.calibVlsb : Rat) = 2 / 819 := by decide +kernel
  have exact : (setting.voltage word - -setting.hwOffset) /
      ((1 : Int) * setting.adcCompensation) *
        (((2048 : Int) : Rat) * (1.3 : Rat) * setting.gain.value) / (0.78 : Rat) =
      setting.uncompensated word / setting.adcCompensation := by
    simp only [Setting.voltage, Setting.hwOffset, Setting.uncompensated,
      Setting.taken, vlsb, Double.ofInt, Nat.reduceShiftLeft, Nat.cast_ofNat]
    field_simp
    ring
  exact congrArg (fun value => BitVec.ofInt 16 (Double.toInt value)) exact

theorem convertRawToVolts_eq {dac : M2kDAC Rat} (rated : dac.samplerate = setting.dacRate)
    (word : Word) : dac.convertRawToVolts word = .ok (setting.voltage word) := by
  have supported : dac.getFilterCompensation = .ok setting.dacCompensation := by
    rw [M2kDAC.getFilterCompensation, rated, setting.lookup_dacRate.1]
  rw [M2kDAC.convertRawToVolts, supported]
  rfl

end Computed

/-! ## What a client stored -/

section Stored

structure Spells (texts : AdcTexts) (channel : Fin 2) (setting : Setting) : Prop where
  gain : texts.gain channel = setting.gain.text
  raw : (safeStod (texts.raw channel) : Rat) = setting.raw
  calibbias : (safeStod (texts.calibbias channel) : Rat) = setting.calibbias
  rate : (safeStod texts.rates.samplingFrequency : Rat) = setting.adcRate

variable {texts : AdcTexts} {channel : Fin 2} {setting : Setting}

theorem Spells.gainOf_eq (spelled : Spells texts channel setting) :
    gainOf Rat (texts.gain channel) = setting.gain.value := by
  rw [spelled.gain]
  cases setting.gain with
  | low => decide +kernel
  | high => decide +kernel

theorem Spells.offsetOf_eq (spelled : Spells texts channel setting) :
    offsetOf texts channel = setting.hwOffset := by
  have difference :
      (safeStod (texts.raw channel) : Rat) - safeStod (texts.calibbias channel) =
      (setting.bias : Rat) := by
    rw [spelled.raw, spelled.calibbias, Setting.bias, Int.cast_sub]
  have signed : SignedIn 16 setting.bias := by
    rcases setting.bias_bounds with ⟨lower, upper⟩
    rw [SignedIn]
    omega
  have stored :
      (BitVec.ofInt 16 (Double.toInt (setting.bias : Rat))).toInt = setting.bias := by
    have exact := @truncate_intCast setting.bias
    rw [toInt_ofInt_toInt (by decide) (by decide) (by rw [exact]; exact signed), exact]
  rw [offsetOf, spelled.gainOf_eq, Setting.hwOffset]
  simp only [difference, stored]

variable [LibXml2] [TinyIIOD]

omit [LibXml2] in
theorem convertVoltToRaw_withTexts
    (spelled : Spells texts channel setting) {adc : M2kADC Rat} (sized : adc.Sized)
    (fit : texts.Fit) (ratio : Int) (word : Word) :
    (adc.withTexts texts ratio).convertVoltToRaw (setting.voltage word) channel =
      .ok (BitVec.ofInt 16
        (Double.toInt (setting.uncompensated word / setting.adcCompensation))) := by
  have ranged : (adc.withTexts texts ratio).HasGain channel (texts.gain channel) :=
    hasGain_withRanges sized (fit.gain channel1) channel
  have gain : (adc.withTexts texts ratio).getCalibGain channel =
      .ok setting.gain.value := by
    rw [ranged.getCalibGain, spelled.gainOf_eq]
  have offsets : ∀ channel : Fin 2,
      (adc.withTexts texts ratio).hwOffset[channel.val]? =
      some (offsetOf texts channel) := by
    have both : (adc.withTexts texts ratio).hwOffset =
        (adc.hwOffset.set 0 (offsetOf texts 0)).set 1 (offsetOf texts 1) := rfl
    rw [both, Fin.forall_fin_two]
    simp [sized.offsets]
  have offset : vectorAt (adc.withTexts texts ratio).hwOffset channel =
      .ok setting.hwOffset := by
    rw [vectorAt_eq_ok_iff, offsets channel, spelled.offsetOf_eq]
  have compensation : (adc.withTexts texts ratio).getFilterCompensation =
      setting.adcCompensation := by
    have rate : (adc.withTexts texts ratio).samplerate = setting.adcRate := spelled.rate
    rw [getFilterCompensation, rate, setting.lookup_adcRate.1, Option.getD_some]
  rw [convertVoltToRaw, gain, Outcome.ok_bind, offset, Outcome.ok_bind, compensation,
    rawOfVolts_eq]
  rfl

def SampleFits (loaded : M2kADC Rat) (voltage : Rat) (channel : Fin 2) : Prop :=
  ∃ sample, loaded.convertVoltToRaw voltage channel = .ok sample ∧
    SignedIn 12 sample.toInt

theorem sampleFits_of_loaded {doc : Option XmlDoc} (holds : HoldsTexts doc texts)
    {adc loaded : M2kADC Rat} (sized : adc.Sized)
    (loads : adc.loadCalibValues doc = .ok loaded)
    (spelled : Spells texts channel setting) (word : Word) :
    SampleFits loaded (setting.voltage word) channel ↔ setting.Fits word := by
  rcases (loadCalibValues_iff holds sized).mp loads with ⟨fit, ratio, _, rfl⟩
  rw [SampleFits, convertVoltToRaw_withTexts spelled sized fit]
  simp only [Except.ok.injEq, exists_eq_left']
  rw [toInt_ofInt_toInt (by decide) (by decide) (setting.signedIn_word word),
    setting.signedIn_format_iff]

/-- After any earlier reads, the sample for a word has the declared format exactly where the
bias lies between the bounds of the word. -/
theorem sample_fits_iff {deviceId : String} {samplerate : Rat} {oversamplingRatio : Nat}
    {calls : List ReadCall} {adc loaded : M2kADC Rat}
    (ran : run readStep (construct deviceId samplerate oversamplingRatio) calls = .ok adc)
    {doc : Option XmlDoc} (holds : HoldsTexts doc texts)
    (loads : adc.loadCalibValues doc = .ok loaded)
    (spelled : Spells texts channel setting) {dac : M2kDAC Rat}
    (rated : dac.samplerate = setting.dacRate) {word : Word} {voltage : Rat}
    (converted : dac.convertRawToVolts word = .ok voltage) :
    SampleFits loaded voltage channel ↔ setting.Fits word := by
  rw [convertRawToVolts_eq setting rated, Except.ok.injEq] at converted
  subst converted
  exact sampleFits_of_loaded holds (sized_of_run ran) loads spelled word

end Stored

section Examples

open scoped Reference

def bundledSetting (channel : Fin 2) : Setting where
  gain := .low
  adcRate := 100000000
  dacRate := 75000000
  raw := 2048
  calibbias := if channel.val = 0 then 1050 else 1060
  adcRate_mem := by decide +kernel
  dacRate_mem := by decide +kernel
  raw_range := by decide
  calibbias_range := by split <;> decide

theorem spells_bundled (channel : Fin 2) :
    Spells bundledTexts channel (bundledSetting channel) := by
  revert channel
  rw [Fin.forall_fin_two]
  exact ⟨⟨rfl, by decide +kernel, by decide +kernel, by decide +kernel⟩,
    ⟨rfl, by decide +kernel, by decide +kernel, by decide +kernel⟩⟩

def bundledReceiver : M2kADC Rat :=
  (construct "iio:device0" (0 : Rat) 0).withTexts bundledTexts 1

theorem loads_bundled : (construct "iio:device0" (0 : Rat) 0).loadCalibValues
    (some Adalm2000Document.adalm2000Xml) = .ok bundledReceiver := by
  apply (loadCalibValues_iff holdsTexts_bundled (sized_construct _ _ _)).mpr
  refine ⟨⟨?_, ?_, ?_, by decide, by decide⟩, 1, by decide, rfl⟩
  · decide
  · decide
  · decide

def fastTransmitter : M2kDAC Rat :=
  { newTransmitter "iio:device6" with samplerate := 75000000 }

theorem second_channel_fits :
    run readStep (construct "iio:device0" (0 : Rat) 0) [] =
        .ok (construct "iio:device0" (0 : Rat) 0) ∧
      fastTransmitter.samplerate = (bundledSetting channel2).dacRate ∧
      fastTransmitter.convertRawToVolts 0 = .ok ((bundledSetting channel2).voltage 0) ∧
      SampleFits bundledReceiver ((bundledSetting channel2).voltage 0) channel2 := by
  have ran : run readStep (construct "iio:device0" (0 : Rat) 0) [] =
      .ok (construct "iio:device0" (0 : Rat) 0) := rfl
  have rated : fastTransmitter.samplerate = (bundledSetting channel2).dacRate := rfl
  have converted := convertRawToVolts_eq (bundledSetting channel2) rated 0
  refine ⟨ran, rated, converted, ?_⟩
  apply (sample_fits_iff ran holdsTexts_bundled loads_bundled (spells_bundled channel2) rated
    converted).mpr
  decide +kernel

/-- It does not fit the first one, whose sample is 2067. -/
theorem first_channel_does_not_fit :
    (construct "iio:device0" (0 : Rat) 0).loadCalibValues
        (some Adalm2000Document.adalm2000Xml) = .ok bundledReceiver ∧
      fastTransmitter.convertRawToVolts 0 = .ok ((bundledSetting channel1).voltage 0) ∧
      bundledReceiver.convertVoltToRaw ((bundledSetting channel1).voltage 0) channel1 =
        .ok 2067 ∧
      ¬ SampleFits bundledReceiver ((bundledSetting channel1).voltage 0) channel1 := by
  refine ⟨loads_bundled, convertRawToVolts_eq (bundledSetting channel1) rfl 0,
    by decide +kernel, fun fits => ?_⟩
  have within :=
    (sampleFits_of_loaded holdsTexts_bundled (sized_construct _ _ _) loads_bundled
    (spells_bundled channel1) 0).mp fits
  revert within
  decide +kernel

end Examples

end IioEmu.M2kADC
