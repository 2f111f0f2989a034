import IioEmu.Adalm2000.Document
import IioEmu.Devices.M2kADC.StoredTexts
import IioEmu.Devices.M2kDAC.DeliveredSamples
import IioEmu.Devices.SplitReads

/-! # Which analog reads are answered

A read divides by what the texts of the document stand for, takes as many voltages from the
transmitters as their quotient says, and copies as many bytes as it was asked for. -/

namespace IioEmu.M2kADC

open Execution

/-! ## One channel -/

section Channel

variable {δ : Type} [Double δ] {dac : M2kDAC δ} {size ratio : Nat}

theorem length_of_resample {dest : List δ} {next : M2kDAC δ}
    (returned : resample (some dac) size ratio = .ok (dest, next)) :
    size ≤ (2 ^ 63 - 1) / 8 ∧ (ratio < 2 → dest.length = size) ∧
      (2 ≤ ratio → dest.length * ratio = size) ∧
      ∃ delivered, dac.transferSamplesToRXDevice size = .ok (delivered, next) := by
  simp only [resample_eq, Outcome.bind_eq_ok, Except.ok.injEq, Prod.mk.injEq, Prod.exists]
    at returned
  rcases returned with ⟨_, reserved, delivered, _, transferred, _, decimated, rfl, rfl⟩
  have length := M2kDAC.length_of_transferSamplesToRXDevice transferred
  refine ⟨?_, ?_, ?_, delivered, transferred⟩
  · by_contra large
    rw [reserve, if_neg large] at reserved
    cases reserved
  · intro single
    rw [analogicalDecimation, if_pos single] at decimated
    cases decimated
    exact length
  · intro several
    rw [length_of_analogicalDecimation several decimated, length]

theorem resample_returns (valid : dac.CursorValid) {count : Nat}
    (rated : count = 0 ∨ 1 ≤ ratio) (stored : count * ratio ≤ (2 ^ 63 - 1) / 8)
    (delivers : dac.Delivers (count * ratio)) :
    ∃ dest next, resample (some dac) (count * ratio) ratio = .ok (dest, next) ∧
      dest.length = count := by
  rcases valid.transfer_returns_iff.mpr delivers with ⟨delivered, next, transferred⟩
  have length := M2kDAC.length_of_transferSamplesToRXDevice transferred
  have reserved : reserve 8 (count * ratio) = .ok () := by rw [reserve, if_pos stored]
  have decimated : ∃ dest, analogicalDecimation delivered ratio = .ok dest := by
    by_cases single : ratio < 2
    · exact ⟨delivered, by rw [analogicalDecimation, if_pos single]⟩
    · exact ⟨_, analogicalDecimation_eq (by omega) length (by omega)⟩
  rcases decimated with ⟨dest, decimated⟩
  have returned : resample (some dac) (count * ratio) ratio = .ok (dest, next) := by
    simp only [resample_eq, reserved, transferred, decimated, Outcome.ok_bind]
  rcases length_of_resample returned with ⟨_, whole, blocks, _⟩
  refine ⟨dest, next, returned, ?_⟩
  by_cases single : ratio < 2
  · rw [whole single]
    rcases rated with rfl | positive
    · rw [Nat.zero_mul]
    · rw [show ratio = 1 by omega, Nat.mul_one]
  · exact Nat.eq_of_mul_eq_mul_right (by omega) (blocks (by omega))

end Channel

/-! ## Both channels -/

section Read

variable {δ : Type} [Double δ] {adc loaded : M2kADC δ} {dacA dacB : M2kDAC δ}

theorem length_of_convertPairs {voltagesA voltagesB : List δ} {count : Nat}
    {samples : List (List Word)}
    (converted : (List.range count).mapM (loaded.convertPair voltagesA voltagesB) =
      .ok samples) :
    count ≤ voltagesA.length ∧ count ≤ voltagesB.length ∧
      samples.flatten.length = 2 * count := by
  rcases Outcome.returns_of_mapM converted with ⟨positions, length, pairs⟩
  have inside : ∀ position < count,
      position < voltagesA.length ∧ position < voltagesB.length := by
    intro position within
    rcases positions position (List.mem_range.mpr within) with ⟨pair, _, made⟩
    simp only [convertPair, Outcome.bind_eq_ok, vectorAt_eq_ok_iff] at made
    rcases made with ⟨_, presentA, _, _, _, presentB, _⟩
    exact ⟨(List.getElem?_eq_some_iff.mp presentA).1,
      (List.getElem?_eq_some_iff.mp presentB).1⟩
  have two : ∀ pair ∈ samples, pair.length = 2 := by
    intro pair member
    rcases pairs pair member with ⟨position, _, made⟩
    simp only [convertPair, Outcome.bind_eq_ok, Outcome.pure_eq_ok,
      Except.ok.injEq] at made
    rcases made with ⟨_, _, _, _, _, _, _, _, rfl⟩
    rfl
  refine ⟨?_, ?_, ?_⟩
  · by_contra short
    have last := (inside (count - 1) (by omega)).1
    omega
  · by_contra short
    have last := (inside (count - 1) (by omega)).2
    omega
  · rw [List.length_range] at length
    rw [List.length_flatten, List.map_congr_left two, List.map_const',
      List.sum_replicate_nat, length, Nat.mul_comm]

variable [LibXml2] [TinyIIOD] {doc : Option XmlDoc} {offset bytesCount : Nat}

def Answers (ratio : Nat) (dacA dacB : M2kDAC δ) (bytesCount : Nat) : Prop :=
  1 ≤ ratio ∧ bytesCount / 4 * ratio ≤ (2 ^ 63 - 1) / 8 ∧
    dacA.Delivers (bytesCount / 4 * ratio) ∧ dacB.Delivers (bytesCount / 4 * ratio)

theorem answers_of_readDev (validA : dacA.CursorValid) (validB : dacB.CursorValid)
    (loads : adc.loadCalibValues doc = .ok loaded) {ret : Int} {bytes : List Byte}
    {next : M2kADC δ} {nextA nextB : M2kDAC δ}
    (returned : adc.readDev doc (some dacA) (some dacB) offset bytesCount =
      .ok (ret, bytes, next, nextA, nextB)) :
    4 ∣ bytesCount ∧ (bytesCount = 0 ∨ Answers loaded.ratio dacA dacB bytesCount) := by
  simp only [readDev, loads, Outcome.ok_bind, Outcome.bind_eq_ok, Outcome.pure_eq_ok,
    Except.ok.injEq, Prod.mk.injEq, Prod.exists] at returned
  rcases returned with ⟨_, _, voltagesA, _, resampledA, voltagesB, _, resampledB, samples,
    converted, _, copied, _⟩
  rcases length_of_resample resampledA with ⟨stored, single, several, _, transferredA⟩
  rcases length_of_resample resampledB with ⟨_, _, _, _, transferredB⟩
  rcases length_of_convertPairs converted with ⟨enough, _, words⟩
  have taken := (length_of_memcpy copied).2
  rw [length_bytesOfWords, words] at taken
  have whole : 4 ∣ bytesCount := by omega
  refine ⟨whole, ?_⟩
  by_cases none : bytesCount = 0
  · exact Or.inl none
  have asked : loaded.samplesCount bytesCount ≤
    bytesCount / 4 * loaded.ratio := Nat.mod_le _ _
  have exact_size : 1 ≤ loaded.ratio ∧
      loaded.samplesCount bytesCount = bytesCount / 4 * loaded.ratio := by
    by_cases one : loaded.ratio < 2
    · have length := single one
      have ratios : loaded.ratio = 0 ∨ loaded.ratio = 1 := by omega
      rcases ratios with zero | one
      · rw [zero, Nat.mul_zero] at asked
        omega
      · rw [one, Nat.mul_one] at asked ⊢
        omega
    · have length := several (by omega)
      have product := Nat.mul_le_mul_right loaded.ratio enough
      omega
  rcases exact_size with ⟨positive, size⟩
  rw [size] at stored transferredA transferredB
  exact Or.inr ⟨positive, stored, validA.transfer_returns_iff.mp ⟨_, _, transferredA⟩,
    validB.transfer_returns_iff.mp ⟨_, _, transferredB⟩⟩

theorem readDev_returns (validA : dacA.CursorValid) (validB : dacB.CursorValid)
    (loads : adc.loadCalibValues doc = .ok loaded) (whole : 4 ∣ bytesCount)
    (answers : bytesCount = 0 ∨ Answers loaded.ratio dacA dacB bytesCount) :
    ∃ bytes nextA nextB, adc.readDev doc (some dacA) (some dacB) offset bytesCount =
        .ok ((bytesCount : Int), bytes, loaded, nextA, nextB) ∧
      bytes.length = bytesCount := by
  have rated : bytesCount / 4 = 0 ∨ 1 ≤ loaded.ratio := by
    rcases answers with none | ⟨positive, _⟩
    · exact Or.inl (by omega)
    · exact Or.inr positive
  have stored : bytesCount / 4 * loaded.ratio ≤ (2 ^ 63 - 1) / 8 := by
    rcases answers with rfl | ⟨_, stored, _⟩
    · rw [Nat.zero_div, Nat.zero_mul]
      exact Nat.zero_le _
    · exact stored
  have delivers : dacA.Delivers (bytesCount / 4 * loaded.ratio) ∧
      dacB.Delivers (bytesCount / 4 * loaded.ratio) := by
    rcases answers with rfl | ⟨_, _, delivers⟩
    · rw [Nat.zero_div, Nat.zero_mul]
      exact ⟨Or.inl rfl, Or.inl rfl⟩
    · exact delivers
  have fewer : bytesCount / 2 ≤ (2 ^ 63 - 1) / 2 := by
    rcases rated with none | positive
    · omega
    · have least := Nat.le_mul_of_pos_right (bytesCount / 4) positive
      omega
  have reserved : reserve 2 (bytesCount / 2) = .ok () := by rw [reserve, if_pos fewer]
  have asked : loaded.samplesCount bytesCount = bytesCount / 4 * loaded.ratio :=
    wrap64_of_lt (by omega)
  rcases resample_returns validA rated stored delivers.1 with
    ⟨voltagesA, nextA, resampledA, lengthA⟩
  rcases resample_returns validB rated stored delivers.2 with
    ⟨voltagesB, nextB, resampledB, lengthB⟩
  rcases convertVoltToRaw_returns loads 0 with ⟨convert0, converts0⟩
  rcases convertVoltToRaw_returns loads 1 with ⟨convert1, converts1⟩
  have converts : ∀ (channel : Fin 2) voltage, loaded.convertVoltToRaw voltage channel =
      .ok ((if channel = 0 then convert0 else convert1) voltage) :=
    Fin.forall_fin_two.mpr ⟨converts0, converts1⟩
  have converted := mapM_convertPair converts voltagesA voltagesB lengthA lengthB
  rcases length_of_convertPairs converted with ⟨_, _, words⟩
  generalize (List.zipWith _ voltagesA voltagesB).map _ = samples at converted words
  have size : 2 * samples.flatten.length = bytesCount := by
    rw [words]
    omega
  have length : (bytesOfWords samples.flatten).length = bytesCount := by
    rw [length_bytesOfWords, size]
  refine ⟨bytesOfWords samples.flatten, nextA, nextB, ?_, length⟩
  simp only [readDev, loads, reserved, asked, resampledA, resampledB, converted,
    memcpy_bytesOfWords size, Outcome.ok_bind, Outcome.pure_eq_ok]

end Read

/-! ## Divisors -/

section Divisors

structure DividesSafely (loaded : M2kADC Rat) (bytesCount : Nat) : Prop where
  gain : ∀ (channel : Fin 2) gain, loaded.getCalibGain channel = .ok gain →
    Double.ofInt (1 <<< 12) * gain * (1.3 : Rat) ≠ 0
  oversampling : (Double.ofInt loaded.oversamplingRatio : Rat) ≠ 0
  rate : loaded.samplerate / Double.ofInt loaded.oversamplingRatio ≠ 0
  average : 2 ≤ loaded.ratio → (Double.ofInt loaded.ratio : Rat) ≠ 0
  filter : 4 ≤ bytesCount → Double.ofInt 1 * loaded.getFilterCompensation ≠ 0

def NamesGain (text : String) : Prop := startsWith text "high" ∨ startsWith text "low"

theorem gainOf_ne_zero_iff {text : String} : gainOf Rat text ≠ 0 ↔ NamesGain text := by
  rw [gainOf, NamesGain]
  split
  · rename_i high
    refine iff_of_true ?_ (Or.inl high)
    decide +kernel
  · rename_i high
    split
    · rename_i low
      refine iff_of_true ?_ (Or.inr low)
      decide +kernel
    · rename_i low
      refine iff_of_false (fun nonzero => nonzero rfl) ?_
      rintro (is | is)
      · exact high is
      · exact low is

theorem gainDivisor_ne_zero_iff {gain : Rat} :
    Double.ofInt (1 <<< 12) * gain * (1.3 : Rat) ≠ 0 ↔ gain ≠ 0 := by
  have shifted : (Double.ofInt (1 <<< 12) : Rat) ≠ 0 := by decide +kernel
  have factor : (1.3 : Rat) ≠ 0 := by decide +kernel
  rw [mul_ne_zero_iff, mul_ne_zero_iff]
  constructor
  · exact fun nonzero => nonzero.1.2
  · exact fun nonzero => ⟨⟨shifted, nonzero⟩, factor⟩

theorem getFilterCompensation_ne_zero_iff {loaded : M2kADC Rat} :
    Double.ofInt 1 * loaded.getFilterCompensation ≠ 0 ↔
      (filterCompensationTable.lookup loaded.samplerate).isSome := by
  have one : (Double.ofInt 1 : Rat) ≠ 0 := by decide +kernel
  rw [mul_ne_zero_iff, getFilterCompensation]
  cases found : filterCompensationTable.lookup loaded.samplerate with
  | none =>
      refine iff_of_false (fun nonzero => nonzero.2 ?_) (by simp)
      rw [Option.getD_none]
      decide +kernel
  | some compensation =>
      have entries :
          ∀ entry ∈ (filterCompensationTable : List (Rat × Rat)), entry.2 ≠ 0 := by
        decide +kernel
      rcases List.lookup_eq_some_iff.mp found with ⟨before, after, table, _⟩
      refine iff_of_true ⟨one, entries (loaded.samplerate, compensation) ?_⟩ rfl
      rw [table]
      exact List.mem_append_right _ List.mem_cons_self

theorem unsignedOfInt_ne_zero_iff {value : Int} (isInt : IsInt value) :
    unsignedOfInt value ≠ 0 ↔ value ≠ 0 := by
  rcases isInt with ⟨lower, upper⟩
  rw [unsignedOfInt]
  omega

theorem ofInt_ne_zero_iff {value : Nat} : (Double.ofInt value : Rat) ≠ 0 ↔ value ≠ 0 := by
  change ((value : Int) : Rat) ≠ 0 ↔ value ≠ 0
  rw [Int.cast_natCast, Nat.cast_ne_zero]

end Divisors

/-! ## Any texts -/

section Total

variable [LibXml2] [TinyIIOD]

def ReadsTotally (adc : M2kADC Rat) (doc : Option XmlDoc) (dacA dacB : M2kDAC Rat)
    (offset bytesCount : Nat) : Prop :=
  ∃ loaded bytes nextA nextB, adc.loadCalibValues doc = .ok loaded ∧
    loaded.DividesSafely bytesCount ∧
    adc.readDev doc (some dacA) (some dacB) offset bytesCount =
      .ok ((bytesCount : Int), bytes, loaded, nextA, nextB) ∧
    bytes.length = bytesCount

def AdcTexts.ratio (texts : AdcTexts) (oversampling : Int) : Nat :=
  Double.toUnsigned ((1e8 : Rat) /
    (safeStod texts.rates.samplingFrequency / Double.ofInt (unsignedOfInt oversampling)))

structure AdcTexts.Answerable (texts : AdcTexts) (dacA dacB : M2kDAC Rat)
    (bytesCount : Nat) :
    Prop where
  fit : texts.Fit
  gains : ∀ channel, NamesGain (texts.gain channel)
  rate : (safeStod texts.rates.samplingFrequency : Rat) ≠ 0
  whole : 4 ∣ bytesCount
  oversampling : ∃ value, leadingInteger texts.rates.oversamplingRatio = some value ∧
    IsInt value ∧ value ≠ 0 ∧ (bytesCount = 0 ∨
      (filterCompensationTable.lookup (safeStod texts.rates.samplingFrequency : Rat)).isSome ∧
        Answers (texts.ratio value) dacA dacB bytesCount)

omit [LibXml2] in
theorem dividesSafely_iff {adc : M2kADC Rat} {texts : AdcTexts} (sized : adc.Sized)
    (fit : texts.Fit) {value : Int} (isInt : IsInt value) {bytesCount : Nat} :
    (adc.withTexts texts value).DividesSafely bytesCount ↔
      (∀ channel, NamesGain (texts.gain channel)) ∧ value ≠ 0 ∧
        (safeStod texts.rates.samplingFrequency : Rat) ≠ 0 ∧
        (4 ≤ bytesCount → (filterCompensationTable.lookup
          (safeStod texts.rates.samplingFrequency : Rat)).isSome) := by
  have gain (channel : Fin 2) : (adc.withTexts texts value).getCalibGain channel =
      .ok (gainOf Rat (texts.gain channel)) := by
    have ranged : (adc.withTexts texts value).HasGain channel (texts.gain channel) :=
      hasGain_withRanges sized (fit.gain 0) channel
    exact ranged.getCalibGain
  have ratio : (Double.ofInt (adc.withTexts texts value).oversamplingRatio : Rat) ≠ 0 ↔
      value ≠ 0 := ofInt_ne_zero_iff.trans (unsignedOfInt_ne_zero_iff isInt)
  constructor
  · intro safe
    refine ⟨?_, ratio.mp safe.oversampling, ?_, fun several => ?_⟩
    · intro channel
      exact gainOf_ne_zero_iff.mp
        (gainDivisor_ne_zero_iff.mp (safe.gain channel _ (gain channel)))
    · intro zero
      apply safe.rate
      change safeStod texts.rates.samplingFrequency / _ = (0 : Rat)
      rw [zero, zero_div]
    · exact getFilterCompensation_ne_zero_iff.mp (safe.filter several)
  · rintro ⟨gains, nonzero, rate, listed⟩
    refine ⟨?_, ratio.mpr nonzero, div_ne_zero rate (ratio.mpr nonzero),
      ?_, fun several => ?_⟩
    · intro channel found returned
      rw [gain channel, Except.ok.injEq] at returned
      rw [← returned]
      exact gainDivisor_ne_zero_iff.mpr (gainOf_ne_zero_iff.mpr (gains channel))
    · intro several
      exact ofInt_ne_zero_iff.mpr (by omega)
    · exact getFilterCompensation_ne_zero_iff.mpr (listed several)

theorem readsTotally_iff {adc : M2kADC Rat} (sized : adc.Sized) {doc : Option XmlDoc}
    {texts : AdcTexts} (holds : HoldsTexts doc texts) {dacA dacB : M2kDAC Rat}
    (validA : dacA.CursorValid) (validB : dacB.CursorValid) (offset bytesCount : Nat) :
    adc.ReadsTotally doc dacA dacB offset bytesCount ↔
      texts.Answerable dacA dacB bytesCount := by
  constructor
  · rintro ⟨loaded, bytes, nextA, nextB, loads, safe, returned, length⟩
    rcases answers_of_readDev validA validB loads returned with ⟨whole, answers⟩
    rcases (loadCalibValues_iff holds sized).mp loads with ⟨fit, value, parsed, rfl⟩
    rcases stoi_eq_ok_iff.mp parsed with ⟨leading, isInt⟩
    rcases (dividesSafely_iff sized fit isInt).mp safe with ⟨gains, nonzero, rate, listed⟩
    refine ⟨fit, gains, rate, whole, value, leading, isInt, nonzero, ?_⟩
    rcases answers with none | answers
    · exact Or.inl none
    · by_cases none : bytesCount = 0
      · exact Or.inl none
      · exact Or.inr ⟨listed (by omega), answers⟩
  · intro answerable
    rcases answerable.oversampling with ⟨value, leading, isInt, nonzero, enough⟩
    have parsed := stoi_eq_ok_iff.mpr ⟨leading, isInt⟩
    have loads :=
      (loadCalibValues_iff holds sized).mpr ⟨answerable.fit, value, parsed, rfl⟩
    have answers : bytesCount = 0 ∨
        Answers (adc.withTexts texts value).ratio dacA dacB bytesCount :=
      enough.imp_right And.right
    have listed : 4 ≤ bytesCount → (filterCompensationTable.lookup
        (safeStod texts.rates.samplingFrequency : Rat)).isSome := by
      intro several
      rcases enough with none | ⟨listed, _⟩
      · omega
      · exact listed
    have safe := (dividesSafely_iff sized answerable.fit isInt).mpr
      ⟨answerable.gains, nonzero, answerable.rate, listed⟩
    rcases readDev_returns validA validB loads answerable.whole answers with
      ⟨bytes, nextA, nextB, returned, length⟩
    exact ⟨_, bytes, nextA, nextB, loads, safe, returned, length⟩

structure ReadCall where
  doc : Option XmlDoc
  channel1 : Option (M2kDAC Rat)
  channel2 : Option (M2kDAC Rat)
  offset : Nat
  bytesCount : Nat

def readStep (adc : M2kADC Rat) (call : ReadCall) : Outcome (M2kADC Rat) :=
  (fun result => result.2.2.1) <$>
    adc.readDev call.doc call.channel1 call.channel2 call.offset call.bytesCount

theorem Sized.readStep {adc next : M2kADC Rat} (sized : adc.Sized) {call : ReadCall}
    (stepped : adc.readStep call = .ok next) : next.Sized := by
  rcases Outcome.map_eq_ok.mp stepped with ⟨result, returned, rfl⟩
  rw [readDev, Outcome.bind_eq_ok] at returned
  rcases returned with ⟨loaded, loads, returned⟩
  simp only [Outcome.bind_eq_ok, Outcome.pure_eq_ok, Except.ok.injEq] at returned
  rcases returned with ⟨_, _, _, _, _, _, _, _, _, _, rfl⟩
  exact sized.loadCalibValues loads

theorem sized_of_run {deviceId : String} {samplerate : Rat} {oversamplingRatio : Nat}
    {calls : List ReadCall} {adc : M2kADC Rat}
    (ran : run readStep (construct deviceId samplerate oversamplingRatio) calls = .ok adc) :
    adc.Sized := by
  apply reached_invariant readStep Sized (sized_construct _ _ _) _ adc
    ⟨calls, List.prefix_rfl, ran⟩
  intro earlier call next _ stepped holds
  exact holds.readStep stepped

/-- After any earlier reads, a read is total exactly where the texts it finds are
answerable. -/
theorem reads_totally_iff {deviceId : String} {samplerate : Rat} {oversamplingRatio : Nat}
    {calls : List ReadCall} {adc : M2kADC Rat}
    (ran : run readStep (construct deviceId samplerate oversamplingRatio) calls = .ok adc)
    {doc : Option XmlDoc} {texts : AdcTexts} (holds : HoldsTexts doc texts)
    {dacA dacB : M2kDAC Rat} (validA : dacA.CursorValid) (validB : dacB.CursorValid)
    (offset bytesCount : Nat) :
    adc.ReadsTotally doc dacA dacB offset bytesCount ↔
      texts.Answerable dacA dacB bytesCount := by
  exact readsTotally_iff (sized_of_run ran) holds validA validB offset bytesCount

end Total

section Examples

open scoped Reference

def bundledTexts : AdcTexts where
  gain _ := "low"
  raw _ := "2048"
  calibbias channel := if channel.val = 0 then "1050" else "1060"
  rates := ⟨"100000000", "1"⟩

theorem holdsTexts_bundled :
    HoldsTexts (some Adalm2000Document.adalm2000Xml) bundledTexts where
  gain := Fin.forall_fin_two.mpr
    ⟨⟨by decide +kernel, by decide⟩, ⟨by decide +kernel, by decide⟩⟩
  raw := Fin.forall_fin_two.mpr
    ⟨⟨by decide +kernel, by decide⟩, ⟨by decide +kernel, by decide⟩⟩
  calibbias := Fin.forall_fin_two.mpr
    ⟨⟨by decide +kernel, by decide⟩, ⟨by decide +kernel, by decide⟩⟩
  rates := ⟨by decide +kernel, by decide, by decide +kernel, by decide⟩

def newTransmitter (deviceId : String) : M2kDAC Rat :=
  M2kDAC.construct deviceId false false 0 0

theorem bundled_read_is_total :
    (construct "iio:device0" (0 : Rat) 0).ReadsTotally
      (some Adalm2000Document.adalm2000Xml)
      (newTransmitter "iio:device6") (newTransmitter "iio:device7") 0 8 := by
  have quotient : bundledTexts.ratio 1 = 1 := by decide +kernel
  have ran : run readStep (construct "iio:device0" (0 : Rat) 0) [] =
      .ok (construct "iio:device0" (0 : Rat) 0) := rfl
  apply (reads_totally_iff ran holdsTexts_bundled (Or.inr ⟨rfl, rfl⟩)
    (Or.inr ⟨rfl, rfl⟩) 0 8).mpr
  have gains (channel : Fin 2) : NamesGain (bundledTexts.gain channel) :=
    Or.inr (show startsWith "low" "low" = true by decide)
  refine ⟨⟨?_, ?_, ?_, by decide, by decide⟩, gains, by decide +kernel, by decide, 1,
    by decide, by decide, by decide, Or.inr ⟨by decide +kernel, ?_⟩⟩
  · decide
  · decide
  · decide
  · rw [Answers, quotient]
    exact ⟨Nat.le_refl 1, by decide, Or.inr (by decide), Or.inr (by decide)⟩

def misspelledDocument : Outcome (Option XmlDoc) :=
  Prod.snd <$> writeDevAttr (some Adalm2000Document.adalm2000Xml) "iio:device0"
    "oversampling_ratio" (terminated "abc") 4 .device

/-- The next read throws. -/
theorem misspelled_ratio_is_not_read :
    (newTransmitter "iio:device6").CursorValid ∧
    (newTransmitter "iio:device7").CursorValid ∧
      ¬ ∀ doc, misspelledDocument = .ok doc →
        (construct "iio:device0" (0 : Rat) 0).ReadsTotally doc
          (newTransmitter "iio:device6")
          (newTransmitter "iio:device7") 0 8 := by
  refine ⟨Or.inr ⟨rfl, rfl⟩, Or.inr ⟨rfl, rfl⟩, fun total => ?_⟩
  have throws :
      (misspelledDocument >>= (construct "iio:device0" (0 : Rat) 0).loadCalibValues) =
      .error .invalidArgument := by
    decide +kernel
  cases stored : misspelledDocument with
  | error fault =>
      have written : misspelledDocument.toOption.isSome := by decide +kernel
      rw [stored] at written
      cases written
  | ok doc =>
      rcases total doc stored with ⟨loaded, _, _, _, loads, _⟩
      rw [stored, Outcome.ok_bind, loads] at throws
      cases throws

end Examples

end IioEmu.M2kADC
