import IioEmu.Adalm2000.Document
import IioEmu.Devices.StoredRates

/-! # Which rates the transmitter accepts samples at

Any text may be stored as a rate. Opening parses the oversampling ratio, which throws where it
is no integer, and a write looks the sampling rate up in a table, which throws where it is not
there. -/

namespace IioEmu

namespace M2kDAC

section Accepted

variable {δ : Type} [Double δ]

theorem mapM_convertRawToVolts_returns_iff {dac : M2kDAC δ} {words : List Word} :
    (∃ volts, words.mapM dac.convertRawToVolts = .ok volts) ↔
      words = [] ∨ (filterCompensationTable.lookup dac.samplerate).isSome := by
  constructor
  · rintro ⟨volts, converted⟩
    cases words with
    | nil => exact Or.inl rfl
    | cons word words =>
        rw [List.mapM_cons, convertRawToVolts, Outcome.bind_eq_ok] at converted
        rcases converted with ⟨volt, first, _⟩
        rw [Outcome.bind_eq_ok] at first
        rcases first with ⟨compensation, supported, _⟩
        apply Or.inr
        rw [getFilterCompensation] at supported
        cases found : filterCompensationTable.lookup dac.samplerate with
        | none => simp [found] at supported
        | some => rfl
  · rintro (rfl | listed)
    · exact ⟨[], rfl⟩
    · rcases Option.isSome_iff_exists.mp listed with ⟨compensation, found⟩
      have supported : dac.getFilterCompensation = .ok compensation := by
        rw [getFilterCompensation, found]
      rcases mapM_convertRawToVolts supported words with ⟨volts, converted, _⟩
      exact ⟨volts, converted⟩

omit [Double δ] in
theorem samplerate_cleared (dac : M2kDAC δ) :
    dac.cleared.samplerate = dac.samplerate := by
  rw [cleared]
  split <;> rfl

theorem writeDev_returns_iff {dac : M2kDAC δ}
    (enabled : dac.enable = true) {buf : List Byte} {bytesCount : Nat} {words : List Word}
    (read : loadWords buf (bytesCount / 2) = .ok words) (offset : Nat) :
    (∃ next, dac.writeDev buf offset bytesCount = .ok ((bytesCount : Int), next)) ↔
      words = [] ∨ (filterCompensationTable.lookup dac.samplerate).isSome := by
  rw [← samplerate_cleared dac, ← mapM_convertRawToVolts_returns_iff]
  have unfolded : dac.writeDev buf offset bytesCount =
      words.mapM dac.cleared.convertRawToVolts >>= fun volts =>
        .ok ((bytesCount : Int),
            { dac.cleared with samples := dac.cleared.samples ++ volts }) := by
    simp only [writeDev, enabled, Bool.not_true, Bool.false_eq_true, if_false, read,
      Outcome.ok_bind, Outcome.pure_eq_ok]
  rw [unfolded]
  constructor
  · rintro ⟨next, returned⟩
    rcases Outcome.bind_eq_ok.mp returned with ⟨volts, converted, _⟩
    exact ⟨volts, converted⟩
  · rintro ⟨volts, converted⟩
    rw [converted]
    exact ⟨_, rfl⟩

variable [LibXml2] [TinyIIOD]

def AcceptsSamples (dac : M2kDAC δ) (doc : Option XmlDoc) (sampleSize mask : Nat)
    (cyclic : Bool) (buf : List Byte) (offset bytesCount : Nat) : Prop :=
  ∃ opened written, dac.openDev doc sampleSize mask cyclic = .ok (0, opened) ∧
    opened.writeDev buf offset bytesCount = .ok ((bytesCount : Int), written)

/-- The texts the device can work with: they fit the buffer, the oversampling ratio starts with
an `int`, and where there is a word to convert the sampling rate is in the table. -/
def Usable (δ : Type) [Double δ] (texts : RateTexts) (bytesCount : Nat) : Prop :=
  FitsBuffer texts.samplingFrequency ∧ FitsBuffer texts.oversamplingRatio ∧
    (∃ value, leadingInteger texts.oversamplingRatio = some value ∧ IsInt value) ∧
    (bytesCount < 2 ∨
      (filterCompensationTable.lookup (safeStod texts.samplingFrequency : δ)).isSome)

theorem acceptsSamples_iff_usable {dac : M2kDAC δ}
    {doc : Option XmlDoc} {texts : RateTexts}
    (holds : HoldsRates doc dac.deviceId texts.samplingFrequency texts.oversamplingRatio)
    {mask : Nat} (nonzero : mask ≠ 0) {buf : List Byte} {bytesCount : Nat}
    (buffered : bytesCount ≤ buf.length) (sampleSize : Nat)
    (cyclic : Bool) (offset : Nat) :
    dac.AcceptsSamples doc sampleSize mask cyclic buf offset bytesCount ↔
      Usable δ texts bytesCount := by
  have read : ∃ words, loadWords buf (bytesCount / 2) = .ok words ∧
      words.length = bytesCount / 2 := loadWords_of_le (by omega)
  rcases read with ⟨words, read, length⟩
  have short : words = [] ↔ bytesCount < 2 := by
    rw [← List.length_eq_zero_iff]
    omega
  have enabled : (mask != 0) = true := by simpa using nonzero
  have written (ratio : Int) := @writeDev_returns_iff δ _
    { dac.withRates texts.samplingFrequency ratio with
      cyclic := cyclic, enable := mask != 0 }
    enabled buf bytesCount words read offset
  have parsed (ratio : Int) := @stoi_eq_ok_iff texts.oversamplingRatio ratio
  simp only [short] at written
  constructor
  · rintro ⟨opened, next, opening, accepted⟩
    rw [openDev, Outcome.bind_eq_ok] at opening
    rcases opening with ⟨loaded, returned, equal⟩
    cases equal
    rcases (loadCalibValues_eq_ok_iff holds).mp returned with ⟨fits, ratioFits,
      ratio, spelled, rfl⟩
    exact ⟨fits, ratioFits, ⟨ratio, (parsed ratio).mp spelled⟩,
      (written ratio).mp ⟨next, accepted⟩⟩
  · rintro ⟨fits, ratioFits, ⟨ratio, spelled⟩, listed⟩
    have returned := (loadCalibValues_eq_ok_iff (δ := δ) holds).mpr
      ⟨fits, ratioFits, ratio, (parsed ratio).mpr spelled, rfl⟩
    rcases (written ratio).mpr listed with ⟨next, accepted⟩
    exact ⟨_, next, by rw [openDev, returned]; rfl, accepted⟩

/-- After every sequence of rate writes the device opens and takes a buffer exactly when the
texts written last are usable. -/
theorem accepts_samples_iff {doc : Option XmlDoc}
    (wellFormed : WellFormed doc) {dac : M2kDAC δ} {texts : RateTexts}
    (holds : HoldsRates doc dac.deviceId texts.samplingFrequency texts.oversamplingRatio)
    (writes : List RateWrite) {mask : Nat} (nonzero : mask ≠ 0) {buf : List Byte}
    {bytesCount : Nat} (buffered : bytesCount ≤ buf.length)
    (sampleSize : Nat) (cyclic : Bool) (offset : Nat) :
    ∃ final, writes.foldlM (writeAttr dac.deviceId) doc = .ok final ∧
      (dac.AcceptsSamples final sampleSize mask cyclic buf offset bytesCount ↔
        Usable δ (writes.foldl RateTexts.after texts) bytesCount) := by
  rcases holdsRates_of_writes holds (separates_of_wellFormed wellFormed) writes with
    ⟨final, ran, held⟩
  exact ⟨final, ran,
    acceptsSamples_iff_usable held nonzero buffered sampleSize cyclic offset⟩

end Accepted

section Examples

open scoped Reference

def bundledRates : RateTexts := ⟨"75000000", "1"⟩

theorem holdsRates_bundled :
    HoldsRates (some Adalm2000Document.adalm2000Xml) "iio:device6"
      bundledRates.samplingFrequency
      bundledRates.oversamplingRatio :=
  ⟨by decide +kernel, by decide, by decide +kernel, by decide⟩

def frequencyWrite (text : String) (free : NulFree text) : RateWrite :=
  ⟨false, text, free, [], text.length + 1⟩

theorem lower_rate_is_accepted :
    ∃ final, [frequencyWrite "7500000" (by decide)].foldlM (writeAttr "iio:device6")
        (some Adalm2000Document.adalm2000Xml) = .ok final ∧
      (construct "iio:device6" false false (0 : Rat) 0).AcceptsSamples final 2 1 false
        [0, 16] 0 2 := by
  have accepted := @accepts_samples_iff Rat _ _ _ _ (by decide +kernel)
    (construct "iio:device6" false false 0 0) _ holdsRates_bundled
    [frequencyWrite "7500000" (by decide)] 1 (by decide) [0, 16] 2 (by decide) 2 false 0
  rcases accepted with ⟨final, ran, accepts⟩
  refine ⟨final, ran, accepts.mpr ⟨?_, ?_, ?_, ?_⟩⟩
  · decide
  · decide
  · exact ⟨1, by decide, by decide⟩
  · exact Or.inr (by decide +kernel)

/-- A rate between those of the table is stored, and the next word is not accepted. -/
theorem rate_between_is_not_accepted :
    ¬ ∀ final, [frequencyWrite "50000000" (by decide)].foldlM (writeAttr "iio:device6")
        (some Adalm2000Document.adalm2000Xml) = .ok final →
      (construct "iio:device6" false false (0 : Rat) 0).AcceptsSamples final 2 1 false
        [0, 16] 0 2 := by
  intro accepts
  have refused : (do
      let final ← [frequencyWrite "50000000" (by decide)].foldlM (writeAttr "iio:device6")
        (some Adalm2000Document.adalm2000Xml)
      let (_, opened) ←
        (construct "iio:device6" false false (0 : Rat) 0).openDev final 2 1 false
      return decide (opened.writeDev [0, 16] 0 2 = Except.error Fault.outOfRange)) =
        .ok true := by
    decide +kernel
  simp only [Outcome.bind_eq_ok, Outcome.pure_eq_ok, Except.ok.injEq, Prod.exists,
    decide_eq_true_eq] at refused
  rcases refused with ⟨final, ran, ret, opened, opening, error⟩
  rcases accepts final ran with ⟨other, written, openedAlso, accepted⟩
  rw [opening, Except.ok.injEq, Prod.mk.injEq] at openedAlso
  rw [← openedAlso.2, error] at accepted
  cases accepted

end Examples

end M2kDAC

end IioEmu
