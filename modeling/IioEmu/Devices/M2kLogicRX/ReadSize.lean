import IioEmu.Adalm2000.Document
import IioEmu.Devices.M2kLogicRX.LoopBack
import IioEmu.Devices.M2kLogicTX.CursorSafety
import IioEmu.Devices.StoredRates

/-! # How much a logic read has to give

A read copies as many bytes as it was asked for. The words it has are the halved count, times
the ratio, decimated again. -/

namespace IioEmu.M2kLogicRX

section ReadSize

variable {δ : Type} [Double δ] [LibXml2] [TinyIIOD]

def FillsBuffer (rx : M2kLogicRX δ) (doc : Option XmlDoc) (tx : M2kLogicTX δ)
    (offset bytesCount : Nat) : Prop :=
  ∃ samples bytes next played,
    rx.resample doc (some tx) 0 bytesCount = .ok (samples, next, played) ∧
    bytesCount ≤ (bytesOfWords samples).length ∧
    rx.readDev doc (some tx) offset bytesCount = .ok ((bytesCount : Int),
      bytes, next, played) ∧
    bytes.length = bytesCount

def quotientOf (δ : Type) [Double δ] (samplingFrequency : String) : Nat :=
  Double.toUnsigned ((1e8 : δ) / safeStod samplingFrequency)

/-- A text that is a rate, and a count that reading at this rate gives. -/
def Readable (δ : Type) [Double δ] (samplingFrequency : String)
    (bytesCount : Nat) : Prop :=
  FitsBuffer samplingFrequency ∧ 2 ∣ bytesCount ∧
    (bytesCount = 0 ∨ 1 ≤ quotientOf δ samplingFrequency) ∧
    Countable (quotientOf δ samplingFrequency) (bytesCount / 2)

variable {rx loaded : M2kLogicRX δ} {doc : Option XmlDoc} {tx : M2kLogicTX δ}

theorem loadValues_eq_ok_iff {samplingFrequency : String}
    (holds : contents doc (samplingFrequencyOf rx.deviceId) =
      .ok (some (some samplingFrequency)))
    (free : NulFree samplingFrequency) :
    rx.loadValues doc = .ok loaded ↔ FitsBuffer samplingFrequency ∧
      loaded = { rx with samplerate := safeStod samplingFrequency } := by
  have sized : (uninitialised TinyIIOD.IIOD_BUFFER_SIZE).length =
      TinyIIOD.IIOD_BUFFER_SIZE :=
    List.length_replicate
  have frequency (ret : Int) (stored : CharArray) :
      readDeviceAttr doc rx.deviceId "sampling_frequency"
        (uninitialised TinyIIOD.IIOD_BUFFER_SIZE) TinyIIOD.IIOD_BUFFER_SIZE .device =
          .ok (ret, stored) ↔ _ := read_text_iff holds free sized
  simp only [loadValues, Outcome.bind_eq_ok, Prod.exists,
    Outcome.pure_eq_ok, Except.ok.injEq, frequency]
  constructor
  · rintro ⟨_, _, ⟨fits, rfl, rfl⟩, text, spelled, rfl⟩
    rw [cString_terminated_append free, Except.ok.injEq] at spelled
    exact ⟨fits, by rw [spelled]⟩
  · rintro ⟨fits, rfl⟩
    exact ⟨_, _, ⟨fits, rfl, rfl⟩, _, cString_terminated_append free _, rfl⟩

theorem resample_returns (returned : rx.loadValues doc = .ok loaded)
    (valid : tx.CursorValid) {len : Nat} (rated : len / 2 = 0 ∨ 1 ≤ loaded.ratio)
    (countable : Countable loaded.ratio (len / 2)) :
    ∃ samples played, rx.resample doc (some tx) 0 len = .ok (samples, loaded, played) ∧
      samples.length = len / 2 := by
  have bounds : len / 2 * loaded.ratio ≤ (2 ^ 63 - 1) / 2 := by
    rcases countable with counted | ⟨single, stored⟩
    · omega
    · rw [single]
      omega
  have asked : loaded.samplesCount len = len / 2 * loaded.ratio := wrap64_of_lt (by omega)
  have reserved : reserve 2 (len / 2 * loaded.ratio) = .ok () := by
    rw [reserve, if_pos bounds]
  rcases valid.transfer (len / 2 * loaded.ratio) with ⟨delivered, played, transferred, _⟩
  have length := M2kLogicTX.length_of_transferSamplesToRXDevice transferred
  have voted : ∃ samples, digitalDecimation delivered loaded.ratio = .ok samples ∧
      samples.length = len / 2 := by
    by_cases single : loaded.ratio < 2
    · refine ⟨delivered, by rw [digitalDecimation, if_pos single], ?_⟩
      rw [length]
      rcases rated with none | positive
      · rw [none, Nat.zero_mul]
      · rw [show loaded.ratio = 1 by omega, Nat.mul_one]
    · have counted : len / 2 * loaded.ratio < 2 ^ 32 := by
        rcases countable with counted | ⟨one, _⟩
        · exact counted
        · omega
      exact ⟨_, digitalDecimation_eq (by decide) (by decide) (by omega) length (by omega),
        by simp⟩
  rcases voted with ⟨samples, decimated, half⟩
  refine ⟨samples, played, ?_, half⟩
  simp only [resample, returned, Outcome.ok_bind, asked, reserved, transferred, decimated,
    Outcome.pure_eq_ok]

theorem resample_ends_iff (returned : rx.loadValues doc = .ok loaded)
    (valid : tx.CursorValid) (several : 2 ≤ loaded.ratio) (len : Nat) :
    (∃ samples next played,
      rx.resample doc (some tx) 0 len = .ok (samples, next, played) ∧
      samples.length = len / 2) ↔ len / 2 * loaded.ratio < 2 ^ 32 := by
  constructor
  · rintro ⟨samples, next, played, resampled, half⟩
    rcases ((size_of_resample returned resampled).2 (by omega)).2 with
      counted | ⟨single, _⟩
    · exact counted
    · omega
  · intro counted
    rcases resample_returns returned valid (Or.inr (by omega)) (Or.inl counted) with
      ⟨samples, played, resampled, half⟩
    exact ⟨samples, loaded, played, resampled, half⟩

/-- A read from a transmitter with a valid cursor fills the buffer exactly when its rate and its
count are readable. -/
theorem read_fills_iff {samplingFrequency : String}
    (holds : contents doc (samplingFrequencyOf rx.deviceId) =
      .ok (some (some samplingFrequency)))
    (free : NulFree samplingFrequency) (valid : tx.CursorValid)
    (offset bytesCount : Nat) :
    rx.FillsBuffer doc tx offset bytesCount ↔
    Readable δ samplingFrequency bytesCount := by
  constructor
  · rintro ⟨samples, bytes, next, played, resampled, enough, _, _⟩
    have loads := resampled
    rw [resample, Outcome.bind_eq_ok] at loads
    rcases loads with ⟨loaded, returned, _⟩
    rcases (loadValues_eq_ok_iff holds free).mp returned with ⟨fits, rfl⟩
    rcases size_of_resample returned resampled with ⟨most, whole⟩
    rw [length_bytesOfWords] at enough
    rcases whole (by omega) with ⟨rated, countable⟩
    exact ⟨fits, by omega, rated.imp_left (fun none => by omega), countable⟩
  · rintro ⟨fits, even, rated, countable⟩
    have returned := (loadValues_eq_ok_iff holds free).mpr ⟨fits, rfl⟩
    rcases resample_returns returned valid
        (rated.imp_left (fun none => by omega)) countable with
      ⟨samples, played, resampled, half⟩
    have size : 2 * samples.length = bytesCount := by omega
    have length : (bytesOfWords samples).length = bytesCount := by
      rw [length_bytesOfWords, size]
    refine ⟨samples, bytesOfWords samples, _, played, resampled,
      Nat.le_of_eq length.symm, ?_, length⟩
    simp only [readDev, resampled, memcpy_bytesOfWords size, Outcome.ok_bind,
      Outcome.pure_eq_ok]

end ReadSize

section Examples

open scoped Reference

def bundledReceiver : M2kLogicRX Rat := ⟨"iio:device10", 0⟩

def newTransmitter : M2kLogicTX Rat := M2kLogicTX.construct "iio:device9" 0

theorem holds_bundled : contents (some Adalm2000Document.adalm2000Xml)
    (samplingFrequencyOf bundledReceiver.deviceId) = .ok (some (some "100000000")) := by
  decide +kernel

theorem four_bytes_are_filled :
    bundledReceiver.FillsBuffer (some Adalm2000Document.adalm2000Xml) newTransmitter 0 4 := by
  have quotient : quotientOf Rat "100000000" = 1 := by decide +kernel
  refine (read_fills_iff holds_bundled (by decide) (Or.inr ⟨rfl, rfl⟩) 0 4).mpr
    ⟨by decide, by decide, ?_, ?_⟩
  · rw [quotient]
    exact Or.inr (Nat.le_refl 1)
  · rw [quotient]
    exact Or.inl (by decide)

/-- Three bytes are copied from one word. -/
theorem three_bytes_are_not_filled : newTransmitter.CursorValid ∧
    ¬ bundledReceiver.FillsBuffer (some Adalm2000Document.adalm2000Xml)
      newTransmitter 0 3 := by
  refine ⟨Or.inr ⟨rfl, rfl⟩, ?_⟩
  rintro ⟨samples, bytes, next, played, resampled, enough, _⟩
  have single : (bundledReceiver.resample (some Adalm2000Document.adalm2000Xml)
      (some newTransmitter) 0 3).map (fun result => result.1.length) = .ok 1 := by
    decide +kernel
  rw [resampled, Except.map, Except.ok.injEq] at single
  rw [length_bytesOfWords, single] at enough
  omega

end Examples

end IioEmu.M2kLogicRX
