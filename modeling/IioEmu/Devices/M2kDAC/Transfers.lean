import IioEmu.Devices.M2kDAC.CancelBuffer
import IioEmu.Devices.StoredRates

/-! # Transfers that complete

A transfer interpolates what is stored. Below the highest rate this takes a first sample, and
nothing makes sure that there is one. -/

namespace IioEmu

def advertisedRates : List (String × Nat) :=
  [("750", 100000), ("7500", 10000), ("75000", 1000), ("750000", 100), ("7500000", 10),
    ("75000000", 1)]

/-- The highest rate is an exact multiple of each advertised one. -/
class ExactRates (δ : Type) [Double δ] : Prop where
  quotient : ∀ entry ∈ advertisedRates,
    Double.toUnsigned ((75e6 : δ) / (safeStod entry.1 / Double.ofInt 1)) = entry.2

instance : ExactRates Rat where
  quotient := by decide +kernel

namespace M2kDAC

open Execution

section Transfers

variable {δ : Type} [Double δ] [LibXml2] [TinyIIOD]

def Interpolable (samples : List δ) (ratio : Nat) : Prop :=
  ratio < 2 ∨ (samples ≠ [] ∧ samples.length ≤ 2 ^ 32 ∧
    (samples.length - 1) * ratio + samples.length ≤ (2 ^ 63 - 1) / 8)

structure Advertises (doc : Option XmlDoc) (deviceId : String)
    (entry : String × Nat) : Prop where
  advertised : entry ∈ advertisedRates
  holds : HoldsRates doc deviceId entry.1 "1"

def Completes (dac : M2kDAC δ) (doc : Option XmlDoc) (bytesCount : Nat) : Prop :=
  ∃ next, dac.transferMemToDev doc bytesCount = .ok (0, next)

theorem completes_iff_step {dac : M2kDAC δ} {doc : Option XmlDoc} {bytesCount : Nat} :
    dac.Completes doc bytesCount ↔
      ∃ next, dac.step (.transferMemToDev doc bytesCount) = .ok next := by
  constructor
  · rintro ⟨next, completed⟩
    exact ⟨next, by simp [step, completed]⟩
  · rintro ⟨next, stepped⟩
    rcases step_transferMemToDev.mp stepped with ⟨loaded, samples,
      returned, interpolated, _⟩
    have resampled := resample_eq_ok_iff.mpr ⟨returned, interpolated⟩
    exact ⟨_, by rw [transferMemToDev, resampled]; rfl⟩

variable [ExactRates δ]

omit [LibXml2] [TinyIIOD] in
theorem ratio_of_advertised (dac : M2kDAC δ) {entry : String × Nat}
    (advertised : entry ∈ advertisedRates) : (dac.withRates entry.1 1).ratio = entry.2 :=
  ExactRates.quotient entry advertised

theorem completes_iff_interpolable {dac : M2kDAC δ} {doc : Option XmlDoc}
    {entry : String × Nat} (advertises : Advertises doc dac.deviceId entry)
    (bytesCount : Nat) :
    dac.Completes doc bytesCount ↔ Interpolable dac.samples entry.2 := by
  have listed := advertises.advertised
  have fits : FitsBuffer entry.1 ∧ FitsBuffer "1" := by
    have short : ∀ entry ∈ advertisedRates, entry.1.length < 64 ∧
      "1".length < 64 := by decide
    have large := TinyIIOD.bufferSize_large
    exact ⟨Nat.lt_of_lt_of_le (short entry listed).1 large,
      Nat.lt_of_lt_of_le (short entry listed).2 large⟩
  have small : entry.2 < 2 ^ 32 := by
    have bounded : ∀ entry ∈ advertisedRates, entry.2 < 2 ^ 32 := by decide
    exact bounded entry listed
  have loaded : dac.loadCalibValues doc = .ok (dac.withRates entry.1 1) :=
    (loadCalibValues_eq_ok_iff advertises.holds).mpr
      ⟨fits.1, fits.2, 1, by decide, rfl⟩
  rw [Interpolable, ← analogicalInterpolation_returns_iff small, completes_iff_step]
  simp only [step_transferMemToDev, loaded, Except.ok.injEq]
  constructor
  · rintro ⟨_, _, samples, rfl, interpolated, _⟩
    rw [ratio_of_advertised dac listed] at interpolated
    exact ⟨samples, interpolated⟩
  · rintro ⟨samples, interpolated⟩
    refine ⟨_, _, samples, rfl, ?_, rfl⟩
    rw [ratio_of_advertised dac listed]
    exact interpolated

/-- Every transfer of every run after an opening completes exactly where there is a sample to
interpolate, or the rate is the highest one. -/
theorem transfers_complete_iff {deviceId : String} {cyclic enable : Bool} {samplerate : δ}
    {oversamplingRatio : Nat} {opening : Option XmlDoc}
    {sampleSize mask : Nat} {looping : Bool} {ret : Int} {start : M2kDAC δ}
    (opened : (construct deviceId cyclic enable samplerate oversamplingRatio).openDev opening
      sampleSize mask looping = .ok (ret, start)) {actions : List Action}
    {dac : M2kDAC δ} {doc : Option XmlDoc} {bytesCount : Nat}
    (taken : Taken step start actions dac (.transferMemToDev doc bytesCount))
    {entry : String × Nat} (advertises : Advertises doc deviceId entry) :
    dac.Completes doc bytesCount ↔ Interpolable dac.samples entry.2 := by
  have started : start.deviceId = deviceId := by
    rw [openDev, Outcome.bind_eq_ok] at opened
    rcases opened with ⟨loaded, returned, equal⟩
    cases equal
    rw [eq_of_loadCalibValues returned]
    rfl
  rcases taken.reached with ⟨prior, _, ran⟩
  have named : dac.deviceId = deviceId := (deviceId_of_run ran).trans started
  exact completes_iff_interpolable (named ▸ advertises) bytesCount

end Transfers

section Examples

open scoped Reference

def loweredDocument : Outcome (Option XmlDoc) :=
  Prod.snd <$> writeDevAttr (some Adalm2000Document.adalm2000Xml) "iio:device6"
    "sampling_frequency" (terminated "7500000") 8 .device

theorem advertises_lowered {doc : Option XmlDoc} (lowered : loweredDocument = .ok doc) :
    Advertises doc "iio:device6" ("7500000", 10) := by
  have held : (do
      let doc ← loweredDocument
      let frequency ← contents doc (samplingFrequencyOf "iio:device6")
      let ratio ← contents doc (oversamplingRatioOf "iio:device6")
      return (frequency, ratio)) = .ok (some (some "7500000"), some (some "1")) := by
    decide +kernel
  simp only [lowered, Outcome.ok_bind, Outcome.bind_eq_ok,
    Outcome.pure_eq_ok, Except.ok.injEq, Prod.mk.injEq] at held
  rcases held with ⟨frequency, holdsFrequency, ratio, holdsRatio, rfl, rfl⟩
  exact ⟨by decide, holdsFrequency, by decide, holdsRatio, by decide⟩

theorem written_word_is_transferred :
    ∃ (doc : Option XmlDoc) (dac : M2kDAC Rat), loweredDocument = .ok doc ∧
      dac.Completes doc 2 := by
  have written : (do
      let doc ← loweredDocument
      let (_, start) ← (construct "iio:device6" false false (0 : Rat) 0).openDev doc 2 1 false
      let dac ← run step start [.writeDev (bytesOfWords [16]) 0 2]
      return dac.samples.length) = .ok 1 := by
    decide +kernel
  simp only [Outcome.bind_eq_ok, Outcome.pure_eq_ok, Except.ok.injEq,
    Prod.exists] at written
  rcases written with ⟨doc, lowered, ret, start, opened, dac, ran, single⟩
  have taken : Taken step start [.writeDev (bytesOfWords [16]) 0 2,
    .transferMemToDev doc 2] dac
      (.transferMemToDev doc 2) := ⟨_, List.prefix_rfl, ran⟩
  refine ⟨doc, dac, lowered,
    (transfers_complete_iff opened taken (advertises_lowered lowered)).mpr (Or.inr ?_)⟩
  rw [single]
  refine ⟨List.ne_nil_of_length_pos (by omega), by decide, by decide⟩

/-- An opened device that is transferred without a sample asks for an impossible size. -/
theorem empty_transfer_does_not_complete :
    ¬ ∀ (doc : Option XmlDoc) (ret : Int) (start : M2kDAC Rat),
      Advertises doc "iio:device6" ("7500000", 10) →
      (construct "iio:device6" false false 0 0).openDev doc 2 1 false = .ok (ret, start) →
        start.Completes doc 2 := by
  intro completes
  have failed : (do
      let doc ← loweredDocument
      let (ret, start) ←
        (construct "iio:device6" false false (0 : Rat) 0).openDev doc 2 1 false
      return decide (start.transferMemToDev doc 2 = Except.error Fault.lengthError)) =
        .ok true := by
    decide +kernel
  simp only [Outcome.bind_eq_ok, Outcome.pure_eq_ok, Except.ok.injEq, Prod.exists,
    decide_eq_true_eq] at failed
  rcases failed with ⟨doc, lowered, ret, start, opened, error⟩
  rcases completes doc ret start (advertises_lowered lowered) opened with ⟨next, completed⟩
  rw [error] at completed
  cases completed

end Examples

end M2kDAC

end IioEmu
