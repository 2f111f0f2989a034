import IioEmu.Foundation.Execution
import IioEmu.Utils.AttrOpsXml
import IioEmu.Utils.Utility

/-! # The logic transmitter

The device keeps one vector of samples, a cursor of its cyclic reader, and a
flag that tells the next write to start over. -/

namespace IioEmu

structure M2kLogicTX (δ : Type) where
  deviceId : String
  samples : List Word
  currentIndex : Nat
  samplerate : δ
  resetBuffer : Bool

/-- The reader's loop: each pass takes the sample at the cursor and steps the
cursor, an `unsigned int`, back to zero at the end of the vector. -/
def readCyclic {α : Type} (values : List α) : Nat → Nat → Outcome (List α × Nat)
  | 0, index => .ok ([], index)
  | count + 1, index => do
      let sample ← vectorAt values index
      let stepped := wrap32 (index + 1)
      let next := if values.length ≤ stepped then 0 else stepped
      let (rest, final) ← readCyclic values count next
      return (sample :: rest, final)

section Reading

variable {α : Type} {values : List α}

theorem readCyclic_returns {index : Nat} (inside : index < values.length) (count : Nat) :
    ∃ samples final, readCyclic values count index = .ok (samples, final) ∧
      final < values.length := by
  induction count generalizing index with
  | zero => exact ⟨[], index, rfl, inside⟩
  | succ count induction =>
      have nextInside : (if values.length ≤ wrap32 (index + 1) then 0
          else wrap32 (index + 1)) < values.length := by
        split <;> omega
      rcases induction nextInside with ⟨rest, final, read, finalInside⟩
      refine ⟨values[index] :: rest, final, ?_, finalInside⟩
      simp [readCyclic, inside, read]

theorem readCyclic_of_le {index : Nat} (outside : values.length ≤ index) (count : Nat) :
    readCyclic values (count + 1) index = .error .outOfRange := by
  simp [readCyclic, vectorAt_of_le outside]

theorem readCyclic_eq (indexed : values.length ≤ 2 ^ 32) {index : Nat}
    (inside : index < values.length) (count : Nat) :
    readCyclic values count index =
      .ok (cyclicWindow values index count, (index + count) % values.length) := by
  induction count generalizing index with
  | zero => simp [readCyclic, Nat.mod_eq_of_lt inside]
  | succ count induction =>
      have stepped : (if values.length ≤ wrap32 (index + 1) then 0
          else wrap32 (index + 1)) = (index + 1) % values.length := by
        by_cases last : index + 1 = values.length
        · rw [last, Nat.mod_self]
          by_cases full : values.length = 2 ^ 32
          · simp [full, wrap32]
          · rw [wrap32_of_lt (by omega), if_pos (Nat.le_refl _)]
        · rw [wrap32_of_lt (by omega), if_neg (by omega), Nat.mod_eq_of_lt (by omega)]
      have nextInside : (index + 1) % values.length < values.length :=
        Nat.mod_lt _ (by omega)
      have opened : cyclicWindow values index (count + 1) =
          values[index] :: cyclicWindow values (index + 1) count := by
        rw [Nat.add_comm count, cyclicWindow_add, cyclicWindow_succ]
        simp [Nat.mod_eq_of_lt inside, inside]
      simp only [readCyclic, vectorAt_of_lt inside, Outcome.ok_bind, stepped,
        induction nextInside, cyclicWindow_mod, Nat.mod_add_mod, Outcome.pure_eq_ok,
        opened, Nat.add_assoc, Nat.add_comm 1]

theorem length_readCyclic {count index final : Nat} {samples : List α}
    (read : readCyclic values count index = .ok (samples, final)) :
    samples.length = count := by
  induction count generalizing index samples with
  | zero =>
      cases read
      rfl
  | succ count induction =>
      simp only [readCyclic, Outcome.bind_eq_ok, Outcome.pure_eq_ok, Except.ok.injEq,
        Prod.mk.injEq] at read
      rcases read with ⟨sample, _, ⟨rest, last⟩, restRead, rfl, rfl⟩
      rw [List.length_cons, induction restRead]

end Reading

namespace M2kLogicTX

variable {δ : Type} [Double δ] [LibXml2] [TinyIIOD]

def construct (deviceId : String) (samplerate : δ) : M2kLogicTX δ where
  deviceId := deviceId
  samples := []
  currentIndex := 0
  samplerate := samplerate
  resetBuffer := false

def openDev (tx : M2kLogicTX δ) (_sampleSize _mask : Nat) (_cyclic : Bool) :
    Outcome (Int × M2kLogicTX δ) := .ok (0, tx)

def closeDev (tx : M2kLogicTX δ) : Outcome (Int × M2kLogicTX δ) := .ok (0, tx)

def writeDev (tx : M2kLogicTX δ) (buf : List Byte) (_offset bytesCount : Nat) :
    Outcome (Int × M2kLogicTX δ) := do
  let cleared :=
    if tx.resetBuffer then
      { tx with samples := [], currentIndex := 0, resetBuffer := false }
    else tx
  let words ← loadWords buf (bytesCount / 2)
  return ((bytesCount : Int), { cleared with samples := cleared.samples ++ words })

def loadValues (tx : M2kLogicTX δ) (doc : Option XmlDoc) : Outcome (M2kLogicTX δ) := do
  let (_, tmpAttr) ← readDeviceAttr doc tx.deviceId "sampling_frequency"
    (uninitialised TinyIIOD.IIOD_BUFFER_SIZE) TinyIIOD.IIOD_BUFFER_SIZE .device
  let text ← cString tmpAttr
  return { tx with samplerate := safeStod text }

def ratio (tx : M2kLogicTX δ) : Nat := Double.toUnsigned ((1e8 : δ) / tx.samplerate)

def resample (tx : M2kLogicTX δ) (doc : Option XmlDoc) :
    Outcome (List Word × M2kLogicTX δ) := do
  let loaded ← tx.loadValues doc
  if loaded.ratio < 2 then
    return (loaded.samples, loaded)
  else
    let samples ← digitalInterpolation loaded.samples loaded.ratio
    return (samples, loaded)

def transferMemToDev (tx : M2kLogicTX δ) (doc : Option XmlDoc) (_bytesCount : Nat) :
    Outcome (Int × M2kLogicTX δ) := do
  let (samples, loaded) ← tx.resample doc
  return (0, { loaded with samples := samples, resetBuffer := true })

def transferSamplesToRXDevice (tx : M2kLogicTX δ) (samplesCount : Nat) :
    Outcome (List Word × M2kLogicTX δ) := do
  let stored :=
    if tx.samples.isEmpty then List.replicate samplesCount 0#16 else tx.samples
  let (samples, index) ← readCyclic stored samplesCount tx.currentIndex
  return (samples, { tx with samples := stored, currentIndex := index })

def cancelBuffer (tx : M2kLogicTX δ) : Outcome (Int × M2kLogicTX δ) :=
  .ok (0, { tx with samples := [] })

/-- One operation on the device. The document an operation reads is part of
it, so attributes may change between operations. -/
inductive Action
  | openDev (sampleSize mask : Nat) (cyclic : Bool)
  | closeDev
  | writeDev (buf : List Byte) (offset bytesCount : Nat)
  | transferMemToDev (doc : Option XmlDoc) (bytesCount : Nat)
  | cancelBuffer
  | transferSamplesToRXDevice (samplesCount : Nat)

def step (tx : M2kLogicTX δ) : Action → Outcome (M2kLogicTX δ)
  | .openDev sampleSize mask cyclic => Prod.snd <$> tx.openDev sampleSize mask cyclic
  | .closeDev => Prod.snd <$> tx.closeDev
  | .writeDev buf offset bytesCount => Prod.snd <$> tx.writeDev buf offset bytesCount
  | .transferMemToDev doc bytesCount => Prod.snd <$> tx.transferMemToDev doc bytesCount
  | .cancelBuffer => Prod.snd <$> tx.cancelBuffer
  | .transferSamplesToRXDevice samplesCount =>
      Prod.snd <$> tx.transferSamplesToRXDevice samplesCount

/-! ## What each operation does -/

section Operations

variable {tx next : M2kLogicTX δ}

theorem step_openDev {sampleSize mask : Nat} {cyclic : Bool} :
    tx.step (.openDev sampleSize mask cyclic) = .ok next ↔ next = tx := by
  simp [step, openDev, eq_comm]

theorem step_closeDev : tx.step .closeDev = .ok next ↔ next = tx := by
  simp [step, closeDev, eq_comm]

theorem step_cancelBuffer :
    tx.step .cancelBuffer = .ok next ↔ next = { tx with samples := [] } := by
  simp [step, cancelBuffer, eq_comm]

theorem step_writeDev {buf : List Byte} {offset bytesCount : Nat} :
    tx.step (.writeDev buf offset bytesCount) = .ok next ↔
      ∃ words, loadWords buf (bytesCount / 2) = .ok words ∧
        next = if tx.resetBuffer then
            { tx with samples := words, currentIndex := 0, resetBuffer := false }
          else { tx with samples := tx.samples ++ words } := by
  cases read : loadWords buf (bytesCount / 2) with
  | error fault => simp [step, writeDev, read]
  | ok words =>
      cases pending : tx.resetBuffer <;> simp [step, writeDev, read, pending, eq_comm]

theorem eq_of_loadValues {doc : Option XmlDoc} {loaded : M2kLogicTX δ}
    (returned : tx.loadValues doc = .ok loaded) :
    loaded = { tx with samplerate := loaded.samplerate } := by
  simp only [loadValues, Outcome.bind_eq_ok, Outcome.pure_eq_ok,
    Except.ok.injEq] at returned
  rcases returned with ⟨_, _, text, _, rfl⟩
  rfl

theorem resample_eq (doc : Option XmlDoc) :
    tx.resample doc = tx.loadValues doc >>= fun loaded =>
      digitalInterpolation loaded.samples loaded.ratio >>= fun samples =>
        .ok (samples, loaded) := by
  rw [resample]
  congr 1
  funext loaded
  split
  · rename_i single
    rw [digitalInterpolation, if_pos single]
    rfl
  · rfl

theorem resample_eq_ok_iff {doc : Option XmlDoc} {samples : List Word}
    {loaded : M2kLogicTX δ} :
    tx.resample doc = .ok (samples, loaded) ↔
      tx.loadValues doc = .ok loaded ∧
        digitalInterpolation tx.samples loaded.ratio = .ok samples := by
  simp only [resample_eq, Outcome.bind_eq_ok, Except.ok.injEq, Prod.mk.injEq]
  constructor
  · rintro ⟨rated, returned, _, interpolated, rfl, rfl⟩
    have kept := congrArg M2kLogicTX.samples (eq_of_loadValues returned)
    exact ⟨returned, kept ▸ interpolated⟩
  · rintro ⟨returned, interpolated⟩
    have kept := congrArg M2kLogicTX.samples (eq_of_loadValues returned)
    exact ⟨loaded, returned, samples, kept ▸ interpolated, rfl, rfl⟩

theorem step_transferMemToDev {doc : Option XmlDoc} {bytesCount : Nat} :
    tx.step (.transferMemToDev doc bytesCount) = .ok next ↔
      ∃ loaded samples, tx.loadValues doc = .ok loaded ∧
        digitalInterpolation tx.samples loaded.ratio = .ok samples ∧
        next = { tx with
          samplerate := loaded.samplerate, samples := samples, resetBuffer := true } := by
  simp only [step, transferMemToDev, Outcome.map_eq_ok, Outcome.bind_eq_ok,
    Outcome.pure_eq_ok, Except.ok.injEq]
  constructor
  · rintro ⟨_, ⟨⟨samples, loaded⟩, resampled, rfl⟩, rfl⟩
    rw [resample_eq_ok_iff] at resampled
    refine ⟨loaded, samples, resampled.1, resampled.2, ?_⟩
    rw [eq_of_loadValues resampled.1]
  · rintro ⟨loaded, samples, returned, interpolated, rfl⟩
    refine ⟨_, ⟨(samples, loaded), resample_eq_ok_iff.mpr ⟨returned, interpolated⟩, rfl⟩, ?_⟩
    rw [eq_of_loadValues returned]

omit [Double δ] [LibXml2] [TinyIIOD] in
/-- With the cursor inside its vector the device plays the vector in a loop. -/
theorem transferSamplesToRXDevice_eq (indexed : tx.samples.length ≤ 2 ^ 32)
    (inside : tx.currentIndex < tx.samples.length) (samplesCount : Nat) :
    tx.transferSamplesToRXDevice samplesCount =
      .ok (cyclicWindow tx.samples tx.currentIndex samplesCount, { tx with
        currentIndex := (tx.currentIndex + samplesCount) % tx.samples.length }) := by
  have filled : tx.samples.isEmpty = false := by
    rw [List.isEmpty_eq_false_iff_exists_mem]
    exact ⟨tx.samples[tx.currentIndex], List.getElem_mem inside⟩
  rw [transferSamplesToRXDevice, filled]
  simp [readCyclic_eq indexed inside]

omit [Double δ] [LibXml2] [TinyIIOD] in
theorem length_of_transferSamplesToRXDevice {samplesCount : Nat} {delivered : List Word}
    (returned : tx.transferSamplesToRXDevice samplesCount = .ok (delivered, next)) :
    delivered.length = samplesCount := by
  rw [transferSamplesToRXDevice, Outcome.bind_eq_ok] at returned
  rcases returned with ⟨⟨samples, index⟩, read, equal⟩
  cases equal
  exact length_readCyclic read

theorem step_transferSamplesToRXDevice {samplesCount : Nat} :
    tx.step (.transferSamplesToRXDevice samplesCount) = .ok next ↔
      ∃ delivered, tx.transferSamplesToRXDevice samplesCount = .ok (delivered, next) := by
  simp [step, Outcome.map_eq_ok]

end Operations

end M2kLogicTX

end IioEmu
