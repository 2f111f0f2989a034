import IioEmu.Devices.M2kLogicRX.M2kLogicRX
import IioEmu.Devices.M2kLogicTX.FrameIsolation

/-! # Logic loop-back

The transmitter repeats every word of a frame, the receiver votes each block of
repeated words back into one: what is read is the frame, played in a loop. The
receiver's block counter has thirty-two bits, so a read whose repeated words it
cannot count never ends. -/

namespace IioEmu.M2kLogicRX

open Execution

section Reads

variable {δ : Type} [Double δ] [LibXml2] [TinyIIOD]

structure Request where
  doc : Option XmlDoc
  offset : Nat
  words : Nat

def Request.bytesCount (request : Request) : Nat := 2 * request.words

def readAll (rx : M2kLogicRX δ) (tx : M2kLogicTX δ) :
    List Request → Outcome (List (List Byte) × M2kLogicRX δ × M2kLogicTX δ)
  | [] => .ok ([], rx, tx)
  | request :: requests => do
      let (_, bytes, rx, tx) ← rx.readDev request.doc (some tx) request.offset
        request.bytesCount
      let (rest, rx, tx) ← readAll rx tx requests
      return (bytes :: rest, rx, tx)

def Decimates (rx : M2kLogicRX δ) (ratio : Nat) (request : Request) : Prop :=
  ∃ loaded, rx.loadValues request.doc = .ok loaded ∧ loaded.ratio = ratio

def Countable (ratio words : Nat) : Prop :=
  words * ratio < 2 ^ 32 ∨ ratio = 1 ∧ words < 2 ^ 62

structure Plays (xs : List Word) (ratio start : Nat) (tx : M2kLogicTX δ) : Prop where
  stored : tx.samples = repeatEach ratio xs
  cursor : tx.currentIndex = start * ratio % (xs.length * ratio)

theorem loadValues_of_deviceId {rx other loaded : M2kLogicRX δ} {doc : Option XmlDoc}
    (returned : rx.loadValues doc = .ok loaded) (same : other.deviceId = rx.deviceId) :
    other.loadValues doc = .ok { other with samplerate := loaded.samplerate } := by
  simp only [loadValues, same, Outcome.bind_eq_ok, Outcome.pure_eq_ok,
    Except.ok.injEq] at returned ⊢
  rcases returned with ⟨read, readOk, text, textOk, rfl⟩
  exact ⟨read, readOk, text, textOk, rfl⟩

theorem deviceId_of_loadValues {rx loaded : M2kLogicRX δ} {doc : Option XmlDoc}
    (returned : rx.loadValues doc = .ok loaded) : loaded.deviceId = rx.deviceId := by
  simp only [loadValues, Outcome.bind_eq_ok, Outcome.pure_eq_ok,
    Except.ok.injEq] at returned
  rcases returned with ⟨_, _, _, _, rfl⟩
  rfl

theorem Decimates.congr {rx other : M2kLogicRX δ} {ratio : Nat} {request : Request}
    (decimates : Decimates rx ratio request) (same : other.deviceId = rx.deviceId) :
    Decimates other ratio request := by
  rcases decimates with ⟨loaded, returned, rate⟩
  exact ⟨_, loadValues_of_deviceId returned same, rate⟩

variable {xs : List Word} {ratio start : Nat} {tx : M2kLogicTX δ}

omit [Double δ] [LibXml2] [TinyIIOD] in
theorem Plays.transfer (plays : Plays xs ratio start tx) (nonempty : xs ≠ [])
    (positive : 1 ≤ ratio) (small : xs.length * ratio < 2 ^ 32) (words : Nat) :
    ∃ next, tx.transferSamplesToRXDevice (words * ratio) =
        .ok (repeatEach ratio (cyclicWindow xs start words), next) ∧
      Plays xs ratio (start + words) next := by
  have length : tx.samples.length = xs.length * ratio := by
    rw [plays.stored, length_repeatEach]
  have longer : 0 < xs.length * ratio :=
    Nat.mul_pos (List.length_pos_iff.mpr nonempty) positive
  have inside : tx.currentIndex < tx.samples.length := by
    rw [plays.cursor, length]
    exact Nat.mod_lt _ longer
  have window : cyclicWindow tx.samples tx.currentIndex (words * ratio) =
      repeatEach ratio (cyclicWindow xs start words) := by
    rw [plays.cursor, ← length, cyclicWindow_mod, plays.stored,
      cyclicWindow_repeatEach positive nonempty]
  have transferred :=
    M2kLogicTX.transferSamplesToRXDevice_eq (by omega) inside (words * ratio)
  rw [window] at transferred
  refine ⟨_, transferred, plays.stored, ?_⟩
  simp only [plays.cursor, length, Nat.mod_add_mod, Nat.add_mul]

theorem Plays.readDev (plays : Plays xs ratio start tx) (nonempty : xs ≠ [])
    (positive : 1 ≤ ratio) (small : xs.length * ratio < 2 ^ 32)
    {rx : M2kLogicRX δ} {request : Request} (decimates : Decimates rx ratio request)
    (countable : Countable ratio request.words) :
    ∃ count next played, rx.readDev request.doc (some tx) request.offset request.bytesCount =
        .ok (count, bytesOfWords (cyclicWindow xs start request.words), next, played) ∧
      next.deviceId = rx.deviceId ∧ Plays xs ratio (start + request.words) played := by
  rcases decimates with ⟨loaded, returned, rate⟩
  have asked : loaded.samplesCount request.bytesCount = request.words * ratio := by
    have half : request.bytesCount / 2 = request.words := by simp [Request.bytesCount]
    rw [samplesCount, half, rate]
    rcases countable with counted | ⟨single, stored⟩
    · exact wrap64_of_lt (by omega)
    · subst single
      exact wrap64_of_lt (by omega)
  have reserved : reserve 2 (request.words * ratio) = .ok () := by
    rw [reserve, if_pos]
    rcases countable with counted | ⟨single, stored⟩
    · omega
    · subst single
      omega
  rcases plays.transfer nonempty positive small request.words with
    ⟨played, transferred, playing⟩
  have voted : digitalDecimation
      (repeatEach ratio (cyclicWindow xs start request.words)) ratio =
        .ok (cyclicWindow xs start request.words) := by
    apply digitalDecimation_repeatEach (by decide) (by decide) _ positive
    rw [length_cyclicWindow nonempty]
    rcases countable with counted | ⟨single, _⟩
    · exact .inl counted
    · exact .inr single
  have size : 2 * (cyclicWindow xs start request.words).length = request.bytesCount := by
    rw [length_cyclicWindow nonempty, Request.bytesCount]
  refine ⟨request.bytesCount, loaded, played, ?_,
    deviceId_of_loadValues returned, playing⟩
  simp only [M2kLogicRX.readDev, resample, returned, Outcome.ok_bind, asked, reserved,
    transferred, rate, voted, memcpy_bytesOfWords size, Outcome.pure_eq_ok]

theorem size_of_resample {rx loaded : M2kLogicRX δ} {doc : Option XmlDoc}
    (returned : rx.loadValues doc = .ok loaded) {connection : Option (M2kLogicTX δ)}
    {channel len : Nat} {samples : List Word} {next : M2kLogicRX δ}
    {played : M2kLogicTX δ}
    (resampled : rx.resample doc connection channel len = .ok (samples, next, played)) :
    samples.length ≤ len / 2 ∧ (len / 2 ≤ samples.length →
      (len / 2 = 0 ∨ 1 ≤ loaded.ratio) ∧ Countable loaded.ratio (len / 2)) := by
  simp only [resample, returned, Outcome.ok_bind, Outcome.bind_eq_ok] at resampled
  rcases resampled with ⟨_, reserved, resampled⟩
  cases connection with
  | none => cases resampled
  | some tx =>
      simp only [Outcome.bind_eq_ok, Outcome.pure_eq_ok, Except.ok.injEq, Prod.mk.injEq,
        Prod.exists] at resampled
      rcases resampled with ⟨delivered, _, transferred, samples, voted, rfl, _, _⟩
      have length := M2kLogicTX.length_of_transferSamplesToRXDevice transferred
      have wrapped : loaded.samplesCount len ≤ len / 2 * loaded.ratio := Nat.mod_le _ _
      have stored : loaded.samplesCount len ≤ (2 ^ 63 - 1) / 2 := by
        by_contra large
        rw [reserve, if_neg large] at reserved
        cases reserved
      by_cases single : loaded.ratio < 2
      · rw [digitalDecimation, if_pos single] at voted
        cases voted
        have ratios : loaded.ratio = 0 ∨ loaded.ratio = 1 := by omega
        rcases ratios with zero | one
        · rw [zero, Nat.mul_zero] at wrapped
          refine ⟨by omega, fun enough => ⟨Or.inl (by omega), Or.inl ?_⟩⟩
          rw [zero, Nat.mul_zero]
          decide
        · rw [one, Nat.mul_one] at wrapped
          exact ⟨by omega, fun enough => ⟨Or.inr (by omega), Or.inr ⟨one, by omega⟩⟩⟩
      · rcases length_of_digitalDecimation (by omega) voted with ⟨counted, blocks⟩
        rw [length] at counted blocks
        have fewer : samples.length * loaded.ratio ≤ len / 2 * loaded.ratio := by omega
        refine ⟨Nat.le_of_mul_le_mul_right fewer (by omega),
          fun enough => ⟨Or.inr (by omega), ?_⟩⟩
        have product := Nat.mul_le_mul_right loaded.ratio enough
        exact Or.inl (by omega)

theorem countable_of_readDev {rx : M2kLogicRX δ} {request : Request}
    (decimates : Decimates rx ratio request)
    {connection : Option (M2kLogicTX δ)} {count : Int} {bytes : List Byte}
    {next : M2kLogicRX δ} {played : M2kLogicTX δ}
    (returned : rx.readDev request.doc connection request.offset request.bytesCount =
      .ok (count, bytes, next, played)) :
    Countable ratio request.words := by
  rcases decimates with ⟨loaded, loadedOk, rfl⟩
  have half : request.bytesCount / 2 = request.words := by simp [Request.bytesCount]
  simp only [M2kLogicRX.readDev, Outcome.bind_eq_ok, Prod.exists] at returned
  rcases returned with ⟨samples, _, _, resampled, _, copied, _⟩
  have enough := (length_of_memcpy copied).2
  rw [length_bytesOfWords, Request.bytesCount] at enough
  have countable := (size_of_resample loadedOk resampled).2
  rw [half] at countable
  exact (countable (by omega)).2

/-- Reads one after the other deliver consecutive windows exactly when each is
countable. -/
theorem readAll_iff (nonempty : xs ≠ []) (positive : 1 ≤ ratio)
    (small : xs.length * ratio < 2 ^ 32) {rx : M2kLogicRX δ} (requests : List Request)
    (decimates : ∀ request ∈ requests, Decimates rx ratio request)
    (plays : Plays xs ratio start tx) :
    (∃ next played, rx.readAll tx requests =
        .ok ((consecutiveWindows xs start (requests.map Request.words)).map bytesOfWords,
          next, played)) ↔
      ∀ request ∈ requests, Countable ratio request.words := by
  induction requests generalizing rx start tx with
  | nil => simp [readAll, consecutiveWindows]
  | cons request requests induction =>
      have first : Decimates rx ratio request := decimates request (by simp)
      constructor
      · rintro ⟨next, played, returned⟩
        rw [readAll, Outcome.bind_eq_ok] at returned
        rcases returned with ⟨⟨count, bytes, middle, playing⟩, head, rest⟩
        have countable := countable_of_readDev first head
        rcases plays.readDev nonempty positive small first countable with
          ⟨_, _, _, expected, named, playsNext⟩
        rw [head] at expected
        cases expected
        rw [Outcome.bind_eq_ok] at rest
        rcases rest with ⟨⟨windows, _, _⟩, tail, equal⟩
        cases equal
        have later := (induction
          (fun later member => (decimates later (by simp [member])).congr named)
          playsNext).mp ⟨_, _, tail⟩
        simpa using ⟨countable, later⟩
      · intro countable
        rcases plays.readDev nonempty positive small first
            (countable request (by simp)) with
          ⟨count, middle, playing, head, named, playsNext⟩
        rcases (induction
          (fun later member => (decimates later (by simp [member])).congr named)
          playsNext).mpr (fun later member => countable later (by simp [member])) with
          ⟨next, played, tail⟩
        refine ⟨next, played, ?_⟩
        simp [readAll, head, tail, consecutiveWindows]

theorem plays_after_frame (pending : tx.resetBuffer = true) {frame : Frame}
    (positive : 1 ≤ ratio) (small : frame.words.length * ratio < 2 ^ 32)
    {doc : Option XmlDoc} {loaded : M2kLogicTX δ}
    (returned : tx.loadValues doc = .ok loaded) (rate : loaded.ratio = ratio) :
    ∃ written, run M2kLogicTX.step tx (M2kLogicTX.frameActions doc frame) = .ok written ∧
      Plays frame.words ratio 0 written := by
  have emptied : tx.keptSamples = [] := by simp [M2kLogicTX.keptSamples, pending]
  have rewound : tx.keptIndex = 0 := by simp [M2kLogicTX.keptIndex, pending]
  rw [M2kLogicTX.frameActions, run_append, M2kLogicTX.run_frame_chunks, Outcome.ok_bind,
    run_singleton, emptied, rewound, List.nil_append]
  have upsampled := digitalInterpolation_eq (by decide) (by decide) positive small
  rw [← rate] at upsampled
  refine ⟨_, M2kLogicTX.step_transferMemToDev.mpr ⟨_, _,
    M2kLogicTX.loadValues_of_deviceId returned rfl, upsampled, rfl⟩, ?_, ?_⟩
  · rw [rate]
  · simp

/-- Frames come back: after a frame is written in any chunks, successive reads
with the same ratio deliver the consecutive windows of the frame played in a
loop, exactly when each of the reads is countable. -/
theorem loop_back_iff_countable (pending : tx.resetBuffer = true) (frame : Frame)
    (nonempty : frame.words ≠ []) (positive : 1 ≤ ratio)
    (small : frame.words.length * ratio < 2 ^ 32) {doc : Option XmlDoc}
    {loaded : M2kLogicTX δ} (returned : tx.loadValues doc = .ok loaded)
    (rate : loaded.ratio = ratio) {rx : M2kLogicRX δ} (requests : List Request)
    (decimates : ∀ request ∈ requests, Decimates rx ratio request) :
    ∃ written, run M2kLogicTX.step tx (M2kLogicTX.frameActions doc frame) = .ok written ∧
      ((∃ next played, rx.readAll written requests =
          .ok ((consecutiveWindows frame.words 0 (requests.map Request.words)).map
            bytesOfWords, next, played)) ↔
        ∀ request ∈ requests, Countable ratio request.words) := by
  rcases plays_after_frame pending positive small returned rate with ⟨written, ran, plays⟩
  exact ⟨written, ran, readAll_iff nonempty positive small requests decimates plays⟩

end Reads

section Examples

open scoped Reference

def slowDocument : Outcome (Option XmlDoc) := do
  let (_, doc) ← writeDevAttr (some Adalm2000Document.adalm2000Xml) "iio:device9"
    "sampling_frequency" (terminated "1000") 5 .device
  let (_, doc) ← writeDevAttr doc "iio:device10"
    "sampling_frequency" (terminated "1000") 5 .device
  return doc

theorem loop_back_at_bundled_rate :
    ∃ written, run M2kLogicTX.step
        { M2kLogicTX.construct "iio:device9" (0 : Rat) with resetBuffer := true }
        (M2kLogicTX.frameActions (some Adalm2000Document.adalm2000Xml)
          ⟨⟨0, [1, 2]⟩, [⟨4, [3]⟩], 6⟩) = .ok written ∧
      ((∃ next played, readAll ⟨"iio:device10", 0⟩ written
          [⟨some Adalm2000Document.adalm2000Xml, 0, 2⟩,
           ⟨some Adalm2000Document.adalm2000Xml, 0, 4⟩] =
          .ok ((consecutiveWindows [1, 2, 3] 0 [2, 4]).map bytesOfWords, next, played)) ↔
        ∀ request ∈ ([⟨some Adalm2000Document.adalm2000Xml, 0, 2⟩,
          ⟨some Adalm2000Document.adalm2000Xml, 0, 4⟩] : List Request),
          Countable 1 request.words) := by
  have transmits : (M2kLogicTX.loadValues
      { M2kLogicTX.construct "iio:device9" (0 : Rat) with resetBuffer := true }
      (some Adalm2000Document.adalm2000Xml)).map M2kLogicTX.ratio = .ok 1 := by
    decide +kernel
  have receives : (loadValues ⟨"iio:device10", (0 : Rat)⟩
      (some Adalm2000Document.adalm2000Xml)).map ratio = .ok 1 := by
    decide +kernel
  rcases Outcome.map_eq_ok.mp transmits with ⟨loaded, returned, rate⟩
  refine loop_back_iff_countable rfl ⟨⟨0, [1, 2]⟩, [⟨4, [3]⟩], 6⟩ (by decide) (by decide)
    (by decide) returned rate _ ?_
  intro request member
  have bundled : request.doc = some Adalm2000Document.adalm2000Xml := by
    rcases List.mem_cons.mp member with rfl | member
    · rfl
    · rw [List.mem_singleton.mp member]
  rw [Decimates, bundled]
  exact Outcome.map_eq_ok.mp receives

/-- At a thousand samples a second a read of 42950 words never ends. -/
theorem slow_read_is_not_a_window :
    ¬ ∀ (tx : M2kLogicTX Rat) (frame : Frame) (ratio : Nat) (doc : Option XmlDoc)
      (loaded : M2kLogicTX Rat) (rx : M2kLogicRX Rat) (requests : List Request)
      (written : M2kLogicTX Rat),
      tx.resetBuffer = true → frame.words ≠ [] → 1 ≤ ratio →
      frame.words.length * ratio < 2 ^ 32 →
      tx.loadValues doc = .ok loaded → loaded.ratio = ratio →
      (∀ request ∈ requests, Decimates rx ratio request) →
      run M2kLogicTX.step tx (M2kLogicTX.frameActions doc frame) = .ok written →
      ∃ next played, rx.readAll written requests =
        .ok ((consecutiveWindows frame.words 0 (requests.map Request.words)).map
          bytesOfWords, next, played) := by
  intro returns
  let tx : M2kLogicTX Rat :=
    { M2kLogicTX.construct "iio:device9" 0 with resetBuffer := true }
  let rx : M2kLogicRX Rat := ⟨"iio:device10", 0⟩
  let frame : Frame := ⟨⟨0, [5]⟩, [], 2⟩
  have slowed : slowDocument.map (fun doc =>
      ((tx.loadValues doc).map M2kLogicTX.ratio, (rx.loadValues doc).map ratio)) =
        .ok (.ok 100000, .ok 100000) := by
    decide +kernel
  rcases Outcome.map_eq_ok.mp slowed with ⟨doc, _, rates⟩
  rcases Outcome.map_eq_ok.mp (congrArg Prod.fst rates) with ⟨loaded, returned, rate⟩
  have decimates : Decimates rx 100000 ⟨doc, 0, 42950⟩ :=
    Outcome.map_eq_ok.mp (congrArg Prod.snd rates)
  have single : frame.words.length = 1 := rfl
  have small : frame.words.length * 100000 < 2 ^ 32 := by
    rw [single]
    decide
  rcases plays_after_frame rfl (by decide) small returned rate with ⟨written, ran, _⟩
  rcases returns tx frame 100000 doc loaded rx [⟨doc, 0, 42950⟩] written rfl (by decide)
    (by decide) small returned rate (by simpa using decimates) ran with ⟨_, _, read⟩
  simp only [readAll, Outcome.bind_eq_ok, Prod.exists] at read
  rcases read with ⟨count, bytes, next, played, head, _⟩
  have countable : Countable 100000 42950 := countable_of_readDev decimates head
  simp [Countable] at countable

end Examples

end IioEmu.M2kLogicRX
