import IioEmu.Devices.M2kADC.Calibration
import IioEmu.Devices.M2kLogicRX.LoopBack
import IioEmu.Foundation.Reader

/-! # Reads that are split

A client may ask for its words in one read or in several. A receiver takes a window of
whole blocks from its transmitter and each block becomes one word, so the joined windows
of several reads are the window of the one. What limits a read is its own size. -/

namespace IioEmu

/-! ## The digital path -/

namespace M2kLogicRX

section Words

variable {δ : Type} [Double δ] [LibXml2] [TinyIIOD]

def readWords (doc : Option XmlDoc)
    (devices : M2kLogicRX δ × M2kLogicTX δ) (words : Nat) :
    Outcome (List Word × M2kLogicRX δ × M2kLogicTX δ) := do
  let (_, bytes, rx, tx) ← devices.1.readDev doc (some devices.2) 0 (2 * words)
  return (wordsOfBytes bytes, rx, tx)

structure Reads (doc : Option XmlDoc) (ratio : Nat)
    (devices : M2kLogicRX δ × M2kLogicTX δ) : Prop where
  indexed : devices.2.samples.length < 2 ^ 32
  inside : devices.2.currentIndex < devices.2.samples.length
  positive : 1 ≤ ratio
  decimates : ∃ loaded, devices.1.loadValues doc = .ok loaded ∧ loaded.ratio = ratio

variable {doc : Option XmlDoc} {ratio : Nat} {devices : M2kLogicRX δ × M2kLogicTX δ}

theorem Reads.readWords (reads : Reads doc ratio devices) {words : Nat}
    (countable : Countable ratio words) :
    ∃ next, M2kLogicRX.readWords doc devices words =
        .ok (decimatedWindow (vote ratio) ratio devices.2.samples
          devices.2.currentIndex words, next) ∧
      Reads doc ratio next ∧ next.2.samples = devices.2.samples ∧
      next.2.currentIndex =
        (devices.2.currentIndex + words * ratio) % devices.2.samples.length := by
  rcases devices with ⟨rx, tx⟩
  rcases reads with ⟨indexed, inside, positive, loaded, returned, rate⟩
  simp only at indexed inside returned
  have nonempty : tx.samples ≠ [] := by
    intro empty
    rw [empty] at inside
    cases inside
  have bounds : words * ratio ≤ (2 ^ 63 - 1) / 2 := by
    rcases countable with counted | ⟨single, stored⟩
    · omega
    · subst single
      omega
  have asked : loaded.samplesCount (2 * words) = words * ratio := by
    have half : 2 * words / 2 = words := by omega
    rw [samplesCount, half, rate]
    exact wrap64_of_lt (by omega)
  have reserved : reserve 2 (words * ratio) = .ok () := by rw [reserve, if_pos bounds]
  have transferred :=
    M2kLogicTX.transferSamplesToRXDevice_eq (Nat.le_of_lt indexed) inside
    (words * ratio)
  have voted := digitalDecimation_cyclicWindow (by decide) (by decide) nonempty
    tx.currentIndex (countable.imp_right And.left)
  have size : 2 * (decimatedWindow (vote ratio) ratio tx.samples
    tx.currentIndex words).length =
      2 * words := by
    rw [length_decimatedWindow _ nonempty positive]
  refine ⟨(loaded, { tx with
    currentIndex := (tx.currentIndex + words * ratio) % tx.samples.length }), ?_,
    ⟨indexed, Nat.mod_lt _ (by omega), positive, ?_⟩, rfl, rfl⟩
  · simp only [M2kLogicRX.readWords, readDev, resample, returned, Outcome.ok_bind, asked,
      reserved, transferred, rate, voted, memcpy_bytesOfWords size, Outcome.pure_eq_ok,
      wordsOfBytes_bytesOfWords]
  · exact ⟨_, loadValues_of_deviceId returned (deviceId_of_loadValues returned), rate⟩

theorem Reads.splitsAlike_iff (reads : Reads doc ratio devices) (counts : List Nat) :
    SplitsAlike (M2kLogicRX.readWords doc) (fun devices => devices.2.currentIndex) devices
      counts ↔ Countable ratio counts.sum := by
  have nonempty : devices.2.samples ≠ [] := by
    have inside := reads.inside
    intro empty
    rw [empty] at inside
    cases inside
  apply Iff.intro
  · intro alike
    rcases alike with ⟨values, many, single, _, together, _, _⟩
    simp only [M2kLogicRX.readWords, Outcome.bind_eq_ok, Prod.exists] at together
    rcases together with ⟨count, bytes, next, played, returned, _⟩
    rcases devices with ⟨rx, tx⟩
    have decimates : Decimates rx ratio ⟨doc, 0, counts.sum⟩ := reads.decimates
    exact countable_of_readDev decimates returned
  · intro countable
    have parts : ∀ first second, Countable ratio (first + second) →
        Countable ratio first ∧ Countable ratio second := by
      intro first second both
      rcases both with counted | ⟨single, stored⟩
      · rw [Nat.add_mul] at counted
        exact ⟨.inl (by omega), .inl (by omega)⟩
      · exact ⟨.inr ⟨single, by omega⟩, .inr ⟨single, by omega⟩⟩
    let window := fun start count => decimatedWindow (vote ratio) ratio devices.2.samples
      (devices.2.currentIndex + start * ratio) count
    let stands := fun start (state : M2kLogicRX δ × M2kLogicTX δ) =>
      Reads doc ratio state ∧ state.2.samples = devices.2.samples ∧ state.2.currentIndex =
        (devices.2.currentIndex + start * ratio) % devices.2.samples.length
    have standing : stands 0 devices :=
      ⟨reads, rfl, by simp [Nat.mod_eq_of_lt reads.inside]⟩
    refine splitsAlike_of_window window stands (Countable ratio)
      (fun start => decimatedWindow_zero _ _) ?_ ?_ parts ?_ ?_ standing countable
    · intro start first second
      simp only [window, Nat.add_mul, ← Nat.add_assoc]
      exact decimatedWindow_add _ nonempty _ _ _
    · intro start count
      exact length_decimatedWindow _ nonempty reads.positive _ _
    · intro start state count standing small
      rcases standing with ⟨reading, samples, cursor⟩
      rcases reading.readWords small with ⟨next, returned, further, kept, moved⟩
      refine ⟨next, ?_, further, kept.trans samples, ?_⟩
      · rw [returned, samples, cursor, decimatedWindow_mod]
      · rw [moved, samples, cursor, Nat.mod_add_mod, Nat.add_mul, Nat.add_assoc]
    · intro start state other standing otherStanding
      rw [standing.2.2, otherStanding.2.2]

end Words

end M2kLogicRX

/-! ## The analog path -/

def pairsOfWords : List Word → List (Word × Word)
  | first :: second :: rest => (first, second) :: pairsOfWords rest
  | _ => []

theorem pairsOfWords_flatten (pairs : List (Word × Word)) :
    pairsOfWords (pairs.map fun pair => [pair.1, pair.2]).flatten = pairs := by
  induction pairs with
  | nil => rfl
  | cons pair pairs induction => simp [pairsOfWords, induction]

theorem length_flatten_pairs (pairs : List (Word × Word)) :
    (pairs.map fun pair => [pair.1, pair.2]).flatten.length = 2 * pairs.length := by
  induction pairs with
  | nil => rfl
  | cons pair pairs induction =>
      simp only [List.map_cons, List.flatten_cons, List.length_append, List.length_cons,
        List.length_nil, induction]
      omega

namespace M2kDAC

variable {δ : Type}

structure Plays (dac : M2kDAC δ) : Prop where
  indexed : dac.samples.length < 2 ^ 32
  inside : dac.currentIndex < dac.samples.length

theorem Plays.nonempty {dac : M2kDAC δ} (plays : Plays dac) : dac.samples ≠ [] := by
  have inside := plays.inside
  intro empty
  rw [empty] at inside
  cases inside

def advance (dac : M2kDAC δ) (samplesCount : Nat) : M2kDAC δ :=
  { dac with currentIndex := (dac.currentIndex + samplesCount) % dac.samples.length }

theorem Plays.advance {dac : M2kDAC δ} (plays : Plays dac) (samplesCount : Nat) :
    Plays (dac.advance samplesCount) := by
  have inside := plays.inside
  exact ⟨plays.indexed, Nat.mod_lt _ (Nat.zero_lt_of_lt inside)⟩

end M2kDAC

namespace M2kADC

section Resample

variable {δ : Type} [Double δ] {dac : M2kDAC δ}

/-- One channel reads the averages of the next window's blocks. -/
theorem resample_window (plays : dac.Plays) {count ratio : Nat}
    (stored : count * ratio ≤ (2 ^ 63 - 1) / 8) :
    resample (some dac) (count * ratio) ratio =
      .ok (decimatedWindow (average ratio) ratio dac.samples dac.currentIndex count,
        dac.advance (count * ratio)) := by
  have reserved : reserve 8 (count * ratio) = .ok () := by rw [reserve, if_pos stored]
  rw [resample_eq, reserved,
    M2kDAC.transferSamplesToRXDevice_eq plays.indexed plays.inside]
  simp only [Outcome.ok_bind, analogicalDecimation_cyclicWindow plays.nonempty _ stored]
  rfl

theorem size_of_resample (plays : dac.Plays) {size ratio : Nat} (positive : 1 ≤ ratio)
    {dest : List δ} {next : M2kDAC δ}
    (returned : resample (some dac) size ratio = .ok (dest, next)) :
    dest.length * ratio = size ∧ size ≤ (2 ^ 63 - 1) / 8 := by
  rw [resample_eq,
    M2kDAC.transferSamplesToRXDevice_eq plays.indexed plays.inside] at returned
  simp only [Outcome.bind_eq_ok, Outcome.ok_bind, Except.ok.injEq,
    Prod.mk.injEq] at returned
  rcases returned with ⟨_, reserved, _, decimated, rfl, _⟩
  have stored : size ≤ (2 ^ 63 - 1) / 8 := by
    by_contra large
    rw [reserve, if_neg large] at reserved
    cases reserved
  refine ⟨?_, stored⟩
  by_cases single : ratio < 2
  · rw [analogicalDecimation, if_pos single] at decimated
    cases decimated
    rw [length_cyclicWindow plays.nonempty, show ratio = 1 by omega, Nat.mul_one]
  · rw [length_of_analogicalDecimation (by omega) decimated,
      length_cyclicWindow plays.nonempty]

end Resample

section Pairs

variable {δ : Type} [Double δ] [LibXml2] [TinyIIOD]

structure Devices (δ : Type) where
  adc : M2kADC δ
  dacA : M2kDAC δ
  dacB : M2kDAC δ

def readPairs (doc : Option XmlDoc) (devices : Devices δ) (count : Nat) :
    Outcome (List (Word × Word) × Devices δ) := do
  let (_, bytes, adc, dacA, dacB) ← devices.adc.readDev doc (some devices.dacA)
    (some devices.dacB) 0 (4 * count)
  return (pairsOfWords (wordsOfBytes bytes), ⟨adc, dacA, dacB⟩)

structure Reads (doc : Option XmlDoc) (ratio : Nat) (devices : Devices δ) : Prop where
  playsA : devices.dacA.Plays
  playsB : devices.dacB.Plays
  positive : 1 ≤ ratio
  decimates : ∃ loaded, devices.adc.loadCalibValues doc = .ok loaded ∧
    loaded.ratio = ratio

def pairWindow (convert : Fin 2 → δ → Word) (ratio : Nat) (dacA dacB : M2kDAC δ)
    (start count : Nat) : List (Word × Word) :=
  List.zipWith (fun voltageA voltageB =>
      (convert ⟨0, Nat.two_pos⟩ voltageA, convert ⟨1, Nat.one_lt_two⟩ voltageB))
    (decimatedWindow (average ratio) ratio dacA.samples
      (dacA.currentIndex + start * ratio) count)
    (decimatedWindow (average ratio) ratio dacB.samples
      (dacB.currentIndex + start * ratio) count)

section Windows

variable {convert : Fin 2 → δ → Word} {ratio : Nat} {dacA dacB : M2kDAC δ}

omit [LibXml2] [TinyIIOD] in
theorem length_pairWindow (playsA : dacA.Plays) (playsB : dacB.Plays)
    (positive : 1 ≤ ratio) (start count : Nat) :
    (pairWindow convert ratio dacA dacB start count).length = count := by
  rw [pairWindow, List.length_zipWith, length_decimatedWindow _ playsA.nonempty positive,
    length_decimatedWindow _ playsB.nonempty positive, Nat.min_self]

omit [LibXml2] [TinyIIOD] in
theorem pairWindow_add (playsA : dacA.Plays) (playsB : dacB.Plays) (positive : 1 ≤ ratio)
    (start first second : Nat) :
    pairWindow convert ratio dacA dacB start (first + second) =
      pairWindow convert ratio dacA dacB start first ++
        pairWindow convert ratio dacA dacB (start + first) second := by
  simp only [pairWindow, decimatedWindow_add _ playsA.nonempty,
    decimatedWindow_add _ playsB.nonempty]
  rw [List.zipWith_append (by
    rw [length_decimatedWindow _ playsA.nonempty positive,
      length_decimatedWindow _ playsB.nonempty positive])]
  simp only [Nat.add_mul, Nat.add_assoc]

omit [LibXml2] [TinyIIOD] in
theorem pairWindow_advance (start count : Nat) :
    pairWindow convert ratio (dacA.advance (start * ratio)) (dacB.advance (start * ratio))
      0 count = pairWindow convert ratio dacA dacB start count := by
  simp only [pairWindow, M2kDAC.advance, Nat.zero_mul, Nat.add_zero, decimatedWindow_mod]

omit [LibXml2] [TinyIIOD] in
theorem mapM_convertPair {loaded : M2kADC δ}
    (converts : ∀ (channel : Fin 2) voltage,
      loaded.convertVoltToRaw voltage channel = .ok (convert channel voltage))
    (voltagesA voltagesB : List δ) {count : Nat} (lengthA : voltagesA.length = count)
    (lengthB : voltagesB.length = count) :
    (List.range count).mapM (loaded.convertPair voltagesA voltagesB) =
      .ok ((List.zipWith (fun voltageA voltageB => (convert 0 voltageA, convert 1 voltageB))
        voltagesA voltagesB).map fun pair => [pair.1, pair.2]) := by
  have scanned : ∀ bound ≤ count,
      (List.range bound).mapM (loaded.convertPair voltagesA voltagesB) =
        .ok (((List.zipWith (fun voltageA voltageB =>
          (convert 0 voltageA, convert 1 voltageB)) voltagesA voltagesB).take bound).map
            fun pair => [pair.1, pair.2]) := by
    intro bound
    induction bound with
    | zero => intro _; rfl
    | succ bound induction =>
        intro within
        have pair : loaded.convertPair voltagesA voltagesB bound =
            .ok [convert 0 voltagesA[bound], convert 1 voltagesB[bound]] := by
          rw [convertPair, vectorAt_of_lt (by omega), Outcome.ok_bind]
          have first := converts 0 voltagesA[bound]
          have second := converts 1 voltagesB[bound]
          simp only [Fin.val_zero, Fin.val_one] at first second
          rw [first, Outcome.ok_bind, vectorAt_of_lt (by omega), Outcome.ok_bind, second]
          rfl
        rw [List.range_succ, List.mapM_append, induction (by omega)]
        simp only [List.mapM_cons, pair, List.mapM_nil,
          Outcome.ok_bind, Outcome.pure_eq_ok]
        rw [List.take_succ_eq_append_getElem (by rw [List.length_zipWith]; omega)]
        simp
  have whole := scanned count (Nat.le_refl _)
  rwa [List.take_of_length_le (by rw [List.length_zipWith]; omega)] at whole

end Windows

variable {doc : Option XmlDoc} {ratio : Nat} {devices : Devices δ}

theorem Reads.readPairs (reads : Reads doc ratio devices) {loaded : M2kADC δ}
    (returned : devices.adc.loadCalibValues doc = .ok loaded)
    (rate : loaded.ratio = ratio) {convert : Fin 2 → δ → Word}
    (converts : ∀ (channel : Fin 2) voltage,
      loaded.convertVoltToRaw voltage channel = .ok (convert channel voltage))
    {count : Nat} (stored : count * ratio ≤ (2 ^ 63 - 1) / 8) :
    M2kADC.readPairs doc devices count =
      .ok (pairWindow convert ratio devices.dacA devices.dacB 0 count,
        ⟨loaded, devices.dacA.advance (count * ratio),
          devices.dacB.advance (count * ratio)⟩) := by
  have positions : 4 * count / 4 = count := by omega
  have words : 4 * count / 2 = 2 * count := by omega
  have several : count * 1 ≤ count * ratio := Nat.mul_le_mul_left _ reads.positive
  have reserved : reserve 2 (2 * count) = .ok () := by rw [reserve, if_pos (by omega)]
  have asked : loaded.samplesCount (4 * count) = count * ratio := by
    rw [samplesCount, positions, rate]
    exact wrap64_of_lt (by omega)
  have converted := mapM_convertPair converts
    (decimatedWindow (average ratio) ratio devices.dacA.samples
      devices.dacA.currentIndex count)
    (decimatedWindow (average ratio) ratio devices.dacB.samples
      devices.dacB.currentIndex count)
    (length_decimatedWindow _ reads.playsA.nonempty reads.positive _ _)
    (length_decimatedWindow _ reads.playsB.nonempty reads.positive _ _)
  have pairs : pairWindow convert ratio devices.dacA devices.dacB 0 count =
      List.zipWith (fun voltageA voltageB => (convert 0 voltageA, convert 1 voltageB))
        (decimatedWindow (average ratio) ratio devices.dacA.samples
          devices.dacA.currentIndex count)
        (decimatedWindow (average ratio) ratio devices.dacB.samples
          devices.dacB.currentIndex count) := by
    simp only [pairWindow, Nat.zero_mul, Nat.add_zero]
    rfl
  rw [← pairs] at converted
  have size : 2 * ((pairWindow convert ratio devices.dacA devices.dacB 0 count).map
      fun pair => [pair.1, pair.2]).flatten.length = 4 * count := by
    rw [length_flatten_pairs, length_pairWindow reads.playsA reads.playsB reads.positive,
      ← Nat.mul_assoc]
  simp only [M2kADC.readPairs, readDev, returned, Outcome.ok_bind, words, reserved, asked,
    rate, resample_window reads.playsA stored,
    resample_window reads.playsB stored, positions,
    converted, memcpy_bytesOfWords size, Outcome.pure_eq_ok, wordsOfBytes_bytesOfWords,
    pairsOfWords_flatten]

theorem Reads.stored_of_readPairs (reads : Reads doc ratio devices) {count : Nat}
    {pairs : List (Word × Word)} {next : Devices δ}
    (read : M2kADC.readPairs doc devices count = .ok (pairs, next)) :
    count * ratio ≤ (2 ^ 63 - 1) / 8 := by
  rcases reads.decimates with ⟨loaded, returned, rate⟩
  have positions : 4 * count / 4 = count := by omega
  simp only [M2kADC.readPairs, readDev, returned, Outcome.ok_bind, Outcome.bind_eq_ok,
    Prod.exists, samplesCount, positions, rate] at read
  rcases read with ⟨_, _, _, _, _,
    ⟨_, _, voltagesA, nextA, readA, voltagesB, nextB, _, words, converted, _⟩, _⟩
  have size := size_of_resample reads.playsA reads.positive readA
  have enough : count ≤ voltagesA.length := by
    by_contra short
    have split : List.range count =
        List.range voltagesA.length ++ (List.range (count - voltagesA.length)).map
          (voltagesA.length + ·) := by
      rw [← List.range_add]
      congr 1
      omega
    have first : List.range (count - voltagesA.length) =
        0 :: (List.range (count - voltagesA.length - 1)).map Nat.succ := by
      rw [← List.range_succ_eq_map]
      congr 1
      omega
    rw [split, first, List.mapM_append] at converted
    simp only [Outcome.bind_eq_ok, List.map_cons, List.mapM_cons,
      convertPair, Nat.add_zero, vectorAt_of_le (Nat.le_refl _),
      Outcome.error_bind] at converted
    rcases converted with ⟨_, _, _, ⟨_, failed, _⟩, _⟩
  calc count * ratio ≤ voltagesA.length * ratio := Nat.mul_le_mul_right _ enough
    _ = wrap64 (count * ratio) := size.1
    _ ≤ (2 ^ 63 - 1) / 8 := size.2

theorem Reads.splitsAlike_iff (reads : Reads doc ratio devices) (counts : List Nat) :
    SplitsAlike (M2kADC.readPairs doc)
      (fun devices => (devices.dacA.currentIndex,
      devices.dacB.currentIndex)) devices counts ↔
      counts.sum * ratio ≤ (2 ^ 63 - 1) / 8 := by
  apply Iff.intro
  · intro alike
    rcases alike with ⟨values, many, single, _, together, _, _⟩
    exact reads.stored_of_readPairs together
  · intro stored
    rcases reads.decimates with ⟨loaded, returned, rate⟩
    have converts : ∃ convert : Fin 2 → δ → Word, ∀ (channel : Fin 2) voltage,
        loaded.convertVoltToRaw voltage channel = .ok (convert channel voltage) :=
      Classical.skolem.mp (convertVoltToRaw_returns returned)
    rcases converts with ⟨convert, converts⟩
    have parts : ∀ first second, (first + second) * ratio ≤ (2 ^ 63 - 1) / 8 →
        first * ratio ≤ (2 ^ 63 - 1) / 8 ∧ second * ratio ≤ (2 ^ 63 - 1) / 8 := by
      intro first second both
      rw [Nat.add_mul] at both
      exact ⟨by omega, by omega⟩
    let stands := fun start (state : Devices δ) =>
      Reads doc ratio state ∧ state.adc.loadCalibValues doc = .ok loaded ∧
        state.dacA = devices.dacA.advance (start * ratio) ∧
        state.dacB = devices.dacB.advance (start * ratio)
    have standing : stands 0 devices := by
      refine ⟨reads, returned, ?_, ?_⟩
      · simp [M2kDAC.advance, Nat.mod_eq_of_lt reads.playsA.inside]
      · simp [M2kDAC.advance, Nat.mod_eq_of_lt reads.playsB.inside]
    refine splitsAlike_of_window
      (pairWindow convert ratio devices.dacA devices.dacB) stands
      (fun count => count * ratio ≤ (2 ^ 63 - 1) / 8) ?_
      (pairWindow_add reads.playsA reads.playsB reads.positive)
      (length_pairWindow reads.playsA reads.playsB reads.positive) parts ?_ ?_ standing stored
    · intro start
      simp [pairWindow]
    · intro start state count stood small
      rcases stood with ⟨reading, loads, playedA, playedB⟩
      have read := reading.readPairs loads rate converts small
      simp only [playedA, playedB, pairWindow_advance] at read
      refine ⟨_, read, ?_, ?_, ?_, ?_⟩
      · exact ⟨(reads.playsA.advance _).advance _, (reads.playsB.advance _).advance _,
          reads.positive, loaded, loadCalibValues_again loads, rate⟩
      · exact loadCalibValues_again loads
      · simp only [M2kDAC.advance, Nat.mod_add_mod, Nat.add_mul, Nat.add_assoc]
      · simp only [M2kDAC.advance, Nat.mod_add_mod, Nat.add_mul, Nat.add_assoc]
    · intro start state other stood otherStood
      simp only [stood.2.2.1, stood.2.2.2, otherStood.2.2.1, otherStood.2.2.2]

end Pairs

end M2kADC

/-! ## Both paths -/

section Both

variable {δ : Type} [Double δ] [LibXml2] [TinyIIOD]

/-- Splitting a read does not change the data, for any counts, any cursor and any ratio,
exactly when the one read of all the words can be served: the logic receiver's block counter
counts their samples, and a vector holds the voltages of one analog channel. -/
theorem split_reads_alike_iff {doc analogDoc : Option XmlDoc} {ratio analogRatio : Nat}
    {digital : M2kLogicRX δ × M2kLogicTX δ} {analog : M2kADC.Devices δ}
    (digitalReads : M2kLogicRX.Reads doc ratio digital)
    (analogReads : M2kADC.Reads analogDoc analogRatio analog)
    (counts analogCounts : List Nat) :
    (SplitsAlike (M2kLogicRX.readWords doc) (fun devices => devices.2.currentIndex) digital
        counts ↔ M2kLogicRX.Countable ratio counts.sum) ∧
      (SplitsAlike (M2kADC.readPairs analogDoc)
        (fun devices => (devices.dacA.currentIndex, devices.dacB.currentIndex)) analog
        analogCounts ↔ analogCounts.sum * analogRatio ≤ (2 ^ 63 - 1) / 8) :=
  ⟨digitalReads.splitsAlike_iff counts, analogReads.splitsAlike_iff analogCounts⟩

end Both

section Examples

open scoped Reference

/-- Two reads of 21475 words return what one read of 42950 words never does. -/
theorem slow_reads_do_not_join :
    ¬ ∀ (doc : Option XmlDoc) (ratio : Nat) (devices : M2kLogicRX Rat × M2kLogicTX Rat)
      (counts : List Nat), M2kLogicRX.Reads doc ratio devices →
      SplitsAlike (M2kLogicRX.readWords doc) (fun devices => devices.2.currentIndex) devices
        counts := by
  intro alike
  let tx : M2kLogicTX Rat :=
    { M2kLogicTX.construct "iio:device9" 0 with samples := [5, 6, 7] }
  let rx : M2kLogicRX Rat := ⟨"iio:device10", 0⟩
  have slowed : M2kLogicRX.slowDocument.map
      (fun doc => (rx.loadValues doc).map M2kLogicRX.ratio) = .ok (.ok 100000) := by
    decide +kernel
  rcases Outcome.map_eq_ok.mp slowed with ⟨doc, _, rate⟩
  have reads : M2kLogicRX.Reads doc 100000 (rx, tx) :=
    ⟨by decide, by decide, by decide, Outcome.map_eq_ok.mp rate⟩
  have countable :=
    (reads.splitsAlike_iff _).mp (alike doc 100000 (rx, tx) [21475, 21475] reads)
  simp [M2kLogicRX.Countable] at countable

theorem bundled_reads_alike :
    (SplitsAlike (M2kLogicRX.readWords (some Adalm2000Document.adalm2000Xml))
        (fun devices => devices.2.currentIndex)
        (⟨"iio:device10", (0 : Rat)⟩,
          { M2kLogicTX.construct "iio:device9" 0 with
            samples := [5, 6, 7], currentIndex := 2 })
        [1, 4, 2] ↔ M2kLogicRX.Countable 1 7) ∧
      (SplitsAlike (M2kADC.readPairs (some Adalm2000Document.adalm2000Xml))
        (fun devices => (devices.dacA.currentIndex, devices.dacB.currentIndex))
        ⟨M2kADC.construct "iio:device0" (0 : Rat) 0,
          { M2kDAC.construct "iio:device7" false true 0 0 with samples := [0.5, 1] },
          { M2kDAC.construct "iio:device8" false true 0 0 with
            samples := [0, 1, 2], currentIndex := 1 }⟩
        [2, 3] ↔ 5 * 1 ≤ (2 ^ 63 - 1) / 8) := by
  have receives : (M2kLogicRX.loadValues ⟨"iio:device10", (0 : Rat)⟩
      (some Adalm2000Document.adalm2000Xml)).map M2kLogicRX.ratio = .ok 1 := by
    decide +kernel
  have calibrates : ((M2kADC.construct "iio:device0" (0 : Rat) 0).loadCalibValues
      (some Adalm2000Document.adalm2000Xml)).map M2kADC.ratio = .ok 1 := by
    decide +kernel
  have digital : M2kLogicRX.Reads (some Adalm2000Document.adalm2000Xml) 1
      (⟨"iio:device10", (0 : Rat)⟩,
        { M2kLogicTX.construct "iio:device9" 0 with
          samples := [5, 6, 7], currentIndex := 2 }) := by
    constructor
    · decide
    · decide
    · decide
    · exact Outcome.map_eq_ok.mp receives
  have analog : M2kADC.Reads (some Adalm2000Document.adalm2000Xml) 1
      ⟨M2kADC.construct "iio:device0" (0 : Rat) 0,
        { M2kDAC.construct "iio:device7" false true 0 0 with samples := [0.5, 1] },
        { M2kDAC.construct "iio:device8" false true 0 0 with
          samples := [0, 1, 2], currentIndex := 1 }⟩ := by
    constructor
    · exact ⟨by decide, by decide⟩
    · exact ⟨by decide, by decide⟩
    · decide
    · exact Outcome.map_eq_ok.mp calibrates
  exact split_reads_alike_iff digital analog [1, 4, 2] [2, 3]

end Examples

end IioEmu
