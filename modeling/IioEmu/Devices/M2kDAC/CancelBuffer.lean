import IioEmu.Devices.M2kDAC.FrameIsolation

/-! # Cancelling the buffer of the analog transmitter

Cancelling empties the vector and rewinds the cursor. It does not set the flag
that makes the next write start over, and a client that reads before it writes
finds that out. -/

namespace IioEmu.M2kDAC

open Execution

inductive Answer (δ : Type)
  | returned (code : Int)
  | delivered (samples : List δ)
  deriving DecidableEq

section Sessions

variable {δ : Type} [Double δ] [LibXml2] [TinyIIOD]

def answer (dac : M2kDAC δ) : Action → Outcome (Answer δ × M2kDAC δ)
  | .openDev doc sampleSize mask cyclic =>
      Prod.map .returned id <$> dac.openDev doc sampleSize mask cyclic
  | .closeDev => Prod.map .returned id <$> dac.closeDev
  | .writeDev buf offset bytesCount =>
      Prod.map .returned id <$> dac.writeDev buf offset bytesCount
  | .transferMemToDev doc bytesCount =>
      Prod.map .returned id <$> dac.transferMemToDev doc bytesCount
  | .cancelBuffer => Prod.map .returned id <$> dac.cancelBuffer
  | .transferSamplesToRXDevice samplesCount =>
      Prod.map .delivered id <$> dac.transferSamplesToRXDevice samplesCount

/-- What is seen of the calls, up to the first one that does not return. -/
def answers : M2kDAC δ → List Action → List (Outcome (Answer δ))
  | _, [] => []
  | dac, action :: actions =>
      match dac.answer action with
      | .ok (seen, next) => .ok seen :: answers next actions
      | .error fault => [.error fault]

theorem answers_cons {dac next : M2kDAC δ} {action : Action} {seen : Answer δ}
    (answered : dac.answer action = .ok (seen, next)) (actions : List Action) :
    answers dac (action :: actions) = .ok seen :: answers next actions := by
  rw [answers, answered]

def Action.InSession (doc : Option XmlDoc) : Action → Prop
  | .openDev document _ _ _ => document = doc
  | .transferMemToDev document _ => document = doc
  | .writeDev _ _ _ | .transferSamplesToRXDevice _ => True
  | .closeDev | .cancelBuffer => False

/-- After cancelling, every session that begins by opening the device sees what
it would see of a freshly constructed one. -/
def GoodAsNew (doc : Option XmlDoc) (deviceId : String) (dac : M2kDAC δ) : Prop :=
  ∀ (cyclic enable : Bool) (samplerate : δ) (oversamplingRatio sampleSize mask : Nat)
    (looping : Bool) (session : List Action), (∀ action ∈ session, action.InSession doc) →
      answers dac (.cancelBuffer :: .openDev doc sampleSize mask looping :: session) =
        .ok (.returned 0) ::
          answers (construct deviceId cyclic enable samplerate oversamplingRatio)
            (.openDev doc sampleSize mask looping :: session)

omit [Double δ] [LibXml2] [TinyIIOD] in
theorem deviceId_of_cleared (dac : M2kDAC δ) : dac.cleared.deviceId = dac.deviceId := by
  rw [cleared]
  split <;> rfl

theorem deviceId_of_step {dac next : M2kDAC δ} {action : Action}
    (stepped : dac.step action = .ok next) : next.deviceId = dac.deviceId := by
  cases action with
  | openDev doc sampleSize mask cyclic =>
      rcases step_openDev.mp stepped with ⟨loaded, returned, rfl⟩
      rw [eq_of_loadCalibValues returned]
  | closeDev => rw [step_closeDev.mp stepped]
  | writeDev buf offset bytesCount =>
      rcases step_writeDev.mp stepped with ⟨_, rfl⟩ | ⟨_, _, volts, _, _, rfl⟩
      · rfl
      · exact dac.deviceId_of_cleared
  | transferMemToDev doc bytesCount =>
      rcases step_transferMemToDev.mp stepped with ⟨loaded, samples, returned, _, rfl⟩
      rw [eq_of_loadCalibValues returned]
  | cancelBuffer => rw [step_cancelBuffer.mp stepped]
  | transferSamplesToRXDevice samplesCount =>
      rcases step_transferSamplesToRXDevice.mp stepped with ⟨delivered, read⟩
      rw [transferSamplesToRXDevice, Outcome.bind_eq_ok] at read
      rcases read with ⟨_, _, equal⟩
      cases equal
      rfl

theorem deviceId_of_run {initial dac : M2kDAC δ} {actions : List Action}
    (ran : run step initial actions = .ok dac) : dac.deviceId = initial.deviceId := by
  apply reached_invariant step (fun state => state.deviceId = initial.deviceId) rfl ?_ dac
    ⟨actions, List.prefix_rfl, ran⟩
  intro state action next _ stepped named
  exact (deviceId_of_step stepped).trans named

/-! ## The first calls of a session -/

def opened (deviceId : String) (rated : M2kDAC δ) (mask : Nat)
    (looping resetBuffer : Bool) (samples : List δ) : M2kDAC δ where
  deviceId := deviceId
  cyclic := looping
  enable := mask != 0
  currentIndex := 0
  samplerate := rated.samplerate
  oversamplingRatio := rated.oversamplingRatio
  samples := samples
  resetBuffer := resetBuffer

variable {doc : Option XmlDoc} {rated : M2kDAC δ}

theorem answer_openDev {dac loadedFrom : M2kDAC δ}
    (fixed : loadedFrom.loadCalibValues doc = .ok rated)
    (named : dac.deviceId = loadedFrom.deviceId) (empty : dac.samples = [])
    (rewound : dac.currentIndex = 0) (sampleSize mask : Nat) (looping : Bool) :
    dac.answer (.openDev doc sampleSize mask looping) =
      .ok (.returned 0, opened dac.deviceId rated mask looping dac.resetBuffer []) := by
  have loaded := loadCalibValues_of_deviceId fixed named
  simp only [answer, openDev, loaded, Outcome.ok_bind, opened, ← empty, ← rewound]
  rfl

omit [LibXml2] [TinyIIOD] in
theorem transfer_one {dac : M2kDAC δ} {sample : δ} {rest : List δ}
    (found : dac.storedForRead 1 = sample :: rest) (rewound : dac.currentIndex = 0)
    (indexed : rest.length + 1 < 2 ^ 32) :
    dac.transferSamplesToRXDevice 1 = .ok ([sample], { dac with
      samples := sample :: rest, currentIndex := 1 % (rest.length + 1) }) := by
  have looped := transferLoop_outcome (show (sample :: rest).length < 2 ^ 32 from indexed)
    (show 0 < (sample :: rest).length by simp) 1
  rw [cyclicWindow_of_le (by simp)] at looped
  simp only [transferSamplesToRXDevice, found, rewound, looped]
  simp

theorem answer_read_empty (deviceId : String) (mask : Nat) (looping resetBuffer : Bool) :
    (opened deviceId rated mask looping resetBuffer []).answer
        (.transferSamplesToRXDevice 1) =
      .ok (.delivered [(0.0 : δ)],
      opened deviceId rated mask looping resetBuffer [(0.0 : δ)]) := by
  have found : (opened deviceId rated mask looping resetBuffer []).storedForRead 1 =
      [(0.0 : δ)] := rfl
  rw [answer, transfer_one found rfl (by simp), List.length_nil,
    Nat.zero_add, Nat.mod_self]
  rfl

/-- A write of one word after a read that stored a zero: a set flag clears the
zero, otherwise the sample goes behind it. -/
theorem answer_write_after_zero {raw : Word} {volt : δ}
    (converted : rated.convertRawToVolts raw = .ok volt) (deviceId : String)
    (looping resetBuffer : Bool) :
    (opened deviceId rated 1 looping resetBuffer [(0.0 : δ)]).answer
        (.writeDev (bytesOfWords [raw]) 0 2) =
      .ok (.returned 2, opened deviceId rated 1 looping false
        (if resetBuffer then [volt] else [(0.0 : δ), volt])) := by
  have words : loadWords (bytesOfWords [raw]) (2 / 2) = .ok [raw] :=
    loadWords_bytesOfWords [raw]
  have atRate : ∀ dac : M2kDAC δ, dac.samplerate = rated.samplerate →
      [raw].mapM dac.convertRawToVolts = .ok [volt] := by
    intro dac same
    rw [convertRawToVolts_of_samplerate same, List.mapM_cons, converted]
    rfl
  cases resetBuffer with
  | false => simp [answer, writeDev, words, opened, cleared, atRate]
  | true => simp [answer, writeDev, words, opened, cleared, atRate]

theorem answers_read_write_read {raw : Word} {volt : δ}
    (converted : rated.convertRawToVolts raw = .ok volt) (deviceId : String)
    (looping resetBuffer : Bool) :
    answers (opened deviceId rated 1 looping resetBuffer [])
        [.transferSamplesToRXDevice 1, .writeDev (bytesOfWords [raw]) 0 2,
          .transferSamplesToRXDevice 1] =
      [.ok (.delivered [(0.0 : δ)]), .ok (.returned 2),
        .ok (.delivered [if resetBuffer then volt else (0.0 : δ)])] := by
  have last (sample : δ) (rest : List δ) (indexed : rest.length + 1 < 2 ^ 32) :
      answers (opened deviceId rated 1 looping false (sample :: rest))
          [.transferSamplesToRXDevice 1] = [.ok (.delivered [sample])] := by
    have found :
        (opened deviceId rated 1 looping false (sample :: rest)).storedForRead 1 =
        sample :: rest := rfl
    simp [answers, answer, transfer_one found rfl indexed]
  rw [answers_cons (answer_read_empty deviceId 1 looping resetBuffer),
    answers_cons (answer_write_after_zero converted deviceId looping resetBuffer)]
  cases resetBuffer with
  | false => rw [if_neg (by decide), last _ _ (by simp)]; rfl
  | true => rw [if_pos rfl, last _ _ (by simp)]; rfl

/-! ## When cancelling is enough -/

theorem answer_cancelBuffer (dac : M2kDAC δ) :
    dac.answer .cancelBuffer =
      .ok (.returned 0, { dac with samples := [], currentIndex := 0 }) := rfl

/-- In every state reached from construction, cancelling makes the device as
good as new exactly when the flag is set. -/
theorem good_as_new_iff_pending {deviceId : String}
    {cyclic enable : Bool} {samplerate : δ} {oversamplingRatio : Nat}
    (fixed : (construct deviceId cyclic enable samplerate oversamplingRatio).loadCalibValues
      doc = .ok rated)
    {raw : Word} {volt : δ} (converted : rated.convertRawToVolts raw = .ok volt)
    (sounds : volt ≠ 0.0) {history : List Action} {dac : M2kDAC δ}
    (ran : run step (construct deviceId cyclic enable samplerate oversamplingRatio) history =
      .ok dac) :
    GoodAsNew doc deviceId dac ↔ dac.resetBuffer = true := by
  have named : dac.deviceId = deviceId := deviceId_of_run ran
  have cancelled (sampleSize mask : Nat) (looping : Bool) (session : List Action) :
      answers dac (.cancelBuffer :: .openDev doc sampleSize mask looping :: session) =
        .ok (.returned 0) :: .ok (.returned 0) ::
          answers (opened deviceId rated mask looping dac.resetBuffer []) session := by
    have opening := answer_openDev fixed
      (show ({ dac with samples := [], currentIndex := 0 } : M2kDAC δ).deviceId = deviceId
        from named) rfl rfl sampleSize mask looping
    rw [answers_cons dac.answer_cancelBuffer, answers_cons opening, ← named]
  have constructed (looping enabled : Bool) (rate : δ)
      (oversampling sampleSize mask : Nat)
      (cyclic : Bool) (session : List Action) :
      answers (construct deviceId cyclic enabled rate oversampling)
          (.openDev doc sampleSize mask looping :: session) =
        .ok (.returned 0) ::
            answers (opened deviceId rated mask looping true []) session := by
    have opening := answer_openDev fixed
      (show (construct deviceId cyclic enabled rate oversampling).deviceId = deviceId
        from rfl) rfl rfl sampleSize mask looping
    rw [answers_cons opening]
    rfl
  constructor
  · intro good
    have session := good cyclic enable samplerate oversamplingRatio 2 1 false
      [.transferSamplesToRXDevice 1, .writeDev (bytesOfWords [raw]) 0 2,
        .transferSamplesToRXDevice 1] (by simp [Action.InSession])
    rw [cancelled, constructed, answers_read_write_read converted,
      answers_read_write_read converted] at session
    cases pending : dac.resetBuffer with
    | true => rfl
    | false =>
        simp only [pending, Bool.false_eq_true, if_true, if_false, List.cons.injEq,
          Except.ok.injEq, Answer.delivered.injEq, true_and, and_true] at session
        exact absurd session.symm sounds
  · intro pending cyclic enabled rate oversampling sampleSize mask looping session _
    rw [cancelled, constructed, pending]

end Sessions

section Examples

open scoped Reference

/-- Four samples are written and the buffer is cancelled: a client that opens,
reads one sample, writes one word and reads again gets the zero back. -/
theorem cancel_with_samples_pending_not_new :
    ¬ ∀ (history : List Action) (dac : M2kDAC Rat),
      run step (construct "iio:device6" false false 0 0) history = .ok dac →
        GoodAsNew (some Adalm2000Document.adalm2000Xml) "iio:device6" dac := by
  intro good
  have differ : (run step (construct "iio:device6" false false (0 : Rat) 0)
      [.openDev (some Adalm2000Document.adalm2000Xml) 2 1 false,
        .writeDev (bytesOfWords [0, 16, 32, 48]) 0 8]).map (fun dac =>
        decide (answers dac [.cancelBuffer,
            .openDev (some Adalm2000Document.adalm2000Xml) 2 1 false,
            .transferSamplesToRXDevice 1, .writeDev (bytesOfWords [0]) 0 2,
            .transferSamplesToRXDevice 1] =
          .ok (.returned 0) :: answers (construct "iio:device6" false false 0 0)
            [.openDev (some Adalm2000Document.adalm2000Xml) 2 1 false,
              .transferSamplesToRXDevice 1, .writeDev (bytesOfWords [0]) 0 2,
              .transferSamplesToRXDevice 1])) = .ok false := by
    decide +kernel
  rcases Outcome.map_eq_ok.mp differ with ⟨dac, ran, different⟩
  have same := good _ dac ran false false 0 0 2 1 false
    [.transferSamplesToRXDevice 1, .writeDev (bytesOfWords [0]) 0 2,
      .transferSamplesToRXDevice 1] (by simp [Action.InSession])
  exact of_decide_eq_false different same

theorem cancel_after_transfer_good_as_new :
    ∃ dac : M2kDAC Rat, run step (construct "iio:device6" false false 0 0)
        [.openDev (some Adalm2000Document.adalm2000Xml) 2 1 false,
          .writeDev (bytesOfWords [0, 16]) 0 4,
          .transferMemToDev (some Adalm2000Document.adalm2000Xml) 4] = .ok dac ∧
      GoodAsNew (some Adalm2000Document.adalm2000Xml) "iio:device6" dac := by
  have pending : (run step (construct "iio:device6" false false (0 : Rat) 0)
      [.openDev (some Adalm2000Document.adalm2000Xml) 2 1 false,
        .writeDev (bytesOfWords [0, 16]) 0 4,
        .transferMemToDev (some Adalm2000Document.adalm2000Xml) 4]).map resetBuffer =
          .ok true := by
    decide +kernel
  have fixed : (construct "iio:device6" false false (0 : Rat) 0).loadCalibValues
      (some Adalm2000Document.adalm2000Xml) =
        .ok (construct "iio:device6" false false 75000000 1) := by
    decide +kernel
  have converted : (construct "iio:device6" false false (75000000 : Rat)
      1).convertRawToVolts 0 = .ok (-1 / 819) := by
    decide +kernel
  rcases Outcome.map_eq_ok.mp pending with ⟨dac, ran, set⟩
  exact ⟨dac, ran,
    (good_as_new_iff_pending fixed converted (by decide +kernel) ran).mpr set⟩

end Examples

end IioEmu.M2kDAC
