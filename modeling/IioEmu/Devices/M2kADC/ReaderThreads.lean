import IioEmu.Devices.M2kADC.M2kADC
import IioEmu.Devices.M2kDAC.CursorSafety
import IioEmu.Foundation.Threads

/-! # The reader threads of the analog receiver

A read starts a thread for each channel and joins both. A thread moves the cursor of the
transmitter its channel is connected to, pass by pass. With the channels connected to
different transmitters every schedule reads what one thread after the other reads. -/

namespace IioEmu.M2kADC

open Execution

/-! ## One thread -/

inductive Phase (δ : Type)
  | started
  | transferring (state : M2kDAC.TransferState δ)
  | decimating (tmpSamples : List δ) (state : AverageState δ)
  | finished (dest : List δ)

section Threads

variable {δ : Type} [Double δ]

/-- What a thread does next: it makes its vector, takes a pass of the transmitter's loop or of
the decimation, or leaves a loop. -/
def turn (size ratio : Nat) (_channel : Bool) : M2kDAC δ × Phase δ →
    Outcome (M2kDAC δ × Phase δ)
  | (dac, .started) => do
      reserve 8 size
      return ({ dac with samples := dac.storedForRead size },
        .transferring ⟨[], size, dac.currentIndex⟩)
  | (dac, .transferring state) =>
      if (M2kDAC.transferLoop dac.samples).guard state then do
        let next ← (M2kDAC.transferLoop dac.samples).body state
        return ({ dac with currentIndex := next.currentIndex }, .transferring next)
      else if ratio < 2 then .ok (dac, .finished state.buffer)
      else do
        reserve 8 (state.buffer.length / ratio)
        return (dac, .decimating state.buffer ⟨0, []⟩)
  | (dac, .decimating tmpSamples state) =>
      if (analogicalDecimationLoop tmpSamples ratio).guard state then do
        let next ← (analogicalDecimationLoop tmpSamples ratio).body state
        return (dac, .decimating tmpSamples next)
      else .ok (dac, .finished state.dest)
  | (dac, .finished dest) => .ok (dac, .finished dest)

variable {size ratio : Nat} {channel : Bool} {dac next : M2kDAC δ} {dest : List δ}

theorem turns_finished {count more : Nat} {start : M2kDAC δ × Phase δ}
    (done : turns (turn size ratio) channel count start = .ok (next, .finished dest))
    (enough : count ≤ more) :
    turns (turn size ratio) channel more start = .ok (next, .finished dest) := by
  rw [show more = count + (more - count) by omega, turns_add_eq_ok_iff]
  exact ⟨_, done, turns_of_fixed rfl _⟩

/-! ## The loop of the transmitter -/

omit [Double δ] in
theorem transferLoop_lowers {samples : List δ} {state after : M2kDAC.TransferState δ}
    (enters : (M2kDAC.transferLoop samples).guard state = true)
    (passed : (M2kDAC.transferLoop samples).body state = .ok after) :
    after.samplesCount + (if after.currentIndex < samples.length then 0 else 1) <
      state.samplesCount + (if state.currentIndex < samples.length then 0 else 1) := by
  have inside := M2kDAC.transferLoop_body_inside passed
  rw [if_pos inside]
  have wanted : 0 < state.samplesCount := by simpa [M2kDAC.transferLoop] using enters
  simp only [M2kDAC.transferLoop, Outcome.bind_eq_ok] at passed
  rcases passed with ⟨copied, _, stepped⟩
  split at stepped
  · cases stepped
  · cases stepped
    simp only
    split
    · rename_i before
      rw [M2kDAC.TransferState.remainingSamples, sub64_of_le (by omega)]
      omega
    · omega

theorem turns_of_heads (size ratio : Nat) (channel : Bool) (dac : M2kDAC δ)
    {state head : M2kDAC.TransferState δ}
    (heads : (M2kDAC.transferLoop dac.samples).Heads state head) :
    ∃ count, turns (turn size ratio) channel count
      ({ dac with currentIndex := state.currentIndex }, .transferring state) =
        .ok ({ dac with currentIndex := head.currentIndex }, .transferring head) := by
  induction heads with
  | start state => exact ⟨0, rfl⟩
  | @pass state after head enters passed _ induction =>
      rcases induction with ⟨count, taken⟩
      refine ⟨count + 1, turns_succ_eq_ok_iff.mpr ⟨_, ?_, taken⟩⟩
      simp only [turn, enters, if_true, passed, Outcome.ok_bind, Outcome.pure_eq_ok]

theorem turns_of_heads_decimation (size : Nat) (channel : Bool) (dac : M2kDAC δ)
    {tmpSamples : List δ} {state head : AverageState δ}
    (heads : (analogicalDecimationLoop tmpSamples ratio).Heads state head) :
    ∃ count, turns (turn size ratio) channel count (dac, .decimating tmpSamples state) =
      .ok (dac, .decimating tmpSamples head) := by
  induction heads with
  | start state => exact ⟨0, rfl⟩
  | @pass state after head enters passed _ induction =>
      rcases induction with ⟨count, taken⟩
      refine ⟨count + 1, turns_succ_eq_ok_iff.mpr ⟨_, ?_, taken⟩⟩
      simp only [turn, enters, if_true, passed, Outcome.ok_bind, Outcome.pure_eq_ok]

theorem turns_of_decimation (size : Nat) (channel : Bool) (dac : M2kDAC δ)
    {state : M2kDAC.TransferState δ}
    (leaves : (M2kDAC.transferLoop dac.samples).guard state = false)
    (decimated : analogicalDecimation state.buffer ratio = .ok dest) :
    ∃ count, turns (turn size ratio) channel count (dac, .transferring state) =
      .ok (dac, .finished dest) := by
  by_cases single : ratio < 2
  · rw [analogicalDecimation, if_pos single] at decimated
    cases decimated
    refine ⟨1, turns_succ_eq_ok_iff.mpr ⟨_, ?_, rfl⟩⟩
    simp only [turn, leaves, if_neg (show ¬ false = true by decide), if_pos single]
  · simp only [analogicalDecimation, if_neg single,
      Outcome.bind_eq_ok, Outcome.pure_eq_ok, Except.ok.injEq] at decimated
    rcases decimated with ⟨_, stored, final, looped, rfl⟩
    rcases Loop.heads_of_run_ok _ (Loop.run_of_outcome _ looped) with ⟨heads, left⟩
    rcases turns_of_heads_decimation size channel dac heads with
      ⟨count, taken⟩
    refine ⟨count + 1 + 1,
      turns_succ_eq_ok_iff.mpr ⟨_, ?_, turns_add_eq_ok_iff.mpr ⟨_, taken, ?_⟩⟩⟩
    · simp only [turn, leaves, if_neg (show ¬ false = true by decide),
        if_neg single, stored, Outcome.ok_bind, Outcome.pure_eq_ok]
    · refine turns_succ_eq_ok_iff.mpr ⟨_, ?_, rfl⟩
      simp only [turn, left, if_neg (show ¬ false = true by decide)]

def filled (dac : M2kDAC δ) (size : Nat) : M2kDAC δ :=
  { dac with samples := dac.storedForRead size }

theorem turns_of_resample (returned : resample (some dac) size ratio = .ok (dest, next)) :
    ∃ count, turns (turn size ratio) channel count (dac, .started) =
      .ok (next, .finished dest) := by
  rw [resample_eq] at returned
  simp only [M2kDAC.transferSamplesToRXDevice, Outcome.bind_eq_ok, Outcome.pure_eq_ok,
    Except.ok.injEq, Prod.mk.injEq] at returned
  rcases returned with ⟨_, reserved, _, ⟨final, looped, rfl⟩, _, decimated, rfl, rfl⟩
  rcases Loop.heads_of_run_ok _ (Loop.run_of_outcome _ looped) with ⟨heads, leaves⟩
  have started : turn size ratio channel (dac, .started) =
      .ok (filled dac size, .transferring ⟨[], size, dac.currentIndex⟩) := by
    simp only [turn, reserved, Outcome.ok_bind, Outcome.pure_eq_ok, filled]
  rcases turns_of_heads size ratio channel (filled dac size) heads with
    ⟨passes, transferred⟩
  rcases turns_of_decimation size channel
    { filled dac size with currentIndex := final.currentIndex } leaves decimated with
    ⟨count, finished⟩
  exact ⟨passes + count + 1, turns_succ_eq_ok_iff.mpr
    ⟨_, started, turns_add_eq_ok_iff.mpr ⟨_, transferred, finished⟩⟩⟩

theorem run_of_turns_decimating {tmpSamples : List δ} {count : Nat}
    {state : AverageState δ} (taken : turns (turn size ratio) channel count (dac,
      .decimating tmpSamples state) = .ok (next, .finished dest)) :
    next = dac ∧ ∃ passes final,
      (analogicalDecimationLoop tmpSamples ratio).run passes state = some (.ok final) ∧
        dest = final.dest := by
  induction count generalizing state with
  | zero => cases taken
  | succ count induction =>
      rcases turns_succ_eq_ok_iff.mp taken with ⟨after, here, later⟩
      rw [turn] at here
      cases enters : (analogicalDecimationLoop tmpSamples ratio).guard state with
      | true =>
          simp only [enters, if_true, Outcome.bind_eq_ok, Outcome.pure_eq_ok,
            Except.ok.injEq] at here
          rcases here with ⟨middle, passed, rfl⟩
          rcases induction later with ⟨same, passes, final, ran, collected⟩
          refine ⟨same, passes + 1, final, ?_, collected⟩
          rw [Loop.run_succ_of_ok _ enters passed]
          exact ran
      | false =>
          simp only [enters, if_neg (show ¬ false = true by decide),
            Except.ok.injEq] at here
          subst here
          rw [turns_of_fixed rfl] at later
          cases later
          exact ⟨rfl, 0, state, Loop.run_of_not_guard _ enters 0, rfl⟩

theorem analogicalDecimation_of_run {src : List δ} (several : ¬ ratio < 2) {passes : Nat}
    {final : AverageState δ} (reserved : reserve 8 (src.length / ratio) = .ok ())
    (ran : (analogicalDecimationLoop src ratio).run passes ⟨0, []⟩ = some (.ok final)) :
    analogicalDecimation src ratio = .ok final.dest := by
  have within :=
    Loop.run_of_variant _ (fun _ => True) (fun state => src.length - state.i) (by
    intro state after _ enters passed
    have inside : state.i < src.length := by simpa [analogicalDecimationLoop] using enters
    simp only [analogicalDecimationLoop, Outcome.bind_eq_ok, Outcome.pure_eq_ok,
      Except.ok.injEq] at passed
    rcases passed with ⟨_, _, rfl⟩
    exact ⟨trivial, by simp only; omega⟩) trivial ran src.length (by simp)
  rw [analogicalDecimation, if_neg several, reserved, Outcome.ok_bind,
    Loop.outcome_of_run _ within]
  rfl

theorem run_of_turns_transferring {count : Nat} (dac : M2kDAC δ)
    (state : M2kDAC.TransferState δ)
    (taken : turns (turn size ratio) channel count
      ({ dac with currentIndex := state.currentIndex }, .transferring state) =
        .ok (next, .finished dest)) :
    ∃ passes final, (M2kDAC.transferLoop dac.samples).run passes state = some (.ok final) ∧
      next = { dac with currentIndex := final.currentIndex } ∧
      analogicalDecimation final.buffer ratio = .ok dest := by
  induction count generalizing state with
  | zero => cases taken
  | succ count induction =>
      rcases turns_succ_eq_ok_iff.mp taken with ⟨after, here, later⟩
      rw [turn] at here
      cases enters : (M2kDAC.transferLoop dac.samples).guard state with
      | true =>
          simp only [enters, if_true, Outcome.bind_eq_ok, Outcome.pure_eq_ok,
            Except.ok.injEq] at here
          rcases here with ⟨middle, passed, rfl⟩
          rcases induction _ later with ⟨passes, final, ran, same, decimated⟩
          refine ⟨passes + 1, final, ?_, same, decimated⟩
          rw [Loop.run_succ_of_ok _ enters passed]
          exact ran
      | false =>
          refine ⟨0, state, Loop.run_of_not_guard _ enters 0, ?_⟩
          by_cases single : ratio < 2
          · simp only [enters, if_neg (show ¬ false = true by decide), if_pos single,
              Except.ok.injEq] at here
            subst here
            rw [turns_of_fixed rfl] at later
            cases later
            exact ⟨rfl, by rw [analogicalDecimation, if_pos single]⟩
          · simp only [enters, if_neg (show ¬ false = true by decide), if_neg single,
              Outcome.bind_eq_ok, Outcome.pure_eq_ok, Except.ok.injEq] at here
            rcases here with ⟨_, reserved, rfl⟩
            rcases run_of_turns_decimating later with ⟨same, passes, final, ran, rfl⟩
            exact ⟨same, analogicalDecimation_of_run single reserved ran⟩

theorem resample_iff_turns (channel : Bool) :
    resample (some dac) size ratio = .ok (dest, next) ↔
      ∃ count, turns (turn size ratio) channel count (dac, .started) =
        .ok (next, .finished dest) := by
  constructor
  · exact turns_of_resample
  · intro finishes
    rcases finishes with ⟨count, taken⟩
    cases count with
    | zero => cases taken
    | succ count =>
        rcases turns_succ_eq_ok_iff.mp taken with ⟨after, here, later⟩
        simp only [turn, Outcome.bind_eq_ok, Outcome.pure_eq_ok, Except.ok.injEq] at here
        rcases here with ⟨_, reserved, rfl⟩
        rcases run_of_turns_transferring (filled dac size) ⟨[], size,
            dac.currentIndex⟩ later with
          ⟨passes, final, ran, rfl, decimated⟩
        have within := Loop.run_of_variant _ (fun _ => True)
          (fun state => state.samplesCount +
            if state.currentIndex < (filled dac size).samples.length then 0 else 1)
          (fun _ _ _ enters passed => ⟨trivial,
            transferLoop_lowers enters passed⟩) trivial ran
          (size + 1) (by simp only; split <;> omega)
        have looped := Loop.outcome_of_run _ within
        rw [resample_eq, reserved]
        simp only [Outcome.ok_bind, M2kDAC.transferSamplesToRXDevice, Outcome.bind_eq_ok,
          Outcome.pure_eq_ok, Except.ok.injEq, Prod.mk.injEq]
        exact ⟨_, ⟨final, looped, rfl⟩, dest, decimated, rfl, rfl⟩

end Threads

/-! ## Both threads -/

section Reads

variable {δ : Type} [Double δ] [LibXml2] [TinyIIOD] {Cell : Type} [DecidableEq Cell]

/-- `read_dev` with its threads: the transmitters stand in a memory both threads reach, and a
schedule gives the threads their turns. A join waits for a thread that was given too few. -/
def readDevThreads (adc : M2kADC δ) (doc : Option XmlDoc) (memory : Cell → M2kDAC δ)
    (connection : Bool → Cell) (schedule : List Bool) (_offset bytesCount : Nat) :
    Outcome (Int × List Byte × M2kADC δ × (Cell → M2kDAC δ)) := do
  let adc ← adc.loadCalibValues doc
  reserve 2 (bytesCount / 2)
  let joined ← run
    (Machine.takeTurn (turn (adc.samplesCount bytesCount) adc.ratio) connection)
    ⟨memory, fun _ => .started⟩ schedule
  match joined.locals false, joined.locals true with
  | .finished dacASamples, .finished dacBSamples =>
      let samples ← (List.range (bytesCount / 4)).mapM
        (adc.convertPair dacASamples dacBSamples)
      let bytes ← memcpy (bytesOfWords samples.flatten) 0 bytesCount
      return ((bytesCount : Int), bytes, adc, joined.memory)
  | _, _ => .error .diverges

variable {connection : Bool → Cell} {memory : Cell → M2kDAC δ} {size ratio : Nat}

omit [LibXml2] [TinyIIOD] in
theorem resample_of_schedule (injective : Function.Injective connection)
    {schedule : List Bool} {joined : Machine Bool Cell (M2kDAC δ) (Phase δ)}
    (ran : run (Machine.takeTurn (turn size ratio) connection) ⟨memory, fun _ => .started⟩
      schedule = .ok joined) {channel : Bool} {dest : List δ}
    (finished : joined.locals channel = .finished dest) :
    resample (some (memory (connection channel))) size ratio =
      .ok (dest, joined.memory (connection channel)) := by
  have own := sees_of_run injective ran channel
  simp only [Machine.sees, finished] at own
  exact (resample_iff_turns channel).mpr ⟨_, own⟩

omit [LibXml2] [TinyIIOD] in
theorem schedule_of_resample (injective : Function.Injective connection)
    {dests : Bool → List δ} {after : Bool → M2kDAC δ}
    (returned : ∀ channel, resample (some (memory (connection channel))) size ratio =
      .ok (dests channel, after channel)) :
    ∃ enough, ∀ schedule : List Bool, (∀ channel, enough ≤ schedule.count channel) →
      ∃ joined, run (Machine.takeTurn (turn size ratio) connection)
        ⟨memory, fun _ => .started⟩
          schedule = .ok joined ∧
        ∀ channel, joined.locals channel = .finished (dests channel) ∧
          joined.memory (connection channel) = after channel := by
  have alone := fun channel => (resample_iff_turns channel).mp (returned channel)
  rcases alone false with ⟨first, firstTurns⟩
  rcases alone true with ⟨second, secondTurns⟩
  refine ⟨max first second, ?_⟩
  intro schedule enough
  have finishes : ∀ channel, turns (turn size ratio) channel (schedule.count channel)
      (memory (connection channel), .started) =
        .ok (after channel, .finished (dests channel)) := by
    intro channel
    have given := enough channel
    cases channel with
    | false => exact turns_finished firstTurns (by omega)
    | true => exact turns_finished secondTurns (by omega)
  let machine : Machine Bool Cell (M2kDAC δ) (Phase δ) := ⟨memory, fun _ => .started⟩
  have returns :
      ∀ channel, ∃ ended, turns (turn size ratio) channel (schedule.count channel)
      (machine.sees connection channel) = .ok ended :=
    fun channel => ⟨_, finishes channel⟩
  rcases run_returns_of_turns injective machine returns with ⟨joined, ran⟩
  refine ⟨joined, ran, ?_⟩
  intro channel
  have ends := sees_of_run injective ran channel
  rw [Machine.sees, finishes channel] at ends
  have same := Except.ok.inj ends
  simp only [Machine.sees, Prod.mk.injEq] at same
  exact ⟨same.2.symm, same.1.symm⟩

variable {adc loaded : M2kADC δ} {doc : Option XmlDoc}

theorem readDevThreads_eq_ok_iff (loads : adc.loadCalibValues doc = .ok loaded)
    {schedule : List Bool} {offset bytesCount : Nat} {ret : Int} {bytes : List Byte}
    {next : M2kADC δ} {left : Cell → M2kDAC δ} :
    adc.readDevThreads doc memory connection schedule offset bytesCount =
        .ok (ret, bytes, next, left) ↔
      reserve 2 (bytesCount / 2) = .ok () ∧ ∃ joined dacASamples dacBSamples samples,
        run (Machine.takeTurn (turn (loaded.samplesCount bytesCount) loaded.ratio) connection)
            ⟨memory, fun _ => .started⟩ schedule = .ok joined ∧
          joined.locals false = .finished dacASamples ∧
          joined.locals true = .finished dacBSamples ∧
          (List.range (bytesCount / 4)).mapM
            (loaded.convertPair dacASamples dacBSamples) =
            .ok samples ∧
          memcpy (bytesOfWords samples.flatten) 0 bytesCount = .ok bytes ∧
          ret = (bytesCount : Int) ∧ next = loaded ∧ left = joined.memory := by
  simp only [readDevThreads, loads, Outcome.ok_bind, Outcome.bind_eq_ok]
  constructor
  · rintro ⟨_, reserved, joined, ran, converted⟩
    split at converted
    · rename_i dacASamples dacBSamples finishedA finishedB
      simp only [Outcome.bind_eq_ok, Outcome.pure_eq_ok, Except.ok.injEq,
        Prod.mk.injEq] at converted
      rcases converted with ⟨samples, pairs, _, copied, rfl, rfl, rfl, rfl⟩
      exact ⟨reserved, joined, dacASamples, dacBSamples, samples, ran,
        finishedA, finishedB, pairs, copied, rfl, rfl, rfl⟩
    · cases converted
  · rintro ⟨reserved, joined, dacASamples, dacBSamples, samples, ran,
      finishedA, finishedB, pairs, copied, rfl, rfl, rfl⟩
    refine ⟨(), reserved, joined, ran, ?_⟩
    simp only [finishedA, finishedB, Outcome.bind_eq_ok]
    exact ⟨samples, pairs, bytes, copied, rfl⟩

theorem readDev_eq_ok_iff (loads : adc.loadCalibValues doc = .ok loaded)
    {dacA dacB nextA nextB : M2kDAC δ} {offset bytesCount : Nat}
    {ret : Int} {bytes : List Byte} {next : M2kADC δ} :
    adc.readDev doc (some dacA) (some dacB) offset bytesCount =
        .ok (ret, bytes, next, nextA, nextB) ↔
      reserve 2 (bytesCount / 2) = .ok () ∧ ∃ dacASamples dacBSamples samples,
        resample (some dacA) (loaded.samplesCount bytesCount) loaded.ratio =
            .ok (dacASamples, nextA) ∧
          resample (some dacB) (loaded.samplesCount bytesCount) loaded.ratio =
            .ok (dacBSamples, nextB) ∧
          (List.range (bytesCount / 4)).mapM
            (loaded.convertPair dacASamples dacBSamples) =
            .ok samples ∧
          memcpy (bytesOfWords samples.flatten) 0 bytesCount = .ok bytes ∧
          ret = (bytesCount : Int) ∧ next = loaded := by
  simp only [readDev, loads, Outcome.ok_bind, Outcome.bind_eq_ok, Outcome.pure_eq_ok,
    Except.ok.injEq, Prod.mk.injEq, Prod.exists]
  constructor
  · rintro ⟨_, reserved, dacASamples, _, readA, dacBSamples, _, readB,
      samples, pairs, _, copied, rfl, rfl, rfl, rfl, rfl⟩
    exact ⟨reserved, dacASamples, dacBSamples, samples, readA, readB,
      pairs, copied, rfl, rfl⟩
  · rintro ⟨reserved, dacASamples, dacBSamples, samples, readA, readB,
      pairs, copied, rfl, rfl⟩
    exact ⟨(), reserved, dacASamples, nextA, readA, dacBSamples, nextB,
      readB, samples, pairs, bytes, copied, rfl, rfl, rfl, rfl, rfl⟩

/-- However the two threads take their turns, once both had enough of them the read returns
what the channels read one after the other return, moves both cursors as they do, and leaves
every other transmitter alone. -/
theorem any_schedule_reads_alike
    (injective : Function.Injective connection) (adc : M2kADC δ) (doc : Option XmlDoc)
    (memory : Cell → M2kDAC δ) (offset bytesCount : Nat) :
    ∃ enough, ∀ schedule : List Bool, (∀ channel, enough ≤ schedule.count channel) →
      ∀ ret bytes next nextA nextB,
        adc.readDev doc (some (memory (connection false)))
          (some (memory (connection true)))
            offset bytesCount = .ok (ret, bytes, next, nextA, nextB) ↔
          ∃ left, adc.readDevThreads doc memory connection schedule offset bytesCount =
              .ok (ret, bytes, next, left) ∧
            left (connection false) = nextA ∧ left (connection true) = nextB ∧
            ∀ other, (∀ channel, other ≠ connection channel) →
            left other = memory other := by
  cases loads : adc.loadCalibValues doc with
  | error fault =>
      refine ⟨0, fun schedule _ ret bytes next nextA nextB => ?_⟩
      simp [readDev, readDevThreads, loads]
  | ok loaded =>
      have sequential : ∀ schedule ret bytes next nextA nextB left,
          adc.readDevThreads doc memory connection schedule offset bytesCount =
              .ok (ret, bytes, next, left) → left (connection false) = nextA →
            left (connection true) = nextB →
            adc.readDev doc (some (memory (connection false)))
              (some (memory (connection true)))
              offset bytesCount = .ok (ret, bytes, next, nextA, nextB) := by
        intro schedule ret bytes next nextA nextB left returned leftA leftB
        rcases (readDevThreads_eq_ok_iff loads).mp returned with
          ⟨reserved, joined, dacASamples,
          dacBSamples, samples, ran, finishedA, finishedB, pairs,
            copied, counted, same, rfl⟩
        have readA := resample_of_schedule injective ran finishedA
        have readB := resample_of_schedule injective ran finishedB
        rw [leftA] at readA
        rw [leftB] at readB
        exact (readDev_eq_ok_iff loads).mpr
          ⟨reserved, dacASamples, dacBSamples, samples, readA, readB, pairs,
            copied, counted, same⟩
      by_cases both : ∃ results : Bool → List δ × M2kDAC δ, ∀ channel,
          resample (some (memory (connection channel))) (loaded.samplesCount bytesCount)
            loaded.ratio = .ok ((results channel).1, (results channel).2)
      · rcases both with ⟨results, returned⟩
        rcases schedule_of_resample injective returned with ⟨enough, schedules⟩
        refine ⟨enough, ?_⟩
        intro schedule given ret bytes next nextA nextB
        constructor
        · intro read
          rcases (readDev_eq_ok_iff loads).mp read with
            ⟨reserved, dacASamples, dacBSamples,
            samples, readA, readB, pairs, copied, counted, same⟩
          rcases schedules schedule given with ⟨joined, ran, ends⟩
          have sameA := Except.ok.inj (readA.symm.trans (returned false))
          have sameB := Except.ok.inj (readB.symm.trans (returned true))
          simp only [Prod.mk.injEq] at sameA sameB
          refine ⟨joined.memory, (readDevThreads_eq_ok_iff loads).mpr ⟨reserved, joined,
            dacASamples, dacBSamples, samples, ran, ?_, ?_, pairs, copied,
            counted, same, rfl⟩,
            ?_, ?_, ?_⟩
          · rw [(ends false).1, sameA.1]
          · rw [(ends true).1, sameB.1]
          · rw [(ends false).2, sameA.2]
          · rw [(ends true).2, sameB.2]
          · intro other apart
            exact memory_of_run ran apart
        · rintro ⟨left, threaded, leftA, leftB, _⟩
          exact sequential schedule ret bytes next nextA nextB left threaded leftA leftB
      · refine ⟨0, ?_⟩
        intro schedule _ ret bytes next nextA nextB
        constructor
        · intro read
          rcases (readDev_eq_ok_iff loads).mp read with ⟨_, dacASamples,
            dacBSamples, _, readA, readB, _⟩
          refine absurd ⟨fun channel => if channel then (dacBSamples, nextB)
            else (dacASamples, nextA), ?_⟩ both
          intro channel
          cases channel with
          | false => exact readA
          | true => exact readB
        · rintro ⟨left, threaded, leftA, leftB, _⟩
          exact sequential schedule ret bytes next nextA nextB left threaded leftA leftB

end Reads

section Examples

open scoped Reference

def twoTransmitters (channel : Bool) : M2kDAC Rat :=
  { M2kDAC.construct (if channel then "iio:device7" else "iio:device6") false
      true 75000000 1 with
    samples := if channel then [1, 2, 3] else [4, 5] }

theorem bundled_schedules_read_alike :
    ∃ enough, ∀ schedule : List Bool, (∀ channel, enough ≤ schedule.count channel) →
      ∀ ret bytes next nextA nextB,
        (construct "iio:device0" (0 : Rat) 0).readDev
          (some Adalm2000Document.adalm2000Xml)
            (some (twoTransmitters false)) (some (twoTransmitters true)) 0 16 =
              .ok (ret, bytes, next, nextA, nextB) ↔
          ∃ left, (construct "iio:device0" (0 : Rat) 0).readDevThreads
              (some Adalm2000Document.adalm2000Xml) twoTransmitters id schedule 0 16 =
                .ok (ret, bytes, next, left) ∧
            left false = nextA ∧ left true = nextB ∧
            ∀ other, (∀ channel : Bool, other ≠ id channel) →
            left other = twoTransmitters other :=
  any_schedule_reads_alike Function.injective_id _ _ twoTransmitters 0 16

example : ∀ schedule ∈ [(List.replicate 20 [false, true]).flatten,
      List.replicate 20 false ++ List.replicate 20 true],
    ((construct "iio:device0" (0 : Rat) 0).readDevThreads
      (some Adalm2000Document.adalm2000Xml)
      twoTransmitters id schedule 0 16).map (fun read => read.2.1) =
    ((construct "iio:device0" (0 : Rat) 0).readDev (some Adalm2000Document.adalm2000Xml)
      (some (twoTransmitters false)) (some (twoTransmitters true)) 0 16).map
        (fun read => read.2.1) := by
  decide +kernel

end Examples

end IioEmu.M2kADC
