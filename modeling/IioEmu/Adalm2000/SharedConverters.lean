import IioEmu.Adalm2000.SharedReceiver
import IioEmu.Devices.M2kADC.TotalReads

/-! # Clients that share the analog receiver

Both converters play what was written to them, each in a loop of its own. Whoever reads the
receiver, each read takes as many voltages from the one as from the other, so all reads
together deliver pairs of the same positions. -/

namespace IioEmu.Emulator

open Execution

/-! ## Reads of the analog receiver -/

def pairsAsked : Action → Nat := countAsked "iio:device0" 4

def receivedPairs : Action × Reply → List (Word × Word) :=
  valuesRead "iio:device0" (pairsOfWords ∘ wordsOfBytes)

section Steps

variable {δ : Type}

def LeavesVoltages (emulator : Emulator δ) : Action → Prop
  | .serve _ (.writeDev device ..) | .serve _ (.transferMemToDev device _)
  | .serve _ (.closeDev device) => device ≠ "iio:device6" ∧ device ≠ "iio:device7"
  | .disconnect fd => emulator.getDeviceByDescriptor fd ≠ some .dacA ∧
      emulator.getDeviceByDescriptor fd ≠ some .dacB
  | _ => True

variable [Double δ] [LibXml2] [TinyIIOD] {clients : Clients} {emulator next : Emulator δ}
  {action : Action} {reply : Reply} {ratio start : Nat}

def Stands (dac now : M2kDAC δ) (played : Nat) : Prop :=
  now.samples = dac.samples ∧
    now.currentIndex = (dac.currentIndex + played) % dac.samples.length

omit [LibXml2] [TinyIIOD] [Double δ] in
theorem Stands.plays {dac now : M2kDAC δ} {played : Nat} (stands : Stands dac now played)
    (plays : dac.Plays) : now.Plays := by
  have inside := plays.inside
  constructor
  · rw [stands.1]
    exact plays.indexed
  · rw [stands.1, stands.2]
    exact Nat.mod_lt _ (by omega)

omit [LibXml2] [TinyIIOD] [Double δ] in
theorem Stands.advance {dac now : M2kDAC δ} {played : Nat}
    (stands : Stands dac now played) (count : Nat) :
    Stands dac (now.advance count) (played + count) := by
  refine ⟨stands.1, ?_⟩
  simp only [M2kDAC.advance, stands.1, stands.2, Nat.mod_add_mod, Nat.add_assoc]

omit [LibXml2] [TinyIIOD] in
theorem pairWindow_of_stands {dacA dacB nowA nowB : M2kDAC δ} {convert : Fin 2 → δ → Word}
    (standsA : Stands dacA nowA (start * ratio))
    (standsB : Stands dacB nowB (start * ratio)) (count : Nat) :
    M2kADC.pairWindow convert ratio nowA nowB 0 count =
      M2kADC.pairWindow convert ratio dacA dacB start count := by
  simp only [M2kADC.pairWindow, Nat.zero_mul, Nat.add_zero, standsA.1,
    standsA.2, standsB.1, standsB.2, decimatedWindow_mod]

theorem pairs_of_readDev {dacA dacB : M2kDAC δ} {loaded : M2kADC δ}
    {convert : Fin 2 → δ → Word} (wellFormed : WellFormed clients emulator)
    (loads : emulator.adc.loadCalibValues emulator.context.doc = .ok loaded)
    (converts : ∀ (channel : Fin 2) voltage,
      loaded.convertVoltToRaw voltage channel = .ok (convert channel voltage))
    (positive : 1 ≤ loaded.ratio) (playsA : dacA.Plays) (playsB : dacB.Plays)
    (standsA : Stands dacA emulator.dacA (start * loaded.ratio))
    (standsB : Stands dacB emulator.dacB (start * loaded.ratio)) {offset bytesCount : Nat}
    (performed : emulator.perform (.readDev "iio:device0" offset bytesCount) =
      .ok (reply, next)) :
    (∃ ret bytes, reply = .samples ret bytes ∧ pairsOfWords (wordsOfBytes bytes) =
      M2kADC.pairWindow convert loaded.ratio dacA dacB start (bytesCount / 4)) ∧
      Stands dacA next.dacA ((start + bytesCount / 4) * loaded.ratio) ∧
      Stands dacB next.dacB ((start + bytesCount / 4) * loaded.ratio) := by
  have found : emulator.getDevice "iio:device0" = some .adc :=
    wellFormed.getDevice_iff.mpr rfl
  simp only [perform, readDev, found, readSlot, Option.bind_some, Option.getD_some,
    Outcome.bind_eq_ok, Outcome.pure_eq_ok, Except.ok.injEq, Prod.mk.injEq,
    Prod.exists] at performed
  rcases performed with ⟨ret, bytes, _,
    ⟨_, _, adc, nextA, nextB, read, rfl, rfl, rfl⟩, rfl, rfl⟩
  have currentA := standsA.plays playsA
  have currentB := standsB.plays playsB
  rcases M2kADC.answers_of_readDev (.inl currentA.inside)
      (.inl currentB.inside) loads read with
    ⟨⟨count, rfl⟩, answers⟩
  have positions : 4 * count / 4 = count := by omega
  have stored : count * loaded.ratio ≤ (2 ^ 63 - 1) / 8 := by
    rcases answers with none | ⟨_, stored, _⟩
    · simp [show count = 0 by omega]
    · rwa [positions] at stored
  have reads : M2kADC.Reads emulator.context.doc loaded.ratio
      ⟨emulator.adc, emulator.dacA, emulator.dacB⟩ :=
    ⟨currentA, currentB, positive, loaded, loads, rfl⟩
  have pairs : M2kADC.readPairs emulator.context.doc
      ⟨emulator.adc, emulator.dacA, emulator.dacB⟩ count =
        .ok (pairsOfWords (wordsOfBytes _), ⟨adc, nextA, nextB⟩) :=
    Outcome.bind_eq_ok.mpr ⟨_, read, rfl⟩
  have same :=
    Except.ok.inj (pairs.symm.trans (reads.readPairs loads rfl converts stored))
  simp only [Prod.mk.injEq, M2kADC.Devices.mk.injEq] at same
  rcases same with ⟨window, _, rfl, rfl⟩
  rw [positions, Nat.add_mul]
  refine ⟨⟨_, _, rfl, ?_⟩, standsA.advance _, standsB.advance _⟩
  rw [window, pairWindow_of_stands standsA standsB]

theorem dac_of_step (wellFormed : WellFormed clients emulator)
    (reads : ¬ ReadsFrom "iio:device0" action) (leaves : LeavesVoltages emulator action)
    (stepped : emulator.step action = .ok (reply, next)) (channel : Bool) :
    (next.dac channel).samples = (emulator.dac channel).samples ∧
      (next.dac channel).currentIndex = (emulator.dac channel).currentIndex := by
  have ran := (step_projects stepped).dac channel
  have named (device : String) (slot : DeviceSlot) :
      emulator.getDevice device = some slot ↔ device = slot.name :=
        wellFormed.getDevice_iff
  have same (equal : Except.ok (emulator.dac channel) =
      (Except.ok (next.dac channel) : Outcome (M2kDAC δ))) :
      (next.dac channel).samples = (emulator.dac channel).samples ∧
        (next.dac channel).currentIndex = (emulator.dac channel).currentIndex := by
    rw [Except.ok.inj equal]
    exact ⟨rfl, rfl⟩
  cases action with
  | disconnect fd =>
      have elsewhere : emulator.getDeviceByDescriptor fd ≠ some (dacSlot channel) := by
        cases channel with
        | false => exact leaves.1
        | true => exact leaves.2
      simp only [dacActions, if_neg elsewhere] at ran
      exact same ran
  | serve fd command =>
      cases command with
      | openDev device sampleSize mask cyclic =>
          simp only [dacActions, dacCommand] at ran
          split at ran
          · rw [run_singleton] at ran
            rcases M2kDAC.step_openDev.mp ran with ⟨loaded, returned, equal⟩
            have kept := M2kDAC.eq_of_loadCalibValues returned
            have samples := congrArg M2kDAC.samples kept
            have index := congrArg M2kDAC.currentIndex kept
            rw [equal]
            exact ⟨samples, index⟩
          · exact same ran
      | writeDev device | transferMemToDev device | closeDev device =>
          have elsewhere : emulator.getDevice device ≠ some (dacSlot channel) := by
            rw [Ne, named]
            cases channel with
            | false => exact leaves.1
            | true => exact leaves.2
          simp only [dacActions, dacCommand, if_neg elsewhere] at ran
          exact same ran
      | readDev device =>
          simp only [dacActions, dacCommand] at ran
          split at ran
          · rename_i found _
            exact absurd ((named device .adc).mp found) reads
          · exact same ran
      | _ => exact same ran

structure PlayingPairs (clients : Clients) (dacA dacB : M2kDAC δ) (loaded : M2kADC δ)
    (start : Nat) (emulator : Emulator δ) : Prop where
  wellFormed : WellFormed clients emulator
  loads : emulator.adc.loadCalibValues emulator.context.doc = .ok loaded
  standsA : Stands dacA emulator.dacA (start * loaded.ratio)
  standsB : Stands dacB emulator.dacB (start * loaded.ratio)

structure LetsVoltagesPlay (clients : Clients) (emulator : Emulator δ) (action : Action) :
    Prop where
  keeps : action.Keeps clients
  leaves : LeavesVoltages emulator action
  quiet : KeepsAttributes clients .analog action

theorem loads_of_step {loaded : M2kADC δ} (wellFormed : WellFormed clients emulator)
    (keeps : action.Keeps clients) (quiet : KeepsAttributes clients .analog action)
    (loads : emulator.adc.loadCalibValues emulator.context.doc = .ok loaded)
    (stepped : emulator.step action = .ok (reply, next)) :
    next.adc.loadCalibValues next.context.doc = .ok loaded := by
  by_cases own : action.path clients = .analog
  · have ran := (step_projects stepped).adc
    rw [context_of_step (quiet own) stepped]
    cases action with
    | disconnect fd =>
        rw [← Except.ok.inj ran]
        exact loads
    | serve fd command =>
        cases command with
        | readDev device =>
            simp only [receiverLoads, receiverCommand] at ran
            split at ran
            · rw [run_singleton, loads] at ran
              rw [← Except.ok.inj ran]
              exact M2kADC.loadCalibValues_again loads
            · rw [← Except.ok.inj ran]
              exact loads
        | _ =>
            rw [← Except.ok.inj ran]
            exact loads
  · rw [loads_adc (agrees_of_step wellFormed keeps stepped (Ne.symm own)), loads]

theorem delivers_pairs {dacA dacB : M2kDAC δ} {loaded : M2kADC δ}
    {convert : Fin 2 → δ → Word} (converts : ∀ (channel : Fin 2) voltage,
      loaded.convertVoltToRaw voltage channel = .ok (convert channel voltage))
    (positive : 1 ≤ loaded.ratio) (playsA : dacA.Plays) (playsB : dacB.Plays) :
    Delivers (step (δ := δ)) (M2kADC.pairWindow convert loaded.ratio dacA dacB)
      (PlayingPairs clients dacA dacB loaded) (LetsVoltagesPlay clients) pairsAsked
      receivedPairs := by
  refine ⟨?_, M2kADC.pairWindow_add playsA playsB positive, ?_⟩
  · intro start
    simp [M2kADC.pairWindow]
  · intro start emulator action reply next playing lets stepped
    have wellFormed := playing.wellFormed.step lets.keeps stepped
    have loads :=
      loads_of_step playing.wellFormed lets.keeps lets.quiet playing.loads stepped
    by_cases reads : ReadsFrom "iio:device0" action
    · rcases reads.eq_serve with ⟨fd, offset, bytesCount, rfl⟩
      have socketed : WellFormed clients (emulator.setCurrentSocket fd) :=
        ⟨playing.wellFormed.separates, playing.wellFormed.named,
          playing.wellFormed.tagged⟩
      rcases pairs_of_readDev socketed playing.loads converts positive playsA playsB
        playing.standsA playing.standsB stepped with
        ⟨⟨ret, bytes, rfl, pairs⟩, standsA, standsB⟩
      exact ⟨pairs, wellFormed, loads, standsA, standsB⟩
    · have still := dac_of_step playing.wellFormed reads lets.leaves stepped
      rw [pairsAsked, receivedPairs, countAsked_of_not_reads reads,
        valuesRead_of_not_reads reads]
      refine ⟨by simp [M2kADC.pairWindow], wellFormed, loads, ?_, ?_⟩
      · exact ⟨(still false).1.trans playing.standsA.1,
          (still false).2.trans playing.standsA.2⟩
      · exact ⟨(still true).1.trans playing.standsB.1,
          (still true).2.trans playing.standsB.2⟩

/-- Whoever reads the analog receiver, and whatever the clients of other paths do, all reads
together deliver the pairs of one window: the channels stay in step, and no voltage is left
out or comes twice. -/
theorem readers_share_voltages {initial final : Emulator δ} {actions : List Action}
    {outputs : List (Action × Reply)} {loaded : M2kADC δ}
    (wellFormed : WellFormed clients initial) (playsA : initial.dacA.Plays)
    (playsB : initial.dacB.Plays)
    (loads : initial.adc.loadCalibValues initial.context.doc = .ok loaded)
    (positive : 1 ≤ loaded.ratio)
    (lets : ∀ state action, Taken (advance step) initial actions state action →
      LetsVoltagesPlay clients state action)
    (ran : record step initial actions = .ok (outputs, final)) :
    ∃ convert : Fin 2 → δ → Word, (∀ (channel : Fin 2) voltage,
        loaded.convertVoltToRaw voltage channel = .ok (convert channel voltage)) ∧
      outputs.flatMap receivedPairs = M2kADC.pairWindow convert loaded.ratio initial.dacA
        initial.dacB 0 (actions.map pairsAsked).sum := by
  rcases Classical.skolem.mp (M2kADC.convertVoltToRaw_returns loads) with
    ⟨convert, converts⟩
  refine ⟨convert, converts, ?_⟩
  have standing : PlayingPairs clients initial.dacA initial.dacB loaded 0 initial := by
    refine ⟨wellFormed, loads, ⟨rfl, ?_⟩, ⟨rfl, ?_⟩⟩
    · rw [Nat.zero_mul, Nat.add_zero, Nat.mod_eq_of_lt playsA.inside]
    · rw [Nat.zero_mul, Nat.add_zero, Nat.mod_eq_of_lt playsB.inside]
  exact ((delivers_pairs converts positive playsA playsB).record standing lets ran).1

end Steps

section Examples

open scoped Reference

def analogClients : Clients where
  connected fd := fd = 4 ∨ fd = 5 ∨ fd = 6
  path fd := if fd = 6 then .supply else .analog

def sounding : List Action :=
  [.serve 4 (.openDev "iio:device6" 2 1 false),
    .serve 4 (.writeDev "iio:device6" (bytesOfWords [16, 32]) 0 4),
    .serve 4 (.transferMemToDev "iio:device6" 4),
    .serve 5 (.openDev "iio:device7" 2 1 false),
    .serve 5 (.writeDev "iio:device7" (bytesOfWords [64, 80, 96]) 0 6),
    .serve 5 (.transferMemToDev "iio:device7" 6)]

def sampling : List Action :=
  [.serve 5 (.readDev "iio:device0" 0 8),
    .serve 6 (.chWriteAttr "iio:device3" "voltage0" true "raw" (terminated "7") 1),
    .serve 4 (.readDev "iio:device0" 0 4)]

theorem sounding_sampling_returns :
    ∃ initial, construct zeroed = .ok initial ∧
      ∃ replies middle outputs final, record step initial sounding =
      .ok (replies, middle) ∧
        middle.dacA.Plays ∧ middle.dacB.Plays ∧
        (∃ loaded, middle.adc.loadCalibValues middle.context.doc = .ok loaded ∧
          1 ≤ loaded.ratio) ∧ record step middle sampling = .ok (outputs, final) := by
  have ran : (construct zeroed >>= fun initial =>
      record step initial sounding >>= fun sounded =>
      sounded.2.adc.loadCalibValues sounded.2.context.doc >>= fun loaded =>
      record step sounded.2 sampling >>= fun _ =>
      .ok (loaded.ratio, (sounded.2.dacA.samples.length, sounded.2.dacA.currentIndex),
        sounded.2.dacB.samples.length, sounded.2.dacB.currentIndex)) =
          .ok (1, (2, 0), 3, 0) := by
    decide +kernel
  simp only [Outcome.bind_eq_ok, Except.ok.injEq, Prod.mk.injEq] at ran
  rcases ran with ⟨initial, constructed, ⟨replies, middle⟩, sounded, loaded, loads,
    ⟨outputs, final⟩, sampled, rate, ⟨lengthA, indexA⟩, lengthB, indexB⟩
  refine ⟨initial, constructed, replies, middle, outputs, final,
    sounded, ⟨?_, ?_⟩, ⟨?_, ?_⟩, ⟨loaded, loads, ?_⟩, sampled⟩
  · rw [lengthA]
    decide
  · rw [indexA, lengthA]
    decide
  · rw [lengthB]
    decide
  · rw [indexB, lengthB]
    decide
  · rw [rate]

theorem sounding_keeps : ∀ action ∈ sounding, action.Keeps analogClients := by
  simp only [sounding, List.forall_mem_cons, Action.keeps_serve,
    analogClients, List.not_mem_nil, false_implies, implies_true, and_true]
  decide

theorem sampling_keeps : ∀ action ∈ sampling, action.Keeps analogClients := by
  simp only [sampling, List.forall_mem_cons, Action.keeps_serve,
    analogClients, List.not_mem_nil, false_implies, implies_true, and_true]
  decide

theorem zeroed_silent (slot : DeviceSlot) :
    analogClients.connected (zeroed.descriptor slot) →
      analogClients.path (zeroed.descriptor slot) = slot.path := by
  intro connected
  rcases connected with equal | equal | equal <;> cases equal

theorem two_readers_share_voltages :
    ∃ initial middle final : Emulator Rat, ∃ replies outputs loaded,
      construct zeroed = .ok initial ∧
      record step initial sounding = .ok (replies, middle) ∧
      record step middle sampling = .ok (outputs, final) ∧
      middle.adc.loadCalibValues middle.context.doc = .ok loaded ∧
      ∃ convert : Fin 2 → Rat → Word, (∀ (channel : Fin 2) voltage,
          loaded.convertVoltToRaw voltage channel = .ok (convert channel voltage)) ∧
        outputs.flatMap receivedPairs = M2kADC.pairWindow convert loaded.ratio middle.dacA
          middle.dacB 0 (sampling.map pairsAsked).sum := by
  rcases sounding_sampling_returns with ⟨initial, constructed, replies,
    middle, outputs, final, sounded, playsA, playsB, ⟨loaded, loads, positive⟩, sampled⟩
  have wellFormed : WellFormed analogClients middle :=
    invariant_of_record step (WellFormed analogClients)
      (fun _ _ _ _ member holds => holds.step (sounding_keeps _ member))
      (wellFormed_of_construct constructed zeroed_silent) sounded
  refine ⟨initial, middle, final, replies, outputs, loaded, constructed,
    sounded, sampled, loads, readers_share_voltages wellFormed playsA playsB loads
      positive ?_ sampled⟩
  intro state action taken
  have member := taken.mem (advance step)
  have keeps := sampling_keeps action member
  simp only [sampling, List.mem_cons, List.not_mem_nil, or_false] at member
  rcases member with rfl | rfl | rfl
  · exact ⟨keeps, trivial, fun _ _ _ equal => by cases equal; rfl⟩
  · exact ⟨keeps, trivial, fun own => by cases own⟩
  · exact ⟨keeps, trivial, fun _ _ _ equal => by cases equal; rfl⟩

end Examples

end IioEmu.Emulator
