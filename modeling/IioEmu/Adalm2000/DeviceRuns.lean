import IioEmu.Adalm2000.Operations
import IioEmu.Foundation.Components

/-! # The devices under the context

Seen from one of its devices, a command of the context is a run of the device's own
operations, with the document the context holds at that time. -/

namespace IioEmu.Emulator

open Execution

section Devices

variable {δ : Type} [Double δ] [LibXml2] [TinyIIOD]

def dac (emulator : Emulator δ) : Bool → M2kDAC δ
  | false => emulator.dacA
  | true => emulator.dacB

def dacSlot : Bool → DeviceSlot
  | false => .dacA
  | true => .dacB

/-- What a converter is asked to do when its context performs a command. A read of the
receiver takes as many samples as the rates it loads ask for. -/
def dacCommand (channel : Bool) (emulator : Emulator δ) :
    Command → List M2kDAC.Action
  | .openDev device sampleSize mask cyclic =>
      if emulator.getDevice device = some (dacSlot channel)
      then [.openDev emulator.context.doc sampleSize mask cyclic] else []
  | .closeDev device =>
      if emulator.getDevice device = some (dacSlot channel) then [.closeDev] else []
  | .writeDev device buf offset bytesCount =>
      if emulator.getDevice device = some (dacSlot channel)
      then [.writeDev buf offset bytesCount] else []
  | .transferMemToDev device bytesCount =>
      if emulator.getDevice device = some (dacSlot channel)
      then [.transferMemToDev emulator.context.doc bytesCount] else []
  | .readDev device _ bytesCount =>
      match emulator.getDevice device,
      emulator.adc.loadCalibValues emulator.context.doc with
      | some .adc, .ok loaded =>
      [.transferSamplesToRXDevice (loaded.samplesCount bytesCount)]
      | _, _ => []
  | _ => []

def dacActions (channel : Bool) (emulator : Emulator δ) : Action → List M2kDAC.Action
  | .serve _ command => dacCommand channel emulator command
  | .disconnect fd =>
      if emulator.getDeviceByDescriptor fd = some (dacSlot channel) then [.cancelBuffer]
      else []

def txCommand (emulator : Emulator δ) : Command → List M2kLogicTX.Action
  | .openDev device sampleSize mask cyclic =>
      if emulator.getDevice device = some .logicTX
      then [.openDev sampleSize mask cyclic] else []
  | .closeDev device => if emulator.getDevice device = some .logicTX then [.closeDev] else []
  | .writeDev device buf offset bytesCount =>
      if emulator.getDevice device = some .logicTX then [.writeDev buf offset bytesCount]
      else []
  | .transferMemToDev device bytesCount =>
      if emulator.getDevice device = some .logicTX
      then [.transferMemToDev emulator.context.doc bytesCount] else []
  | .readDev device _ bytesCount =>
      match emulator.getDevice device,
      emulator.logicRX.loadValues emulator.context.doc with
      | some .logicRX, .ok loaded =>
          [.transferSamplesToRXDevice (loaded.samplesCount bytesCount)]
      | _, _ => []
  | _ => []

def txActions (emulator : Emulator δ) : Action → List M2kLogicTX.Action
  | .serve _ command => txCommand emulator command
  | .disconnect fd =>
      if emulator.getDeviceByDescriptor fd = some .logicTX then [.cancelBuffer] else []

/-- A receiver only loads from the document, when it is read. -/
def receiverCommand (slot : DeviceSlot) (emulator : Emulator δ) :
    Command → List (Option XmlDoc)
  | .readDev device _ _ =>
      if emulator.getDevice device = some slot then [emulator.context.doc] else []
  | _ => []

def receiverLoads (slot : DeviceSlot) (emulator : Emulator δ) :
    Action → List (Option XmlDoc)
  | .serve _ command => receiverCommand slot emulator command
  | .disconnect _ => []

/-! ## Reads -/

section Reads

variable {doc : Option XmlDoc} {offset bytesCount : Nat} {ret : Int} {bytes : List Byte}

theorem transferred_of_readDev {adc loaded : M2kADC δ} {dacA dacB nextA nextB : M2kDAC δ}
    (returned : adc.readDev doc (some dacA) (some dacB) offset bytesCount =
      .ok (ret, bytes, loaded, nextA, nextB)) :
    adc.loadCalibValues doc = .ok loaded ∧
      dacA.step (.transferSamplesToRXDevice (loaded.samplesCount bytesCount)) = .ok nextA ∧
      dacB.step (.transferSamplesToRXDevice (loaded.samplesCount bytesCount)) =
      .ok nextB := by
  simp only [M2kADC.readDev, M2kADC.resample_eq, Outcome.bind_eq_ok, Outcome.pure_eq_ok,
    Except.ok.injEq, Prod.mk.injEq, Prod.exists] at returned
  rcases returned with ⟨_, loads, _, _, _, _,
    ⟨_, _, deliveredA, _, takenA, _, _, _, rfl⟩, _, _, ⟨_, _, deliveredB, _, takenB, _, _,
      _, rfl⟩, _, _, _, _, _, _, rfl, rfl, rfl⟩
  exact ⟨loads, M2kDAC.step_transferSamplesToRXDevice.mpr ⟨deliveredA, takenA⟩,
    M2kDAC.step_transferSamplesToRXDevice.mpr ⟨deliveredB, takenB⟩⟩

theorem transferred_of_readDev_rx {rx loaded : M2kLogicRX δ} {tx nextTX : M2kLogicTX δ}
    (returned : rx.readDev doc (some tx) offset bytesCount =
      .ok (ret, bytes, loaded, nextTX)) :
    rx.loadValues doc = .ok loaded ∧
      tx.step (.transferSamplesToRXDevice (loaded.samplesCount bytesCount)) = .ok nextTX := by
  simp only [M2kLogicRX.readDev, M2kLogicRX.resample,
    Outcome.bind_eq_ok, Outcome.pure_eq_ok, Except.ok.injEq, Prod.mk.injEq,
    Prod.exists] at returned
  rcases returned with
    ⟨_, _, _, ⟨_, loads, _, _, delivered, _, taken, _, _, _, rfl, rfl⟩, _, _,
    _, _, rfl, rfl⟩
  exact ⟨loads, M2kLogicTX.step_transferSamplesToRXDevice.mpr ⟨delivered, taken⟩⟩

end Reads

/-! ## One command -/

structure Projects (emulator next : Emulator δ) (dacs : Bool → List M2kDAC.Action)
    (txs : List M2kLogicTX.Action) (adcLoads rxLoads : List (Option XmlDoc)) : Prop where
  dac : ∀ channel, run M2kDAC.step (emulator.dac channel) (dacs channel) =
    .ok (next.dac channel)
  tx : run M2kLogicTX.step emulator.logicTX txs = .ok next.logicTX
  adc : run M2kADC.loadCalibValues emulator.adc adcLoads = .ok next.adc
  rx : run M2kLogicRX.loadValues emulator.logicRX rxLoads = .ok next.logicRX

variable {emulator next : Emulator δ}

theorem projects_refl (emulator : Emulator δ) :
    Projects emulator emulator (fun _ => []) [] [] [] :=
  ⟨fun _ => rfl, rfl, rfl, rfl⟩

theorem Projects.of_eq {dacs dacs' : Bool → List M2kDAC.Action}
    {txs txs' : List M2kLogicTX.Action} {adcLoads rxLoads : List (Option XmlDoc)}
    (projects : Projects emulator next dacs txs adcLoads rxLoads)
    (sameA : dacs' false = dacs false) (sameB : dacs' true = dacs true)
    (sameTxs : txs' = txs) :
    Projects emulator next dacs' txs' adcLoads rxLoads := by
  have equal : dacs' = dacs := by
    funext channel
    cases channel with
    | false => exact sameA
    | true => exact sameB
  rw [equal, sameTxs]
  exact projects

section Calls

variable (ret : Int) {action : M2kDAC.Action} {call : Outcome (Int × M2kDAC δ)}
  {txAction : M2kLogicTX.Action} {txCall : Outcome (Int × M2kLogicTX δ)}

theorem projects_dacA (named : emulator.dacA.step action = Prod.snd <$> call)
    (returned : (do
      let (ret, dac) ← call
      return (ret, { emulator with dacA := dac }) : Outcome (Int × Emulator δ)) =
        .ok (ret, next)) :
    Projects emulator next (fun channel => if channel then [] else [action]) [] [] [] := by
  simp only [Outcome.bind_eq_ok, Outcome.pure_eq_ok, Except.ok.injEq, Prod.mk.injEq,
    Prod.exists] at returned
  rcases returned with ⟨_, dac, called, _, rfl⟩
  have stepped : emulator.dacA.step action = .ok dac := by
    rw [named, called]
    rfl
  refine ⟨?_, rfl, rfl, rfl⟩
  intro channel
  cases channel with
  | false => exact (run_singleton _ _ _).trans stepped
  | true => rfl

theorem projects_dacB (named : emulator.dacB.step action = Prod.snd <$> call)
    (returned : (do
      let (ret, dac) ← call
      return (ret, { emulator with dacB := dac }) : Outcome (Int × Emulator δ)) =
        .ok (ret, next)) :
    Projects emulator next (fun channel => if channel then [action] else []) [] [] [] := by
  simp only [Outcome.bind_eq_ok, Outcome.pure_eq_ok, Except.ok.injEq, Prod.mk.injEq,
    Prod.exists] at returned
  rcases returned with ⟨_, dac, called, _, rfl⟩
  have stepped : emulator.dacB.step action = .ok dac := by
    rw [named, called]
    rfl
  refine ⟨?_, rfl, rfl, rfl⟩
  intro channel
  cases channel with
  | false => rfl
  | true => exact (run_singleton _ _ _).trans stepped

theorem projects_logicTX (named : emulator.logicTX.step txAction = Prod.snd <$> txCall)
    (returned : (do
      let (ret, tx) ← txCall
      return (ret, { emulator with logicTX := tx }) : Outcome (Int × Emulator δ)) =
        .ok (ret, next)) :
    Projects emulator next (fun _ => []) [txAction] [] [] := by
  simp only [Outcome.bind_eq_ok, Outcome.pure_eq_ok, Except.ok.injEq, Prod.mk.injEq,
    Prod.exists] at returned
  rcases returned with ⟨_, tx, called, _, rfl⟩
  have stepped : emulator.logicTX.step txAction = .ok tx := by
    rw [named, called]
    rfl
  exact ⟨fun _ => rfl, (run_singleton _ _ _).trans stepped, rfl, rfl⟩

end Calls

section Slots

variable {slot : DeviceSlot} {ret : Int}
  {sampleSize mask offset bytesCount : Nat} {cyclic : Bool}
  {buf : List Byte} {bytes : List Byte}

theorem openSlot_projects
    (returned : emulator.openSlot sampleSize mask cyclic slot = .ok (ret, next)) :
    Projects emulator next
      (fun channel => if slot = dacSlot channel
        then [.openDev emulator.context.doc sampleSize mask cyclic] else [])
      (if slot = .logicTX then [.openDev sampleSize mask cyclic] else []) [] [] := by
  cases slot with
  | adc | logicRX =>
      cases returned
      exact (projects_refl emulator).of_eq rfl rfl rfl
  | dacA => exact (projects_dacA _ rfl returned).of_eq rfl rfl rfl
  | dacB => exact (projects_dacB _ rfl returned).of_eq rfl rfl rfl
  | logicTX => exact (projects_logicTX _ rfl returned).of_eq rfl rfl rfl

theorem closeSlot_projects (returned : emulator.closeSlot slot = .ok (ret, next)) :
    Projects emulator next
      (fun channel => if slot = dacSlot channel then [.closeDev] else [])
      (if slot = .logicTX then [.closeDev] else []) [] [] := by
  cases slot with
  | adc | logicRX =>
      cases returned
      exact (projects_refl emulator).of_eq rfl rfl rfl
  | dacA => exact (projects_dacA _ rfl returned).of_eq rfl rfl rfl
  | dacB => exact (projects_dacB _ rfl returned).of_eq rfl rfl rfl
  | logicTX => exact (projects_logicTX _ rfl returned).of_eq rfl rfl rfl

theorem cancelSlot_projects (returned : emulator.cancelSlot slot = .ok next) :
    Projects emulator next
      (fun channel => if slot = dacSlot channel then [.cancelBuffer] else [])
      (if slot = .logicTX then [.cancelBuffer] else []) [] [] := by
  cases slot with
  | adc | logicRX =>
      cases returned
      exact (projects_refl emulator).of_eq rfl rfl rfl
  | dacA =>
      cases returned
      exact (projects_dacA 0 rfl rfl).of_eq rfl rfl rfl
  | dacB =>
      cases returned
      exact (projects_dacB 0 rfl rfl).of_eq rfl rfl rfl
  | logicTX =>
      cases returned
      exact (projects_logicTX 0 rfl rfl).of_eq rfl rfl rfl

theorem writeSlot_projects
    (returned : (emulator.writeSlot buf offset bytesCount slot).getD
      (.ok (-ENOENT, emulator)) = .ok (ret, next)) :
    Projects emulator next
      (fun channel =>
        if slot = dacSlot channel then [.writeDev buf offset bytesCount] else [])
      (if slot = .logicTX then [.writeDev buf offset bytesCount] else []) [] [] := by
  cases slot with
  | adc | logicRX =>
      cases returned
      exact (projects_refl emulator).of_eq rfl rfl rfl
  | dacA => exact (projects_dacA _ rfl returned).of_eq rfl rfl rfl
  | dacB => exact (projects_dacB _ rfl returned).of_eq rfl rfl rfl
  | logicTX => exact (projects_logicTX _ rfl returned).of_eq rfl rfl rfl

theorem transferSlot_projects
    (returned : (emulator.transferSlot bytesCount slot).getD (.ok (-ENOENT, emulator)) =
      .ok (ret, next)) :
    Projects emulator next
      (fun channel => if slot = dacSlot channel
        then [.transferMemToDev emulator.context.doc bytesCount] else [])
      (if slot = .logicTX then [.transferMemToDev emulator.context.doc bytesCount] else [])
      [] [] := by
  cases slot with
  | adc | logicRX =>
      cases returned
      exact (projects_refl emulator).of_eq rfl rfl rfl
  | dacA => exact (projects_dacA _ rfl returned).of_eq rfl rfl rfl
  | dacB => exact (projects_dacB _ rfl returned).of_eq rfl rfl rfl
  | logicTX => exact (projects_logicTX _ rfl returned).of_eq rfl rfl rfl

theorem readSlot_projects
    (returned : (emulator.readSlot offset bytesCount slot).getD
      (.ok (-ENOENT, [], emulator)) = .ok (ret, bytes, next)) {device : String}
    (named : emulator.getDevice device = some slot) :
    Projects emulator next
      (fun channel => dacCommand channel emulator (.readDev device offset bytesCount))
      (txCommand emulator (.readDev device offset bytesCount))
      (if slot = .adc then [emulator.context.doc] else [])
      (if slot = .logicRX then [emulator.context.doc] else []) := by
  cases slot with
  | dacA | dacB | logicTX =>
      cases returned
      refine ⟨?_, ?_, rfl, rfl⟩
      · intro channel
        simp only [dacCommand, named]
        rfl
      · simp only [txCommand, named]
        rfl
  | adc =>
      simp only [readSlot, Option.getD_some, Outcome.bind_eq_ok, Outcome.pure_eq_ok,
        Except.ok.injEq, Prod.mk.injEq, Prod.exists] at returned
      rcases returned with ⟨_, _, loaded, dacA, dacB, read, _, _, rfl⟩
      rcases transferred_of_readDev read with ⟨loads, takenA, takenB⟩
      refine ⟨?_, ?_, ?_, rfl⟩
      · intro channel
        simp only [dacCommand, named, loads]
        cases channel with
        | false => exact (run_singleton _ _ _).trans takenA
        | true => exact (run_singleton _ _ _).trans takenB
      · simp only [txCommand, named]
        rfl
      · exact (run_singleton _ _ _).trans loads
  | logicRX =>
      simp only [readSlot, Option.getD_some, Outcome.bind_eq_ok, Outcome.pure_eq_ok,
        Except.ok.injEq, Prod.mk.injEq, Prod.exists] at returned
      rcases returned with ⟨_, _, loaded, tx, read, _, _, rfl⟩
      rcases transferred_of_readDev_rx read with ⟨loads, taken⟩
      refine ⟨?_, ?_, rfl, ?_⟩
      · intro channel
        simp only [dacCommand, named]
        rfl
      · simp only [txCommand, named, loads]
        exact (run_singleton _ _ _).trans taken
      · exact (run_singleton _ _ _).trans loads

end Slots

/-! ## One step -/

theorem socketDisconnected_projects {fd : Int}
    (cancelled : emulator.socketDisconnected fd = .ok next) :
    Projects emulator next (fun channel => dacActions channel emulator (.disconnect fd))
      (txActions emulator (.disconnect fd)) [] [] := by
  rw [socketDisconnected] at cancelled
  simp only [dacActions, txActions]
  cases found : emulator.getDeviceByDescriptor fd with
  | none =>
      rw [found] at cancelled
      cases cancelled
      exact projects_refl emulator
  | some slot =>
      rw [found] at cancelled
      simpa only [Option.some.injEq] using cancelSlot_projects cancelled

theorem perform_projects {command : Command} {reply : Reply}
    (performed : emulator.perform command = .ok (reply, next)) :
    Projects emulator next (fun channel => dacCommand channel emulator command)
      (txCommand emulator command) (receiverCommand .adc emulator command)
      (receiverCommand .logicRX emulator command) := by
  cases command with
  | readAttr | chReadAttr =>
      simp only [perform, Outcome.bind_eq_ok, Outcome.pure_eq_ok, Except.ok.injEq,
        Prod.mk.injEq] at performed
      rcases performed with ⟨_, _, _, rfl⟩
      exact projects_refl emulator
  | writeAttr | chWriteAttr =>
      simp only [perform, writeAttr, chWriteAttr, Outcome.bind_eq_ok, Outcome.pure_eq_ok,
        Except.ok.injEq, Prod.mk.injEq, Prod.exists] at performed
      rcases performed with ⟨_, _, ⟨_, _, _, _, rfl⟩, _, rfl⟩
      exact ⟨fun channel => by cases channel <;> rfl, rfl, rfl, rfl⟩
  | transferDevToMem | getMask | getTrigger | setTrigger | setBuffersCount | getXml =>
      cases performed
      exact projects_refl emulator
  | openDev device sampleSize mask cyclic =>
      simp only [perform, openDev, Outcome.bind_eq_ok,
        Outcome.pure_eq_ok, Except.ok.injEq, Prod.mk.injEq, Prod.exists] at performed
      rcases performed with ⟨_, _, opened, _, rfl⟩
      simp only [dacCommand, txCommand, receiverCommand]
      cases found : emulator.getDevice device with
      | none =>
          rw [found] at opened
          cases opened
          exact projects_refl emulator
      | some slot =>
          rw [found] at opened
          simp only [Option.some.injEq]
          have projects := openSlot_projects opened
          exact ⟨projects.dac, projects.tx, projects.adc, projects.rx⟩
  | closeDev device =>
      simp only [perform, closeDev, Outcome.bind_eq_ok,
        Outcome.pure_eq_ok, Except.ok.injEq, Prod.mk.injEq, Prod.exists] at performed
      rcases performed with ⟨_, _, closed, _, rfl⟩
      simp only [dacCommand, txCommand, receiverCommand]
      cases found : emulator.getDevice device with
      | none =>
          rw [found] at closed
          cases closed
          exact projects_refl emulator
      | some slot =>
          rw [found] at closed
          simpa only [Option.some.injEq] using closeSlot_projects closed
  | transferMemToDev device bytesCount =>
      simp only [perform, transferMemToDev, Outcome.bind_eq_ok, Outcome.pure_eq_ok,
        Except.ok.injEq, Prod.mk.injEq, Prod.exists] at performed
      rcases performed with ⟨_, _, transferred, _, rfl⟩
      simp only [dacCommand, txCommand, receiverCommand]
      cases found : emulator.getDevice device with
      | none =>
          rw [found] at transferred
          cases transferred
          exact projects_refl emulator
      | some slot =>
          rw [found] at transferred
          simpa only [Option.some.injEq] using transferSlot_projects transferred
  | writeDev device buf offset bytesCount =>
      simp only [perform, writeDev, Outcome.bind_eq_ok,
        Outcome.pure_eq_ok, Except.ok.injEq, Prod.mk.injEq, Prod.exists] at performed
      rcases performed with ⟨_, _, written, _, rfl⟩
      simp only [dacCommand, txCommand, receiverCommand]
      cases found : emulator.getDevice device with
      | none =>
          rw [found] at written
          cases written
          exact projects_refl emulator
      | some slot =>
          rw [found] at written
          simpa only [Option.some.injEq] using writeSlot_projects written
  | readDev device offset bytesCount =>
      simp only [perform, readDev, Outcome.bind_eq_ok,
        Outcome.pure_eq_ok, Except.ok.injEq, Prod.mk.injEq, Prod.exists] at performed
      rcases performed with ⟨_, _, _, read, _, rfl⟩
      cases found : emulator.getDevice device with
      | none =>
          rw [found] at read
          cases read
          simp only [dacCommand, txCommand, receiverCommand, found]
          exact projects_refl emulator
      | some slot =>
          rw [found] at read
          have projects := readSlot_projects read found
          simpa only [receiverCommand, found, Option.some.injEq] using projects

theorem step_projects {action : Action} {reply : Reply}
    (stepped : emulator.step action = .ok (reply, next)) :
    Projects emulator next (fun channel => dacActions channel emulator action)
      (txActions emulator action) (receiverLoads .adc emulator action)
      (receiverLoads .logicRX emulator action) := by
  cases action with
  | serve fd command =>
      have projects := perform_projects stepped
      exact ⟨projects.dac, projects.tx, projects.adc, projects.rx⟩
  | disconnect fd =>
      rw [step, Outcome.bind_eq_ok] at stepped
      rcases stepped with ⟨_, cancelled, equal⟩
      cases equal
      have projects := socketDisconnected_projects cancelled
      exact ⟨projects.dac, projects.tx, projects.adc, projects.rx⟩

/-! ## Whole runs -/

/-- A run of the context is a run of each device: of the operations the clients asked of it,
in their order, with the documents of their time. -/
theorem run_refines_devices {actions : List Action} {outputs : List (Action × Reply)}
    {initial final : Emulator δ}
    (ran : record step initial actions = .ok (outputs, final)) :
    (∀ channel, run M2kDAC.step (initial.dac channel)
      (projected step (dacActions channel) initial actions) = .ok (final.dac channel)) ∧
    run M2kLogicTX.step initial.logicTX (projected step txActions initial actions) =
      .ok final.logicTX ∧
    run M2kADC.loadCalibValues initial.adc
      (projected step (receiverLoads .adc) initial actions) =
      .ok final.adc ∧
    run M2kLogicRX.loadValues initial.logicRX
      (projected step (receiverLoads .logicRX) initial actions) = .ok final.logicRX := by
  refine ⟨?_, ?_, ?_, ?_⟩
  · intro channel
    have simulates :
        Simulates step M2kDAC.step (fun emulator : Emulator δ => emulator.dac channel)
        (dacActions channel) := fun stepped => (step_projects stepped).dac channel
    exact simulates.run_projected ran
  · have simulates :
        Simulates step M2kLogicTX.step Emulator.logicTX (txActions (δ := δ)) :=
      fun stepped => (step_projects stepped).tx
    exact simulates.run_projected ran
  · have simulates : Simulates step M2kADC.loadCalibValues Emulator.adc
        (receiverLoads (δ := δ) .adc) := fun stepped => (step_projects stepped).adc
    exact simulates.run_projected ran
  · have simulates : Simulates step M2kLogicRX.loadValues Emulator.logicRX
        (receiverLoads (δ := δ) .logicRX) := fun stepped => (step_projects stepped).rx
    exact simulates.run_projected ran

end Devices

section Examples

open scoped Reference

/-- What the memory of the context held before, for the fields a constructor leaves unset. -/
def zeroed : Emulator Rat where
  context := ⟨none, [], [], [], []⟩
  ctxXml := none
  xmlSize := 0
  adc := M2kADC.construct "" 0 0
  dacA := M2kDAC.construct "" false false 0 0
  dacB := M2kDAC.construct "" false false 0 0
  logicRX := ⟨"", 0⟩
  logicTX := M2kLogicTX.construct "" 0
  descriptor := fun _ => 0
  currentSocket := 0

def session : List Action :=
  [.serve 4 (.writeDev "iio:device9" (bytesOfWords [1, 2]) 0 4),
    .serve 5 (.openDev "iio:device6" 2 1 false),
    .serve 4 (.readDev "iio:device10" 0 4),
    .serve 6 (.chWriteAttr "iio:device3" "voltage0" true "raw" (terminated "100") 3),
    .disconnect 5]

theorem session_returns :
    ∃ initial, construct zeroed = .ok initial ∧
      ∃ outputs final, record step initial session = .ok (outputs, final) := by
  have ran : (construct zeroed >>= fun initial => record step initial session).map
      (fun result => result.1.map Prod.snd) = .ok [.returned 4, .returned 0,
        .samples 4 (bytesOfWords [1, 2]), .returned 4, .returned 0] := by
    decide +kernel
  rcases Outcome.map_eq_ok.mp ran with ⟨⟨outputs, final⟩, returned, _⟩
  rcases Outcome.bind_eq_ok.mp returned with ⟨initial, constructed, recorded⟩
  exact ⟨initial, constructed, outputs, final, recorded⟩

theorem session_refines_devices :
    ∃ initial final : Emulator Rat, construct zeroed = .ok initial ∧
      (∀ channel, run M2kDAC.step (initial.dac channel)
        (projected step (dacActions channel) initial session) = .ok (final.dac channel)) ∧
      run M2kLogicTX.step initial.logicTX (projected step txActions initial session) =
        .ok final.logicTX := by
  rcases session_returns with ⟨initial, constructed, outputs, final, recorded⟩
  rcases run_refines_devices recorded with ⟨converters, transmitter, _⟩
  exact ⟨initial, final, constructed, converters, transmitter⟩

end Examples

end IioEmu.Emulator
