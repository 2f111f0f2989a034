import IioEmu.Adalm2000.DeviceRuns
import IioEmu.Adalm2000.FailedWrites
import IioEmu.Adalm2000.SignalPaths
import IioEmu.Devices.M2kDAC.CancelBuffer
import IioEmu.Devices.M2kLogicRX.LoopBack

/-! # What a command changes

A command on one path changes the devices of the path, what the document holds at the keys of
the path, and the descriptors of the path's devices. No other path can tell the difference. -/

namespace IioEmu

/-! ## The supplies -/

theorem SignalPath.ofDevice_supply {deviceId : String}
    (prefixed : startsWith deviceId "iio:device3" = true) :
    SignalPath.ofDevice deviceId = .supply := by
  have apart : ∀ name ∈ ["iio:device0", "iio:device2", "iio:device6", "iio:device7",
      "iio:device11", "iio:device9", "iio:device10"],
      startsWith name "iio:device3" = false := by
    decide
  have other : ∀ name ∈ ["iio:device0", "iio:device2", "iio:device6", "iio:device7",
      "iio:device11", "iio:device9", "iio:device10"], deviceId ≠ name := by
    intro name member equal
    rw [equal, apart name member] at prefixed
    cases prefixed
  have analog : deviceId ∉
      ["iio:device0", "iio:device2", "iio:device6", "iio:device7", "iio:device11"] :=
    fun member => other deviceId (by simp at member ⊢; tauto) rfl
  have digital : deviceId ∉ ["iio:device9", "iio:device10"] :=
    fun member => other deviceId (by simp at member ⊢; tauto) rfl
  rw [ofDevice, if_neg analog, if_neg digital, if_pos (.inl prefixed)]

theorem AgreeOn.mono [LibXml2] {inside fewer : AttributeKey → Prop}
    {doc other : Option XmlDoc} (agree : AgreeOn inside doc other)
    (subset : ∀ key, fewer key → inside key) :
    AgreeOn fewer doc other :=
  ⟨agree.lookups, fun key member => agree.contents key (subset key member)⟩

namespace Adalm2000Context

variable {δ : Type}

def withDoc (context : Adalm2000Context δ) (doc : Option XmlDoc) : Adalm2000Context δ :=
  { context with doc := doc }

variable [Double δ]

theorem refreshCurrentValue_withDoc {context next : Adalm2000Context δ} {channelIdx : Nat}
    {buf : CharArray} (refreshed : context.refreshCurrentValue channelIdx buf = .ok next)
    (doc : Option XmlDoc) :
    (context.withDoc doc).refreshCurrentValue channelIdx buf =
    .ok (next.withDoc doc) := by
  simp only [refreshCurrentValue, Outcome.bind_eq_ok, Outcome.pure_eq_ok,
    Except.ok.injEq] at refreshed ⊢
  rcases refreshed with ⟨value, read, voltage, converted, result, back,
    values, assigned, rfl⟩
  exact ⟨value, read, voltage, converted, result, back, values, assigned, rfl⟩

variable [LibXml2] [TinyIIOD] {context next : Adalm2000Context δ} {doc : Option XmlDoc}
  {deviceId channel attr : String} {chOut : Bool} {buf : CharArray}
  {len : Nat} {ret : Int}

def refresh (context : Adalm2000Context δ) (channel attr : String) (buf : CharArray) :
    Outcome (Adalm2000Context δ) :=
  if startsWith attr "raw" then context.refreshCurrentValue (supplyOf channel).1 buf
  else .ok context

theorem chWriteAttr_eq (context : Adalm2000Context δ)
    (deviceId channel : String) (chOut : Bool) (attr : String)
    (buf : CharArray) (len : Nat) :
    context.chWriteAttr deviceId channel chOut attr buf len =
      (AttributeKey.channel deviceId channel chOut attr).write context.doc buf len >>=
        fun written =>
      if startsWith deviceId "iio:device3" then
        (context.withDoc written.2).refresh channel attr buf >>= fun refreshed =>
        refreshed.writeReadBack (.unknown Char) deviceId channel chOut >>= fun finished =>
        .ok (written.1, finished)
      else .ok (written.1, context.withDoc written.2) := by
  simp only [chWriteAttr, AttributeKey.write, refresh]
  cases writeChannelAttr context.doc deviceId channel chOut attr buf len with
  | error fault => rfl
  | ok written =>
      simp only [Outcome.ok_bind]
      split
      · split <;> rfl
      · rfl

omit [LibXml2] [TinyIIOD] in
theorem refresh_returned (refreshed : context.refresh channel attr buf = .ok next) :
    next.doc = context.doc ∧
      ∀ doc, (context.withDoc doc).refresh channel attr buf = .ok (next.withDoc doc) := by
  rw [refresh] at refreshed
  split at refreshed
  · rename_i raw
    constructor
    · rcases refreshCurrentValue_returned refreshed with ⟨result, rfl⟩
      rfl
    · intro doc
      rw [refresh, if_pos raw]
      exact refreshCurrentValue_withDoc refreshed doc
  · rename_i other
    cases refreshed
    exact ⟨rfl, fun doc => by rw [refresh, if_neg other]⟩

omit [LibXml2] [TinyIIOD] in
theorem path_readBackKey (channel : String) : (readBackKey channel).path = .supply :=
  show SignalPath.ofDevice "iio:device13" = .supply by decide

omit [Double δ] in
theorem agreeOn_of_writeReadBack (separates : Separates context.doc)
    {stack : StackBuffer Char}
    (written : context.writeReadBack stack deviceId channel chOut = .ok next) :
    AgreeOn (fun key => key.path ≠ .supply) context.doc next.doc ∧
    Separates next.doc := by
  simp only [writeReadBack_eq_write, Outcome.bind_eq_ok, Except.ok.injEq,
    Prod.exists] at written
  rcases written with ⟨_, _, text, _, _, doc, wrote, rfl⟩
  have kept := AttributeKey.agreeOn_of_write separates wrote
  refine ⟨kept.1.mono ?_, kept.2⟩
  intro key outside equal
  rw [equal] at outside
  exact outside (path_readBackKey channel)

/-- A write to a channel changes the document on the path of its device, and what is kept
beside the document only for the supplies. -/
theorem agreeOn_of_chWriteAttr (separates : Separates context.doc)
    (written : context.chWriteAttr deviceId channel chOut attr buf len = .ok (ret, next)) :
    AgreeOn (fun key => key.path ≠ SignalPath.ofDevice deviceId) context.doc next.doc ∧
      Separates next.doc ∧
      (SignalPath.ofDevice deviceId ≠ .supply → next = context.withDoc next.doc) := by
  rw [chWriteAttr_eq, Outcome.bind_eq_ok] at written
  rcases written with ⟨⟨answer, doc⟩, stored, finished⟩
  have kept := AttributeKey.agreeOn_of_write separates stored
  have outside : AgreeOn (fun key => key.path ≠ SignalPath.ofDevice deviceId)
      context.doc doc := by
    apply kept.1.mono
    intro key different equal
    rw [equal] at different
    exact different rfl
  by_cases prefixed : startsWith deviceId "iio:device3" = true
  · have supply := SignalPath.ofDevice_supply prefixed
    simp only [if_pos prefixed, Outcome.bind_eq_ok, Except.ok.injEq,
      Prod.mk.injEq] at finished
    rcases finished with ⟨refreshed, refreshing, final, readBack, _, rfl⟩
    have same : refreshed.doc = doc := (refresh_returned refreshing).1
    have back := agreeOn_of_writeReadBack (same ▸ kept.2) readBack
    rw [same] at back
    rw [supply] at outside ⊢
    exact ⟨outside.trans back.1, back.2, fun different => absurd rfl different⟩
  · rw [if_neg prefixed] at finished
    cases finished
    exact ⟨outside, kept.2, fun _ => rfl⟩

end Adalm2000Context

/-! ## Names -/

section Names

variable {δ : Type} [Double δ] [LibXml2] [TinyIIOD]

theorem M2kLogicTX.deviceId_of_step {tx next : M2kLogicTX δ} {action : M2kLogicTX.Action}
    (stepped : tx.step action = .ok next) : next.deviceId = tx.deviceId := by
  cases action with
  | openDev | closeDev | cancelBuffer =>
      cases stepped
      rfl
  | writeDev buf offset bytesCount =>
      rcases M2kLogicTX.step_writeDev.mp stepped with ⟨words, _, rfl⟩
      split <;> rfl
  | transferMemToDev doc bytesCount =>
      rcases M2kLogicTX.step_transferMemToDev.mp stepped with ⟨_, _, _, _, rfl⟩
      rfl
  | transferSamplesToRXDevice samplesCount =>
      rcases M2kLogicTX.step_transferSamplesToRXDevice.mp stepped with ⟨_, read⟩
      rw [M2kLogicTX.transferSamplesToRXDevice, Outcome.bind_eq_ok] at read
      rcases read with ⟨_, _, equal⟩
      cases equal
      rfl

omit [Double δ] in
theorem M2kADC.deviceId_of_loadRange {adc next : M2kADC δ}
    {doc : Option XmlDoc} {channel : Nat} {name : String}
    (loaded : adc.loadRange doc channel name = .ok next) :
    next.deviceId = adc.deviceId := by
  simp only [M2kADC.loadRange, Outcome.bind_eq_ok, Outcome.pure_eq_ok,
    Except.ok.injEq] at loaded
  rcases loaded with ⟨_, _, _, _, rfl⟩
  rfl

theorem M2kADC.deviceId_of_loadOffset {adc next : M2kADC δ}
    {doc : Option XmlDoc} {channel : Nat} {dacName adcName : String}
    {tmpAttr after : CharArray}
    (loaded : adc.loadOffset doc channel dacName adcName tmpAttr = .ok (after, next)) :
    next.deviceId = adc.deviceId := by
  simp only [M2kADC.loadOffset, Outcome.bind_eq_ok, Outcome.pure_eq_ok, Except.ok.injEq,
    Prod.mk.injEq] at loaded
  rcases loaded with ⟨_, _, _, _, _, _, _, _, _, _, _, _, _, rfl⟩
  rfl

theorem M2kADC.deviceId_of_loadCalibValues {adc loaded : M2kADC δ} {doc : Option XmlDoc}
    (returned : adc.loadCalibValues doc = .ok loaded) :
    loaded.deviceId = adc.deviceId := by
  simp only [M2kADC.loadCalibValues, Outcome.bind_eq_ok, Prod.exists] at returned
  rcases returned with ⟨first, firstRange, second, secondRange, _, third,
    firstOffset, _, fourth, secondOffset, rates⟩
  simp only [M2kADC.loadRates, Outcome.bind_eq_ok, Outcome.pure_eq_ok,
    Except.ok.injEq] at rates
  rcases rates with ⟨_, _, _, _, _, _, _, _, rfl⟩
  calc fourth.deviceId
    _ = third.deviceId := M2kADC.deviceId_of_loadOffset secondOffset
    _ = second.deviceId := M2kADC.deviceId_of_loadOffset firstOffset
    _ = first.deviceId := M2kADC.deviceId_of_loadRange secondRange
    _ = adc.deviceId := M2kADC.deviceId_of_loadRange firstRange

end Names

/-! ## The whole context -/

namespace Emulator

open Execution

variable {δ : Type} {emulator next : Emulator δ} {clients : Clients}

theorem WellFormed.getDevice_iff
    (wellFormed : WellFormed clients emulator) {device : String} {slot : DeviceSlot} :
    emulator.getDevice device = some slot ↔ device = slot.name := by
  have names : emulator.deviceId = DeviceSlot.name := funext wellFormed.named
  constructor
  · intro found
    have matched := List.find?_some found
    rw [beq_iff_eq, wellFormed.named slot] at matched
    exact matched.symm
  · rintro rfl
    rw [getDevice, names]
    cases slot <;> decide

theorem WellFormed.ofDevice_eq
    (wellFormed : WellFormed clients emulator) {device : String} {slot : DeviceSlot}
    (found : emulator.getDevice device = some slot) :
    SignalPath.ofDevice device = slot.path := by
  rw [wellFormed.getDevice_iff.mp found, slot.ofDevice_name]

theorem WellFormed.path_eq (wellFormed : WellFormed clients emulator) {fd : Int}
    {slot : DeviceSlot} (found : emulator.getDeviceByDescriptor fd = some slot)
    (connected : clients.connected fd) : clients.path fd = slot.path := by
  have matched : emulator.descriptor slot = fd := by simpa using List.find?_some found
  rw [← matched] at connected ⊢
  exact wellFormed.tagged slot connected

variable [Double δ] [LibXml2] [TinyIIOD]

/-- What a step on a path can do besides the steps of the devices. -/
structure Leaves (path : SignalPath) (fd : Int) (emulator next : Emulator δ) : Prop where
  doc : AgreeOn (fun key => key.path ≠ path) emulator.context.doc next.context.doc
  separates : Separates next.context.doc
  described : next.ctxXml = emulator.ctxXml ∧ next.xmlSize = emulator.xmlSize
  descriptor : ∀ slot, next.descriptor slot = emulator.descriptor slot ∨
    slot.path = path ∧ next.descriptor slot = fd
  supplies : path ≠ .supply → next.supplies = emulator.supplies

omit [Double δ] [TinyIIOD] in
theorem leaves_refl {path : SignalPath} {fd : Int}
    (separates : Separates emulator.context.doc) :
    Leaves path fd emulator emulator :=
  ⟨AgreeOn.refl _ _, separates, ⟨rfl, rfl⟩, fun _ => .inl rfl, fun _ => rfl⟩

def SameButDevices (emulator next : Emulator δ) : Prop :=
  next.context = emulator.context ∧ next.ctxXml = emulator.ctxXml ∧
    next.xmlSize = emulator.xmlSize ∧ next.descriptor = emulator.descriptor ∧
    next.currentSocket = emulator.currentSocket

omit [Double δ] [TinyIIOD] in
theorem SameButDevices.leaves (same : SameButDevices emulator next)
    {path : SignalPath} {fd : Int} (separates : Separates emulator.context.doc) :
    Leaves path fd emulator next := by
  rcases same with ⟨context, ctxXml, xmlSize, descriptor, _⟩
  refine ⟨?_, ?_, ⟨ctxXml, xmlSize⟩, ?_, ?_⟩
  · rw [context]
    exact AgreeOn.refl _ _
  · rw [context]
    exact separates
  · intro slot
    rw [descriptor]
    exact .inl rfl
  · intro _
    rw [supplies, supplies, context]

section Slots

variable {slot : DeviceSlot} {ret : Int}
  {sampleSize mask offset bytesCount : Nat} {cyclic : Bool}
  {buf : List Byte} {bytes : List Byte}

theorem openSlot_same
    (returned : emulator.openSlot sampleSize mask cyclic slot = .ok (ret, next)) :
    SameButDevices emulator next := by
  cases slot with
  | adc | logicRX =>
      cases returned
      exact ⟨rfl, rfl, rfl, rfl, rfl⟩
  | dacA | dacB | logicTX =>
      simp only [openSlot, Outcome.bind_eq_ok, Outcome.pure_eq_ok, Except.ok.injEq,
        Prod.mk.injEq] at returned
      rcases returned with ⟨_, _, _, rfl⟩
      exact ⟨rfl, rfl, rfl, rfl, rfl⟩

omit [Double δ] [LibXml2] [TinyIIOD] in
theorem closeSlot_same (returned : emulator.closeSlot slot = .ok (ret, next)) :
    SameButDevices emulator next := by
  cases slot with
  | adc | logicRX | dacA | dacB | logicTX =>
      cases returned
      exact ⟨rfl, rfl, rfl, rfl, rfl⟩

omit [Double δ] [LibXml2] [TinyIIOD] in
theorem cancelSlot_same (returned : emulator.cancelSlot slot = .ok next) :
    SameButDevices emulator next := by
  cases slot with
  | adc | logicRX | dacA | dacB | logicTX =>
      cases returned
      exact ⟨rfl, rfl, rfl, rfl, rfl⟩

theorem readSlot_same
    (returned : (emulator.readSlot offset bytesCount slot).getD
      (.ok (-ENOENT, [], emulator)) =
      .ok (ret, bytes, next)) : SameButDevices emulator next := by
  cases slot with
  | dacA | dacB | logicTX =>
      cases returned
      exact ⟨rfl, rfl, rfl, rfl, rfl⟩
  | adc =>
      simp only [readSlot, Option.getD_some, Outcome.bind_eq_ok, Outcome.pure_eq_ok,
        Except.ok.injEq, Prod.mk.injEq] at returned
      rcases returned with ⟨_, _, _, _, rfl⟩
      exact ⟨rfl, rfl, rfl, rfl, rfl⟩
  | logicRX =>
      simp only [readSlot, Option.getD_some, Outcome.bind_eq_ok, Outcome.pure_eq_ok,
        Except.ok.injEq, Prod.mk.injEq] at returned
      rcases returned with ⟨_, _, _, _, rfl⟩
      exact ⟨rfl, rfl, rfl, rfl, rfl⟩

omit [LibXml2] [TinyIIOD] in
theorem writeSlot_same
    (returned : (emulator.writeSlot buf offset bytesCount slot).getD
      (.ok (-ENOENT, emulator)) = .ok (ret, next)) : SameButDevices emulator next := by
  cases slot with
  | adc | logicRX =>
      cases returned
      exact ⟨rfl, rfl, rfl, rfl, rfl⟩
  | dacA | dacB | logicTX =>
      simp only [writeSlot, Option.getD_some, Outcome.bind_eq_ok,
        Outcome.pure_eq_ok, Except.ok.injEq, Prod.mk.injEq] at returned
      rcases returned with ⟨_, _, _, rfl⟩
      exact ⟨rfl, rfl, rfl, rfl, rfl⟩

theorem transferSlot_same
    (returned : (emulator.transferSlot bytesCount slot).getD (.ok (-ENOENT, emulator)) =
      .ok (ret, next)) : SameButDevices emulator next := by
  cases slot with
  | adc | logicRX =>
      cases returned
      exact ⟨rfl, rfl, rfl, rfl, rfl⟩
  | dacA | dacB | logicTX =>
      simp only [transferSlot, Option.getD_some, Outcome.bind_eq_ok,
        Outcome.pure_eq_ok, Except.ok.injEq, Prod.mk.injEq] at returned
      rcases returned with ⟨_, _, _, rfl⟩
      exact ⟨rfl, rfl, rfl, rfl, rfl⟩

end Slots

/-! ## Commands -/

omit [Double δ] [TinyIIOD] in
theorem leaves_of_write {path : SignalPath} {fd : Int} (key : AttributeKey)
    (wellFormed : WellFormed clients emulator)
    (inside : key.path = path) {buf : CharArray} {len : Nat} {ret : Int}
    {doc : Option XmlDoc}
    (written : key.write emulator.context.doc buf len = .ok (ret, doc)) :
    Leaves path fd emulator
      { emulator with context := { emulator.context with doc := doc } } := by
  have kept := AttributeKey.agreeOn_of_write wellFormed.separates written
  refine ⟨kept.1.mono ?_, kept.2, ⟨rfl, rfl⟩, fun _ => .inl rfl, fun _ => rfl⟩
  intro other outside equal
  rw [equal] at outside
  exact outside inside

structure Calls (command : Command) (emulator next : Emulator δ) : Prop where
  context : next.context = emulator.context
  socket : next.currentSocket = emulator.currentSocket
  described : next.ctxXml = emulator.ctxXml ∧ next.xmlSize = emulator.xmlSize
  descriptor : ∀ slot, next.descriptor slot = emulator.descriptor slot ∨
    (∃ device ∈ command.device?, emulator.getDevice device = some slot) ∧
      next.descriptor slot = emulator.currentSocket

omit [Double δ] [LibXml2] [TinyIIOD] in
theorem SameButDevices.calls (same : SameButDevices emulator next) (command : Command) :
    Calls command emulator next := by
  rcases same with ⟨context, ctxXml, xmlSize, descriptor, socket⟩
  exact ⟨context, socket, ⟨ctxXml, xmlSize⟩, fun slot => .inl (congrFun descriptor slot)⟩

theorem calls_of_perform {command : Command} (stores : command.StoresAttribute = false)
    {reply : Reply} (performed : emulator.perform command = .ok (reply, next)) :
    Calls command emulator next := by
  have quiet : Calls command emulator emulator :=
    ⟨rfl, rfl, ⟨rfl, rfl⟩, fun _ => .inl rfl⟩
  cases command with
  | writeAttr | chWriteAttr => cases stores
  | readAttr | chReadAttr =>
      simp only [perform, Outcome.bind_eq_ok, Outcome.pure_eq_ok, Except.ok.injEq,
        Prod.mk.injEq] at performed
      rcases performed with ⟨_, _, _, rfl⟩
      exact quiet
  | transferDevToMem | getMask | getTrigger | setTrigger | setBuffersCount | getXml =>
      cases performed
      exact quiet
  | openDev device sampleSize mask cyclic =>
      simp only [perform, openDev, Outcome.bind_eq_ok,
        Outcome.pure_eq_ok, Except.ok.injEq, Prod.mk.injEq, Prod.exists] at performed
      rcases performed with ⟨_, after, opened, _, rfl⟩
      cases found : emulator.getDevice device with
      | none =>
          rw [found] at opened
          cases opened
          exact quiet
      | some slot =>
          rw [found] at opened
          rcases openSlot_same opened with ⟨context, ctxXml, xmlSize, descriptor, socket⟩
          refine ⟨context, socket, ⟨ctxXml, xmlSize⟩, ?_⟩
          intro other
          rw [descriptor, setDescriptor]
          by_cases chosen : other = slot
          · rw [chosen]
            exact .inr ⟨⟨device, rfl, found⟩, Function.update_self ..⟩
          · exact .inl (Function.update_of_ne chosen ..)
  | closeDev device =>
      simp only [perform, closeDev, Outcome.bind_eq_ok,
        Outcome.pure_eq_ok, Except.ok.injEq, Prod.mk.injEq, Prod.exists] at performed
      rcases performed with ⟨_, _, closed, _, rfl⟩
      cases found : emulator.getDevice device with
      | none =>
          rw [found] at closed
          cases closed
          exact quiet
      | some slot =>
          rw [found] at closed
          exact (closeSlot_same closed).calls _
  | transferMemToDev device bytesCount =>
      simp only [perform, transferMemToDev, Outcome.bind_eq_ok, Outcome.pure_eq_ok,
        Except.ok.injEq, Prod.mk.injEq, Prod.exists] at performed
      rcases performed with ⟨_, _, transferred, _, rfl⟩
      cases found : emulator.getDevice device with
      | none =>
          rw [found] at transferred
          cases transferred
          exact quiet
      | some slot =>
          rw [found] at transferred
          exact (transferSlot_same transferred).calls _
  | writeDev device buf offset bytesCount =>
      simp only [perform, writeDev, Outcome.bind_eq_ok,
        Outcome.pure_eq_ok, Except.ok.injEq, Prod.mk.injEq, Prod.exists] at performed
      rcases performed with ⟨_, _, written, _, rfl⟩
      cases found : emulator.getDevice device with
      | none =>
          rw [found] at written
          cases written
          exact quiet
      | some slot =>
          rw [found] at written
          exact (writeSlot_same written).calls _
  | readDev device offset bytesCount =>
      simp only [perform, readDev, Outcome.bind_eq_ok,
        Outcome.pure_eq_ok, Except.ok.injEq, Prod.mk.injEq, Prod.exists] at performed
      rcases performed with ⟨_, _, _, read, _, rfl⟩
      cases found : emulator.getDevice device with
      | none =>
          rw [found] at read
          cases read
          exact quiet
      | some slot =>
          rw [found] at read
          exact (readSlot_same read).calls _

omit [Double δ] [TinyIIOD] in
theorem Calls.leaves {command : Command} (calls : Calls command emulator next)
    (wellFormed : WellFormed clients emulator) {path : SignalPath}
    (keeps : command.KeepsTo path) :
    Leaves path emulator.currentSocket emulator next := by
  refine ⟨?_, ?_, calls.described, ?_, ?_⟩
  · rw [calls.context]
    exact AgreeOn.refl _ _
  · rw [calls.context]
    exact wellFormed.separates
  · intro slot
    rcases calls.descriptor slot with same | ⟨⟨device, named, found⟩, set⟩
    · exact .inl same
    · exact .inr ⟨(wellFormed.ofDevice_eq found).symm.trans (keeps device named), set⟩
  · intro _
    rw [supplies, supplies, calls.context]

theorem perform_leaves (wellFormed : WellFormed clients emulator) {path : SignalPath}
    {command : Command} (keeps : command.KeepsTo path) {reply : Reply}
    (performed : emulator.perform command = .ok (reply, next)) :
    Leaves path emulator.currentSocket emulator next := by
  cases stores : command.StoresAttribute with
  | false => exact (calls_of_perform stores performed).leaves wellFormed keeps
  | true =>
      cases command with
      | writeAttr deviceId attr buf len type =>
          simp only [perform, writeAttr, Outcome.bind_eq_ok,
            Outcome.pure_eq_ok, Except.ok.injEq, Prod.mk.injEq, Prod.exists] at performed
          rcases performed with ⟨_, _, ⟨_, doc, written, _, rfl⟩, _, rfl⟩
          exact leaves_of_write (.device deviceId type attr) wellFormed
            (keeps deviceId rfl) written
      | chWriteAttr deviceId channel chOut attr buf len =>
          simp only [perform, chWriteAttr, Outcome.bind_eq_ok, Outcome.pure_eq_ok,
            Except.ok.injEq, Prod.mk.injEq, Prod.exists] at performed
          rcases performed with ⟨_, _, ⟨_, context, written, _, rfl⟩, _, rfl⟩
          have inside : SignalPath.ofDevice deviceId = path := keeps deviceId rfl
          rcases Adalm2000Context.agreeOn_of_chWriteAttr wellFormed.separates written with
            ⟨outside, separates, others⟩
          rw [inside] at outside others
          refine ⟨outside, separates, ⟨rfl, rfl⟩, fun _ => .inl rfl, ?_⟩
          intro different
          rw [supplies, supplies, others different]
          rfl
      | _ => cases stores

/-! ## The devices of other paths -/

section Elsewhere

variable {path : SignalPath} {command : Command}
  (wellFormed : WellFormed clients emulator)
  (keeps : command.KeepsTo path)

include wellFormed keeps

omit [Double δ] [LibXml2] [TinyIIOD] in
theorem getDevice_ne (slot : DeviceSlot) (elsewhere : path ≠ slot.path) (device : String)
    (named : device ∈ command.device?) : emulator.getDevice device ≠ some slot := by
  intro found
  exact elsewhere ((keeps device named).symm.trans (wellFormed.ofDevice_eq found))

theorem dacCommand_elsewhere (elsewhere : path ≠ .analog) (channel : Bool) :
    dacCommand channel emulator command = [] := by
  have converter : path ≠ (dacSlot channel).path := by cases channel <;> exact elsewhere
  cases command with
  | openDev | closeDev | writeDev | transferMemToDev =>
      exact if_neg (getDevice_ne wellFormed keeps _ converter _ rfl)
  | readDev device offset bytesCount =>
      have receiver := getDevice_ne wellFormed keeps .adc elsewhere device rfl
      simp only [dacCommand]
      split
      · rename_i found _
        exact absurd found receiver
      · rfl
  | _ => rfl

theorem txCommand_elsewhere (elsewhere : path ≠ .digital) :
    txCommand emulator command = [] := by
  cases command with
  | openDev | closeDev | writeDev | transferMemToDev =>
      exact if_neg (getDevice_ne wellFormed keeps .logicTX elsewhere _ rfl)
  | readDev device offset bytesCount =>
      have receiver := getDevice_ne wellFormed keeps .logicRX elsewhere device rfl
      simp only [txCommand]
      split
      · rename_i found _
        exact absurd found receiver
      · rfl
  | _ => rfl

omit [Double δ] [LibXml2] [TinyIIOD] in
theorem receiverCommand_elsewhere (slot : DeviceSlot) (elsewhere : path ≠ slot.path) :
    receiverCommand slot emulator command = [] := by
  cases command with
  | readDev => exact if_neg (getDevice_ne wellFormed keeps _ elsewhere _ rfl)
  | _ => rfl

end Elsewhere

structure StaysOn (path : SignalPath) (fd : Int) (emulator next : Emulator δ) : Prop where
  leaves : Leaves path fd emulator next
  named : ∀ slot, next.deviceId slot = emulator.deviceId slot
  analog : path ≠ .analog →
    next.adc = emulator.adc ∧ next.dacA = emulator.dacA ∧ next.dacB = emulator.dacB
  digital : path ≠ .digital →
    next.logicRX = emulator.logicRX ∧ next.logicTX = emulator.logicTX

theorem deviceId_of_projects {dacs : Bool → List M2kDAC.Action}
    {txs : List M2kLogicTX.Action} {adcLoads rxLoads : List (Option XmlDoc)}
    (projects : Projects emulator next dacs txs adcLoads rxLoads) (slot : DeviceSlot) :
    next.deviceId slot = emulator.deviceId slot := by
  cases slot with
  | adc => exact run_keeps M2kADC.deviceId M2kADC.deviceId_of_loadCalibValues projects.adc
  | dacA => exact M2kDAC.deviceId_of_run (projects.dac false)
  | dacB => exact M2kDAC.deviceId_of_run (projects.dac true)
  | logicRX =>
      exact run_keeps M2kLogicRX.deviceId M2kLogicRX.deviceId_of_loadValues projects.rx
  | logicTX => exact run_keeps M2kLogicTX.deviceId M2kLogicTX.deviceId_of_step projects.tx

theorem perform_staysOn (wellFormed : WellFormed clients emulator) {path : SignalPath}
    {command : Command} (keeps : command.KeepsTo path) {reply : Reply}
    (performed : emulator.perform command = .ok (reply, next)) :
    StaysOn path emulator.currentSocket emulator next := by
  have projects := perform_projects performed
  refine ⟨perform_leaves wellFormed keeps performed,
    deviceId_of_projects projects, ?_, ?_⟩
  · intro elsewhere
    have adc := projects.adc
    have dacA := projects.dac false
    have dacB := projects.dac true
    rw [receiverCommand_elsewhere wellFormed keeps .adc elsewhere] at adc
    rw [dacCommand_elsewhere wellFormed keeps elsewhere] at dacA dacB
    exact ⟨(Except.ok.inj adc).symm, (Except.ok.inj dacA).symm, (Except.ok.inj dacB).symm⟩
  · intro elsewhere
    have rx := projects.rx
    have tx := projects.tx
    rw [receiverCommand_elsewhere wellFormed keeps .logicRX elsewhere] at rx
    rw [txCommand_elsewhere wellFormed keeps elsewhere] at tx
    exact ⟨(Except.ok.inj rx).symm, (Except.ok.inj tx).symm⟩

theorem socketDisconnected_staysOn (wellFormed : WellFormed clients emulator) {fd : Int}
    (connected : clients.connected fd)
    (cancelled : emulator.socketDisconnected fd = .ok next) :
    StaysOn (clients.path fd) fd emulator next := by
  have projects := socketDisconnected_projects cancelled
  have named := deviceId_of_projects projects
  rw [socketDisconnected] at cancelled
  cases found : emulator.getDeviceByDescriptor fd with
  | none =>
      rw [found] at cancelled
      cases cancelled
      exact ⟨leaves_refl wellFormed.separates, named, fun _ => ⟨rfl, rfl, rfl⟩,
        fun _ => ⟨rfl, rfl⟩⟩
  | some slot =>
      rw [found] at cancelled
      have inside := wellFormed.path_eq found connected
      refine ⟨(cancelSlot_same cancelled).leaves wellFormed.separates, named, ?_, ?_⟩
      · intro elsewhere
        rw [inside] at elsewhere
        cases slot with
        | adc | dacA | dacB => exact absurd rfl elsewhere
        | logicRX | logicTX =>
            cases cancelled
            exact ⟨rfl, rfl, rfl⟩
      · intro elsewhere
        rw [inside] at elsewhere
        cases slot with
        | logicRX | logicTX => exact absurd rfl elsewhere
        | adc | dacA | dacB =>
            cases cancelled
            exact ⟨rfl, rfl⟩

/-! ## One step -/

theorem step_staysOn {action : Action} (wellFormed : WellFormed clients emulator)
    (keeps : action.Keeps clients) {reply : Reply}
    (stepped : emulator.step action = .ok (reply, next)) :
    StaysOn (action.path clients) action.fd emulator next := by
  cases action with
  | serve fd command =>
      have socketed : WellFormed clients (emulator.setCurrentSocket fd) :=
        ⟨wellFormed.separates, wellFormed.named, wellFormed.tagged⟩
      have stays := perform_staysOn socketed (keeps.2 fd command rfl) stepped
      exact ⟨⟨stays.leaves.doc, stays.leaves.separates, stays.leaves.described,
        stays.leaves.descriptor, stays.leaves.supplies⟩, stays.named,
        stays.analog, stays.digital⟩
  | disconnect fd =>
      rw [step, Outcome.bind_eq_ok] at stepped
      rcases stepped with ⟨_, cancelled, equal⟩
      cases equal
      have socketed : WellFormed clients (emulator.setCurrentSocket fd) :=
        ⟨wellFormed.separates, wellFormed.named, wellFormed.tagged⟩
      have stays := socketDisconnected_staysOn socketed keeps.1 cancelled
      exact ⟨⟨stays.leaves.doc, stays.leaves.separates, stays.leaves.described,
        stays.leaves.descriptor, stays.leaves.supplies⟩, stays.named,
        stays.analog, stays.digital⟩

theorem WellFormed.step {action : Action} (wellFormed : WellFormed clients emulator)
    (keeps : action.Keeps clients) {reply : Reply}
    (stepped : emulator.step action = .ok (reply, next)) : WellFormed clients next := by
  have stays := step_staysOn wellFormed keeps stepped
  refine ⟨stays.leaves.separates,
    fun slot => (stays.named slot).trans (wellFormed.named slot), ?_⟩
  intro slot connected
  rcases stays.leaves.descriptor slot with same | ⟨inside, set⟩
  · rw [same] at connected ⊢
    exact wellFormed.tagged slot connected
  · rw [set]
    exact inside.symm

def KeepsAttributes (clients : Clients) (path : SignalPath) (action : Action) : Prop :=
  action.path clients = path → ∀ fd command, action = .serve fd command →
    command.StoresAttribute = false

theorem context_of_step {action : Action}
    (quiet : ∀ fd command, action = .serve fd command → command.StoresAttribute = false)
    {reply : Reply} (stepped : emulator.step action = .ok (reply, next)) :
    next.context = emulator.context := by
  cases action with
  | serve fd command => exact (calls_of_perform (quiet fd command rfl) stepped).context
  | disconnect fd =>
      simp only [Emulator.step, socketDisconnected, Outcome.bind_eq_ok] at stepped
      rcases stepped with ⟨_, cancelled, equal⟩
      cases equal
      split at cancelled
      · exact (cancelSlot_same cancelled).1
      · cases cancelled
        rfl

theorem agrees_of_step {action : Action} (wellFormed : WellFormed clients emulator)
    (keeps : action.Keeps clients) {reply : Reply}
    (stepped : emulator.step action = .ok (reply, next)) {path : SignalPath}
    (elsewhere : path ≠ action.path clients) : Agrees path emulator next := by
  have stays := step_staysOn wellFormed keeps stepped
  refine ⟨stays.leaves.doc.mono ?_, stays.leaves.described, ?_, ?_, ?_, ?_⟩
  · intro key inside
    rw [inside]
    exact elsewhere
  · intro slot inside
    rcases stays.leaves.descriptor slot with same | ⟨other, _⟩
    · exact same
    · exact absurd (inside.symm.trans other) elsewhere
  · intro inside
    exact stays.leaves.supplies (fun same => elsewhere (inside.trans same.symm))
  · intro inside
    exact stays.analog (fun same => elsewhere (inside.trans same.symm))
  · intro inside
    exact stays.digital (fun same => elsewhere (inside.trans same.symm))

end Emulator

end IioEmu
