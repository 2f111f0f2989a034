import IioEmu.Adalm2000.PathEffects

/-! # Clients on different paths

Clients of different signal paths do not see each other: each is answered as if it were
alone, and the order in which the server serves the paths makes no difference. -/

namespace IioEmu

/-! ## The supplies -/

namespace Adalm2000Context

variable {δ : Type} [Double δ] [LibXml2] [TinyIIOD]
  {context other next : Adalm2000Context δ}
  {deviceId channel attr : String} {chOut : Bool} {buf : CharArray}
  {len : Nat} {ret : Int}

omit [Double δ] in
theorem writeReadBack_consistent
    (agree : AgreeOn (fun key => key.path = .supply) context.doc other.doc)
    (separates : Separates context.doc) (otherSeparates : Separates other.doc)
    (same : other = context.withDoc other.doc)
    (supply : SignalPath.ofDevice deviceId = .supply) {stack : StackBuffer Char}
    (written : context.writeReadBack stack deviceId channel chOut = .ok next) :
    ∃ after, other.writeReadBack stack deviceId channel chOut = .ok after ∧
      AgreeOn (fun key => key.path = .supply) next.doc after.doc ∧
      after = next.withDoc after.doc := by
  simp only [writeReadBack_eq_write, Outcome.bind_eq_ok, Except.ok.injEq,
    Prod.exists] at written
  rcases written with ⟨down, powered, text, kept, _, doc, wrote, rfl⟩
  have read : other.powerdownRead stack deviceId channel chOut = .ok down := by
    rw [← powered, powerdownRead, powerdownRead]
    rw [agree.read (.channel deviceId channel chOut "powerdown") supply]
  have values : other.psCurrentValues = context.psCurrentValues := by
    rw [same]
    rfl
  rw [← values] at kept
  rcases agree.write separates otherSeparates wrote with ⟨otherDoc, otherWrote, agrees⟩
  refine ⟨other.withDoc otherDoc, ?_, agrees, ?_⟩
  · rw [writeReadBack_eq_write, read, Outcome.ok_bind, kept, Outcome.ok_bind, otherWrote]
    rfl
  · rw [same]
    rfl

theorem chWriteAttr_consistent
    (agree : AgreeOn (fun key => key.path = SignalPath.ofDevice deviceId)
      context.doc other.doc)
    (separates : Separates context.doc) (otherSeparates : Separates other.doc)
    (same : SignalPath.ofDevice deviceId = .supply → other = context.withDoc other.doc)
    (written : context.chWriteAttr deviceId channel chOut attr buf len = .ok (ret, next)) :
    ∃ after, other.chWriteAttr deviceId channel chOut attr buf len = .ok (ret, after) ∧
      AgreeOn (fun key => key.path = SignalPath.ofDevice deviceId) next.doc after.doc ∧
      (SignalPath.ofDevice deviceId = .supply → after = next.withDoc after.doc) := by
  rw [chWriteAttr_eq, Outcome.bind_eq_ok] at written
  rcases written with ⟨⟨answer, doc⟩, stored, finished⟩
  rcases agree.write separates otherSeparates stored with ⟨otherDoc, otherStored, agrees⟩
  have kept := (AttributeKey.agreeOn_of_write separates stored).2
  have otherKept := (AttributeKey.agreeOn_of_write otherSeparates otherStored).2
  by_cases prefixed : startsWith deviceId "iio:device3" = true
  · have supply := SignalPath.ofDevice_supply prefixed
    simp only [if_pos prefixed, Outcome.bind_eq_ok, Except.ok.injEq,
      Prod.mk.injEq] at finished
    rcases finished with ⟨refreshed, refreshing, final, readBack, rfl, rfl⟩
    rcases refresh_returned refreshing with ⟨document, anyDocument⟩
    have otherRefreshing : (other.withDoc otherDoc).refresh channel attr buf =
        .ok (refreshed.withDoc otherDoc) := by
      rw [same supply]
      exact anyDocument otherDoc
    rw [supply] at agrees ⊢
    have refreshedAgrees : AgreeOn (fun key => key.path = .supply) refreshed.doc
        (refreshed.withDoc otherDoc).doc := by
      rw [document]
      exact agrees
    rcases writeReadBack_consistent refreshedAgrees (document ▸ kept) otherKept rfl supply
      readBack with ⟨after, otherReadBack, finalAgrees, finalSame⟩
    refine ⟨after, ?_, finalAgrees, fun _ => finalSame⟩
    rw [chWriteAttr_eq, otherStored, Outcome.ok_bind, if_pos prefixed, otherRefreshing,
      Outcome.ok_bind, otherReadBack]
    rfl
  · rw [if_neg prefixed] at finished
    cases finished
    refine ⟨other.withDoc otherDoc, ?_, agrees, ?_⟩
    · rw [chWriteAttr_eq, otherStored, Outcome.ok_bind, if_neg prefixed]
    · intro supply
      rw [same supply]
      rfl

end Adalm2000Context

namespace Emulator

open Execution

variable {δ : Type} {path : SignalPath}
  {emulator other next : Emulator δ} {clients : Clients}

/-! ## Lookups -/

section Lookups

theorem getDevice_congr (wellFormed : WellFormed clients emulator)
    (otherWellFormed : WellFormed clients other) (device : String) :
    other.getDevice device = emulator.getDevice device := by
  have names : other.deviceId = emulator.deviceId := by
    funext slot
    rw [wellFormed.named, otherWellFormed.named]
  rw [getDevice, getDevice, names]

theorem getDeviceByDescriptor_congr [LibXml2] (wellFormed : WellFormed clients emulator)
    (otherWellFormed : WellFormed clients other) {fd : Int}
    (connected : clients.connected fd)
    (agrees : Agrees (clients.path fd) emulator other) :
    other.getDeviceByDescriptor fd = emulator.getDeviceByDescriptor fd := by
  have same : ∀ slot, (other.descriptor slot == fd) =
      (emulator.descriptor slot == fd) := by
    intro slot
    by_cases inside : slot.path = clients.path fd
    · rw [agrees.descriptor slot inside]
    · have first : emulator.descriptor slot ≠ fd := by
        intro equal
        rw [← equal] at connected inside
        exact inside (wellFormed.tagged slot connected).symm
      have second : other.descriptor slot ≠ fd := by
        intro equal
        rw [← equal] at connected inside
        exact inside (otherWellFormed.tagged slot connected).symm
      rw [beq_eq_false_iff_ne.mpr first, beq_eq_false_iff_ne.mpr second]
  rw [getDeviceByDescriptor, getDeviceByDescriptor]
  congr 1
  funext slot
  exact same slot

end Lookups

/-! ## Devices -/

section Devices

variable [LibXml2] {ret : Int}

theorem consistent_dacA (agrees : Agrees path emulator other)
    {call otherCall : Outcome (Int × M2kDAC δ)} (same : otherCall = call)
    (returned : (do
      let (ret, dac) ← call
      return (ret, { emulator with dacA := dac }) : Outcome (Int × Emulator δ)) =
        .ok (ret, next)) :
    ∃ after, (do
      let (ret, dac) ← otherCall
      return (ret, { other with dacA := dac }) :
        Outcome (Int × Emulator δ)) = .ok (ret, after) ∧
        Agrees path next after := by
  simp only [Outcome.bind_eq_ok, Outcome.pure_eq_ok, Except.ok.injEq, Prod.mk.injEq,
    Prod.exists] at returned
  rcases returned with ⟨_, dac, called, rfl, rfl⟩
  refine ⟨{ other with dacA := dac }, ?_, agrees.doc, agrees.described, agrees.descriptor,
    agrees.supplies, fun on => ⟨(agrees.analog on).1, rfl, (agrees.analog on).2.2⟩,
    agrees.digital⟩
  rw [same, called]
  rfl

theorem consistent_dacB (agrees : Agrees path emulator other)
    {call otherCall : Outcome (Int × M2kDAC δ)} (same : otherCall = call)
    (returned : (do
      let (ret, dac) ← call
      return (ret, { emulator with dacB := dac }) : Outcome (Int × Emulator δ)) =
        .ok (ret, next)) :
    ∃ after, (do
      let (ret, dac) ← otherCall
      return (ret, { other with dacB := dac }) :
        Outcome (Int × Emulator δ)) = .ok (ret, after) ∧
        Agrees path next after := by
  simp only [Outcome.bind_eq_ok, Outcome.pure_eq_ok, Except.ok.injEq, Prod.mk.injEq,
    Prod.exists] at returned
  rcases returned with ⟨_, dac, called, rfl, rfl⟩
  refine ⟨{ other with dacB := dac }, ?_, agrees.doc, agrees.described, agrees.descriptor,
    agrees.supplies, fun on => ⟨(agrees.analog on).1, (agrees.analog on).2.1, rfl⟩,
    agrees.digital⟩
  rw [same, called]
  rfl

theorem consistent_logicTX (agrees : Agrees path emulator other)
    {call otherCall : Outcome (Int × M2kLogicTX δ)} (same : otherCall = call)
    (returned : (do
      let (ret, tx) ← call
      return (ret, { emulator with logicTX := tx }) : Outcome (Int × Emulator δ)) =
        .ok (ret, next)) :
    ∃ after, (do
      let (ret, tx) ← otherCall
      return (ret, { other with logicTX := tx }) : Outcome (Int × Emulator δ)) =
        .ok (ret, after) ∧ Agrees path next after := by
  simp only [Outcome.bind_eq_ok, Outcome.pure_eq_ok, Except.ok.injEq, Prod.mk.injEq,
    Prod.exists] at returned
  rcases returned with ⟨_, tx, called, rfl, rfl⟩
  refine ⟨{ other with logicTX := tx }, ?_, agrees.doc,
    agrees.described, agrees.descriptor, agrees.supplies, agrees.analog, fun on =>
      ⟨(agrees.digital on).1, rfl⟩⟩
  rw [same, called]
  rfl

end Devices

/-! ## Slots -/

section Slots

variable [Double δ] [LibXml2] [TinyIIOD] {slot : DeviceSlot} {ret : Int}
  {sampleSize mask offset bytesCount : Nat} {cyclic : Bool}
  {buf : List Byte} {bytes : List Byte}

theorem loads_dacA (agrees : Agrees .analog emulator other)
    (names : ∀ slot, emulator.deviceId slot = slot.name) :
    other.dacA.loadCalibValues other.context.doc =
      emulator.dacA.loadCalibValues emulator.context.doc := by
  rw [(agrees.analog rfl).2.1]
  apply agrees.doc.loadCalibValues
  intro attr
  rw [show emulator.dacA.deviceId = DeviceSlot.dacA.name from names .dacA]
  exact DeviceSlot.ofDevice_name .dacA

theorem loads_dacB (agrees : Agrees .analog emulator other)
    (names : ∀ slot, emulator.deviceId slot = slot.name) :
    other.dacB.loadCalibValues other.context.doc =
      emulator.dacB.loadCalibValues emulator.context.doc := by
  rw [(agrees.analog rfl).2.2]
  apply agrees.doc.loadCalibValues
  intro attr
  rw [show emulator.dacB.deviceId = DeviceSlot.dacB.name from names .dacB]
  exact DeviceSlot.ofDevice_name .dacB

theorem loads_logicTX (agrees : Agrees .digital emulator other)
    (names : ∀ slot, emulator.deviceId slot = slot.name) :
    other.logicTX.loadValues other.context.doc =
      emulator.logicTX.loadValues emulator.context.doc := by
  rw [(agrees.digital rfl).2]
  apply agrees.doc.loadValues
  intro attr
  rw [show emulator.logicTX.deviceId = DeviceSlot.logicTX.name from names .logicTX]
  exact DeviceSlot.ofDevice_name .logicTX

theorem loads_logicRX (agrees : Agrees .digital emulator other)
    (names : ∀ slot, emulator.deviceId slot = slot.name) :
    other.logicRX.loadValues other.context.doc =
      emulator.logicRX.loadValues emulator.context.doc := by
  rw [(agrees.digital rfl).1]
  apply agrees.doc.loadValues_rx
  intro attr
  rw [show emulator.logicRX.deviceId = DeviceSlot.logicRX.name from names .logicRX]
  exact DeviceSlot.ofDevice_name .logicRX

theorem loads_adc (agrees : Agrees .analog emulator other) :
    other.adc.loadCalibValues other.context.doc =
      emulator.adc.loadCalibValues emulator.context.doc := by
  rw [(agrees.analog rfl).1]
  exact agrees.doc.loadCalibValues_adc emulator.adc

theorem openSlot_consistent (agrees : Agrees slot.path emulator other)
    (names : ∀ slot, emulator.deviceId slot = slot.name)
    (returned : emulator.openSlot sampleSize mask cyclic slot = .ok (ret, next)) :
    ∃ after, other.openSlot sampleSize mask cyclic slot = .ok (ret, after) ∧
      Agrees slot.path next after := by
  cases slot with
  | adc | logicRX =>
      cases returned
      exact ⟨other, rfl, agrees⟩
  | dacA =>
      refine consistent_dacA agrees ?_ returned
      simp only [M2kDAC.openDev, loads_dacA agrees names]
  | dacB =>
      refine consistent_dacB agrees ?_ returned
      simp only [M2kDAC.openDev, loads_dacB agrees names]
  | logicTX =>
      refine consistent_logicTX agrees ?_ returned
      rw [(agrees.digital rfl).2]

omit [Double δ] [TinyIIOD] in
theorem closeSlot_consistent (agrees : Agrees slot.path emulator other)
    (returned : emulator.closeSlot slot = .ok (ret, next)) :
    ∃ after, other.closeSlot slot = .ok (ret, after) ∧ Agrees slot.path next after := by
  cases slot with
  | adc | logicRX =>
      cases returned
      exact ⟨other, rfl, agrees⟩
  | dacA =>
      refine consistent_dacA agrees ?_ returned
      rw [(agrees.analog rfl).2.1]
  | dacB =>
      refine consistent_dacB agrees ?_ returned
      rw [(agrees.analog rfl).2.2]
  | logicTX =>
      refine consistent_logicTX agrees ?_ returned
      rw [(agrees.digital rfl).2]

omit [Double δ] [TinyIIOD] in
theorem cancelSlot_consistent (agrees : Agrees slot.path emulator other)
    (returned : emulator.cancelSlot slot = .ok next) :
    ∃ after, other.cancelSlot slot = .ok after ∧ Agrees slot.path next after := by
  cases slot with
  | adc | logicRX =>
      cases returned
      exact ⟨other, rfl, agrees⟩
  | dacA =>
      cases returned
      refine ⟨_, rfl, agrees.doc, agrees.described, agrees.descriptor,
        agrees.supplies, ?_, agrees.digital⟩
      intro on
      refine ⟨(agrees.analog on).1, ?_, (agrees.analog on).2.2⟩
      simp only [(agrees.analog on).2.1]
  | dacB =>
      cases returned
      refine ⟨_, rfl, agrees.doc, agrees.described, agrees.descriptor,
        agrees.supplies, ?_, agrees.digital⟩
      intro on
      refine ⟨(agrees.analog on).1, (agrees.analog on).2.1, ?_⟩
      simp only [(agrees.analog on).2.2]
  | logicTX =>
      cases returned
      refine ⟨_, rfl, agrees.doc, agrees.described, agrees.descriptor, agrees.supplies,
        agrees.analog, ?_⟩
      intro on
      refine ⟨(agrees.digital on).1, ?_⟩
      simp only [(agrees.digital on).2]

omit [TinyIIOD] in
theorem writeSlot_consistent (agrees : Agrees slot.path emulator other)
    (returned : (emulator.writeSlot buf offset bytesCount slot).getD
      (.ok (-ENOENT, emulator)) = .ok (ret, next)) :
    ∃ after, (other.writeSlot buf offset bytesCount slot).getD (.ok (-ENOENT, other)) =
      .ok (ret, after) ∧ Agrees slot.path next after := by
  cases slot with
  | adc | logicRX =>
      cases returned
      exact ⟨other, rfl, agrees⟩
  | dacA =>
      refine consistent_dacA agrees ?_ returned
      rw [(agrees.analog rfl).2.1]
  | dacB =>
      refine consistent_dacB agrees ?_ returned
      rw [(agrees.analog rfl).2.2]
  | logicTX =>
      refine consistent_logicTX agrees ?_ returned
      rw [(agrees.digital rfl).2]

theorem transferSlot_consistent (agrees : Agrees slot.path emulator other)
    (names : ∀ slot, emulator.deviceId slot = slot.name)
    (returned : (emulator.transferSlot bytesCount slot).getD (.ok (-ENOENT, emulator)) =
      .ok (ret, next)) :
    ∃ after, (other.transferSlot bytesCount slot).getD (.ok (-ENOENT, other)) =
      .ok (ret, after) ∧ Agrees slot.path next after := by
  cases slot with
  | adc | logicRX =>
      cases returned
      exact ⟨other, rfl, agrees⟩
  | dacA =>
      refine consistent_dacA agrees ?_ returned
      simp only [M2kDAC.transferMemToDev, M2kDAC.resample, loads_dacA agrees names]
  | dacB =>
      refine consistent_dacB agrees ?_ returned
      simp only [M2kDAC.transferMemToDev, M2kDAC.resample, loads_dacB agrees names]
  | logicTX =>
      refine consistent_logicTX agrees ?_ returned
      simp only [M2kLogicTX.transferMemToDev, M2kLogicTX.resample,
        loads_logicTX agrees names]

theorem readSlot_consistent (agrees : Agrees slot.path emulator other)
    (names : ∀ slot, emulator.deviceId slot = slot.name)
    (returned : (emulator.readSlot offset bytesCount slot).getD
      (.ok (-ENOENT, [], emulator)) = .ok (ret, bytes, next)) :
    ∃ after, (other.readSlot offset bytesCount slot).getD (.ok (-ENOENT, [], other)) =
      .ok (ret, bytes, after) ∧ Agrees slot.path next after := by
  cases slot with
  | dacA | dacB | logicTX =>
      cases returned
      exact ⟨other, rfl, agrees⟩
  | adc =>
      have same : other.adc.readDev other.context.doc (some other.dacA)
          (some other.dacB) offset
          bytesCount = emulator.adc.readDev emulator.context.doc (some emulator.dacA)
            (some emulator.dacB) offset bytesCount := by
        simp only [M2kADC.readDev, loads_adc agrees, (agrees.analog rfl).2.1,
          (agrees.analog rfl).2.2]
      simp only [readSlot, Option.getD_some, Outcome.bind_eq_ok, Outcome.pure_eq_ok,
        Except.ok.injEq, Prod.mk.injEq, Prod.exists] at returned
      rcases returned with ⟨_, _, adc, dacA, dacB, read, rfl, rfl, rfl⟩
      refine ⟨{ other with adc := adc, dacA := dacA, dacB := dacB }, ?_, agrees.doc,
        agrees.described, agrees.descriptor, agrees.supplies, fun _ => ⟨rfl, rfl, rfl⟩,
        agrees.digital⟩
      simp only [readSlot, Option.getD_some, same, read]
      rfl
  | logicRX =>
      have same : other.logicRX.readDev other.context.doc
          (some other.logicTX) offset bytesCount =
          emulator.logicRX.readDev emulator.context.doc (some emulator.logicTX) offset
            bytesCount := by
        simp only [M2kLogicRX.readDev, M2kLogicRX.resample, loads_logicRX agrees names,
          (agrees.digital rfl).2]
      simp only [readSlot, Option.getD_some, Outcome.bind_eq_ok, Outcome.pure_eq_ok,
        Except.ok.injEq, Prod.mk.injEq, Prod.exists] at returned
      rcases returned with ⟨_, _, rx, tx, read, rfl, rfl, rfl⟩
      refine ⟨{ other with logicRX := rx, logicTX := tx }, ?_,
        agrees.doc, agrees.described, agrees.descriptor, agrees.supplies, agrees.analog,
        fun _ => ⟨rfl, rfl⟩⟩
      simp only [readSlot, Option.getD_some, same, read]
      rfl

omit [Double δ] [TinyIIOD] in
theorem maskOfSlot_consistent (agrees : Agrees slot.path emulator other) :
    other.maskOfSlot mask slot = emulator.maskOfSlot mask slot := by
  cases slot with
  | adc | logicRX | logicTX => rfl
  | dacA => simp only [maskOfSlot, (agrees.analog rfl).2.1]
  | dacB => simp only [maskOfSlot, (agrees.analog rfl).2.2]

end Slots

/-! ## Commands -/

section Commands

variable [Double δ] [LibXml2] [TinyIIOD] {command : Command} {reply : Reply}

theorem perform_consistent (agrees : Agrees path emulator other)
    (wellFormed : WellFormed clients emulator)
    (otherWellFormed : WellFormed clients other)
    (socket : other.currentSocket = emulator.currentSocket) (keeps : command.KeepsTo path)
    (performed : emulator.perform command = .ok (reply, next)) :
    ∃ after, other.perform command = .ok (reply, after) ∧ Agrees path next after := by
  have named := getDevice_congr wellFormed otherWellFormed
  cases command with
  | readAttr deviceId attr buf len type =>
      simp only [perform, readAttr, Outcome.bind_eq_ok,
        Outcome.pure_eq_ok, Except.ok.injEq, Prod.mk.injEq, Prod.exists] at performed
      rcases performed with ⟨ret, stored, read, rfl, rfl⟩
      have same := agrees.doc.readDeviceAttr deviceId attr type (keeps deviceId rfl)
        buf len
      refine ⟨other, ?_, agrees⟩
      simp only [perform, readAttr, same, read]
      rfl
  | chReadAttr deviceId channel chOut attr buf len =>
      simp only [perform, chReadAttr, Outcome.bind_eq_ok,
        Outcome.pure_eq_ok, Except.ok.injEq, Prod.mk.injEq, Prod.exists] at performed
      rcases performed with ⟨ret, stored, read, rfl, rfl⟩
      have same := agrees.doc.readChannelAttr deviceId channel chOut attr
        (keeps deviceId rfl) buf len
      refine ⟨other, ?_, agrees⟩
      simp only [perform, chReadAttr, same, read]
      rfl
  | writeAttr deviceId attr buf len type =>
      simp only [perform, writeAttr, Outcome.bind_eq_ok,
        Outcome.pure_eq_ok, Except.ok.injEq, Prod.mk.injEq, Prod.exists] at performed
      rcases performed with ⟨_, _, ⟨ret, doc, written, rfl, rfl⟩, rfl, rfl⟩
      have stored :
        (AttributeKey.device deviceId type attr).write emulator.context.doc buf len =
        .ok (ret, doc) := written
      rcases agrees.doc.write wellFormed.separates otherWellFormed.separates stored with
        ⟨otherDoc, otherWritten, after⟩
      refine ⟨{ other with context := { other.context with doc := otherDoc } }, ?_, after,
        agrees.described, agrees.descriptor, agrees.supplies,
        agrees.analog, agrees.digital⟩
      rw [AttributeKey.write] at otherWritten
      simp only [perform, writeAttr, otherWritten]
      rfl
  | chWriteAttr deviceId channel chOut attr buf len =>
      simp only [perform, chWriteAttr, Outcome.bind_eq_ok,
        Outcome.pure_eq_ok, Except.ok.injEq, Prod.mk.injEq, Prod.exists] at performed
      rcases performed with ⟨_, _, ⟨ret, context, written, rfl, rfl⟩, rfl, rfl⟩
      have inside : SignalPath.ofDevice deviceId = path := keeps deviceId rfl
      subst inside
      have beside : SignalPath.ofDevice deviceId = .supply →
          other.context = emulator.context.withDoc other.context.doc := by
        intro supply
        have same : other.supplies.withDoc other.context.doc =
            emulator.supplies.withDoc other.context.doc := by rw [agrees.supplies supply]
        exact same
      rcases Adalm2000Context.chWriteAttr_consistent agrees.doc wellFormed.separates
        otherWellFormed.separates beside written with ⟨after, otherWritten, docs, kept⟩
      refine ⟨{ other with context := after }, ?_, docs, agrees.described,
        agrees.descriptor, ?_, agrees.analog, agrees.digital⟩
      · simp only [perform, chWriteAttr, otherWritten]
        rfl
      · intro supply
        simp only [supplies]
        rw [kept supply]
        rfl
  | openDev device sampleSize mask cyclic =>
      simp only [perform, openDev, Outcome.bind_eq_ok,
        Outcome.pure_eq_ok, Except.ok.injEq, Prod.mk.injEq, Prod.exists] at performed
      rcases performed with ⟨ret, _, opened, rfl, rfl⟩
      simp only [perform, openDev, named, socket]
      cases found : emulator.getDevice device with
      | none =>
          rw [found] at opened
          cases opened
          exact ⟨other, rfl, agrees⟩
      | some slot =>
          rw [found] at opened
          have inside : slot.path = path :=
            (wellFormed.ofDevice_eq found).symm.trans (keeps device rfl)
          subst inside
          have tagged :
              Agrees slot.path (emulator.setDescriptor slot emulator.currentSocket)
              (other.setDescriptor slot emulator.currentSocket) := by
            refine ⟨agrees.doc, agrees.described, ?_, agrees.supplies, agrees.analog,
              agrees.digital⟩
            intro place on
            by_cases chosen : place = slot
            · subst chosen
              simp only [setDescriptor, Function.update_self]
            · simp only [setDescriptor, Function.update_of_ne chosen,
                agrees.descriptor place on]
          rcases openSlot_consistent tagged wellFormed.named opened with
            ⟨after, otherOpened, afterAgrees⟩
          refine ⟨after, ?_, afterAgrees⟩
          simp only [otherOpened]
          rfl
  | closeDev device =>
      simp only [perform, closeDev, Outcome.bind_eq_ok,
        Outcome.pure_eq_ok, Except.ok.injEq, Prod.mk.injEq, Prod.exists] at performed
      rcases performed with ⟨ret, _, closed, rfl, rfl⟩
      simp only [perform, closeDev, named]
      cases found : emulator.getDevice device with
      | none =>
          rw [found] at closed
          cases closed
          exact ⟨other, rfl, agrees⟩
      | some slot =>
          rw [found] at closed
          have inside : slot.path = path :=
            (wellFormed.ofDevice_eq found).symm.trans (keeps device rfl)
          subst inside
          rcases closeSlot_consistent agrees closed with ⟨after, otherClosed, afterAgrees⟩
          refine ⟨after, ?_, afterAgrees⟩
          simp only [otherClosed]
          rfl
  | transferMemToDev device bytesCount =>
      simp only [perform, transferMemToDev, Outcome.bind_eq_ok, Outcome.pure_eq_ok,
        Except.ok.injEq, Prod.mk.injEq, Prod.exists] at performed
      rcases performed with ⟨ret, _, transferred, rfl, rfl⟩
      simp only [perform, transferMemToDev, named]
      cases found : emulator.getDevice device with
      | none =>
          rw [found] at transferred
          cases transferred
          exact ⟨other, rfl, agrees⟩
      | some slot =>
          rw [found] at transferred
          have inside : slot.path = path :=
            (wellFormed.ofDevice_eq found).symm.trans (keeps device rfl)
          subst inside
          rcases transferSlot_consistent agrees wellFormed.named transferred with
            ⟨after, otherTransferred, afterAgrees⟩
          refine ⟨after, ?_, afterAgrees⟩
          simp only [Option.bind_some, otherTransferred]
          rfl
  | writeDev device buf offset bytesCount =>
      simp only [perform, writeDev, Outcome.bind_eq_ok,
        Outcome.pure_eq_ok, Except.ok.injEq, Prod.mk.injEq, Prod.exists] at performed
      rcases performed with ⟨ret, _, written, rfl, rfl⟩
      simp only [perform, writeDev, named]
      cases found : emulator.getDevice device with
      | none =>
          rw [found] at written
          cases written
          exact ⟨other, rfl, agrees⟩
      | some slot =>
          rw [found] at written
          have inside : slot.path = path :=
            (wellFormed.ofDevice_eq found).symm.trans (keeps device rfl)
          subst inside
          rcases writeSlot_consistent agrees written with
            ⟨after, otherWritten, afterAgrees⟩
          refine ⟨after, ?_, afterAgrees⟩
          simp only [Option.bind_some, otherWritten]
          rfl
  | readDev device offset bytesCount =>
      simp only [perform, readDev, Outcome.bind_eq_ok,
        Outcome.pure_eq_ok, Except.ok.injEq, Prod.mk.injEq, Prod.exists] at performed
      rcases performed with ⟨ret, bytes, _, read, rfl, rfl⟩
      simp only [perform, readDev, named]
      cases found : emulator.getDevice device with
      | none =>
          rw [found] at read
          cases read
          exact ⟨other, rfl, agrees⟩
      | some slot =>
          rw [found] at read
          have inside : slot.path = path :=
            (wellFormed.ofDevice_eq found).symm.trans (keeps device rfl)
          subst inside
          rcases readSlot_consistent agrees wellFormed.named read with
            ⟨after, otherRead, afterAgrees⟩
          refine ⟨after, ?_, afterAgrees⟩
          simp only [Option.bind_some, otherRead]
          rfl
  | getTrigger | setTrigger =>
      cases performed
      exact ⟨other, rfl, agrees⟩
  | transferDevToMem device bytesCount =>
      cases performed
      refine ⟨other, ?_, agrees⟩
      simp only [perform, transferDevToMem, named]
  | setBuffersCount device buffersCount =>
      cases performed
      refine ⟨other, ?_, agrees⟩
      simp only [perform, setBuffersCount, named]
  | getMask device mask =>
      cases performed
      refine ⟨other, ?_, agrees⟩
      simp only [perform, getMask, named]
      cases found : emulator.getDevice device with
      | none => rfl
      | some slot =>
          have inside : slot.path = path :=
            (wellFormed.ofDevice_eq found).symm.trans (keeps device rfl)
          subst inside
          simp only [maskOfSlot_consistent agrees]
  | getXml outxml =>
      cases performed
      refine ⟨other, ?_, agrees⟩
      simp only [perform, getXml, XmlContext.getXml, agrees.described]
      rfl

omit [Double δ] [TinyIIOD] in
theorem socketDisconnected_consistent {fd : Int} (connected : clients.connected fd)
    (agrees : Agrees (clients.path fd) emulator other)
    (wellFormed : WellFormed clients emulator)
    (otherWellFormed : WellFormed clients other)
    (cancelled : emulator.socketDisconnected fd = .ok next) :
    ∃ after, other.socketDisconnected fd = .ok after ∧
    Agrees (clients.path fd) next after := by
  have found_same :=
    getDeviceByDescriptor_congr wellFormed otherWellFormed connected agrees
  rw [socketDisconnected] at cancelled ⊢
  rw [found_same]
  cases found : emulator.getDeviceByDescriptor fd with
  | none =>
      rw [found] at cancelled
      cases cancelled
      exact ⟨other, rfl, agrees⟩
  | some slot =>
      rw [found] at cancelled
      have inside := wellFormed.path_eq found connected
      rw [inside] at agrees ⊢
      exact cancelSlot_consistent agrees cancelled

end Commands

/-! ## Runs -/

section Runs

variable [Double δ] [LibXml2] [TinyIIOD]

theorem unwinds (clients : Clients) :
    Unwinds (step (δ := δ)) (Action.path clients) (Action.Keeps clients) (WellFormed clients)
      Agrees := by
  refine ⟨agrees_equivalence, ?_, ?_, ?_⟩
  · intro emulator action reply next keeps wellFormed stepped
    exact wellFormed.step keeps stepped
  · intro emulator action reply next path keeps wellFormed stepped elsewhere
    exact agrees_of_step wellFormed keeps stepped elsewhere
  · intro emulator other action reply next keeps wellFormed otherWellFormed agrees stepped
    have socketed (fd : Int) : WellFormed clients (emulator.setCurrentSocket fd) :=
      ⟨wellFormed.separates, wellFormed.named, wellFormed.tagged⟩
    have otherSocketed (fd : Int) : WellFormed clients (other.setCurrentSocket fd) :=
      ⟨otherWellFormed.separates, otherWellFormed.named, otherWellFormed.tagged⟩
    have agreesSocketed (fd : Int) :
        Agrees (action.path clients) (emulator.setCurrentSocket fd)
        (other.setCurrentSocket fd) :=
      ⟨agrees.doc, agrees.described, agrees.descriptor, agrees.supplies, agrees.analog,
        agrees.digital⟩
    cases action with
    | serve fd command =>
        exact perform_consistent (agreesSocketed fd) (socketed fd) (otherSocketed fd) rfl
          (keeps.2 fd command rfl) stepped
    | disconnect fd =>
        rw [step, Outcome.bind_eq_ok] at stepped
        rcases stepped with ⟨_, cancelled, equal⟩
        cases equal
        rcases socketDisconnected_consistent keeps.1 (agreesSocketed fd) (socketed fd)
          (otherSocketed fd) cancelled with ⟨after, otherCancelled, afterAgrees⟩
        refine ⟨after, ?_, afterAgrees⟩
        exact Outcome.bind_eq_ok.mpr ⟨after, otherCancelled, rfl⟩

variable [LibXml2Text] {memory initial final : Emulator δ}
  {actions first second : List Action}
  {outputs : List (Action × Reply)}

/-- Whatever the clients of other paths do, the clients of a path are answered, and find the
context afterwards, as if they had been alone. -/
theorem answered_as_if_alone (constructed : construct memory = .ok initial)
    (unset : ∀ slot, clients.connected (memory.descriptor slot) →
      clients.path (memory.descriptor slot) = slot.path)
    (keeps : ∀ action ∈ actions, action.Keeps clients)
    (ran : record step initial actions = .ok (outputs, final)) (path : SignalPath) :
    ∃ after, record step initial (purge (Action.path clients) path actions) =
        .ok (told (Action.path clients) path outputs, after) ∧
        Agrees path final after := by
  have wellFormed := wellFormed_of_construct constructed unset
  exact (unwinds clients).record_purge keeps wellFormed wellFormed
    ((agrees_equivalence path).refl initial) ran

/-- Two orders of the same commands on each path: the one is served to its end exactly when
the other is, every path gets the same answers, and none can tell the states apart. -/
theorem served_in_any_order (constructed : construct memory = .ok initial)
    (unset : ∀ slot, clients.connected (memory.descriptor slot) →
      clients.path (memory.descriptor slot) = slot.path)
    (firstKeeps : ∀ action ∈ first, action.Keeps clients)
    (secondKeeps : ∀ action ∈ second, action.Keeps clients)
    (same : ∀ path, purge (Action.path clients) path first =
      purge (Action.path clients) path second) :
    ((∃ result, record step initial first = .ok result) ↔
      ∃ result, record step initial second = .ok result) ∧
    ∀ outputs final otherOutputs otherFinal,
    record step initial first = .ok (outputs, final) →
      record step initial second = .ok (otherOutputs, otherFinal) → ∀ path,
        told (Action.path clients) path otherOutputs =
        told (Action.path clients) path outputs ∧
          Agrees path final otherFinal := by
  have wellFormed := wellFormed_of_construct constructed unset
  constructor
  · rw [(unwinds clients).returns_iff firstKeeps wellFormed,
      (unwinds clients).returns_iff secondKeeps wellFormed]
    simp only [same]
  · intro outputs final otherOutputs otherFinal ran otherRan
    rcases (unwinds clients).interleavings_agree firstKeeps secondKeeps
        same wellFormed ran with
      ⟨_, _, found, toldSame⟩
    rw [otherRan] at found
    cases found
    exact toldSame

theorem served_path_by_path (constructed : construct memory = .ok initial)
    (unset : ∀ slot, clients.connected (memory.descriptor slot) →
      clients.path (memory.descriptor slot) = slot.path)
    (keeps : ∀ action ∈ actions, action.Keeps clients) {paths : List SignalPath}
    (nodup : paths.Nodup) (covers : ∀ action ∈ actions, action.path clients ∈ paths)
    (ran : record step initial actions = .ok (outputs, final)) :
    ∃ serialOutputs serialFinal,
      record step initial (serial (Action.path clients) paths actions) =
        .ok (serialOutputs, serialFinal) ∧
      ∀ path, told (Action.path clients) path serialOutputs =
          told (Action.path clients) path outputs ∧ Agrees path final serialFinal :=
  (unwinds clients).interleavings_agree keeps
    (fun action member => keeps action (mem_of_mem_serial member))
    (fun _ => (purge_serial nodup covers).symm)
      (wellFormed_of_construct constructed unset) ran

end Runs

section Examples

open scoped Reference

def threeClients : Clients where
  connected fd := fd = 4 ∨ fd = 5 ∨ fd = 6
  path fd := if fd = 4 then .digital else if fd = 5 then .analog else .supply

def reordered : List Action :=
  [.serve 5 (.openDev "iio:device6" 2 1 false),
    .serve 6 (.chWriteAttr "iio:device3" "voltage0" true "raw" (terminated "100") 3),
    .disconnect 5,
    .serve 4 (.writeDev "iio:device9" (bytesOfWords [1, 2]) 0 4),
    .serve 4 (.readDev "iio:device10" 0 4)]

theorem zeroed_unset (slot : DeviceSlot) :
    threeClients.connected (zeroed.descriptor slot) →
      threeClients.path (zeroed.descriptor slot) = slot.path := by
  intro connected
  rcases connected with equal | equal | equal <;> cases equal

theorem session_keeps : ∀ action ∈ session, action.Keeps threeClients := by
  simp only [session, List.forall_mem_cons, Action.keeps_serve, Action.keeps_disconnect,
    threeClients, List.not_mem_nil, false_implies, implies_true, and_true]
  decide

theorem reordered_keeps : ∀ action ∈ reordered, action.Keeps threeClients := by
  simp only [reordered, List.forall_mem_cons, Action.keeps_serve, Action.keeps_disconnect,
    threeClients, List.not_mem_nil, false_implies, implies_true, and_true]
  decide

theorem purge_reordered (path : SignalPath) :
    purge (Action.path threeClients) path session =
      purge (Action.path threeClients) path reordered := by
  cases path <;> rfl

theorem digital_client_alone :
    ∃ initial outputs final after, construct zeroed = .ok initial ∧
      record step initial session = .ok (outputs, final) ∧
      record step initial (purge (Action.path threeClients) .digital session) =
        .ok (told (Action.path threeClients) .digital outputs, after) := by
  rcases session_returns with ⟨initial, constructed, outputs, final, recorded⟩
  rcases answered_as_if_alone constructed zeroed_unset session_keeps recorded .digital with
    ⟨after, alone, _⟩
  exact ⟨initial, outputs, final, after, constructed, recorded, alone⟩

theorem reordered_session_returns :
    ∃ initial, construct zeroed = .ok initial ∧
      ∃ result, record step initial reordered = .ok result := by
  rcases session_returns with ⟨initial, constructed, outputs, final, recorded⟩
  exact ⟨initial, constructed, (served_in_any_order constructed zeroed_unset session_keeps
    reordered_keeps purge_reordered).1.mp ⟨_, recorded⟩⟩

end Examples

end Emulator

end IioEmu
