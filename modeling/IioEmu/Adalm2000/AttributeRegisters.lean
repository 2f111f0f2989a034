import IioEmu.Adalm2000.PathEffects
import IioEmu.Context.AttributeRegisters

/-! # The attributes of the bundled context

Every attribute but the read-backs of the supplies is a register: in any session of any
clients a read finds what was written last, or what the bundled description says. -/

namespace IioEmu

def AttributeKey.ClientsOnly (key : AttributeKey) : Prop :=
  ∀ channel : Fin 2, supplyKey (.readBack, channel) ≠ key

instance (key : AttributeKey) : Decidable key.ClientsOnly := by
  unfold AttributeKey.ClientsOnly
  infer_instance

namespace Adalm2000Context

variable {δ : Type} [Double δ] [LibXml2] [TinyIIOD] {context next : Adalm2000Context δ}
  {key : AttributeKey} {text deviceId channel attr : String}
  {chOut : Bool} {buf : CharArray}
  {len : Nat} {ret : Int}

omit [Double δ] in
theorem contents_of_writeReadBack (clientsOnly : key.ClientsOnly)
    (separates : Separates context.doc) {stack : StackBuffer Char}
    (written : context.writeReadBack stack deviceId channel chOut = .ok next) :
    contents next.doc key = contents context.doc key ∧ Separates next.doc := by
  simp only [writeReadBack_eq_write, Outcome.bind_eq_ok, Except.ok.injEq,
    Prod.exists] at written
  rcases written with ⟨_, _, text, _, _, doc, wrote, rfl⟩
  have kept := AttributeKey.agreeOn_of_write separates wrote
  exact ⟨kept.1.contents key (clientsOnly (supplyIndex channel)).symm, kept.2⟩

/-- The override writes what the client writes, and a read-back. -/
theorem contents_of_chWriteAttr (clientsOnly : key.ClientsOnly)
    (separates : Separates context.doc)
    (holds : contents context.doc key = .ok (some (some text)))
    (written : context.chWriteAttr deviceId channel chOut attr buf len = .ok (ret, next)) :
    contents next.doc key = .ok (some (some
        ((if AttributeKey.channel deviceId channel chOut attr = key
          then (cString buf).toOption else none).getD text))) ∧ Separates next.doc := by
  rw [chWriteAttr_eq, Outcome.bind_eq_ok] at written
  rcases written with ⟨⟨answer, doc⟩, stored, finished⟩
  have after := contents_of_write separates holds stored
  have kept := (AttributeKey.agreeOn_of_write separates stored).2
  by_cases prefixed : startsWith deviceId "iio:device3" = true
  · simp only [if_pos prefixed, Outcome.bind_eq_ok, Except.ok.injEq,
      Prod.mk.injEq] at finished
    rcases finished with ⟨refreshed, refreshing, final, readBack, _, rfl⟩
    have same : refreshed.doc = doc := (refresh_returned refreshing).1
    have back := contents_of_writeReadBack clientsOnly (same ▸ kept) readBack
    rw [back.1, same]
    exact ⟨after, back.2⟩
  · rw [if_neg prefixed] at finished
    cases finished
    exact ⟨after, kept⟩

end Adalm2000Context

namespace Emulator

open Execution

section Runs

variable {δ : Type} [Double δ] [LibXml2] [TinyIIOD]

def Action.writtenTo (key : AttributeKey) : Action → Option String
  | .serve _ command => command.writtenTo key
  | .disconnect _ => none

structure HoldsText (key : AttributeKey) (text : String)
    (emulator : Emulator δ) : Prop where
  separates : Separates emulator.context.doc
  contents : contents emulator.context.doc key = .ok (some (some text))

variable {emulator next : Emulator δ} {key : AttributeKey} {text : String} {reply : Reply}

theorem HoldsText.perform {command : Command} (clientsOnly : key.ClientsOnly)
    (holds : HoldsText key text emulator)
    (performed : emulator.perform command = .ok (reply, next)) :
    HoldsText key ((command.writtenTo key).getD text) next := by
  cases stores : command.StoresAttribute with
  | false =>
      have same := (calls_of_perform stores performed).context
      rw [Command.writtenTo_of_quiet stores, Option.getD_none]
      exact ⟨by rw [same]; exact holds.separates, by rw [same]; exact holds.contents⟩
  | true =>
      cases command with
      | writeAttr deviceId attr buf len type =>
          simp only [Emulator.perform, writeAttr, Outcome.bind_eq_ok, Outcome.pure_eq_ok,
            Except.ok.injEq, Prod.mk.injEq, Prod.exists] at performed
          rcases performed with ⟨_, _, ⟨ret, doc, written, _, rfl⟩, _, rfl⟩
          have stored :
              (AttributeKey.device deviceId type attr).write emulator.context.doc buf
              len = .ok (ret, doc) := written
          exact ⟨(AttributeKey.agreeOn_of_write holds.separates stored).2,
            contents_of_write holds.separates holds.contents stored⟩
      | chWriteAttr deviceId channel chOut attr buf len =>
          simp only [Emulator.perform, chWriteAttr,
            Outcome.bind_eq_ok, Outcome.pure_eq_ok, Except.ok.injEq, Prod.mk.injEq,
            Prod.exists] at performed
          rcases performed with ⟨_, _, ⟨ret, context, written, _, rfl⟩, _, rfl⟩
          have after := Adalm2000Context.contents_of_chWriteAttr clientsOnly
            holds.separates holds.contents written
          exact ⟨after.2, after.1⟩
      | _ => cases stores

theorem HoldsText.step {action : Action} (clientsOnly : key.ClientsOnly)
    (holds : HoldsText key text emulator)
    (stepped : emulator.step action = .ok (reply, next)) :
    HoldsText key ((action.writtenTo key).getD text) next := by
  cases action with
  | serve fd command =>
      have socketed : HoldsText key text (emulator.setCurrentSocket fd) :=
        ⟨holds.separates, holds.contents⟩
      exact socketed.perform clientsOnly stepped
  | disconnect fd =>
      have same : next.context = emulator.context := by
        apply context_of_step ?_ stepped
        intro _ _ equal
        cases equal
      exact ⟨by rw [same]; exact holds.separates, by rw [same]; exact holds.contents⟩

theorem perform_of_read? {command : Command} {buf : CharArray} {len : Nat}
    (reads : command.read? = some (key, buf, len)) :
    emulator.perform command =
      (key.read emulator.context.doc buf len >>= fun answer =>
        .ok (.value answer.1 answer.2, emulator)) := by
  cases command with
  | readAttr | chReadAttr =>
      cases reads
      rfl
  | _ => cases reads

theorem HoldsText.read {command : Command} {buf : CharArray} {len : Nat}
    (holds : HoldsText key text emulator) (reads : command.read? = some (key, buf, len))
    (performed : emulator.perform command = .ok (reply, next)) :
    ∃ ret stored, reply = .value ret stored ∧
      copyValue (some text) buf len = .ok (ret, stored) := by
  rw [perform_of_read? reads, AttributeKey.read_eq, holds.contents, Outcome.ok_bind,
    Outcome.bind_eq_ok] at performed
  rcases performed with ⟨⟨ret, stored⟩, copied, equal⟩
  cases equal
  exact ⟨ret, stored, rfl, copied⟩

variable [LibXml2Text] {memory initial final : Emulator δ}
  {actions before after : List Action}
  {outputs : List (Action × Reply)}

/-- A read of an attribute, in whatever session of whatever clients, is answered with the text
that was written to it last, by any client, or else with that of the bundled description. -/
theorem attributes_are_registers (constructed : construct memory = .ok initial)
    (clientsOnly : key.ClientsOnly)
    (described : contents (some Adalm2000Document.adalm2000Xml) key =
      .ok (some (some text)))
    (ran : record step initial actions = .ok (outputs, final))
    {fd : Int} {command : Command}
    (split : actions = before ++ .serve fd command :: after) {buf : CharArray} {len : Nat}
    (reads : command.read? = some (key, buf, len)) :
    ∃ ret stored, outputs[before.length]? = some (.serve fd command, .value ret stored) ∧
      copyValue (some (lastWritten (Action.writtenTo key) before text)) buf len =
        .ok (ret, stored) := by
  have start : HoldsText key text initial := by
    constructor
    · rw [doc_of_construct constructed]
      exact separates_adalm2000Xml
    · rw [doc_of_construct constructed]
      exact described
  rcases found_lastWritten (fun _ holds stepped => HoldsText.step clientsOnly holds stepped)
    start ran split with ⟨state, reply, next, holds, stepped, output⟩
  have socketed : HoldsText key (lastWritten (Action.writtenTo key) before text)
      (state.setCurrentSocket fd) := ⟨holds.separates, holds.contents⟩
  rcases socketed.read reads stepped with ⟨ret, stored, rfl, copied⟩
  exact ⟨ret, stored, output, copied⟩

end Runs

section Examples

open scoped Reference

def settings : List Action :=
  [.serve 4 (.chWriteAttr "iio:device3" "voltage0" true "raw" (terminated "100") 3),
    .serve 5 (.writeDev "iio:device9" (bytesOfWords [1, 2]) 0 4),
    .serve 4 (.chWriteAttr "iio:device3" "voltage0" true "raw" (terminated "200") 3)]

def settingRead : Command :=
  .chReadAttr "iio:device3" "voltage0" true "raw" (uninitialised 8) 8

theorem settings_return :
    ∃ initial, construct zeroed = .ok initial ∧
      ∃ outputs final, record step initial (settings ++ [.serve 5 settingRead]) =
        .ok (outputs, final) := by
  have ran : (construct zeroed >>= fun initial =>
      record step initial (settings ++ [.serve 5 settingRead])).map
          (fun _ => ()) = .ok () := by
    decide +kernel
  rcases Outcome.map_eq_ok.mp ran with ⟨⟨outputs, final⟩, returned, _⟩
  rcases Outcome.bind_eq_ok.mp returned with ⟨initial, constructed, recorded⟩
  exact ⟨initial, constructed, outputs, final, recorded⟩

theorem last_setting_is_read :
    ∃ initial outputs final, construct zeroed = .ok initial ∧
      record step initial (settings ++ [.serve 5 settingRead]) = .ok (outputs, final) ∧
      outputs[3]? = some (.serve 5 settingRead, .value 4
        (terminated "200" ++ uninitialised 4)) := by
  rcases settings_return with ⟨initial, constructed, outputs, final, recorded⟩
  have described : contents (some Adalm2000Document.adalm2000Xml)
      (.channel "iio:device3" "voltage0" true "raw") = .ok (some (some "0.000000")) := by
    decide +kernel
  rcases attributes_are_registers constructed (by decide) described recorded rfl rfl with
    ⟨ret, stored, output, copied⟩
  have last : lastWritten
      (Action.writtenTo (.channel "iio:device3" "voltage0" true "raw"))
      settings "0.000000" = "200" := by decide +kernel
  rw [last] at copied
  have equal : copyValue (some "200") (uninitialised 8) 8 =
      .ok (4, terminated "200" ++ uninitialised 4) := by decide +kernel
  rw [equal] at copied
  cases copied
  exact ⟨initial, outputs, final, constructed, recorded, output⟩

end Examples

end Emulator

end IioEmu
