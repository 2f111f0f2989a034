import IioEmu.Context.AttributeRegisters
import IioEmu.Context.GenericRefinement
import IioEmu.Tools.GeneratedValues

/-! # Serving a generated document

The generator writes down a context that libiio has read, and the emulator serves the
document. Whatever its clients do, a read of an attribute of the context is answered with the
text that was written to it last, or with the value the generator found. -/

namespace IioEmu

/-! ## The store and its attributes -/

section Stores

variable {linked : String → Option Linked} {store next : GenericStore}
  {key : AttributeKey}
  {text : String} {reply : Reply}

def GenericEmulator.Action.writtenTo (key : AttributeKey) :
    GenericEmulator.Action → Option String
  | .serve _ _ command => command.writtenTo key
  | .disconnect _ => none

namespace GenericStore

def HoldsText (key : AttributeKey) (text : String) (store : GenericStore) : Prop :=
  store.value key = .ok (some (some text))

theorem holdsText_writeAttr {other : AttributeKey} {buf : CharArray}
    {len : Nat} {ret : Int} (holds : HoldsText key text store)
    (wrote : store.writeAttr other buf len = .ok (ret, next)) :
    HoldsText key ((if other = key then (cString buf).toOption else none).getD text)
      next := by
  rw [writeAttr, Outcome.bind_eq_ok] at wrote
  rcases wrote with ⟨cell, found, wrote⟩
  cases cell with
  | none =>
      cases wrote
      have different : other ≠ key := by
        intro same
        rw [same, holds] at found
        cases found
      rw [if_neg different]
      exact holds
  | some value =>
      simp only [Outcome.bind_eq_ok, Except.ok.injEq, Prod.mk.injEq] at wrote
      rcases wrote with ⟨written, spelled, _, _, _, rfl⟩
      by_cases same : other = key
      · simp [HoldsText, same, spelled, Except.toOption]
      · simpa [HoldsText, Function.update_of_ne (Ne.symm same), same] using holds

theorem holdsText_perform {around : Surroundings} {command : Command}
    (holds : HoldsText key text store)
    (performed : store.perform linked around command = .ok (reply, next)) :
    HoldsText key ((command.writtenTo key).getD text) next := by
  cases command with
  | writeAttr | chWriteAttr =>
      simp only [perform, Outcome.bind_eq_ok, Except.ok.injEq, Prod.mk.injEq] at performed
      rcases performed with ⟨answer, wrote, _, rfl⟩
      exact holdsText_writeAttr holds wrote
  | readAttr | chReadAttr =>
      simp only [perform, Outcome.bind_eq_ok, Except.ok.injEq, Prod.mk.injEq] at performed
      rcases performed with ⟨_, _, _, rfl⟩
      exact holds
  | openDev device sampleSize mask cyclic =>
      cases performed
      rw [openDev]
      cases linked device <;> exact holds
  | readDev device offset bytesCount =>
      simp only [perform, readDev, Outcome.bind_eq_ok, Except.ok.injEq, Prod.mk.injEq]
        at performed
      rcases performed with ⟨_, read, _, rfl⟩
      split at read
      · simp only [Outcome.bind_eq_ok, Except.ok.injEq] at read
        rcases read with ⟨_, _, rfl⟩
        exact holds
      · cases read
        exact holds
  | writeDev device buf offset bytesCount =>
      simp only [perform, writeDev, Outcome.bind_eq_ok, Except.ok.injEq, Prod.mk.injEq]
        at performed
      rcases performed with ⟨_, wrote, _, rfl⟩
      split at wrote
      · simp only [Outcome.bind_eq_ok, Except.ok.injEq] at wrote
        rcases wrote with ⟨_, _, rfl⟩
        exact holds
      · cases wrote
        exact holds
  | closeDev | transferDevToMem | transferMemToDev | getMask | getTrigger | setTrigger
  | setBuffersCount | getXml =>
      cases performed
      exact holds

theorem holdsText_step {action : GenericEmulator.Action}
    (holds : HoldsText key text store)
    (stepped : store.step linked action = .ok (reply, next)) :
    HoldsText key ((action.writtenTo key).getD text) next := by
  cases action with
  | serve fd around command => exact holdsText_perform holds stepped
  | disconnect fd =>
      cases stepped
      exact holds

theorem reply_of_read? {around : Surroundings} {command : Command}
    {buf : CharArray} {len : Nat} (holds : HoldsText key text store)
    (reads : command.read? = some (key, buf, len))
    (performed : store.perform linked around command = .ok (reply, next)) :
    ∃ ret stored, reply = .value ret stored ∧
      copyValue (some text) buf len = .ok (ret, stored) := by
  have answered : store.perform linked around command =
      (store.readAttr key buf len >>= fun answer =>
        .ok (.value answer.1 answer.2, store)) := by
    cases command with
    | readAttr | chReadAttr =>
        cases reads
        rfl
    | _ => cases reads
  rw [answered, readAttr, holds, Outcome.ok_bind, Outcome.bind_eq_ok] at performed
  rcases performed with ⟨⟨ret, stored⟩, copied, equal⟩
  cases equal
  exact ⟨ret, stored, rfl, copied⟩

end GenericStore

end Stores

namespace GenXml

open Execution Xml

/-! ## The document is well formed -/

section Documents

variable {δ : Type} [PrintfDouble δ]

omit [PrintfDouble δ] in
theorem wellFormed_attrElement (type : IioAttrType) (attr : IioAttr) :
    (attrElement type attr).WellFormed := by
  refine ⟨by simp [attrElement], ?_⟩
  intro isChannel
  exact absurd isChannel (nodeName_ne_channel type)

omit [PrintfDouble δ] in
theorem wellFormed_channelAttrElement (attr : IioChannelAttr) :
    (channelAttrElement attr).WellFormed := by
  refine ⟨?_, fun isChannel => absurd isChannel (show "attribute" ≠ "channel" by decide)⟩
  cases given : attr.filename <;> simp [channelAttrElement, given]

theorem wellFormed_scanElement (chn : IioChannel δ) : (scanElement chn).WellFormed := by
  refine ⟨?_, fun isChannel => absurd isChannel (show "scan-element" ≠ "channel" by decide)⟩
  cases scaled : scaleText chn.format <;> simp [scanElement, scaled]

omit [PrintfDouble δ] in
theorem wellFormed_channelElement (chn : IioChannel δ) :
    (channelElement chn).WellFormed := by
  constructor
  · cases named : chn.name <;> simp [channelElement, named]
  · intro _
    cases named : chn.name <;> simp [channelElement, named, XmlElement.property?]

theorem wellFormed_contextTree (ctx : IioContext δ) (devices : List (IioDevice δ)) :
    WellFormed (some ⟨some (contextTree ctx devices)⟩) := by
  intro document isDocument tree isTree
  cases isDocument
  cases isTree
  have attrs (type : IioAttrType) (attrs : List IioAttr) :
      ∀ node ∈ attrs.map (attrNode type), ∀ element ∈ node.labels,
          element.WellFormed := by
    intro node member
    rcases List.mem_map.mp member with ⟨attr, _, rfl⟩
    simp [attrNode, LabelledTree.labels, LabelledTree.forestLabels,
      wellFormed_attrElement]
  have channels : ∀ chn : IioChannel δ, ∀ element ∈ (channelNode chn).labels,
      element.WellFormed := by
    intro chn
    rw [channelNode, LabelledTree.labels, List.forall_mem_cons,
      LabelledTree.forall_forestLabels]
    refine ⟨wellFormed_channelElement chn, ?_⟩
    intro node member
    rcases List.mem_append.mp member with scan | attr
    · rw [scanElementNodes] at scan
      split at scan
      · rw [List.mem_singleton.mp scan]
        simp [LabelledTree.labels, LabelledTree.forestLabels, wellFormed_scanElement]
      · cases scan
    · rcases List.mem_map.mp attr with ⟨attr, _, rfl⟩
      simp [channelAttrNode, LabelledTree.labels, LabelledTree.forestLabels,
        wellFormed_channelAttrElement]
  rw [contextTree, LabelledTree.labels, List.forall_mem_cons,
    LabelledTree.forall_forestLabels]
  constructor
  · refine ⟨?_, fun isChannel => absurd isChannel (show "context" ≠ "channel" by decide)⟩
    cases described : ctx.description <;> simp [contextElement, described]
  · intro node member
    rcases List.mem_append.mp member with attr | device
    · rcases List.mem_map.mp attr with ⟨attr, _, rfl⟩
      rw [contextAttrNode, LabelledTree.labels, List.forall_mem_cons,
        LabelledTree.forall_forestLabels]
      refine ⟨⟨by simp [contextAttrElement], fun isChannel =>
        absurd isChannel (show "context-attribute" ≠ "channel" by decide)⟩, ?_⟩
      intro node none
      cases none
    · rcases List.mem_map.mp device with ⟨dev, _, rfl⟩
      rw [deviceNode, LabelledTree.labels, List.forall_mem_cons,
        LabelledTree.forall_forestLabels]
      constructor
      · refine ⟨?_,
          fun isChannel => absurd isChannel (show "device" ≠ "channel" by decide)⟩
        cases named : dev.name <;> simp [deviceElement, named]
      · intro node member
        rcases List.mem_append.mp member with most | debug
        · rcases List.mem_append.mp most with more | buffer
          · rcases List.mem_append.mp more with channel | attr
            · rcases List.mem_map.mp channel with ⟨chn, _, rfl⟩
              exact channels chn
            · exact attrs .device dev.attrs node attr
          · exact attrs .buffer dev.bufferAttrs node buffer
        · exact attrs .debug dev.debugAttrs node debug

/-! ## The keys of a context -/

/-- The context has an attribute at the key, with the value the generator writes for it. -/
inductive IioContext.Captured (ctx : IioContext δ) : AttributeKey → String → Prop
  | device {dev : IioDevice δ} (isDevice : dev ∈ ctx.devices) {type : IioAttrType}
      {attr : IioAttr} (isAttr : attr ∈ dev.attrsOf type) :
      ctx.Captured (.device dev.id type attr.name) (valueOf attr)
  | channel {dev : IioDevice δ} (isDevice : dev ∈ ctx.devices) {chn : IioChannel δ}
      (isChannel : chn ∈ dev.channels) {attr : IioChannelAttr}
      (isAttr : attr ∈ chn.attrs) :
      ctx.Captured (.channel dev.id chn.id chn.isOutput attr.name) (valueOf attr.toIioAttr)

variable [LibXml2]

theorem contents_of_captured {ctx : IioContext δ} (distinct : ctx.Distinct)
    {key : AttributeKey} {text : String} (captured : ctx.Captured key text) :
    contents (some ⟨some (contextTree ctx ctx.devices)⟩) key =
    .ok (some (some text)) := by
  cases captured with
  | device isDevice isAttr =>
      rcases getDeviceAttr_of_mem distinct isDevice _ isAttr with
        ⟨nodeAttr, found, reached⟩
      simp [contents, AttributeKey.lookup, found, getProp_of_descend reached, attrNode,
        LabelledTree.label_node, property?_attrElement]
  | channel isDevice isChannel isAttr =>
      rcases getChannelAttr_of_mem distinct isDevice isChannel isAttr with
        ⟨nodeAttr, found, reached⟩
      simp [contents, AttributeKey.lookup, found,
        getProp_of_descend reached, channelAttrNode, LabelledTree.label_node,
        property?_channelAttrElement]

end Documents

/-! ## Sessions -/

section Sessions

open GenericEmulator

variable [Platform] [XmlEncode] {δ : Type} [PrintfDouble δ] {ctx : IioContext δ} [LibXml2]
  [LibXml2Text] {document : XmlDoc} {args : List String} {prior : Nat → Nat → Char}
  {memory initial final : GenericEmulator} {actions before after : List Action}
  {outputs : List (Action × Reply)} {text : List Char}

/-- A context that was captured is served as it was: whatever the clients of the emulator ask,
a read of an attribute is answered with what was written to it last, by any of them, or with
the value the generator found. -/
theorem captured_context_is_served (within : ctx.WithinLimits) (clean : ctx.WithoutMarkup)
    (distinct : ctx.Distinct) (created : iioContextCreateXml ctx = some text)
    (conforms : ConformsOn text)
    (loaded : LibXml2Text.readMemory (String.ofList text) = some document)
    (strings : ∀ arg ∈ args, NulFree arg)
    (terminates : Terminates prior (boundDevices (some document) args))
    (apart : ∀ devInfo ∈ boundDevices (some document) args, devInfo.2 ≠ tmpFilePath)
    (removed : memory.files tmpFilePath = none)
    (constructed : construct (some document) args prior memory = .ok initial)
    (spelled : ∀ action ∈ actions, action.Spelled)
    (ran : record step initial actions = .ok (outputs, final)) {key : AttributeKey}
    {value : String} (captured : ctx.Captured key value) {fd : Int}
    {around : Surroundings} {command : Command}
    (split : actions = before ++ .serve fd around command :: after) {buf : CharArray}
    {len : Nat} (reads : command.read? = some (key, buf, len)) :
    ∃ ret stored, outputs[before.length]? = some (.serve fd around command,
      .value ret stored) ∧
      copyValue (some (lastWritten (Action.writtenTo key) before value)) buf len =
        .ok (ret, stored) := by
  rcases clean.readsBack within with ⟨text', created', parsed⟩
  rw [created] at created'
  cases created'
  rw [conforms _ parsed] at loaded
  cases loaded
  have prepared : Prepared (some ⟨some (contextTree ctx ctx.devices)⟩) args
      prior memory.files :=
    ⟨strings, terminates, wellFormed_contextTree ctx ctx.devices, apart, removed⟩
  have refines := abstracts.record_eq spelled (stands_of_construct prepared constructed)
  rw [ran] at refines
  have served : initial.doc = some ⟨some (contextTree ctx ctx.devices)⟩ := by
    rw [construct_eq] at constructed
    cases constructed
    rfl
  have start (place : String → Option Nat) :
      GenericStore.HoldsText key value (initial.view place) := by
    have holds := contents_of_captured distinct captured
    rw [← served] at holds
    exact holds
  rcases found_lastWritten (fun _ holds stepped => GenericStore.holdsText_step holds stepped)
    (start _) refines split with ⟨store, reply, next, holds, stepped, output⟩
  rcases GenericStore.reply_of_read? holds reads stepped with ⟨ret, stored, rfl, copied⟩
  exact ⟨ret, stored, output, copied⟩

end Sessions

section Examples

open GenericEmulator
open scoped IioEmu.Reference GenXml.Reference

def supplySession : List Action :=
  [.serve 4 (calm 0) (.chReadAttr "iio:device0" "voltage0" true "raw" (uninitialised 8) 8),
    .serve 4 (calm 0) (.chWriteAttr "iio:device0" "voltage0" true "raw" (terminated "7") 1),
    .disconnect 4,
    .serve 5 (calm 0) (.chReadAttr "iio:device0" "voltage0" true "raw" (uninitialised 8) 8)]

theorem supplySession_spelled : ∀ action ∈ supplySession, action.Spelled := by
  simp only [supplySession, List.forall_mem_cons, Action.Spelled, List.not_mem_nil,
    false_implies, implies_true, and_true]
  refine ⟨?_, ?_, ?_, ?_⟩
  all_goals
    intro fd around command equal
    cases equal
  all_goals decide

theorem supplySession_returns :
    ∃ initial outputs final, construct (some ⟨some (contextTree supply supply.devices)⟩)
        ["supply.xml"] (fun _ _ => nul) emptyFiles = .ok initial ∧
      record step initial supplySession = .ok (outputs, final) := by
  have ran : (construct (some ⟨some (contextTree supply supply.devices)⟩) ["supply.xml"]
      (fun _ _ => nul) emptyFiles >>= fun initial =>
        record step initial supplySession).map (fun _ => ()) = .ok () := by
    decide +kernel
  rcases Outcome.map_eq_ok.mp ran with ⟨⟨outputs, final⟩, returned, _⟩
  rcases Outcome.bind_eq_ok.mp returned with ⟨initial, constructed, recorded⟩
  exact ⟨initial, outputs, final, constructed, recorded⟩

theorem supply_captured :
    supply.Captured (.channel "iio:device0" "voltage0" true "raw") "2048" :=
  @IioContext.Captured.channel _ supply supplyDevice (by simp [supply]) (supplyChannelOf true)
    (by simp [supplyDevice]) ⟨⟨"raw", some "2048"⟩, some "out_voltage0_raw"⟩
    (by simp [supplyChannelOf])

theorem captured_supply_is_served :
    ∃ text document initial outputs final, iioContextCreateXml supply = some text ∧
      LibXml2Text.readMemory (String.ofList text) = some document ∧
      construct (some document) ["supply.xml"] (fun _ _ => nul) emptyFiles = .ok initial ∧
      record step initial supplySession = .ok (outputs, final) ∧
      outputs[0]?.map Prod.snd = some (.value 5 (terminated "2048" ++ uninitialised 3)) ∧
      outputs[3]?.map Prod.snd = some (.value 2 (terminated "7" ++ uninitialised 6)) := by
  rcases withoutMarkup_supply.readsBack withinLimits_supply with ⟨text, created, parsed⟩
  have loaded := conformsOn_plain text _ parsed
  rcases supplySession_returns with ⟨initial, outputs, final, constructed, ran⟩
  have strings : ∀ arg ∈ ["supply.xml"], NulFree arg := by decide
  have apart : ∀ devInfo ∈ boundDevices (some ⟨some (contextTree supply supply.devices)⟩)
      ["supply.xml"], devInfo.2 ≠ tmpFilePath := by decide +kernel
  have served {before after : List Action} {fd : Int}
      {around : Surroundings} {command : Command}
      (split : supplySession = before ++ .serve fd around command :: after) {buf : CharArray}
      {len : Nat} (reads : command.read? =
        some (.channel "iio:device0" "voltage0" true "raw", buf, len)) :=
    captured_context_is_served withinLimits_supply withoutMarkup_supply
      distinct_supply created
      (conformsOn_plain text) loaded strings (fun _ _ _ => rfl) apart rfl constructed
      supplySession_spelled ran supply_captured split reads
  refine ⟨text, _, initial, outputs, final, created, loaded, constructed, ran, ?_, ?_⟩
  · rcases @served [] _ _ _ _ rfl _ _ rfl with ⟨ret, stored, output, copied⟩
    have equal : copyValue (some "2048") (uninitialised 8) 8 =
        .ok (5, terminated "2048" ++ uninitialised 3) := by decide +kernel
    have same : copyValue (some "2048") (uninitialised 8) 8 = .ok (ret, stored) := copied
    rw [equal] at same
    cases same
    rw [show outputs[0]? = _ from output]
    rfl
  · rcases @served (supplySession.take 3) [] _ _ _ rfl _ _ rfl with
    ⟨ret, stored, output, copied⟩
    have last : lastWritten
        (Action.writtenTo (.channel "iio:device0" "voltage0" true "raw"))
        (supplySession.take 3) "2048" = "7" := by decide +kernel
    have equal : copyValue (some "7") (uninitialised 8) 8 =
        .ok (2, terminated "7" ++ uninitialised 6) := by decide +kernel
    rw [last, equal] at copied
    cases copied
    rw [show outputs[3]? = _ from output]
    rfl

end Examples

end GenXml

end IioEmu
