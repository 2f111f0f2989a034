import IioEmu.Adalm2000.Operations
import IioEmu.Utils.AgreeingDocuments

/-! # The signal paths of the context

The devices and attributes of the context fall into paths: the converters, the logic
devices, the supplies, and every other device by itself. What is stated here is what one
path sees of a state and what a command on a path can change. -/

namespace IioEmu

inductive SignalPath
  | analog
  | digital
  | supply
  | attributes (deviceId : String)
  deriving DecidableEq

/-- A name that begins like the one of the supplies is handled as theirs. -/
def SignalPath.ofDevice (deviceId : String) : SignalPath :=
  if deviceId ∈ ["iio:device0", "iio:device2", "iio:device6",
    "iio:device7", "iio:device11"]
  then .analog
  else if deviceId ∈ ["iio:device9", "iio:device10"] then .digital
  else if startsWith deviceId "iio:device3" ∨ deviceId = "iio:device13" then .supply
  else .attributes deviceId

def AttributeKey.path (key : AttributeKey) : SignalPath :=
  SignalPath.ofDevice key.deviceId

namespace DeviceSlot

def name : DeviceSlot → String
  | .adc => "iio:device0"
  | .dacA => "iio:device6"
  | .dacB => "iio:device7"
  | .logicRX => "iio:device10"
  | .logicTX => "iio:device9"

def path : DeviceSlot → SignalPath
  | .adc | .dacA | .dacB => .analog
  | .logicRX | .logicTX => .digital

theorem ofDevice_name (slot : DeviceSlot) :
    SignalPath.ofDevice slot.name = slot.path := by
  cases slot <;> decide

end DeviceSlot

/-! ## Loads from documents that agree -/

section Loads

variable {δ : Type} [Double δ] [LibXml2] [TinyIIOD] {inside : AttributeKey → Prop}
  {doc other : Option XmlDoc}

omit [TinyIIOD] in
theorem AgreeOn.readDeviceAttr (agree : AgreeOn inside doc other) (deviceId attr : String)
    (type : IioAttrType) (member : inside (.device deviceId type attr)) (buf : CharArray)
    (len : Nat) :
    IioEmu.readDeviceAttr other deviceId attr buf len type =
      IioEmu.readDeviceAttr doc deviceId attr buf len type :=
  agree.read (.device deviceId type attr) member buf len

omit [TinyIIOD] in
theorem AgreeOn.readChannelAttr (agree : AgreeOn inside doc other)
    (deviceId channel : String) (chOut : Bool) (attr : String)
    (member : inside (.channel deviceId channel chOut attr))
    (buf : CharArray) (len : Nat) :
    IioEmu.readChannelAttr other deviceId channel chOut attr buf len =
      IioEmu.readChannelAttr doc deviceId channel chOut attr buf len :=
  agree.read (.channel deviceId channel chOut attr) member buf len

theorem AgreeOn.loadCalibValues (agree : AgreeOn inside doc other) (dac : M2kDAC δ)
    (member : ∀ attr, inside (.device dac.deviceId .device attr)) :
    dac.loadCalibValues other = dac.loadCalibValues doc := by
  simp only [M2kDAC.loadCalibValues, agree.readDeviceAttr _ _ _ (member _)]

theorem AgreeOn.loadValues (agree : AgreeOn inside doc other) (tx : M2kLogicTX δ)
    (member : ∀ attr, inside (.device tx.deviceId .device attr)) :
    tx.loadValues other = tx.loadValues doc := by
  simp only [M2kLogicTX.loadValues, agree.readDeviceAttr _ _ _ (member _)]

theorem AgreeOn.loadValues_rx (agree : AgreeOn inside doc other) (rx : M2kLogicRX δ)
    (member : ∀ attr, inside (.device rx.deviceId .device attr)) :
    rx.loadValues other = rx.loadValues doc := by
  simp only [M2kLogicRX.loadValues, agree.readDeviceAttr _ _ _ (member _)]

theorem AgreeOn.loadCalibValues_adc
    (agree : AgreeOn (fun key => key.path = .analog) doc other) (adc : M2kADC δ) :
    adc.loadCalibValues other = adc.loadCalibValues doc := by
  have gains (channel attr : String) :=
    agree.readChannelAttr "iio:device11" channel false attr
      (show SignalPath.ofDevice "iio:device11" = .analog by decide)
  have offsets (channel attr : String) :=
    agree.readChannelAttr "iio:device2" channel true attr
      (show SignalPath.ofDevice "iio:device2" = .analog by decide)
  have biases (channel attr : String) :=
    agree.readChannelAttr "iio:device0" channel false attr
      (show SignalPath.ofDevice "iio:device0" = .analog by decide)
  have rates (attr : String) :=
    agree.readDeviceAttr "iio:device0" attr .device
      (show SignalPath.ofDevice "iio:device0" = .analog by decide)
  simp only [M2kADC.loadCalibValues, M2kADC.loadRange,
    M2kADC.loadOffset, M2kADC.loadRates, gains, offsets, biases, rates]

end Loads

/-! ## Clients -/

structure Clients where
  connected : Int → Prop
  path : Int → SignalPath

def Command.KeepsTo (path : SignalPath) (command : Command) : Prop :=
  ∀ device ∈ command.device?, SignalPath.ofDevice device = path

instance (path : SignalPath) (command : Command) : Decidable (command.KeepsTo path) := by
  unfold Command.KeepsTo
  infer_instance

namespace Emulator

variable {δ : Type}

def Action.Keeps (clients : Clients) (action : Action) : Prop :=
  clients.connected action.fd ∧
    ∀ fd command, action = .serve fd command → command.KeepsTo (clients.path fd)

theorem Action.keeps_serve {clients : Clients} {fd : Int} {command : Command} :
    Action.Keeps clients (.serve fd command) ↔
      clients.connected fd ∧ command.KeepsTo (clients.path fd) := by
  constructor
  · rintro ⟨connected, keeps⟩
    exact ⟨connected, keeps fd command rfl⟩
  · rintro ⟨connected, keeps⟩
    refine ⟨connected, ?_⟩
    intro _ _ equal
    cases equal
    exact keeps

theorem Action.keeps_disconnect {clients : Clients} {fd : Int} :
    Action.Keeps clients (.disconnect fd) ↔ clients.connected fd := by
  constructor
  · exact fun keeps => keeps.1
  · intro connected
    refine ⟨connected, ?_⟩
    intro _ _ equal
    cases equal

def Action.path (clients : Clients) (action : Action) : SignalPath :=
  clients.path action.fd

def supplies (emulator : Emulator δ) : Adalm2000Context δ :=
  { emulator.context with doc := none }

variable [LibXml2]

/-- The devices have the names of the table, and one that carries the descriptor of a client
is on the path of the client. -/
structure WellFormed (clients : Clients) (emulator : Emulator δ) : Prop where
  separates : Separates emulator.context.doc
  named : ∀ slot, emulator.deviceId slot = slot.name
  tagged : ∀ slot, clients.connected (emulator.descriptor slot) →
    clients.path (emulator.descriptor slot) = slot.path

/-- A path cannot tell the two states apart. -/
structure Agrees (path : SignalPath) (emulator other : Emulator δ) : Prop where
  doc : AgreeOn (fun key => key.path = path) emulator.context.doc other.context.doc
  described : other.ctxXml = emulator.ctxXml ∧ other.xmlSize = emulator.xmlSize
  descriptor : ∀ slot, slot.path = path → other.descriptor slot = emulator.descriptor slot
  supplies : path = .supply → other.supplies = emulator.supplies
  analog : path = .analog →
    other.adc = emulator.adc ∧ other.dacA = emulator.dacA ∧ other.dacB = emulator.dacB
  digital : path = .digital →
    other.logicRX = emulator.logicRX ∧ other.logicTX = emulator.logicTX

theorem agrees_equivalence (path : SignalPath) :
    Equivalence (Agrees (δ := δ) path) := by
  constructor
  · intro emulator
    exact ⟨AgreeOn.refl _ _, ⟨rfl, rfl⟩, fun _ _ => rfl, fun _ => rfl,
      fun _ => ⟨rfl, rfl, rfl⟩, fun _ => ⟨rfl, rfl⟩⟩
  · intro emulator other agrees
    refine ⟨agrees.doc.symm, ⟨agrees.described.1.symm, agrees.described.2.symm⟩,
      fun slot on => (agrees.descriptor slot on).symm, fun on =>
        (agrees.supplies on).symm, ?_, ?_⟩
    · intro on
      rcases agrees.analog on with ⟨adc, dacA, dacB⟩
      exact ⟨adc.symm, dacA.symm, dacB.symm⟩
    · intro on
      rcases agrees.digital on with ⟨rx, tx⟩
      exact ⟨rx.symm, tx.symm⟩
  · intro emulator middle other first second
    refine ⟨first.doc.trans second.doc, ⟨second.described.1.trans first.described.1,
      second.described.2.trans first.described.2⟩,
      fun slot on => (second.descriptor slot on).trans (first.descriptor slot on),
      fun on => (second.supplies on).trans (first.supplies on), ?_, ?_⟩
    · intro on
      rcases first.analog on with ⟨adc, dacA, dacB⟩
      rcases second.analog on with ⟨adc', dacA', dacB'⟩
      exact ⟨adc'.trans adc, dacA'.trans dacA, dacB'.trans dacB⟩
    · intro on
      rcases first.digital on with ⟨rx, tx⟩
      rcases second.digital on with ⟨rx', tx'⟩
      exact ⟨rx'.trans rx, tx'.trans tx⟩

/-! ## The constructor -/

section Constructor

variable [Double δ] [TinyIIOD] [LibXml2Text] {memory emulator : Emulator δ}

theorem construct_returns (memory : Emulator δ) :
    ∃ initial, construct memory = .ok initial := by
  rcases Adalm2000Context.construct_returns (δ := δ) with ⟨context, made, _⟩
  rw [construct, made]
  exact ⟨_, rfl⟩

theorem doc_of_construct (constructed : construct memory = .ok emulator) :
    emulator.context.doc = some Adalm2000Document.adalm2000Xml := by
  rcases Adalm2000Context.construct_returns (δ := δ) with ⟨context, made, document, _⟩
  rw [construct, made] at constructed
  cases constructed
  exact document

omit [LibXml2] [TinyIIOD] [LibXml2Text] in
theorem separates_adalm2000Xml : Separates (some Adalm2000Document.adalm2000Xml) :=
  separates_of_wellFormed (by decide +kernel)

/-- A descriptor a constructor left unset is the one of a client only by chance. -/
theorem wellFormed_of_construct (constructed : construct memory = .ok emulator)
    {clients : Clients} (unset : ∀ slot, clients.connected (memory.descriptor slot) →
      clients.path (memory.descriptor slot) = slot.path) : WellFormed clients emulator := by
  refine ⟨?_, ?_, ?_⟩
  · rw [doc_of_construct constructed]
    exact separates_adalm2000Xml
  · rw [construct, Outcome.bind_eq_ok] at constructed
    rcases constructed with ⟨context, _, equal⟩
    cases equal
    intro slot
    cases slot <;> rfl
  · rw [construct, Outcome.bind_eq_ok] at constructed
    rcases constructed with ⟨context, _, equal⟩
    cases equal
    exact unset

end Constructor

end Emulator

end IioEmu
