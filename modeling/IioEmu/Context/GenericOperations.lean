import IioEmu.Context.Commands
import IioEmu.Context.GenericDevices
import IioEmu.Utils.ContextXml

/-! # The operations of a generic context

The devices stand in one table, and every one of them streams through the file it was linked
to. A call brings along the buffer of its caller and what the system answers to the opens. -/

namespace IioEmu

/-- What a call finds around it: the buffer a read stores into, and which of the opens of a
read and of a write succeed. -/
structure Surroundings where
  pbuf : List Byte
  reading : ReadOpens
  writing : Bool

namespace GenericDevice

def filePath : GenericDevice → String
  | .tx _ device => device.filePath
  | .rx _ device => device.filePath

def deviceIn : GenericDevice → Option GenericRXDevice
  | .tx _ _ => none
  | .rx _ device => some device

def deviceOut : GenericDevice → Option GenericTXDevice
  | .tx _ device => some device
  | .rx _ _ => none

/-- Both classes of devices return zero from the calls that do nothing. -/
def accepted : Int := 0

end GenericDevice

/-- The context with its devices. What the devices keep beside their files, the mask and the
descriptor, is given by position. -/
structure GenericEmulator where
  doc : Option XmlDoc
  ctxXml : Option String
  xmlSize : Int
  devices : List GenericDevice
  mask : Nat → Nat
  descriptor : Nat → Int
  currentSocket : Int
  files : Files

namespace GenericEmulator

/-- The constructor, with the document that was read from the path in the arguments. The
masks and descriptors are what the memory held before. -/
def construct [LibXml2Text] (doc : Option XmlDoc) (args : List String)
    (prior : Nat → Nat → Char) (memory : GenericEmulator) : Outcome GenericEmulator := do
  let described := XmlContext.construct doc
  let devices ← addDevices doc prior (InputParser.getDevices args)
  return { memory with
    doc := doc
    ctxXml := described.ctxXml
    xmlSize := described.xmlSize
    devices := devices }

def getDevice (emulator : GenericEmulator) (deviceId : String) : Outcome (Option Nat) :=
  getDeviceFrom deviceId emulator.devices 0

def getDeviceByDescriptor (emulator : GenericEmulator) (fd : Int) : Option Nat :=
  (List.range emulator.devices.length).find? fun position =>
    emulator.descriptor position == fd

def setCurrentSocket (emulator : GenericEmulator) (fd : Int) : GenericEmulator :=
  { emulator with currentSocket := fd }

def receiver (emulator : GenericEmulator) (position : Nat) : Option GenericRXDevice :=
  emulator.devices[position]?.bind GenericDevice.deviceIn

def transmitter (emulator : GenericEmulator) (position : Nat) : Option GenericTXDevice :=
  emulator.devices[position]?.bind GenericDevice.deviceOut

/-! ## The operations -/

section Operations

variable [LibXml2]

def readAttr (emulator : GenericEmulator) (deviceId attr : String) (buf : CharArray)
    (len : Nat) (type : IioAttrType) : Outcome (Int × CharArray) :=
  readDeviceAttr emulator.doc deviceId attr buf len type

def writeAttr (emulator : GenericEmulator) (deviceId attr : String) (buf : CharArray)
    (len : Nat) (type : IioAttrType) : Outcome (Int × GenericEmulator) := do
  let (ret, doc) ← writeDevAttr emulator.doc deviceId attr buf len type
  return (ret, { emulator with doc := doc })

def chReadAttr (emulator : GenericEmulator) (deviceId channel : String) (chOut : Bool)
    (attr : String) (buf : CharArray) (len : Nat) : Outcome (Int × CharArray) :=
  readChannelAttr emulator.doc deviceId channel chOut attr buf len

def chWriteAttr (emulator : GenericEmulator) (deviceId channel : String) (chOut : Bool)
    (attr : String) (buf : CharArray) (len : Nat) : Outcome (Int × GenericEmulator) := do
  let (ret, doc) ← writeChannelAttr emulator.doc deviceId channel chOut attr buf len
  return (ret, { emulator with doc := doc })

end Operations

def openAt (emulator : GenericEmulator) (mask : Nat) (position : Nat) : GenericEmulator :=
  { emulator with
    mask := Function.update emulator.mask position mask
    descriptor := Function.update emulator.descriptor position emulator.currentSocket }

def openDev (emulator : GenericEmulator) (device : String) (_sampleSize mask : Nat)
    (_cyclic : Bool) : Outcome (Int × GenericEmulator) := do
  match ← emulator.getDevice device with
  | some position => return (GenericDevice.accepted, emulator.openAt mask position)
  | none => return (-ENOENT, emulator)

def closeDev (emulator : GenericEmulator) (device : String) : Outcome Int := do
  match ← emulator.getDevice device with
  | some _ => return GenericDevice.accepted
  | none => return -ENOENT

def transferDevToMem (emulator : GenericEmulator) (device : String) (_bytesCount : Nat) :
    Outcome Int := do
  match (← emulator.getDevice device).bind emulator.receiver with
  | some _ => return GenericDevice.accepted
  | none => return -ENOENT

def readDev (emulator : GenericEmulator) (around : Surroundings) (device : String)
    (offset bytesCount : Nat) : Outcome (Int × List Byte × GenericEmulator) := do
  match (← emulator.getDevice device).bind emulator.receiver with
  | some deviceIn => do
      let (ret, pbuf, files) ← deviceIn.readDev emulator.files around.reading around.pbuf
        offset bytesCount
      return (ret, pbuf, { emulator with files := files })
  | none => return (-ENOENT, around.pbuf, emulator)

def transferMemToDev (emulator : GenericEmulator) (device : String) (_bytesCount : Nat) :
    Outcome Int := do
  match (← emulator.getDevice device).bind emulator.transmitter with
  | some _ => return GenericDevice.accepted
  | none => return -ENOENT

def writeDev (emulator : GenericEmulator) (around : Surroundings) (device : String)
    (buf : List Byte) (offset bytesCount : Nat) : Outcome (Int × GenericEmulator) := do
  match (← emulator.getDevice device).bind emulator.transmitter with
  | some deviceOut => do
      let (ret, files) ← deviceOut.writeDev emulator.files around.writing
        buf offset bytesCount
      return (ret, { emulator with files := files })
  | none => return (-ENOENT, emulator)

def getMask (emulator : GenericEmulator) (device : String) (mask : Nat) :
    Outcome (Int × Nat) := do
  match ← emulator.getDevice device with
  | some position => return (GenericDevice.accepted, emulator.mask position)
  | none => return (-ENOENT, mask)

def getTrigger (_emulator : GenericEmulator) (_device : String)
    (_len : Nat) : Int := -ENOENT

def setTrigger (_emulator : GenericEmulator) (_device _trigger : String)
    (_len : Nat) : Int :=
  -ENOENT

def setBuffersCount (emulator : GenericEmulator) (device : String) (_buffersCount : Nat) :
    Outcome Int := do
  match ← emulator.getDevice device with
  | some _ => return GenericDevice.accepted
  | none => return -ENOENT

def getXml (emulator : GenericEmulator) (outxml : Bool) : Int × Option String :=
  XmlContext.getXml ⟨emulator.doc, emulator.ctxXml, emulator.xmlSize⟩ outxml

def cancelAt (emulator : GenericEmulator) (_position : Nat) : GenericEmulator := emulator

def socketDisconnected (emulator : GenericEmulator) (fd : Int) : GenericEmulator :=
  match emulator.getDeviceByDescriptor fd with
  | some position => emulator.cancelAt position
  | none => emulator

/-! ## Commands -/

section Commands

variable [LibXml2]

def perform (emulator : GenericEmulator) (around : Surroundings) :
    Command → Outcome (Reply × GenericEmulator)
  | .readAttr deviceId attr buf len type => do
      let (ret, stored) ← emulator.readAttr deviceId attr buf len type
      return (.value ret stored, emulator)
  | .writeAttr deviceId attr buf len type => do
      let (ret, next) ← emulator.writeAttr deviceId attr buf len type
      return (.returned ret, next)
  | .chReadAttr deviceId channel chOut attr buf len => do
      let (ret, stored) ← emulator.chReadAttr deviceId channel chOut attr buf len
      return (.value ret stored, emulator)
  | .chWriteAttr deviceId channel chOut attr buf len => do
      let (ret, next) ← emulator.chWriteAttr deviceId channel chOut attr buf len
      return (.returned ret, next)
  | .openDev device sampleSize mask cyclic => do
      let (ret, next) ← emulator.openDev device sampleSize mask cyclic
      return (.returned ret, next)
  | .closeDev device => do
      let ret ← emulator.closeDev device
      return (.returned ret, emulator)
  | .transferDevToMem device bytesCount => do
      let ret ← emulator.transferDevToMem device bytesCount
      return (.returned ret, emulator)
  | .readDev device offset bytesCount => do
      let (ret, pbuf, next) ← emulator.readDev around device offset bytesCount
      return (.samples ret pbuf, next)
  | .transferMemToDev device bytesCount => do
      let ret ← emulator.transferMemToDev device bytesCount
      return (.returned ret, emulator)
  | .writeDev device buf offset bytesCount => do
      let (ret, next) ← emulator.writeDev around device buf offset bytesCount
      return (.returned ret, next)
  | .getMask device mask => do
      let (ret, mask) ← emulator.getMask device mask
      return (.mask ret mask, emulator)
  | .getTrigger device len => .ok (.returned (emulator.getTrigger device len), emulator)
  | .setTrigger device trigger len =>
      .ok (.returned (emulator.setTrigger device trigger len), emulator)
  | .setBuffersCount device buffersCount => do
      let ret ← emulator.setBuffersCount device buffersCount
      return (.returned ret, emulator)
  | .getXml outxml =>
      let (ret, xml) := emulator.getXml outxml
      .ok (.description ret xml, emulator)

inductive Action
  | serve (fd : Int) (around : Surroundings) (command : Command)
  | disconnect (fd : Int)

def Action.fd : Action → Int
  | .serve fd _ _ => fd
  | .disconnect fd => fd

def step (emulator : GenericEmulator) : Action → Outcome (Reply × GenericEmulator)
  | .serve fd around command => (emulator.setCurrentSocket fd).perform around command
  | .disconnect fd => .ok (.returned 0,
      (emulator.setCurrentSocket fd).socketDisconnected fd)

end Commands

end GenericEmulator

end IioEmu
