import IioEmu.Adalm2000.Adalm2000Context
import IioEmu.Context.Commands
import IioEmu.Devices.M2kADC.M2kADC
import IioEmu.Devices.M2kLogicRX.M2kLogicRX
import IioEmu.Foundation.Noninterference
import IioEmu.Utils.AttributeStore
import IioEmu.Utils.ContextXml

/-! # The operations of the context

The devices of the bundled context stand in one table. A command names a device, and the
context looks it up and calls the operation if the class of the device has it. The loop of
the server sets the socket of a client before it serves one of its commands. -/

namespace IioEmu

inductive DeviceSlot
  | adc
  | dacA
  | dacB
  | logicRX
  | logicTX
  deriving DecidableEq, Repr

def DeviceSlot.added : List DeviceSlot := [.adc, .dacA, .dacB, .logicRX, .logicTX]

/-- The context with its devices. The first two channels of `adc` are connected to `dacA` and
`dacB`, the one of `logicRX` to `logicTX`. -/
structure Emulator (δ : Type) where
  context : Adalm2000Context δ
  ctxXml : Option String
  xmlSize : Int
  adc : M2kADC δ
  dacA : M2kDAC δ
  dacB : M2kDAC δ
  logicRX : M2kLogicRX δ
  logicTX : M2kLogicTX δ
  descriptor : DeviceSlot → Int
  currentSocket : Int

namespace Emulator

variable {δ : Type}

def deviceId (emulator : Emulator δ) : DeviceSlot → String
  | .adc => emulator.adc.deviceId
  | .dacA => emulator.dacA.deviceId
  | .dacB => emulator.dacB.deviceId
  | .logicRX => emulator.logicRX.deviceId
  | .logicTX => emulator.logicTX.deviceId

def getDevice (emulator : Emulator δ) (deviceId : String) : Option DeviceSlot :=
  DeviceSlot.added.find? fun slot => emulator.deviceId slot == deviceId

def getDeviceByDescriptor (emulator : Emulator δ) (fd : Int) : Option DeviceSlot :=
  DeviceSlot.added.find? fun slot => emulator.descriptor slot == fd

def setDescriptor (emulator : Emulator δ) (slot : DeviceSlot) (fd : Int) : Emulator δ :=
  { emulator with descriptor := Function.update emulator.descriptor slot fd }

def setCurrentSocket (emulator : Emulator δ) (fd : Int) : Emulator δ :=
  { emulator with currentSocket := fd }

variable [Double δ] [LibXml2] [TinyIIOD]

/-- The constructor. What the constructors of the devices leave unset is what the memory
held before. -/
def construct [LibXml2Text] (memory : Emulator δ) : Outcome (Emulator δ) := do
  let described := XmlContext.construct (some Adalm2000Document.adalm2000Xml)
  let context ← Adalm2000Context.construct
  return {
    context := context
    ctxXml := described.ctxXml
    xmlSize := described.xmlSize
    adc := M2kADC.construct "iio:device0" memory.adc.samplerate memory.adc.oversamplingRatio
    dacA := M2kDAC.construct "iio:device6" memory.dacA.cyclic memory.dacA.enable
      memory.dacA.samplerate memory.dacA.oversamplingRatio
    dacB := M2kDAC.construct "iio:device7" memory.dacB.cyclic memory.dacB.enable
      memory.dacB.samplerate memory.dacB.oversamplingRatio
    logicRX := ⟨"iio:device10", memory.logicRX.samplerate⟩
    logicTX := M2kLogicTX.construct "iio:device9" memory.logicTX.samplerate
    descriptor := memory.descriptor
    currentSocket := memory.currentSocket }

/-! ## Calls of the devices -/

def openSlot (emulator : Emulator δ) (sampleSize mask : Nat) (cyclic : Bool) :
    DeviceSlot → Outcome (Int × Emulator δ)
  | .adc => .ok (0, emulator)
  | .dacA => do
      let (ret, dac) ← emulator.dacA.openDev emulator.context.doc sampleSize mask cyclic
      return (ret, { emulator with dacA := dac })
  | .dacB => do
      let (ret, dac) ← emulator.dacB.openDev emulator.context.doc sampleSize mask cyclic
      return (ret, { emulator with dacB := dac })
  | .logicRX => .ok (0, emulator)
  | .logicTX => do
      let (ret, tx) ← emulator.logicTX.openDev sampleSize mask cyclic
      return (ret, { emulator with logicTX := tx })

def closeSlot (emulator : Emulator δ) : DeviceSlot → Outcome (Int × Emulator δ)
  | .adc => .ok (0, emulator)
  | .dacA => do
      let (ret, dac) ← emulator.dacA.closeDev
      return (ret, { emulator with dacA := dac })
  | .dacB => do
      let (ret, dac) ← emulator.dacB.closeDev
      return (ret, { emulator with dacB := dac })
  | .logicRX => .ok (0, emulator)
  | .logicTX => do
      let (ret, tx) ← emulator.logicTX.closeDev
      return (ret, { emulator with logicTX := tx })

def cancelSlot (emulator : Emulator δ) : DeviceSlot → Outcome (Emulator δ)
  | .adc => .ok emulator
  | .dacA => do
      let (_, dac) ← emulator.dacA.cancelBuffer
      return { emulator with dacA := dac }
  | .dacB => do
      let (_, dac) ← emulator.dacB.cancelBuffer
      return { emulator with dacB := dac }
  | .logicRX => .ok emulator
  | .logicTX => do
      let (_, tx) ← emulator.logicTX.cancelBuffer
      return { emulator with logicTX := tx }

/-- `get_mask` of the device in a slot. The logic devices leave the mask as it was. -/
def maskOfSlot (emulator : Emulator δ) (mask : Nat) : DeviceSlot → Nat
  | .adc => 3
  | .dacA => if emulator.dacA.enable then 1 else 0
  | .dacB => if emulator.dacB.enable then 1 else 0
  | .logicRX => mask
  | .logicTX => mask

def readSlot (emulator : Emulator δ) (offset bytesCount : Nat) :
    DeviceSlot → Option (Outcome (Int × List Byte × Emulator δ))
  | .adc => some do
      let (ret, bytes, adc, dacA, dacB) ← emulator.adc.readDev emulator.context.doc
        (some emulator.dacA) (some emulator.dacB) offset bytesCount
      return (ret, bytes, { emulator with adc := adc, dacA := dacA, dacB := dacB })
  | .logicRX => some do
      let (ret, bytes, rx, tx) ← emulator.logicRX.readDev emulator.context.doc
        (some emulator.logicTX) offset bytesCount
      return (ret, bytes, { emulator with logicRX := rx, logicTX := tx })
  | .dacA | .dacB | .logicTX => none

def writeSlot (emulator : Emulator δ) (buf : List Byte) (offset bytesCount : Nat) :
    DeviceSlot → Option (Outcome (Int × Emulator δ))
  | .dacA => some do
      let (ret, dac) ← emulator.dacA.writeDev buf offset bytesCount
      return (ret, { emulator with dacA := dac })
  | .dacB => some do
      let (ret, dac) ← emulator.dacB.writeDev buf offset bytesCount
      return (ret, { emulator with dacB := dac })
  | .logicTX => some do
      let (ret, tx) ← emulator.logicTX.writeDev buf offset bytesCount
      return (ret, { emulator with logicTX := tx })
  | .adc | .logicRX => none

def transferSlot (emulator : Emulator δ) (bytesCount : Nat) :
    DeviceSlot → Option (Outcome (Int × Emulator δ))
  | .dacA => some do
      let (ret, dac) ← emulator.dacA.transferMemToDev emulator.context.doc bytesCount
      return (ret, { emulator with dacA := dac })
  | .dacB => some do
      let (ret, dac) ← emulator.dacB.transferMemToDev emulator.context.doc bytesCount
      return (ret, { emulator with dacB := dac })
  | .logicTX => some do
      let (ret, tx) ← emulator.logicTX.transferMemToDev emulator.context.doc bytesCount
      return (ret, { emulator with logicTX := tx })
  | .adc | .logicRX => none

def transferredOfSlot : DeviceSlot → Option Int
  | .adc | .logicRX => some 0
  | .dacA | .dacB | .logicTX => none

/-! ## The operations -/

def readAttr (emulator : Emulator δ) (deviceId attr : String)
    (buf : CharArray) (len : Nat) (type : IioAttrType) : Outcome (Int × CharArray) :=
  readDeviceAttr emulator.context.doc deviceId attr buf len type

def writeAttr (emulator : Emulator δ) (deviceId attr : String)
    (buf : CharArray) (len : Nat) (type : IioAttrType) : Outcome (Int × Emulator δ) := do
  let (ret, doc) ← writeDevAttr emulator.context.doc deviceId attr buf len type
  return (ret, { emulator with context := { emulator.context with doc := doc } })

def chReadAttr (emulator : Emulator δ) (deviceId channel : String) (chOut : Bool)
    (attr : String) (buf : CharArray) (len : Nat) : Outcome (Int × CharArray) :=
  readChannelAttr emulator.context.doc deviceId channel chOut attr buf len

def chWriteAttr (emulator : Emulator δ) (deviceId channel : String) (chOut : Bool)
    (attr : String) (buf : CharArray) (len : Nat) : Outcome (Int × Emulator δ) := do
  let (ret, context) ← emulator.context.chWriteAttr deviceId channel chOut attr buf len
  return (ret, { emulator with context := context })

def openDev (emulator : Emulator δ) (device : String)
    (sampleSize mask : Nat) (cyclic : Bool) :
    Outcome (Int × Emulator δ) :=
  match emulator.getDevice device with
  | some slot =>
      (emulator.setDescriptor slot emulator.currentSocket).openSlot
        sampleSize mask cyclic slot
  | none => .ok (-ENOENT, emulator)

def closeDev (emulator : Emulator δ) (device : String) : Outcome (Int × Emulator δ) :=
  match emulator.getDevice device with
  | some slot => emulator.closeSlot slot
  | none => .ok (-ENOENT, emulator)

def transferDevToMem (emulator : Emulator δ) (device : String)
    (_bytesCount : Nat) : Int :=
  ((emulator.getDevice device).bind transferredOfSlot).getD (-ENOENT)

def readDev (emulator : Emulator δ) (device : String) (offset bytesCount : Nat) :
    Outcome (Int × List Byte × Emulator δ) :=
  ((emulator.getDevice device).bind (emulator.readSlot offset bytesCount)).getD
    (.ok (-ENOENT, [], emulator))

def transferMemToDev (emulator : Emulator δ) (device : String) (bytesCount : Nat) :
    Outcome (Int × Emulator δ) :=
  ((emulator.getDevice device).bind (emulator.transferSlot bytesCount)).getD
    (.ok (-ENOENT, emulator))

def writeDev (emulator : Emulator δ) (device : String) (buf : List Byte)
    (offset bytesCount : Nat) : Outcome (Int × Emulator δ) :=
  ((emulator.getDevice device).bind (emulator.writeSlot buf offset bytesCount)).getD
    (.ok (-ENOENT, emulator))

def getMask (emulator : Emulator δ) (device : String) (mask : Nat) : Int × Nat :=
  match emulator.getDevice device with
  | some slot => (0, emulator.maskOfSlot mask slot)
  | none => (-ENOENT, mask)

def getTrigger (_emulator : Emulator δ) (_device : String) (_len : Nat) : Int := -ENOENT

def setTrigger (_emulator : Emulator δ) (_device _trigger : String)
    (_len : Nat) : Int := -ENOENT

def setBuffersCount (emulator : Emulator δ) (device : String)
    (_buffersCount : Nat) : Int :=
  match emulator.getDevice device with
  | some _ => 0
  | none => -ENOENT

def getXml (emulator : Emulator δ) (outxml : Bool) : Int × Option String :=
  XmlContext.getXml ⟨emulator.context.doc, emulator.ctxXml, emulator.xmlSize⟩ outxml

/-- The first device that carries the descriptor is cancelled. -/
def socketDisconnected (emulator : Emulator δ) (fd : Int) : Outcome (Emulator δ) :=
  match emulator.getDeviceByDescriptor fd with
  | some slot => emulator.cancelSlot slot
  | none => .ok emulator

/-! ## Commands -/

def perform (emulator : Emulator δ) : Command → Outcome (Reply × Emulator δ)
  | .readAttr deviceId attr buf len type => do
      let (ret, stored) ← emulator.readAttr deviceId attr buf len type
      return (.value ret stored, emulator)
  | .writeAttr deviceId attr buf len type => do
      let (ret, next) ← emulator.writeAttr deviceId attr buf len type
      return (.returned ret, next)
  | .chReadAttr deviceId channel chOut attr buf len => do
      let (ret, stored) ← emulator.chReadAttr deviceId channel chOut attr buf len
      return (.value ret stored, emulator)
  | .chWriteAttr deviceId channel chOut attr buf len => do
      let (ret, next) ← emulator.chWriteAttr deviceId channel chOut attr buf len
      return (.returned ret, next)
  | .openDev device sampleSize mask cyclic => do
      let (ret, next) ← emulator.openDev device sampleSize mask cyclic
      return (.returned ret, next)
  | .closeDev device => do
      let (ret, next) ← emulator.closeDev device
      return (.returned ret, next)
  | .transferDevToMem device bytesCount =>
      .ok (.returned (emulator.transferDevToMem device bytesCount), emulator)
  | .readDev device offset bytesCount => do
      let (ret, bytes, next) ← emulator.readDev device offset bytesCount
      return (.samples ret bytes, next)
  | .transferMemToDev device bytesCount => do
      let (ret, next) ← emulator.transferMemToDev device bytesCount
      return (.returned ret, next)
  | .writeDev device buf offset bytesCount => do
      let (ret, next) ← emulator.writeDev device buf offset bytesCount
      return (.returned ret, next)
  | .getMask device mask =>
      let (ret, mask) := emulator.getMask device mask
      .ok (.mask ret mask, emulator)
  | .getTrigger device len => .ok (.returned (emulator.getTrigger device len), emulator)
  | .setTrigger device trigger len =>
      .ok (.returned (emulator.setTrigger device trigger len), emulator)
  | .setBuffersCount device buffersCount =>
      .ok (.returned (emulator.setBuffersCount device buffersCount), emulator)
  | .getXml outxml =>
      let (ret, xml) := emulator.getXml outxml
      .ok (.description ret xml, emulator)

/-- What the loop of the server asks of the context: to serve a command of the client on a
descriptor, or to note that the client is gone. -/
inductive Action
  | serve (fd : Int) (command : Command)
  | disconnect (fd : Int)

def Action.fd : Action → Int
  | .serve fd _ => fd
  | .disconnect fd => fd

def step (emulator : Emulator δ) : Action → Outcome (Reply × Emulator δ)
  | .serve fd command => (emulator.setCurrentSocket fd).perform command
  | .disconnect fd => do
      let next ← (emulator.setCurrentSocket fd).socketDisconnected fd
      return (.returned 0, next)

end Emulator

end IioEmu
