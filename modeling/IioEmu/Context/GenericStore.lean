import IioEmu.Context.GenericOperations
import IioEmu.Devices.Generic.LinkedFiles

/-! # What a generic context is for

A client of a generic context uses it as a store: a text for each attribute, a mask for each
device, and the bytes of each linked file. The document, the table of devices and the
descriptors are not part of it. -/

namespace IioEmu

structure Linked where
  output : Bool
  filePath : String
  deriving DecidableEq

/-- The contents are those a search of the document finds, or the way it fails. -/
structure GenericStore where
  value : AttributeKey → Outcome (Option (Option String))
  description : Int × Option String
  mask : String → Nat
  file : Files

namespace GenericStore

variable (linked : String → Option Linked)

def fileOf (output : Bool) (device : String) : Option String :=
  (linked device).bind fun entry =>
    if entry.output = output then some entry.filePath else none

def known {α : Type} (found : Option α) : Int :=
  match found with
  | some _ => 0
  | none => -ENOENT

def readAttr (store : GenericStore) (key : AttributeKey) (buf : CharArray) (len : Nat) :
    Outcome (Int × CharArray) :=
  store.value key >>= fun cell =>
    match cell with
    | none => .ok (-ENOENT, buf)
    | some value => copyValue value buf len

def writeAttr (store : GenericStore) (key : AttributeKey) (buf : CharArray) (len : Nat) :
    Outcome (Int × GenericStore) :=
  store.value key >>= fun cell =>
    match cell with
    | none => .ok (-ENOENT, store)
    | some _ => cString buf >>= fun text => strnlen buf len >>= fun length =>
        .ok ((length : Int) + 1,
          { store with
            value := Function.update store.value key (.ok (some (some text))) })

def openDev (store : GenericStore) (device : String) (mask : Nat) : GenericStore :=
  match linked device with
  | some _ => { store with mask := Function.update store.mask device mask }
  | none => store

def readDev (store : GenericStore) (around : Surroundings) (device : String)
    (bytesCount : Nat) : Outcome (Int × List Byte × GenericStore) :=
  match fileOf linked false device with
  | some path =>
      GenericRXDevice.readContent around.reading around.pbuf bytesCount (store.file path) >>=
        fun answer => .ok (answer.1, answer.2.1,
          { store with file := Function.update store.file path answer.2.2 })
  | none => .ok (-ENOENT, around.pbuf, store)

def writeDev (store : GenericStore) (around : Surroundings) (device : String)
    (buf : List Byte) (bytesCount : Nat) : Outcome (Int × GenericStore) :=
  match fileOf linked true device with
  | some path =>
      GenericTXDevice.writeContent around.writing buf bytesCount (store.file path) >>=
        fun answer =>
          .ok (answer.1, { store with file := Function.update store.file path answer.2 })
  | none => .ok (-ENOENT, store)

def getMask (store : GenericStore) (device : String) (mask : Nat) : Nat :=
  if (linked device).isSome then store.mask device else mask

def getXml (store : GenericStore) (outxml : Bool) : Int × Option String :=
  if outxml then store.description else (-1, none)

def perform (store : GenericStore) (around : Surroundings) :
    Command → Outcome (Reply × GenericStore)
  | .readAttr deviceId attr buf len type =>
      store.readAttr (.device deviceId type attr) buf len >>= fun answer =>
        .ok (.value answer.1 answer.2, store)
  | .writeAttr deviceId attr buf len type =>
      store.writeAttr (.device deviceId type attr) buf len >>= fun answer =>
        .ok (.returned answer.1, answer.2)
  | .chReadAttr deviceId channel chOut attr buf len =>
      store.readAttr (.channel deviceId channel chOut attr) buf len >>= fun answer =>
        .ok (.value answer.1 answer.2, store)
  | .chWriteAttr deviceId channel chOut attr buf len =>
      store.writeAttr (.channel deviceId channel chOut attr) buf len >>= fun answer =>
        .ok (.returned answer.1, answer.2)
  | .openDev device _ mask _ =>
      .ok (.returned (known (linked device)), store.openDev linked device mask)
  | .closeDev device => .ok (.returned (known (linked device)), store)
  | .transferDevToMem device _ => .ok (.returned (known (fileOf linked false device)), store)
  | .readDev device _ bytesCount =>
      store.readDev linked around device bytesCount >>= fun answer =>
        .ok (.samples answer.1 answer.2.1, answer.2.2)
  | .transferMemToDev device _ => .ok (.returned (known (fileOf linked true device)), store)
  | .writeDev device buf _ bytesCount =>
      store.writeDev linked around device buf bytesCount >>= fun answer =>
        .ok (.returned answer.1, answer.2)
  | .getMask device mask =>
      .ok (.mask (known (linked device)) (store.getMask linked device mask), store)
  | .getTrigger _ _ => .ok (.returned (-ENOENT), store)
  | .setTrigger _ _ _ => .ok (.returned (-ENOENT), store)
  | .setBuffersCount device _ => .ok (.returned (known (linked device)), store)
  | .getXml outxml =>
      .ok (.description (store.getXml outxml).1 (store.getXml outxml).2, store)

/-- Where its opens succeed, a linked file is a queue. -/
structure QueuesWhereOpened : Prop where
  takes : ∀ (store : GenericStore) (around : Surroundings) device bytesCount path content,
    fileOf linked false device = some path → around.reading = .succeed →
    store.file path = some content →
      store.readDev linked around device bytesCount =
        IioEmu.store around.pbuf (content.take bytesCount ++
            List.replicate (bytesCount - content.length) 0#8) >>= fun filled =>
          .ok ((bytesCount : Int), filled, { store with
            file := Function.update store.file path (some (content.drop bytesCount)) })
  appends : ∀ (store : GenericStore) (around : Surroundings) device buf bytesCount path bytes,
    fileOf linked true device = some path → around.writing = true →
    memcpy buf 0 bytesCount = .ok bytes →
      store.writeDev linked around device buf bytesCount =
        .ok ((bytesCount : Int), { store with
          file := Function.update store.file path
            (some ((store.file path).getD [] ++ bytes)) })

theorem queuesWhereOpened : QueuesWhereOpened linked := by
  constructor
  · intro store around device bytesCount path content named opened stored
    simp only [readDev, named, stored, opened, GenericRXDevice.readContent_succeed]
    cases IioEmu.store around.pbuf (content.take bytesCount ++
      List.replicate (bytesCount - content.length) 0#8) <;> rfl
  · intro store around device buf bytesCount path bytes named opened copied
    simp only [writeDev, named, opened, GenericTXDevice.writeContent, if_true, copied]
    rfl

def step (store : GenericStore) : GenericEmulator.Action → Outcome (Reply × GenericStore)
  | .serve _ around command => store.perform linked around command
  | .disconnect _ => .ok (.returned 0, store)

end GenericStore

end IioEmu
