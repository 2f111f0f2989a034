import IioEmu.Foundation.Memory
import IioEmu.Utils.AttrOpsXml

/-! # The commands a context serves

Both contexts put the same operations into the table of the parser. A command names the
device it is for, and the context looks that up. -/

namespace IioEmu

inductive Reply
  | returned (ret : Int)
  | value (ret : Int) (buf : CharArray)
  | samples (ret : Int) (bytes : List Byte)
  | mask (ret : Int) (mask : Nat)
  | description (ret : Int) (outxml : Option String)
  deriving DecidableEq

/-- The operations of the table that `assignBasicOps` fills, apart from the two that only
pass bytes between the socket and the parser. -/
inductive Command
  | readAttr (deviceId attr : String) (buf : CharArray) (len : Nat) (type : IioAttrType)
  | writeAttr (deviceId attr : String) (buf : CharArray) (len : Nat) (type : IioAttrType)
  | chReadAttr (deviceId channel : String) (chOut : Bool)
      (attr : String) (buf : CharArray) (len : Nat)
  | chWriteAttr (deviceId channel : String) (chOut : Bool)
      (attr : String) (buf : CharArray) (len : Nat)
  | openDev (device : String) (sampleSize mask : Nat) (cyclic : Bool)
  | closeDev (device : String)
  | transferDevToMem (device : String) (bytesCount : Nat)
  | readDev (device : String) (offset bytesCount : Nat)
  | transferMemToDev (device : String) (bytesCount : Nat)
  | writeDev (device : String) (buf : List Byte) (offset bytesCount : Nat)
  | getMask (device : String) (mask : Nat)
  | getTrigger (device : String) (len : Nat)
  | setTrigger (device trigger : String) (len : Nat)
  | setBuffersCount (device : String) (buffersCount : Nat)
  | getXml (outxml : Bool)

def Command.device? : Command → Option String
  | .readAttr deviceId .. | .writeAttr deviceId .. | .chReadAttr deviceId ..
  | .chWriteAttr deviceId .. => some deviceId
  | .openDev device .. | .closeDev device | .transferDevToMem device _
  | .readDev device .. | .transferMemToDev device _ | .writeDev device ..
  | .getMask device _ | .getTrigger device _ | .setTrigger device ..
  | .setBuffersCount device _ => some device
  | .getXml _ => none

def Command.StoresAttribute : Command → Bool
  | .writeAttr .. | .chWriteAttr .. => true
  | _ => false

end IioEmu
