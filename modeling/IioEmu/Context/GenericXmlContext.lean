import IioEmu.Networking.SocketUnix
import IioEmu.Utils.AttrOpsXml

/-! # The context's table of devices

Devices are found by their name or by the descriptor of the connection that
opened them last. A constructor leaves the descriptor of its device unset. -/

namespace IioEmu

structure AbstractDevice where
  deviceId : String
  fd : Int
  deriving DecidableEq

def AbstractDevice.setDescriptor (fd : Int) (device : AbstractDevice) : AbstractDevice :=
  { device with fd := fd }

def AbstractDevice.accepted : Int := 0

structure GenericXmlContext where
  devices : List AbstractDevice
  currentSocket : SocketUnix
  deriving DecidableEq

namespace GenericXmlContext

def setCurrentSocket (context : GenericXmlContext) (socket : SocketUnix) :
    GenericXmlContext :=
  { context with currentSocket := socket }

def writeData (context : GenericXmlContext) (buf : List Byte) (len : Nat)
    (answers : List SendAnswer) : Outcome (Int × List Byte × GenericXmlContext) := do
  let (taken, socket) ← context.currentSocket.write buf len answers
  return (0, taken, { context with currentSocket := socket })

def getDevice (context : GenericXmlContext) (deviceId : String) : Option Nat :=
  context.devices.findIdx? fun device => device.deviceId == deviceId

def getDeviceByDescriptor (context : GenericXmlContext) (fd : Int) : Option Nat :=
  context.devices.findIdx? fun device => device.fd == fd

def openDev (context : GenericXmlContext) (device : String) : Int × GenericXmlContext :=
  match context.getDevice device with
  | some position =>
      (AbstractDevice.accepted, { context with
        devices := context.devices.modify position
          (AbstractDevice.setDescriptor context.currentSocket.fd) })
  | none => (-ENOENT, context)

def closeDev (context : GenericXmlContext) (device : String) : Int :=
  match context.getDevice device with
  | some _ => AbstractDevice.accepted
  | none => -ENOENT

theorem openDev_of_some {context : GenericXmlContext} {device : String} {position : Nat}
    (found : context.getDevice device = some position) :
    context.openDev device = (AbstractDevice.accepted, { context with
      devices := context.devices.modify position
        (AbstractDevice.setDescriptor context.currentSocket.fd) }) := by
  rw [openDev, found]

theorem openDev_of_none {context : GenericXmlContext} {device : String}
    (missing : context.getDevice device = none) :
    context.openDev device = (-ENOENT, context) := by
  rw [openDev, missing]

/-- The device whose `cancel_buffer` is called. -/
def socketDisconnected (context : GenericXmlContext) (fd : Int) : Option Nat :=
  context.getDeviceByDescriptor fd

end GenericXmlContext

end IioEmu
