import IioEmu.Foundation.FileStream
import IioEmu.Foundation.Loop

/-! # The generic devices

Both kinds of device stream through a linked file. A read takes bytes off the
front of it: what is left goes to a temporary file and back. Which of the opens
succeed is up to the system. -/

namespace IioEmu

def bufSize : Nat := 4096

def tmpFilePath : String := "iio_emu_tmp_file.txt"

structure CopyState where
  files : Files
  input : FileStream
  again : Bool

/-- The loop of `copyFileData`, which always makes a first pass. -/
def copyLoop (output : FileStream) : Loop CopyState where
  guard state := state.again
  body state :=
    let (bytes, input) := state.input.read state.files bufSize
    .ok {
      files := output.write state.files bytes
      input := input
      again := 0 < input.gcount }

/-- The number of passes that certainly suffice: one for each block left and
two to see the end of the file. -/
def copyPasses (files : Files) (input : FileStream) : Nat :=
  ((files input.path).getD []).length + 2

def copyFileData (files : Files) (input output : FileStream) : Outcome Files := do
  let final ← (copyLoop output).outcome (copyPasses files input) ⟨files, input, true⟩
  return final.files

structure GenericRXDevice where
  filePath : String
  deriving DecidableEq

structure GenericTXDevice where
  filePath : String
  deriving DecidableEq

structure ReadOpens where
  data : Bool
  tmpOut : Bool
  truncate : Bool
  tmpIn : Bool
  dataOut : Bool

def ReadOpens.succeed : ReadOpens := ⟨true, true, true, true, true⟩

def GenericRXDevice.readDev (rx : GenericRXDevice) (files : Files) (opens : ReadOpens)
    (pbuf : List Byte) (_offset bytesCount : Nat) : Outcome (Int × List Byte × Files) :=
  let (input, files) := FileStream.openFile files rx.filePath .input opens.data
  if input.fail then .ok (-1, pbuf, files)
  else do
    let (bytes, input) := input.seekBegin.read files bytesCount
    let filled ← store pbuf (bytes ++ List.replicate (bytesCount - input.gcount) 0#8)
    let (tmpFile, files) := FileStream.openFile files tmpFilePath .output opens.tmpOut
    let files ← copyFileData files input tmpFile
    let (_, files) := FileStream.openFile files rx.filePath .output opens.truncate
    let (tmpFile, files) := FileStream.openFile files tmpFilePath .input opens.tmpIn
    let (output, files) := FileStream.openFile files rx.filePath .output opens.dataOut
    let files ← copyFileData files tmpFile.seekBegin output
    return ((bytesCount : Int), filled, Function.update files tmpFilePath none)

def GenericTXDevice.writeDev (tx : GenericTXDevice) (files : Files) (opened : Bool)
    (buf : List Byte) (_offset bytesCount : Nat) : Outcome (Int × Files) :=
  let (output, files) := FileStream.openFile files tx.filePath .append opened
  if output.fail then .ok (-1, files)
  else do
    let bytes ← memcpy buf 0 bytesCount
    return ((bytesCount : Int), output.write files bytes)

end IioEmu
