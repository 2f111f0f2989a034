import IioEmu.Foundation.Memory
import Mathlib.Logic.Function.Basic

/-! # Files and `std::fstream`

The file system maps paths to contents. A stream that failed to open, or that
was read past the end of its file, carries its fail bit until it is opened
again, and does nothing. -/

namespace IioEmu

abbrev Files := String → Option (List Byte)

/-- The modes the program opens files in; `output` truncates. -/
inductive OpenMode
  | input
  | output
  | append
  deriving DecidableEq

structure FileStream where
  path : String
  position : Nat
  gcount : Nat
  fail : Bool
  deriving DecidableEq

namespace FileStream

/-- Opening a file. The system may refuse, and reading needs the file to be
there. -/
def openFile (files : Files) (path : String) (mode : OpenMode) (permitted : Bool) :
    FileStream × Files :=
  match mode, permitted, files path with
  | .input, true, some _ => (⟨path, 0, 0, false⟩, files)
  | .output, true, _ => (⟨path, 0, 0, false⟩, Function.update files path (some []))
  | .append, true, content =>
      (⟨path, 0, 0, false⟩, Function.update files path (some (content.getD [])))
  | _, _, _ => (⟨path, 0, 0, true⟩, files)

def seekBegin (stream : FileStream) : FileStream :=
  if stream.fail then stream else { stream with position := 0 }

/-- Unformatted input: fewer bytes than asked for set the fail bit. -/
def read (stream : FileStream) (files : Files) (count : Nat) : List Byte × FileStream :=
  if stream.fail then ([], { stream with gcount := 0 })
  else
    let bytes := (((files stream.path).getD []).drop stream.position).take count
    (bytes, { stream with
      position := stream.position + bytes.length
      gcount := bytes.length
      fail := bytes.length < count })

def write (stream : FileStream) (files : Files) (bytes : List Byte) : Files :=
  if stream.fail then files
  else Function.update files stream.path (some ((files stream.path).getD [] ++ bytes))

/-! ## What the operations do -/

section Operations

variable {files : Files} {path : String} {content : List Byte}

@[simp] theorem seekBegin_opened (path : String) :
    seekBegin ⟨path, 0, 0, false⟩ = ⟨path, 0, 0, false⟩ := rfl

theorem openFile_input (exists_file : files path = some content) :
    openFile files path .input true = (⟨path, 0, 0, false⟩, files) := by
  simp [openFile, exists_file]

theorem openFile_output (files : Files) (path : String) :
    openFile files path .output true =
      (⟨path, 0, 0, false⟩, Function.update files path (some [])) := by
  simp [openFile]

theorem openFile_append (exists_file : files path = some content) :
    openFile files path .append true =
      (⟨path, 0, 0, false⟩, Function.update files path (some content)) := by
  simp [openFile, exists_file]

theorem read_of_fail {stream : FileStream} (failed : stream.fail = true) (files : Files)
    (count : Nat) : stream.read files count = ([], { stream with gcount := 0 }) := by
  simp [read, failed]

theorem read_of_exists {stream : FileStream} (good : stream.fail = false)
    (exists_file : files stream.path = some content) (count : Nat) :
    stream.read files count = ((content.drop stream.position).take count, { stream with
      position := stream.position + ((content.drop stream.position).take count).length
      gcount := ((content.drop stream.position).take count).length
      fail := ((content.drop stream.position).take count).length < count }) := by
  simp [read, good, exists_file]

theorem write_of_exists {stream : FileStream} (good : stream.fail = false)
    (exists_file : files stream.path = some content) (bytes : List Byte) :
    stream.write files bytes =
      Function.update files stream.path (some (content ++ bytes)) := by
  simp [write, good, exists_file]

end Operations

end FileStream

end IioEmu
