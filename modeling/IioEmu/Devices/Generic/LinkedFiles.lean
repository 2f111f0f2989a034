import IioEmu.Devices.Generic.FailedOpens

/-! # Calls seen from the linked file

Every read removes the temporary file it made. While there is none, a call on a device is an
operation on the content of its own file, whatever opens fail and whatever other files hold. -/

namespace IioEmu

def GenericRXDevice.readContent (opens : ReadOpens) (pbuf : List Byte) (bytesCount : Nat)
    (content : Option (List Byte)) : Outcome (Int × List Byte × Option (List Byte)) :=
  match opens.data, content with
  | true, some content => do
      let filled ← store pbuf
        (content.take bytesCount ++ List.replicate (bytesCount - content.length) 0#8)
      return ((bytesCount : Int), filled, some (opens.left none content bytesCount))
  | _, content => .ok (-1, pbuf, content)

def GenericTXDevice.writeContent (opened : Bool) (buf : List Byte) (bytesCount : Nat)
    (content : Option (List Byte)) : Outcome (Int × Option (List Byte)) :=
  if opened then do
    let bytes ← memcpy buf 0 bytesCount
    return ((bytesCount : Int), some (content.getD [] ++ bytes))
  else .ok (-1, content)

theorem GenericRXDevice.readContent_succeed (pbuf : List Byte) (bytesCount : Nat)
    (content : List Byte) :
    readContent .succeed pbuf bytesCount (some content) =
      store pbuf (content.take bytesCount ++
          List.replicate (bytesCount - content.length) 0#8) >>= fun filled =>
        .ok ((bytesCount : Int), filled, some (content.drop bytesCount)) := by
  have left : ReadOpens.succeed.left none content bytesCount =
      content.drop bytesCount := by
    simp [ReadOpens.left, ReadOpens.succeed]
  rw [← left]
  rfl

section Calls

variable {files : Files} {path : String}

theorem readDev_of_unopened {opens : ReadOpens}
    (unopened : opens.data = false ∨ files path = none) (pbuf : List Byte)
    (offset bytesCount : Nat) :
    GenericRXDevice.readDev ⟨path⟩ files opens pbuf offset bytesCount =
      .ok (-1, pbuf, files) := by
  have failed : FileStream.openFile files path .input opens.data =
      (⟨path, 0, 0, true⟩, files) := by
    cases opened : opens.data with
    | false => rfl
    | true =>
        have missing : files path = none := by simpa [opened] using unopened
        simp [FileStream.openFile, missing]
  simp only [GenericRXDevice.readDev, failed, if_true]

theorem readDev_eq_readContent (different : path ≠ tmpFilePath)
    (removed : files tmpFilePath = none) (opens : ReadOpens) (pbuf : List Byte)
    (offset bytesCount : Nat) :
    GenericRXDevice.readDev ⟨path⟩ files opens pbuf offset bytesCount =
      GenericRXDevice.readContent opens pbuf bytesCount (files path) >>= fun answer =>
        .ok (answer.1, answer.2.1, Function.update files path answer.2.2) := by
  cases opened : opens.data with
  | false =>
      rw [readDev_of_unopened (Or.inl opened)]
      simp only [GenericRXDevice.readContent, opened, Outcome.ok_bind,
        Function.update_eq_self]
  | true =>
      cases linked : files path with
      | none =>
          have kept : Function.update files path none = files := by
            rw [← linked, Function.update_eq_self]
          rw [readDev_of_unopened (Or.inr linked)]
          simp only [GenericRXDevice.readContent, opened, Outcome.ok_bind, kept]
      | some content =>
          have gone (left : Option (List Byte)) :
              Function.update (Function.update files path left) tmpFilePath none =
                Function.update files path left := by
            rw [Function.update_eq_self_iff,
              Function.update_of_ne (Ne.symm different), removed]
          rw [readDev_of_opened different linked opened]
          simp only [GenericRXDevice.readContent, opened, removed, gone]
          cases store pbuf (content.take bytesCount ++
            List.replicate (bytesCount - content.length) 0#8) <;> rfl

theorem writeDev_eq_writeContent (opened : Bool) (buf : List Byte)
    (offset bytesCount : Nat) :
    GenericTXDevice.writeDev ⟨path⟩ files opened buf offset bytesCount =
      GenericTXDevice.writeContent opened buf bytesCount (files path) >>= fun answer =>
        .ok (answer.1, Function.update files path answer.2) := by
  cases opened with
  | false =>
      simp only [GenericTXDevice.writeDev, GenericTXDevice.writeContent,
        FileStream.openFile, if_true, Bool.false_eq_true, if_false, Outcome.ok_bind,
        Function.update_eq_self]
  | true =>
      simp only [GenericTXDevice.writeDev, GenericTXDevice.writeContent,
        FileStream.openFile, if_true, Bool.false_eq_true, if_false]
      cases memcpy buf 0 bytesCount with
      | error fault => rfl
      | ok bytes =>
          simp [FileStream.write]

end Calls

end IioEmu
