import IioEmu.Devices.Generic.LoopBack

/-! # Reads whose opens fail

Of the five opens of a read only the first is tested. A stream whose open
failed reads and writes nothing, and the read goes on to return its count. -/

namespace IioEmu

/-! ## Copying with a failed stream -/

section Copying

variable {files : Files} {input output : FileStream} {content : List Byte}

theorem copyFileData_of_failed_input (failed : input.fail = true)
    (writable : output.fail = true ∨ ∃ target, files output.path = some target) :
    copyFileData files input output = .ok files := by
  have unchanged : output.write files [] = files := by
    rcases writable with closed | ⟨target, stored⟩
    · rw [FileStream.write, if_pos closed]
    · cases closed : output.fail with
      | true => rw [FileStream.write, if_pos closed]
      | false =>
          rw [FileStream.write_of_exists closed stored, List.append_nil, ← stored,
            Function.update_eq_self]
  have passed : (copyLoop output).body ⟨files, input, true⟩ =
      .ok ⟨files, { input with gcount := 0 }, false⟩ := by
    simp only [copyLoop, FileStream.read_of_fail failed, unchanged]
    rfl
  have ran : (copyLoop output).run (copyPasses files input) ⟨files, input, true⟩ =
      some (.ok ⟨files, { input with gcount := 0 }, false⟩) := by
    rw [copyPasses, Loop.run_succ_of_ok _ rfl passed]
    apply Loop.run_of_not_guard
    rfl
  rw [copyFileData, Loop.outcome_of_run _ ran]
  rfl

/-- A stream that failed to open takes the whole input and stores nothing. -/
theorem copyFileData_of_failed_output (failed : output.fail = true)
    (reads : input.Reads files content) :
    copyFileData files input output = .ok files := by
  have unchanged (bytes : List Byte) : output.write files bytes = files := by
    rw [FileStream.write, if_pos failed]
  have looped := (copyLoop output).run_total
    (fun state => state.files = files ∧ state.input.Reads files content ∧
      state.input.path = input.path)
    (fun state => (content.length - state.input.position) + state.again.toNat)
    (by
      rintro ⟨current, stream, again⟩ ⟨rfl, stands, samePath⟩ enters
      have reads : stream.Reads current content := stands
      rcases reads.read bufSize with ⟨next, read, nextReads, path, position, gcount⟩
      have passed : (copyLoop output).body ⟨current, stream, again⟩ =
          .ok ⟨current, next, 0 < next.gcount⟩ := by
        simp only [copyLoop, read, unchanged]
      have more : again = true := enters
      have inside := reads.inside
      have length : ((content.drop stream.position).take bufSize).length =
          min 4096 (content.length - stream.position) := by
        rw [List.length_take, List.length_drop, bufSize]
      refine ⟨_, passed, ⟨rfl, nextReads, path.trans samePath⟩, ?_⟩
      simp only [more, Bool.toNat_true]
      cases further : decide (0 < next.gcount) with
      | true =>
          rw [decide_eq_true_eq] at further
          rw [Bool.toNat_true]
          omega
      | false =>
          rw [Bool.toNat_false]
          omega)
    ⟨files, input, true⟩ ⟨rfl, reads, rfl⟩ (copyPasses files input) (by
      simp only [copyPasses, reads.stored, Option.getD_some, Bool.toNat_true]
      omega)
  rcases looped with ⟨final, ran, ⟨kept, _⟩, _⟩
  rw [copyFileData, Loop.outcome_of_run _ ran, Outcome.ok_bind, kept]
  rfl

end Copying

/-! ## The two copies of a read -/

section Copies

variable {files : Files} {path : String} {content : List Byte}

theorem openFile_output_eq (files : Files) (path : String) (permitted : Bool) :
    FileStream.openFile files path .output permitted = (⟨path, 0, 0, !permitted⟩,
      Function.update files path (if permitted then some [] else files path)) := by
  cases permitted with
  | true => rfl
  | false =>
      rw [if_neg Bool.false_ne_true, Function.update_eq_self]
      rfl

theorem openFile_input_files (files : Files) (path : String) (permitted : Bool) :
    (FileStream.openFile files path .input permitted).2 = files := by
  cases permitted with
  | true => cases stored : files path <;> simp [FileStream.openFile, stored]
  | false => rfl

/-- The rest goes to the temporary file, which otherwise keeps what an earlier
read left in it. -/
theorem copyFileData_saves {input : FileStream} (reads : input.Reads files content)
    (different : input.path ≠ tmpFilePath) (opened : Bool) :
    copyFileData (FileStream.openFile files tmpFilePath .output opened).2 input
        (FileStream.openFile files tmpFilePath .output opened).1 =
      .ok (Function.update files tmpFilePath
        (if opened then some (content.drop input.position) else files tmpFilePath)) := by
  rw [openFile_output_eq]
  cases opened with
  | true =>
      apply copyFileData_truncated _ different
      refine ⟨?_, reads.inside, reads.ended⟩
      rw [Function.update_of_ne different]
      exact reads.stored
  | false =>
      rw [if_neg Bool.false_ne_true, if_neg Bool.false_ne_true, Function.update_eq_self]
      apply copyFileData_of_failed_output _ reads
      rfl

theorem copyFileData_restores (different : path ≠ tmpFilePath)
    (linked : files path = some content) (tmpIn dataOut : Bool) :
    copyFileData (FileStream.openFile files path .output dataOut).2
        (FileStream.openFile files tmpFilePath .input tmpIn).1.seekBegin
        (FileStream.openFile files path .output dataOut).1 =
      .ok (Function.update files path (some (if dataOut then
        if tmpIn then (files tmpFilePath).getD [] else [] else content))) := by
  rw [openFile_output_eq]
  have kept (target : Option (List Byte)) :
      Function.update files path target tmpFilePath = files tmpFilePath :=
    Function.update_of_ne (Ne.symm different) _ _
  have unread {stream : FileStream} (failed : stream.fail = true) :
      copyFileData (Function.update files path (if dataOut then some [] else files path))
        stream ⟨path, 0, 0, !dataOut⟩ =
          .ok (Function.update files path (some (if dataOut then [] else content))) := by
    have stored : (if dataOut then some [] else files path) =
        some (if dataOut then [] else content) := by
      rw [linked]
      cases dataOut <;> rfl
    rw [stored]
    apply copyFileData_of_failed_input failed
    exact Or.inr ⟨_, Function.update_self _ _ _⟩
  cases tmpIn with
  | false => exact unread rfl
  | true =>
      cases stale : files tmpFilePath with
      | none =>
          have failed : FileStream.openFile files tmpFilePath .input true =
              (⟨tmpFilePath, 0, 0, true⟩, files) := by simp [FileStream.openFile, stale]
          rw [failed]
          exact unread rfl
      | some rest =>
          rw [FileStream.openFile_input stale, FileStream.seekBegin_opened]
          have reads (target : Option (List Byte)) :
              FileStream.Reads ⟨tmpFilePath, 0, 0, false⟩
              (Function.update files path target) rest := by
            refine ⟨?_, Nat.zero_le _, by simp⟩
            rw [kept, stale]
          cases dataOut with
          | true => exact copyFileData_truncated (reads _) (Ne.symm different)
          | false =>
              rw [if_neg Bool.false_ne_true, if_neg Bool.false_ne_true, ← linked]
              apply copyFileData_of_failed_output _ (reads _)
              rfl

end Copies

/-! ## A read with any of its opens failing -/

section FailedOpens

variable {files : Files} {path : String} {content : List Byte}

def ReadOpens.left (opens : ReadOpens) (stale : Option (List Byte)) (content : List Byte)
    (bytesCount : Nat) : List Byte :=
  if opens.dataOut then
    if opens.tmpIn then
      (if opens.tmpOut then some (content.drop bytesCount) else stale).getD []
    else []
  else if opens.truncate then [] else content

theorem readDev_of_opened (different : path ≠ tmpFilePath)
    (linked : files path = some content) {opens : ReadOpens}
    (opened : opens.data = true) (pbuf : List Byte) (offset bytesCount : Nat) :
    GenericRXDevice.readDev ⟨path⟩ files opens pbuf offset bytesCount =
      store pbuf (content.take bytesCount ++
          List.replicate (bytesCount - content.length) 0#8) >>= fun filled =>
        .ok ((bytesCount : Int), filled, Function.update (Function.update files path
          (some (opens.left (files tmpFilePath) content bytesCount))) tmpFilePath none) := by
  rcases read_front linked bytesCount with ⟨input, read, reads, inputPath, rest, padding⟩
  have saved := copyFileData_saves reads (by rw [inputPath]; exact different) opens.tmpOut
  rw [rest] at saved
  generalize keptEq : (if opens.tmpOut then some (content.drop bytesCount)
    else files tmpFilePath) = kept at saved
  generalize clearedEq : (if opens.truncate then [] else content) = cleared
  have stored : Function.update files tmpFilePath kept path = some content := by
    rw [Function.update_of_ne different]
    exact linked
  have emptied :
      (FileStream.openFile (Function.update files tmpFilePath kept) path .output
      opens.truncate).2 =
        Function.update (Function.update files tmpFilePath kept) path (some cleared) := by
    rw [openFile_output_eq, stored, ← clearedEq]
    cases opens.truncate <;> rfl
  have found :
      Function.update (Function.update files tmpFilePath kept) path (some cleared)
      tmpFilePath = kept := by
    rw [Function.update_of_ne (Ne.symm different), Function.update_self]
  have restored := copyFileData_restores different
    (Function.update_self path (some cleared) (Function.update files tmpFilePath kept))
    opens.tmpIn opens.dataOut
  rw [found, Function.update_idem] at restored
  have left : opens.left (files tmpFilePath) content bytesCount =
      if opens.dataOut then if opens.tmpIn then kept.getD [] else [] else cleared := by
    rw [ReadOpens.left, keptEq, clearedEq]
  have removed :
      Function.update (Function.update (Function.update files tmpFilePath kept) path
      (some (if opens.dataOut then if opens.tmpIn then kept.getD [] else [] else cleared)))
        tmpFilePath none =
      Function.update (Function.update files path
        (some (opens.left (files tmpFilePath) content bytesCount))) tmpFilePath none := by
    rw [left, Function.update_comm (Ne.symm different), Function.update_idem]
  rw [← removed]
  simp only [GenericRXDevice.readDev, opened, FileStream.openFile_input linked,
    Bool.false_eq_true, if_false, FileStream.seekBegin_opened, read, padding]
  cases filled : store pbuf (content.take bytesCount ++
      List.replicate (bytesCount - content.length) 0#8) with
  | error fault => rfl
  | ok buffer =>
      simp only [Outcome.ok_bind, saved, emptied, openFile_input_files, restored]
      rfl

theorem readDev_leaves (different : path ≠ tmpFilePath)
    (linked : files path = some content) {pbuf : List Byte} {bytesCount : Nat}
    (holds : bytesCount ≤ pbuf.length) (offset : Nat) {opens : ReadOpens}
    (opened : opens.data = true) :
    ∃ filled after, GenericRXDevice.readDev ⟨path⟩ files opens pbuf offset bytesCount =
        .ok ((bytesCount : Int), filled, after) ∧
      after path = some (opens.left (files tmpFilePath) content bytesCount) := by
  rw [readDev_of_opened different linked opened, store_front holds, Outcome.ok_bind]
  refine ⟨_, _, rfl, ?_⟩
  rw [Function.update_of_ne different, Function.update_self]

theorem readDev_removes_tmp {rx : GenericRXDevice}
    (linked : files rx.filePath = some content) {opens : ReadOpens}
    (opened : opens.data = true) {pbuf buffer : List Byte} {offset bytesCount : Nat}
    {ret : Int} {after : Files}
    (returned : rx.readDev files opens pbuf offset bytesCount =
      .ok (ret, buffer, after)) :
    after tmpFilePath = none := by
  simp only [GenericRXDevice.readDev, opened, FileStream.openFile_input linked,
    Bool.false_eq_true, if_false, Outcome.bind_eq_ok, Outcome.pure_eq_ok, Except.ok.injEq,
    Prod.mk.injEq] at returned
  rcases returned with ⟨_, _, _, _, _, _, _, _, rfl⟩
  exact Function.update_self _ _ _

/-- After the call the linked file is as it was and the call failed, or it lost
exactly the bytes that were asked for. -/
def KeepsUnread (rx : GenericRXDevice) (files : Files)
    (opens : ReadOpens) (pbuf : List Byte) (offset bytesCount : Nat)
    (content : List Byte) : Prop :=
  ∃ ret filled after, rx.readDev files opens pbuf offset bytesCount =
    .ok (ret, filled, after) ∧
    (after rx.filePath = some content ∧ ret < 0 ∨
      after rx.filePath = some (content.drop (min bytesCount content.length)))

/-- The opens that leave the rest of the file in place. Where the temporary file
could not be written, what it held before must be that rest; where one of the
files could not be opened for the copy back, there must be no rest, or
nothing to move. -/
def ReadOpens.Lossless (opens : ReadOpens) (stale : Option (List Byte))
    (content : List Byte) (bytesCount : Nat) : Prop :=
  match opens.dataOut, opens.tmpIn, opens.tmpOut with
  | true, true, true => True
  | true, true, false => stale.getD [] = content.drop bytesCount
  | true, false, _ => content.length ≤ bytesCount
  | false, _, _ =>
      content.length ≤ bytesCount ∧ (opens.truncate = true ∨ content = []) ∨
        bytesCount = 0 ∧ opens.truncate = false

theorem ReadOpens.left_eq_drop_iff (opens : ReadOpens) (stale : Option (List Byte))
    (content : List Byte) (bytesCount : Nat) :
    opens.left stale content bytesCount = content.drop bytesCount ↔
      opens.Lossless stale content bytesCount := by
  rcases opens with ⟨data, tmpOut, truncate, tmpIn, dataOut⟩
  have nothing : [] = content.drop bytesCount ↔ content.length ≤ bytesCount := by
    rw [eq_comm, List.drop_eq_nil_iff]
  have whole : content = content.drop bytesCount ↔ bytesCount = 0 ∨ content = [] := by
    constructor
    · intro same
      have length := congrArg List.length same
      rw [List.length_drop] at length
      rw [← List.length_eq_zero_iff]
      omega
    · rintro (rfl | rfl)
      · rw [List.drop_zero]
      · rw [List.drop_nil]
  cases dataOut with
  | true =>
      cases tmpIn with
      | true => cases tmpOut <;> simp [ReadOpens.left, ReadOpens.Lossless]
      | false =>
          simp only [ReadOpens.left, ReadOpens.Lossless,
            Bool.false_eq_true, if_false, if_true]
          exact nothing
  | false =>
      cases truncate with
      | true => simp [ReadOpens.left, ReadOpens.Lossless]
      | false =>
          simp only [ReadOpens.left, ReadOpens.Lossless,
            Bool.false_eq_true, if_false, false_or, and_true]
          rw [whole]
          constructor
          · rintro (none | rfl)
            · exact Or.inr none
            · exact Or.inl ⟨Nat.zero_le _, rfl⟩
          · rintro (⟨_, empty⟩ | none)
            · exact Or.inr empty
            · exact Or.inl none

/-- A read keeps the unread bytes exactly when its first open fails, or its other opens are
lossless on a file that is not the temporary one. -/
theorem keeps_unread_iff {rx : GenericRXDevice}
    (linked : files rx.filePath = some content) {pbuf : List Byte} {bytesCount : Nat}
    (holds : bytesCount ≤ pbuf.length) (offset : Nat) (opens : ReadOpens) :
    KeepsUnread rx files opens pbuf offset bytesCount content ↔
      opens.data = false ∨ rx.filePath ≠ tmpFilePath ∧
        opens.Lossless (files tmpFilePath) content bytesCount := by
  have rest : content.drop (min bytesCount content.length) = content.drop bytesCount :=
    List.drop_eq_drop_min.symm
  cases opened : opens.data with
  | false =>
      refine ⟨fun _ => Or.inl rfl,
        fun _ => ⟨-1, pbuf, files, ?_, Or.inl ⟨linked, by decide⟩⟩⟩
      simp only [GenericRXDevice.readDev, opened]
      rfl
  | true =>
      rw [KeepsUnread, rest]
      by_cases different : rx.filePath = tmpFilePath
      · constructor
        · rintro ⟨ret, buffer, after, returned, kept⟩
          have removed : after tmpFilePath = none :=
            readDev_removes_tmp linked opened returned
          rw [different, removed] at kept
          rcases kept with ⟨kept, _⟩ | kept
          · cases kept
          · cases kept
        · rintro (closed | ⟨apart, _⟩)
          · cases closed
          · exact absurd different apart
      · rcases readDev_leaves different linked holds offset opened with
          ⟨filled, after, returned, left⟩
        rw [← ReadOpens.left_eq_drop_iff]
        constructor
        · rintro ⟨ret, _, files', again, kept⟩
          have same : rx.readDev files opens pbuf offset bytesCount = _ := returned
          rw [again, Except.ok.injEq] at same
          cases same
          rcases kept with ⟨_, negative⟩ | kept
          · omega
          · rw [left, Option.some.injEq] at kept
            exact Or.inr ⟨different, kept⟩
        · rintro (closed | ⟨_, lossless⟩)
          · cases closed
          · exact ⟨bytesCount, filled, after, returned, Or.inr (by rw [left, lossless])⟩

def oneFile : Files := Function.update (fun _ => none) "data.bin" (some [1, 2, 3])

theorem one_byte_is_taken :
    KeepsUnread ⟨"data.bin"⟩ oneFile .succeed [0] 0 1 [1, 2, 3] := by
  apply (@keeps_unread_iff oneFile [1, 2, 3] ⟨"data.bin"⟩
    (Function.update_self _ _ _) [0] 1 (Nat.le_refl 1) 0 .succeed).mpr
  exact Or.inr ⟨by decide, trivial⟩

theorem two_bytes_are_lost :
    ¬ KeepsUnread ⟨"data.bin"⟩ oneFile ⟨true, false, true, true, true⟩
    [0] 0 1 [1, 2, 3] := by
  rintro ⟨ret, buffer, after, returned, kept⟩
  have emptied :
      (GenericRXDevice.readDev ⟨"data.bin"⟩ oneFile ⟨true, false, true, true, true⟩
      [0] 0 1).map (fun result => result.2.2 "data.bin") = .ok (some []) := by
    decide
  rw [returned, Except.map, Except.ok.injEq] at emptied
  have left : after "data.bin" = some [] := emptied
  rw [left] at kept
  rcases kept with ⟨kept, _⟩ | kept
  · cases kept
  · cases kept

end FailedOpens

end IioEmu
