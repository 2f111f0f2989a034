import IioEmu.Devices.Generic.GenericDevice
import IioEmu.Foundation.Execution
import IioEmu.Foundation.Fifo

/-! # File loop-back

Devices linked to one file use it as a queue. A read copies the rest of the
file out and back in blocks; the loop ends at the end of the file, which the
read itself may already have seen. -/

namespace IioEmu

open Execution

/-! ## Copying -/

section Copying

variable {files : Files} {input output : FileStream} {content target : List Byte}

structure FileStream.Reads (stream : FileStream) (files : Files) (content : List Byte) :
    Prop where
  stored : files stream.path = some content
  inside : stream.position ≤ content.length
  ended : stream.fail = true → stream.position = content.length

theorem FileStream.Reads.read (reads : input.Reads files content) (count : Nat) :
    ∃ next, input.read files count = ((content.drop input.position).take count, next) ∧
      next.Reads files content ∧ next.path = input.path ∧
      next.position =
        input.position + ((content.drop input.position).take count).length ∧
      next.gcount = ((content.drop input.position).take count).length := by
  cases failed : input.fail with
  | true =>
      have last := reads.ended failed
      have nothing : (content.drop input.position).take count = [] := by
        rw [last, List.drop_length, List.take_nil]
      rw [FileStream.read_of_fail failed, nothing]
      exact ⟨_, rfl, ⟨reads.stored, reads.inside, fun _ => last⟩, rfl, rfl, rfl⟩
  | false =>
      refine ⟨_, FileStream.read_of_exists failed reads.stored count,
        ⟨reads.stored, ?_, ?_⟩, rfl, rfl, rfl⟩
      · have within := reads.inside
        simp only [List.length_take, List.length_drop]
        omega
      · intro short
        have within := reads.inside
        simp only [List.length_take, List.length_drop, decide_eq_true_eq] at short ⊢
        omega

structure Copied (files : Files) (output : FileStream) (content target : List Byte)
    (start : Nat) (state : CopyState) : Prop where
  written : state.files = Function.update files output.path
    (some (target ++ (content.drop start).take (state.input.position - start)))
  reads : state.input.Reads state.files content
  path : state.input.path ≠ output.path
  after : start ≤ state.input.position
  done : state.again = false → state.input.position = content.length

theorem take_append_block {start position : Nat} (after : start ≤ position)
    (content : List Byte) (count : Nat) :
    (content.drop start).take (position - start) ++ (content.drop position).take count =
      (content.drop start).take
        (position + ((content.drop position).take count).length - start) := by
  have cut : content.drop position = (content.drop start).drop (position - start) := by
    rw [List.drop_drop, Nat.add_sub_cancel' after]
  have total : position + ((content.drop position).take count).length - start =
      (position - start) + min count (content.drop position).length := by
    rw [List.length_take]
    omega
  rw [total, List.take_add, ← cut, ← List.take_eq_take_min]

theorem Copied.pass {start : Nat} {state : CopyState} (good : output.fail = false)
    (copied : Copied files output content target start state) :
    ∃ next, (copyLoop output).body state = .ok next ∧
      Copied files output content target start next ∧
      (content.length - next.input.position) + next.again.toNat <
        (content.length - state.input.position) + 1 := by
  rcases copied.reads.read bufSize with ⟨input, read, reads, path, position, gcount⟩
  have inside := copied.reads.inside
  have length : ((content.drop state.input.position).take bufSize).length =
      min 4096 (content.length - state.input.position) := by
    rw [List.length_take, List.length_drop, bufSize]
  have stored : state.files output.path =
      some (target ++ (content.drop start).take (state.input.position - start)) := by
    rw [copied.written, Function.update_self]
  have written :
      output.write state.files ((content.drop state.input.position).take bufSize) =
      Function.update files output.path
        (some (target ++ (content.drop start).take (input.position - start))) := by
    rw [FileStream.write_of_exists good stored, List.append_assoc,
      take_append_block copied.after, ← position, copied.written, Function.update_idem]
  have different : input.path ≠ output.path := by
    rw [path]
    exact copied.path
  have kept : output.write state.files ((content.drop state.input.position).take bufSize)
      input.path = some content := by
    rw [FileStream.write_of_exists good stored, Function.update_of_ne different]
    exact reads.stored
  have passed : (copyLoop output).body state = .ok
      ⟨output.write state.files ((content.drop state.input.position).take bufSize), input,
        0 < input.gcount⟩ := by
    simp only [copyLoop, read]
  have after := copied.after
  refine ⟨_, passed, ⟨written, ⟨kept, reads.inside, reads.ended⟩, different, ?_, ?_⟩, ?_⟩
  · simp only
    omega
  · intro ended
    simp only [decide_eq_false_iff_not] at ended ⊢
    omega
  · simp only
    cases more : decide (0 < input.gcount) with
    | true =>
        rw [decide_eq_true_eq] at more
        rw [Bool.toNat_true]
        omega
    | false =>
        rw [Bool.toNat_false]
        omega

theorem copyFileData_eq (good : output.fail = false)
    (stored : files output.path = some target) (reads : input.Reads files content)
    (different : input.path ≠ output.path) :
    copyFileData files input output = .ok (Function.update files output.path
      (some (target ++ content.drop input.position))) := by
  have start :
      Copied files output content target input.position ⟨files, input, true⟩ := by
    refine ⟨?_, reads, different, Nat.le_refl _, by simp⟩
    rw [Nat.sub_self, List.take_zero, List.append_nil, ← stored, Function.update_eq_self]
  have ⟨final, ran, copied, ended⟩ := (copyLoop output).run_total
    (Copied files output content target input.position)
    (fun state => (content.length - state.input.position) + state.again.toNat)
    (by
      intro state copied enters
      rcases copied.pass good with ⟨next, passed, holds, lower⟩
      have again : state.again = true := enters
      exact ⟨next, passed, holds, by simpa [again] using lower⟩)
    ⟨files, input, true⟩ start (copyPasses files input) (by
      simp only [copyPasses, reads.stored, Option.getD_some, Bool.toNat_true]
      omega)
  have all : final.input.position = content.length := copied.done ended
  have rest : (content.drop input.position).take (content.length - input.position) =
      content.drop input.position := by
    rw [List.take_of_length_le]
    rw [List.length_drop]
  rw [copyFileData, Loop.outcome_of_run _ ran, Outcome.ok_bind, copied.written, all, rest]
  rfl

theorem copyFileData_truncated {path : String}
    (reads : input.Reads (Function.update files path (some [])) content)
    (different : input.path ≠ path) :
    copyFileData (Function.update files path (some [])) input ⟨path, 0, 0, false⟩ =
      .ok (Function.update files path (some (content.drop input.position))) := by
  have stored : Function.update files path (some []) path = some [] :=
    Function.update_self _ _ _
  have copied := @copyFileData_eq _ _ ⟨path, 0, 0, false⟩ _ _ rfl stored reads different
  rw [copied, Function.update_idem, List.nil_append]

end Copying

/-! ## One operation -/

section Operations

variable {files : Files} {path : String} {content : List Byte}

theorem restore_rest (different : path ≠ tmpFilePath) (files : Files) (rest : List Byte) :
    copyFileData
      (Function.update (Function.update files tmpFilePath (some rest)) path (some []))
        ⟨tmpFilePath, 0, 0, false⟩ ⟨path, 0, 0, false⟩ =
      .ok (Function.update (Function.update files tmpFilePath (some rest)) path
        (some rest)) := by
  have tmpReads : FileStream.Reads ⟨tmpFilePath, 0, 0, false⟩
      (Function.update (Function.update files tmpFilePath (some rest)) path (some []))
      rest := by
    refine ⟨?_, Nat.zero_le _, by simp⟩
    rw [Function.update_of_ne (Ne.symm different), Function.update_self]
  rw [copyFileData_truncated tmpReads (Ne.symm different), List.drop_zero]

theorem openFile_tmp (different : path ≠ tmpFilePath) (files : Files) (rest : List Byte) :
    FileStream.openFile
      (Function.update (Function.update files tmpFilePath (some rest)) path
        (some [])) tmpFilePath .input true =
      (⟨tmpFilePath, 0, 0, false⟩, Function.update (Function.update files tmpFilePath
        (some rest)) path (some [])) := by
  apply FileStream.openFile_input
  rw [Function.update_of_ne (Ne.symm different), Function.update_self]

theorem read_front (linked : files path = some content) (bytesCount : Nat) :
    ∃ input, FileStream.read ⟨path, 0, 0, false⟩ files bytesCount =
        (content.take bytesCount, input) ∧
      input.Reads files content ∧ input.path = path ∧
      content.drop input.position = content.drop bytesCount ∧
      bytesCount - input.gcount = bytesCount - content.length := by
  have opened : FileStream.Reads ⟨path, 0, 0, false⟩ files content :=
    ⟨linked, Nat.zero_le _, by simp⟩
  rcases opened.read bytesCount with ⟨input, read, reads, inputPath, position, gcount⟩
  refine ⟨input, read, reads, inputPath, ?_, ?_⟩
  · rw [position, List.drop_zero, List.length_take, Nat.zero_add, ← List.drop_eq_drop_min]
  · rw [gcount, List.drop_zero, List.length_take]
    omega

theorem store_front {pbuf : List Byte} {bytesCount : Nat}
    (holds : bytesCount ≤ pbuf.length) (content : List Byte) :
    store pbuf (content.take bytesCount ++
        List.replicate (bytesCount - content.length) 0#8) =
      .ok (content.take bytesCount ++ List.replicate (bytesCount - content.length) 0#8 ++
        pbuf.drop bytesCount) := by
  have length : (content.take bytesCount ++
      List.replicate (bytesCount - content.length) 0#8).length = bytesCount := by
    rw [List.length_append, List.length_take, List.length_replicate]
    omega
  rw [store_of_le (by omega), length]

/-- A read takes bytes off the front of the file and pads with zeros. -/
theorem readDev_eq (different : path ≠ tmpFilePath) (linked : files path = some content)
    {pbuf : List Byte} {bytesCount : Nat}
    (holds : bytesCount ≤ pbuf.length) (offset : Nat) :
    GenericRXDevice.readDev ⟨path⟩ files .succeed pbuf offset bytesCount =
      .ok (bytesCount,
        content.take bytesCount ++ List.replicate (bytesCount - content.length) 0#8 ++
          pbuf.drop bytesCount,
        Function.update (Function.update files path (some (content.drop bytesCount)))
          tmpFilePath none) := by
  rcases read_front linked bytesCount with ⟨input, read, reads, inputPath, rest, padding⟩
  have saved : copyFileData (Function.update files tmpFilePath (some [])) input
      ⟨tmpFilePath, 0, 0, false⟩ = .ok (Function.update files tmpFilePath
        (some (content.drop bytesCount))) := by
    rw [← rest]
    apply copyFileData_truncated
    · refine ⟨?_, reads.inside, reads.ended⟩
      rw [inputPath, Function.update_of_ne different]
      exact linked
    · rw [inputPath]
      exact different
  have removed : Function.update (Function.update (Function.update files tmpFilePath
      (some (content.drop bytesCount))) path (some (content.drop bytesCount)))
        tmpFilePath none =
      Function.update (Function.update files path (some (content.drop bytesCount)))
        tmpFilePath none := by
    rw [Function.update_comm (Ne.symm different), Function.update_idem]
  simp only [GenericRXDevice.readDev, ReadOpens.succeed, FileStream.openFile_input linked,
    FileStream.openFile_output, Bool.false_eq_true, if_false, FileStream.seekBegin_opened,
    read, padding, store_front holds, Outcome.ok_bind, saved, openFile_tmp different,
    Function.update_idem, restore_rest different, removed]
  rfl

theorem writeDev_eq (linked : files path = some content)
    {buf : List Byte} {bytesCount : Nat}
    (holds : bytesCount ≤ buf.length) (offset : Nat) :
    GenericTXDevice.writeDev ⟨path⟩ files true buf offset bytesCount =
      .ok (bytesCount,
        Function.update files path (some (content ++ buf.take bytesCount))) := by
  have same : Function.update files path (some content) = files := by
    rw [← linked, Function.update_eq_self]
  simp only [GenericTXDevice.writeDev, FileStream.openFile_append linked, same,
    Bool.false_eq_true, if_false]
  rw [memcpy_of_le (by omega), Outcome.ok_bind, FileStream.write_of_exists rfl linked]
  rfl

end Operations

/-! ## Any number of devices -/

namespace GenericLoopBack

inductive Action
  | write (tx : GenericTXDevice) (buf : List Byte) (offset bytesCount : Nat)
  | read (rx : GenericRXDevice) (pbuf : List Byte) (offset bytesCount : Nat)

def Action.LinkedTo (path : String) : Action → Prop
  | .write tx buf _ bytesCount => tx.filePath = path ∧ bytesCount ≤ buf.length
  | .read rx pbuf _ bytesCount => rx.filePath = path ∧ bytesCount ≤ pbuf.length

structure State where
  files : Files
  taken : List Byte
  given : List Byte

/-- A call while every file operation succeeds. Of what a read stores, the bytes
that the file had are not padding. -/
def step (state : State) : Action → Outcome State
  | .write tx buf offset bytesCount => do
      let (_, files) ← tx.writeDev state.files true buf offset bytesCount
      return { state with files := files, given := state.given ++ buf.take bytesCount }
  | .read rx pbuf offset bytesCount => do
      let available := ((state.files rx.filePath).getD []).length
      let (_, filled, files) ← rx.readDev state.files .succeed pbuf offset bytesCount
      return { state with
        files := files, taken := state.taken ++ filled.take (min bytesCount available) }

def State.fifo (state : State) (path : String) : Fifo Byte :=
  ⟨state.taken, (state.files path).getD [], state.given⟩

def Action.perform (fifo : Fifo Byte) : Action → Fifo Byte
  | .write _ buf _ bytesCount => fifo.put (buf.take bytesCount)
  | .read _ _ _ bytesCount => fifo.get bytesCount

section Runs

variable {path : String} {state : State} {content : List Byte}

theorem step_refines (different : path ≠ tmpFilePath)
    (stored : state.files path = some content) {action : Action}
    (linked : action.LinkedTo path) :
    ∃ next left, step state action = .ok next ∧ next.files path = some left ∧
      next.fifo path = action.perform (state.fifo path) := by
  cases action with
  | write tx buf offset bytesCount =>
      rcases linked with ⟨rfl, holds⟩
      have written := writeDev_eq stored holds offset
      refine ⟨⟨Function.update state.files tx.filePath
        (some (content ++ buf.take bytesCount)), state.taken,
        state.given ++ buf.take bytesCount⟩,
        content ++ buf.take bytesCount, ?_, Function.update_self _ _ _, ?_⟩
      · simp only [step, written, Outcome.ok_bind]
        rfl
      · simp [State.fifo, Action.perform, Fifo.put, stored]
  | read rx pbuf offset bytesCount =>
      rcases linked with ⟨rfl, holds⟩
      have taken := readDev_eq different stored holds offset
      have found : (content.take bytesCount ++
          List.replicate (bytesCount - content.length) 0#8 ++ pbuf.drop bytesCount).take
            (min bytesCount content.length) = content.take bytesCount := by
        have length : (content.take bytesCount).length = min bytesCount content.length :=
          List.length_take
        rw [List.append_assoc, ← length, List.take_left]
      have left : Function.update (Function.update state.files rx.filePath
          (some (content.drop bytesCount))) tmpFilePath none rx.filePath =
            some (content.drop bytesCount) := by
        rw [Function.update_of_ne different, Function.update_self]
      refine ⟨⟨Function.update (Function.update state.files rx.filePath
        (some (content.drop bytesCount))) tmpFilePath none,
        state.taken ++ content.take bytesCount, state.given⟩,
        content.drop bytesCount, ?_, left, ?_⟩
      · simp only [step, taken, Outcome.ok_bind, stored, Option.getD_some, found]
        rfl
      · simp [State.fifo, Action.perform, Fifo.get, Fifo.front, stored, left]

def Accounted (path : String) (initial : List Byte) (state : State) : Prop :=
  (∃ content, state.files path = some content) ∧ (state.fifo path).Balanced initial

theorem Accounted.step {initial : List Byte} (different : path ≠ tmpFilePath)
    (accounted : Accounted path initial state) {action : Action}
    (linked : action.LinkedTo path) :
    ∃ next, GenericLoopBack.step state action = .ok next ∧
    Accounted path initial next := by
  rcases accounted with ⟨⟨content, stored⟩, balanced⟩
  rcases step_refines different stored linked with ⟨next, left, stepped, kept, refines⟩
  refine ⟨next, stepped, ⟨left, kept⟩, ?_⟩
  rw [refines]
  cases action with
  | write tx buf offset bytesCount => exact balanced.put _
  | read rx pbuf offset bytesCount => exact balanced.get _

/-- Every run of reads and writes on one file completes; in every state it goes
through, what was read, followed by what the file holds, is what it held at
first, followed by what was written; and a read finds the front of the file,
followed by zeros. -/
theorem file_is_a_queue (different : path ≠ tmpFilePath) (files : Files)
    {initial : List Byte} (exists_file : files path = some initial)
    (actions : List Action) (linked : ∀ action ∈ actions, action.LinkedTo path) :
    (∃ final, run step ⟨files, [], []⟩ actions = .ok final) ∧
    ∀ state, Reached step ⟨files, [], []⟩ actions state →
      ∃ content, state.files path = some content ∧
        state.taken ++ content = initial ++ state.given ∧
        ∀ pbuf offset bytesCount, bytesCount ≤ pbuf.length →
          ∃ next, GenericRXDevice.readDev ⟨path⟩ state.files .succeed pbuf offset bytesCount =
            .ok (bytesCount, content.take bytesCount ++
              List.replicate (bytesCount - content.length) 0#8 ++ pbuf.drop bytesCount,
              next) := by
  have start : Accounted path initial ⟨files, [], []⟩ := by
    have queue : State.fifo ⟨files, [], []⟩ path = Fifo.start initial := by
      simp [State.fifo, exists_file, Fifo.start]
    refine ⟨⟨initial, exists_file⟩, ?_⟩
    rw [queue]
    exact Fifo.balanced_start initial
  constructor
  · apply run_returns step (Accounted path initial) start actions
    intro state accounted action member
    exact accounted.step different (linked action member)
  · intro state reached
    have accounted : Accounted path initial state := by
      apply reached_invariant step (Accounted path initial) start _ state reached
      intro middle action next taken stepped accounted
      rcases accounted.step different (linked action (taken.mem step)) with
        ⟨other, otherStepped, holds⟩
      rw [stepped] at otherStepped
      cases otherStepped
      exact holds
    rcases accounted with ⟨⟨content, stored⟩, balanced⟩
    refine ⟨content, stored, ?_, ?_⟩
    · simpa [State.fifo, Fifo.Balanced, stored] using balanced
    · intro pbuf offset bytesCount holds
      exact ⟨_, readDev_eq different stored holds offset⟩

theorem short_file_is_a_queue :
    ∃ final content,
      run step ⟨Function.update (fun _ => none) "data.bin" (some [9]), [], []⟩
        [.write ⟨"data.bin"⟩ [1, 2] 0 2,
        .read ⟨"data.bin"⟩ [7, 7, 7, 7] 0 4] = .ok final ∧
      final.files "data.bin" = some content ∧
      final.taken ++ content = [9] ++ final.given := by
  have queue := file_is_a_queue (show "data.bin" ≠ tmpFilePath by decide)
    (Function.update (fun _ => none) "data.bin" (some [9])) (Function.update_self _ _ _)
    [.write ⟨"data.bin"⟩ [1, 2] 0 2, .read ⟨"data.bin"⟩ [7, 7, 7, 7] 0 4]
    (by simp [Action.LinkedTo])
  rcases queue with ⟨⟨final, ran⟩, states⟩
  rcases states final ⟨_, List.prefix_rfl, ran⟩ with ⟨content, stored, balanced, _⟩
  exact ⟨final, content, ran, stored, balanced⟩

end Runs

end GenericLoopBack

end IioEmu
