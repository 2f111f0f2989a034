import IioEmu.Adalm2000.Isolation
import IioEmu.Adalm2000.ReadingPositions
import IioEmu.Devices.M2kLogicRX.LoopBack
import IioEmu.Foundation.Delivery

/-! # Clients that share the logic receiver

One client writes a frame and any number of clients read it back, while the clients of other
paths do what they like. The reads continue each other, whoever makes them: together they
deliver the frame played in a loop. -/

namespace IioEmu.Emulator

open Execution

/-! ## Reads of a receiver -/

section Reads

variable {α : Type} {receiver : String} {size : Nat} {decode : List Byte → List α}
  {action : Action} {reply : Reply}

def ReadsFrom (receiver : String) : Action → Prop
  | .serve _ (.readDev device _ _) => device = receiver
  | _ => False

def countAsked (receiver : String) (size : Nat) : Action → Nat
  | .serve _ (.readDev device _ bytesCount) =>
    if device = receiver then bytesCount / size else 0
  | _ => 0

def valuesRead (receiver : String) (decode : List Byte → List α) : Action × Reply → List α
  | (.serve _ (.readDev device _ _), .samples _ bytes) =>
      if device = receiver then decode bytes else []
  | _ => []

theorem ReadsFrom.eq_serve (reads : ReadsFrom receiver action) :
    ∃ fd offset bytesCount, action = .serve fd (.readDev receiver offset bytesCount) := by
  cases action with
  | disconnect fd => exact reads.elim
  | serve fd command =>
      cases command with
      | readDev device offset bytesCount =>
          have named : device = receiver := reads
          exact ⟨fd, offset, bytesCount, by rw [named]⟩
      | _ => exact reads.elim

theorem countAsked_of_not_reads (reads : ¬ ReadsFrom receiver action) :
    countAsked receiver size action = 0 := by
  cases action with
  | disconnect fd => rfl
  | serve fd command =>
      cases command with
      | readDev device => exact if_neg reads
      | _ => rfl

theorem valuesRead_of_not_reads (reads : ¬ ReadsFrom receiver action) :
    valuesRead receiver decode (action, reply) = [] := by
  cases action with
  | disconnect fd => rfl
  | serve fd command =>
      cases command with
      | readDev device =>
          cases reply with
          | samples => exact if_neg reads
          | _ => rfl
      | _ => rfl

end Reads

/-! ## Reads of the logic receiver -/

def received : Action × Reply → List Byte := valuesRead "iio:device10" id

section Steps

variable {δ : Type}

variable [Double δ] [LibXml2] [TinyIIOD] {clients : Clients} {emulator next : Emulator δ}
  {action : Action} {reply : Reply} {xs : List Word} {ratio start : Nat}

def Decimates (ratio : Nat) (emulator : Emulator δ) : Prop :=
  ∃ loaded, emulator.logicRX.loadValues emulator.context.doc = .ok loaded ∧
    loaded.ratio = ratio

theorem Decimates.step (decimates : Decimates ratio emulator)
    (wellFormed : WellFormed clients emulator) (keeps : action.Keeps clients)
    (quiet : KeepsAttributes clients .digital action)
    (stepped : emulator.step action = .ok (reply, next)) : Decimates ratio next := by
  rcases decimates with ⟨loaded, returned, rate⟩
  by_cases own : action.path clients = .digital
  · have named : next.logicRX.deviceId = emulator.logicRX.deviceId :=
      deviceId_of_projects (step_projects stepped) .logicRX
    rw [Decimates, context_of_step (quiet own) stepped]
    exact ⟨_, M2kLogicRX.loadValues_of_deviceId returned named, rate⟩
  · have agrees := agrees_of_step wellFormed keeps stepped (Ne.symm own)
    rw [Decimates, loads_logicRX agrees wellFormed.named]
    exact ⟨loaded, returned, rate⟩

end Steps

section Examples

open scoped Reference

def writing : List Action :=
  [.serve 4 (.writeDev "iio:device9" (bytesOfWords [1, 2]) 0 4),
    .serve 6 (.chWriteAttr "iio:device3" "voltage0" true "raw" (terminated "100") 3),
    .serve 4 (.writeDev "iio:device9" (bytesOfWords [3]) 4 2),
    .serve 4 (.transferMemToDev "iio:device9" 6)]

def reading : List Action :=
  [.serve 5 (.readDev "iio:device10" 0 4),
    .serve 6 (.chWriteAttr "iio:device3" "voltage0" true "raw" (terminated "7") 1),
    .serve 4 (.readDev "iio:device10" 0 6)]

end Examples

end IioEmu.Emulator
