import Mathlib.Data.List.Basic

/-! # Queues and their accounts

A queue beside the record of everything put into it and taken out of it. The
account balances: what came out, followed by what is inside, is what was inside
at first, followed by what went in. -/

namespace IioEmu

structure Fifo (α : Type) where
  taken : List α
  contents : List α
  given : List α
  deriving DecidableEq

namespace Fifo

variable {α : Type}

def start (contents : List α) : Fifo α := ⟨[], contents, []⟩

def put (fifo : Fifo α) (values : List α) : Fifo α :=
  { fifo with contents := fifo.contents ++ values, given := fifo.given ++ values }

def front (fifo : Fifo α) (count : Nat) : List α := fifo.contents.take count

def get (fifo : Fifo α) (count : Nat) : Fifo α :=
  { fifo with
    taken := fifo.taken ++ fifo.front count
    contents := fifo.contents.drop count }

/-- Nothing is lost, duplicated or reordered. -/
def Balanced (initial : List α) (fifo : Fifo α) : Prop :=
  fifo.taken ++ fifo.contents = initial ++ fifo.given

theorem balanced_start (contents : List α) : (start contents).Balanced contents := by
  simp [start, Balanced]

theorem Balanced.put {initial : List α} {fifo : Fifo α} (balanced : fifo.Balanced initial)
    (values : List α) : (fifo.put values).Balanced initial := by
  simp only [Balanced, Fifo.put] at balanced ⊢
  rw [← List.append_assoc, balanced, List.append_assoc]

theorem Balanced.get {initial : List α} {fifo : Fifo α} (balanced : fifo.Balanced initial)
    (count : Nat) : (fifo.get count).Balanced initial := by
  simp only [Balanced, Fifo.get, front] at balanced ⊢
  rw [List.append_assoc, List.take_append_drop, balanced]

end Fifo

end IioEmu
