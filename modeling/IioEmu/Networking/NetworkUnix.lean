import IioEmu.Foundation.Outcome
import Mathlib.Data.Finset.Basic

/-! # The listening socket and the table of clients

The kernel is a parameter: `select` and `accept` are given their answers. A descriptor set
has a bit for each descriptor below `FD_SETSIZE` and nothing beyond. -/

namespace IioEmu

def EINTR : Int := 4

def EAGAIN : Int := 11

def FD_SETSIZE : Int := 1024

abbrev FdSet := Finset Int

/-- The macros do not test the descriptor. -/
def HasBit (fd : Int) : Prop := 0 ≤ fd ∧ fd < FD_SETSIZE

instance (fd : Int) : Decidable (HasBit fd) := by
  unfold HasBit
  infer_instance

def fdSet (set : FdSet) (fd : Int) : Outcome FdSet :=
  if HasBit fd then .ok (insert fd set) else .error .outOfBounds

def fdIsSet (set : FdSet) (fd : Int) : Outcome Bool :=
  if HasBit fd then .ok (decide (fd ∈ set)) else .error .outOfBounds

inductive SelectAnswer
  | ready (readable beyond : FdSet)
  | failed (errno : Int)

def SelectAnswer.leaves (nfds : Int) (set : FdSet) : SelectAnswer → FdSet
  | ready readable beyond => set.filter fun fd => fd ∈ if fd < nfds then readable else beyond
  | failed _ => set

/-- The answer of `::accept`, and whether all the options of the new socket could be set. -/
inductive AcceptAnswer
  | failed
  | accepted (fd : Int) (optionsSet : Bool)

structure NetworkUnix where
  fdSet : FdSet
  listenSocket : Int
  listening : Bool
  clients : List Int
  deriving DecidableEq

namespace NetworkUnix

def opened (listenSocket : Int) : NetworkUnix := ⟨∅, listenSocket, true, []⟩

def close (network : NetworkUnix) : Int × NetworkUnix :=
  if network.listenSocket ≤ 0 then (-1, network)
  else (0, { network with listening := false })

def accept (network : NetworkUnix) : AcceptAnswer → Int × Option Int
  | answer =>
      if network.listenSocket ≤ 0 then (-1, none)
      else match answer with
        | .failed => (-EAGAIN, none)
        | .accepted fd optionsSet => (if optionsSet then 0 else -1, some fd)

def maxFd (network : NetworkUnix) : Int :=
  match network.clients with
  | [] => network.listenSocket
  | client :: clients => clients.foldl max client

def checkForNewConnections (network : NetworkUnix) (select : SelectAnswer)
    (answer : AcceptAnswer) : Outcome (Int × Option Int × NetworkUnix) := do
  let listenOnly ← IioEmu.fdSet ∅ network.listenSocket
  let watched ← network.clients.foldlM IioEmu.fdSet listenOnly
  let left := select.leaves (network.maxFd + 1) watched
  let network := { network with fdSet := left }
  match select with
  | .failed errno =>
      if errno ≠ EINTR then return (-1, none, network.close.2)
      else acceptReported network left answer
  | .ready _ _ => acceptReported network left answer
where
  /-- The part after `select`. -/
  acceptReported (network : NetworkUnix) (left : FdSet) (answer : AcceptAnswer) :
      Outcome (Int × Option Int × NetworkUnix) := do
    if ← fdIsSet left network.listenSocket then
      let (ret, newSocket) := network.accept answer
      if ret = EAGAIN then return (0, newSocket, network)
      else if ret < 0 then return (ret, newSocket, network.close.2)
      else return (0, newSocket,
        { network with clients := network.clients ++ newSocket.toList })
    else return (0, none, network)

def pushActive (set : FdSet) (activeConnections : List Int) (client : Int) :
    Outcome (List Int) := do
  if ← fdIsSet set client then return activeConnections ++ [client]
  else return activeConnections

def getActiveConnections (network : NetworkUnix) : Outcome (List Int) :=
  network.clients.foldlM (pushActive network.fdSet) []

def disconnectSocket (network : NetworkUnix) (socket : Int) : NetworkUnix :=
  { network with clients := network.clients.filter (· ≠ socket) }

/-! ## What the calls do -/

theorem foldlM_fdSet {clients : List Int} (bits : ∀ client ∈ clients, HasBit client)
    (set : FdSet) : clients.foldlM IioEmu.fdSet set = .ok (set ∪ clients.toFinset) := by
  induction clients generalizing set with
  | nil => simp
  | cons client clients induction =>
      rw [List.foldlM_cons, IioEmu.fdSet, if_pos (bits client (by simp)), Outcome.ok_bind,
        induction (fun other member => bits other (by simp [member]))]
      congr 1
      ext fd
      simp only [Finset.mem_union, Finset.mem_insert, List.mem_toFinset, List.mem_cons]
      tauto

theorem le_foldl_max (clients : List Int) (start : Int) :
    start ≤ clients.foldl max start := by
  induction clients generalizing start with
  | nil => exact Int.le_refl _
  | cons client clients induction =>
      exact Int.le_trans (Int.le_max_left _ _) (induction (max start client))

theorem mem_le_foldl_max {clients : List Int} {client : Int} (member : client ∈ clients)
    (start : Int) : client ≤ clients.foldl max start := by
  induction clients generalizing start with
  | nil => cases member
  | cons head clients induction =>
      cases List.mem_cons.mp member with
      | inl equal =>
          rw [equal]
          exact Int.le_trans (Int.le_max_right _ _) (le_foldl_max clients _)
      | inr later => exact induction later _

theorem le_maxFd {network : NetworkUnix} {client : Int}
    (member : client ∈ network.clients) :
    client ≤ network.maxFd := by
  unfold maxFd
  split
  · rename_i empty
    rw [empty] at member
    cases member
  · rename_i first rest split
    rw [split] at member
    cases List.mem_cons.mp member with
    | inl equal =>
        rw [equal]
        exact le_foldl_max rest _
    | inr later => exact mem_le_foldl_max later _

def watched (network : NetworkUnix) : FdSet :=
  insert network.listenSocket network.clients.toFinset

def left (network : NetworkUnix) (select : SelectAnswer) : FdSet :=
  select.leaves (network.maxFd + 1) network.watched

theorem mem_watched_iff {network : NetworkUnix} {fd : Int} :
    fd ∈ network.watched ↔ fd = network.listenSocket ∨ fd ∈ network.clients := by
  simp [watched]

theorem mem_leaves_of_mem {select : SelectAnswer} {nfds fd : Int} {set : FdSet}
    (member : fd ∈ select.leaves nfds set) : fd ∈ set := by
  cases select with
  | ready readable beyond => exact (Finset.mem_filter.mp member).1
  | failed errno => exact member

theorem mem_left_of_readable {network : NetworkUnix} {client : Int}
    {readable beyond : FdSet} (member : client ∈ network.clients)
    (reported : client ∈ readable) : client ∈ network.left (.ready readable beyond) := by
  have tested : client < network.maxFd + 1 := by
    have bound := le_maxFd member
    omega
  rw [left, SelectAnswer.leaves, Finset.mem_filter, if_pos tested]
  exact ⟨mem_watched_iff.mpr (.inr member), reported⟩

section Check

variable {network next : NetworkUnix} {select : SelectAnswer} {answer : AcceptAnswer}
  {ret : Int} {newSocket : Option Int}

theorem watched_bits (listenBit : HasBit network.listenSocket)
    (bits : ∀ client ∈ network.clients, HasBit client) :
    (IioEmu.fdSet ∅ network.listenSocket >>= fun listenOnly =>
      network.clients.foldlM IioEmu.fdSet listenOnly) = .ok network.watched := by
  have first : IioEmu.fdSet ∅ network.listenSocket = .ok {network.listenSocket} := by
    simp [IioEmu.fdSet, listenBit]
  rw [first, Outcome.ok_bind, foldlM_fdSet bits]
  rfl

/-- A call that accepts every connection the kernel offers: it adds the new one to the
clients and nothing else. -/
theorem checkForNewConnections_eq (listenBit : HasBit network.listenSocket)
    (positive : 0 < network.listenSocket)
    (bits : ∀ client ∈ network.clients, HasBit client)
    (selects : ∀ errno, select = .failed errno → errno = EINTR) (fd : Int) :
    network.checkForNewConnections select (.accepted fd true) =
      .ok (if network.listenSocket ∈ network.left select then
        (0, some fd, { network with
          fdSet := network.left select, clients := network.clients ++ [fd] })
      else (0, none, { network with fdSet := network.left select })) := by
  have bound := watched_bits listenBit bits
  rw [Outcome.bind_eq_ok] at bound
  rcases bound with ⟨listenOnly, first, rest⟩
  have reported : checkForNewConnections.acceptReported
      { network with fdSet := network.left select } (network.left select)
      (.accepted fd true) = .ok (if network.listenSocket ∈ network.left select then
        (0, some fd, { network with
          fdSet := network.left select, clients := network.clients ++ [fd] })
      else (0, none, { network with fdSet := network.left select })) := by
    have tested : fdIsSet (network.left select) network.listenSocket =
        .ok (decide (network.listenSocket ∈ network.left select)) := if_pos listenBit
    have accepts :
        accept { network with fdSet := network.left select } (.accepted fd true) =
        (0, some fd) := by
      simp only [accept, show ¬ network.listenSocket ≤ 0 by omega, if_false, if_true]
    rw [checkForNewConnections.acceptReported, tested, Outcome.ok_bind]
    by_cases pending : network.listenSocket ∈ network.left select
    · simp only [pending, decide_true, if_true, accepts]
      rfl
    · simp only [pending, decide_false, if_false, Bool.false_eq_true, Outcome.pure_eq_ok]
  cases select with
  | ready readable beyond =>
      rw [checkForNewConnections, first, Outcome.ok_bind, rest, Outcome.ok_bind]
      exact reported
  | failed errno =>
      rw [checkForNewConnections, first, Outcome.ok_bind, rest, Outcome.ok_bind]
      simp only [selects errno rfl, ne_eq, not_true_eq_false, if_false]
      rw [← selects errno rfl]
      exact reported

end Check

/-- The clients whose bit is set, in order; all of them must have one. -/
theorem getActiveConnections_eq_ok_iff {network : NetworkUnix} {active : List Int} :
    network.getActiveConnections = .ok active ↔
      (∀ client ∈ network.clients, HasBit client) ∧
        active = network.clients.filter (· ∈ network.fdSet) := by
  have scanned : ∀ clients found : List Int,
      clients.foldlM (pushActive network.fdSet) found = .ok active ↔
        (∀ client ∈ clients, HasBit client) ∧
          active = found ++ clients.filter (· ∈ network.fdSet) := by
    intro clients
    induction clients with
    | nil =>
        intro found
        simp [eq_comm]
    | cons client clients induction =>
        intro found
        rw [List.foldlM_cons, List.forall_mem_cons, List.filter_cons]
        by_cases bit : HasBit client
        · by_cases set : client ∈ network.fdSet
          · have pushed :
                pushActive network.fdSet found client = .ok (found ++ [client]) := by
              simp [pushActive, fdIsSet, bit, set]
            rw [pushed, Outcome.ok_bind, induction]
            simp [bit, set]
          · have pushed : pushActive network.fdSet found client = .ok found := by
              simp [pushActive, fdIsSet, bit, set]
            rw [pushed, Outcome.ok_bind, induction]
            simp [bit, set]
        · have failed : pushActive network.fdSet found client = .error .outOfBounds := by
            simp [pushActive, fdIsSet, bit]
          simp [failed, bit]
  exact scanned network.clients []

end NetworkUnix

end IioEmu
