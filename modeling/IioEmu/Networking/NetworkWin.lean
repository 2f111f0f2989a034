import IioEmu.Networking.SocketWin

/-! # The listening socket and the table of clients on Windows

A descriptor set is an array of at most `FD_SETSIZE` sockets, and one that finds no room is
left out. The listening socket is the first of it, so the set holds the clients at the head of
the table and none of the others. -/

namespace IioEmu

inductive WinSelectAnswer
  | ready (readable : Finset Nat)
  | failed

inductive WinAcceptAnswer
  | failed
  | accepted (socket : Nat) (optionsSet : Bool)

structure NetworkWin where
  fdSet : List Nat
  listenSocket : Nat
  listening : Bool
  clients : List Nat
  deriving DecidableEq

namespace NetworkWin

def FD_SETSIZE : Nat := 64

def addSocket (set : List Nat) (socket : Nat) : List Nat :=
  if socket ∈ set then set
  else if set.length < FD_SETSIZE then set ++ [socket]
  else set

def opened (listenSocket : Nat) : NetworkWin := ⟨[], listenSocket, true, []⟩

def close (network : NetworkWin) : Int × NetworkWin :=
  if network.listenSocket = INVALID_SOCKET then (-1, network)
  else (0, { network with listening := false })

/-- The returned value and the new socket, which is closed again when not all its options
could be set. A call that fails closes the listening socket. -/
def accept (network : NetworkWin) : WinAcceptAnswer → Int × Option Nat × NetworkWin
  | answer =>
      if network.listenSocket = INVALID_SOCKET then (-1, none, network)
      else match answer with
        | .failed => (-1, none, network.close.2)
        | .accepted socket optionsSet => (if optionsSet then 0 else -1,
        some socket, network)

def checkForNewConnections (network : NetworkWin) (select : WinSelectAnswer)
    (answer : WinAcceptAnswer) : Int × Option Nat × NetworkWin :=
  let watched := network.clients.foldl addSocket (addSocket [] network.listenSocket)
  match select with
  | .failed => (-1, none, { network with fdSet := watched }.close.2)
  | .ready readable =>
      let network := { network with fdSet := watched.filter (· ∈ readable) }
      if network.listenSocket ∈ network.fdSet then
        let (ret, newSocket, network) := network.accept answer
        if ret = EAGAIN then (0, newSocket, network)
        else if ret < 0 then (ret, newSocket, network.close.2)
        else (0, newSocket,
          { network with clients := network.clients ++ newSocket.toList })
      else (0, none, network)

def getActiveConnections (network : NetworkWin) : List Int :=
  (network.clients.filter (· ∈ network.fdSet)).map intOfSocket

def disconnectSocket (network : NetworkWin) (socket : Int) : NetworkWin :=
  { network with clients := network.clients.filter (· ≠ socketOfInt socket) }

/-! ## The sets -/

def watchedClients (network : NetworkWin) : List Nat :=
  network.clients.take (FD_SETSIZE - 1)

theorem foldl_addSocket {set clients : List Nat} (distinct : (set ++ clients).Nodup)
    (size : set.length ≤ FD_SETSIZE) :
    clients.foldl addSocket set = set ++ clients.take (FD_SETSIZE - set.length) := by
  induction clients generalizing set with
  | nil => simp
  | cons client clients induction =>
      have new : client ∉ set := fun inside =>
        (List.nodup_append.mp distinct).2.2 client inside client List.mem_cons_self rfl
      rw [List.foldl_cons, addSocket, if_neg new]
      by_cases room : set.length < FD_SETSIZE
      · rw [if_pos room, induction]
        · have left :
              FD_SETSIZE - set.length = (FD_SETSIZE - (set ++ [client]).length) + 1 := by
            rw [List.length_append, List.length_singleton]
            omega
          rw [left, List.take_succ_cons, List.append_assoc, List.singleton_append]
        · simpa using distinct
        · rw [List.length_append, List.length_singleton]
          omega
      · have full : FD_SETSIZE - set.length = 0 := by omega
        rw [if_neg room, induction]
        · rw [full, List.take_zero, List.take_zero]
        · exact distinct.sublist (List.Sublist.append_left (List.sublist_cons_self _ _) _)
        · exact size

theorem watched_eq {network : NetworkWin} (distinct : network.clients.Nodup)
    (notClient : network.listenSocket ∉ network.clients) :
    network.clients.foldl addSocket (addSocket [] network.listenSocket) =
      network.listenSocket :: network.watchedClients := by
  have first : addSocket [] network.listenSocket = [network.listenSocket] := rfl
  rw [first, foldl_addSocket]
  · rfl
  · exact List.nodup_cons.mpr ⟨notClient, distinct⟩
  · simp [FD_SETSIZE]

end NetworkWin

namespace TcpServer

open Execution

structure WinIteration where
  select : WinSelectAnswer
  accept : WinAcceptAnswer
  commands : Int → List WinCall

structure WinState where
  network : NetworkWin
  error : Int
  history : List (List SocketEvent)

def WinState.events (state : WinState) : List SocketEvent := state.history.flatten

def startWin (listenSocket : Nat) (error : Int) : WinState :=
  ⟨NetworkWin.opened listenSocket, error, []⟩

def WinState.opens (state : WinState) (socket : Nat) : Prop :=
  socket ≠ state.network.listenSocket ∧ isConnected socket state.events = false

instance (state : WinState) (socket : Nat) : Decidable (state.opens socket) := by
  unfold WinState.opens
  infer_instance

def serveClientsWin (commands : Int → List WinCall) (network : NetworkWin) (error : Int) :
    List Int → Outcome (NetworkWin × Int × List SocketEvent)
  | [] => .ok (network, error, [])
  | client :: activeConnections => do
      let socket := SocketWin.construct client
      let events := commandEvents socket.fd error (commands client)
      let (socket, error) ← readCommandWin socket error (commands client)
      let network :=
        if socket.disconnected then network.disconnectSocket client else network
      let (network, error, later) ← serveClientsWin commands network error activeConnections
      return (network, error, .served client :: events ++ later)

def iterateWin (state : WinState) (iteration : WinIteration) : Except Stop WinState :=
  match state.network.checkForNewConnections iteration.select iteration.accept with
  | (ret, newSocket, network) =>
      if ∃ socket ∈ newSocket, ¬ state.opens socket then .error .refused
      else if ret < 0 then .error (.failed ret)
      else match serveClientsWin iteration.commands network state.error
          network.getActiveConnections with
        | .error fault => .error (.fault fault)
        | .ok (network, error, events) => .ok {
            network := network
            error := error
            history := state.history ++
              [newSocket.toList.map (fun socket : Nat =>
                SocketEvent.accepted socket) ++ events] }

end TcpServer

end IioEmu
