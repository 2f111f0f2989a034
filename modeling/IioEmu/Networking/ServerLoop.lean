import IioEmu.Foundation.Execution
import IioEmu.Networking.NetworkUnix
import IioEmu.Networking.SocketUnix

/-! # The loop of the server

One iteration looks for a new connection and then serves the clients that are ready, each
through a socket object of its own. What happened to the descriptors is kept beside the
state, iteration by iteration: the program itself has no such record. -/

namespace IioEmu.TcpServer

inductive SocketEvent
  | accepted (fd : Int)
  | served (fd : Int)
  | received (fd : Int)
  | sent (fd : Int)
  | closed (fd : Int)
  deriving DecidableEq

def isConnected (fd : Int) (events : List SocketEvent) : Bool :=
  events.foldl (fun connected event =>
    match event with
    | .accepted other => connected || other = fd
    | .closed other => connected && other ≠ fd
    | _ => connected) false

/-! ## Serving one client -/

inductive SocketCall
  | getData (len : Nat) (buf : ByteBuffer) (answers : List RecvAnswer)
  | write (buf : List Byte) (len : Nat) (answers : List SendAnswer)

def SocketCall.perform (socket : SocketUnix) : SocketCall → Outcome SocketUnix
  | .getData len buf answers => do
      let (_, _, socket) ← socket.getData len buf answers
      return socket
  | .write buf len answers => do
      let (_, socket) ← socket.write buf len answers
      return socket

def SocketCall.drops : SocketCall → Bool
  | .getData _ _ answers => SocketUnix.recvDrops answers
  | .write _ _ answers => SocketUnix.sendDrops answers

def SocketCall.uses (fd : Int) : SocketCall → SocketEvent
  | .getData .. => .received fd
  | .write .. => .sent fd

def SocketCall.events (fd : Int) (call : SocketCall) : List SocketEvent :=
  call.uses fd :: if call.drops then [.closed fd] else []

/-- `tinyiiod_read_command`, as the calls it makes. -/
def readCommand (socket : SocketUnix) (command : List SocketCall) : Outcome SocketUnix :=
  command.foldlM SocketCall.perform socket

/-- The loop over the active connections. Cancelling the devices of a client that
disconnected does not touch the table. -/
def serveClients (commands : Int → List SocketCall) (network : NetworkUnix) :
    List Int → Outcome (NetworkUnix × List SocketEvent)
  | [] => .ok (network, [])
  | client :: activeConnections => do
      let socket ← readCommand (SocketUnix.construct client) (commands client)
      let network :=
        if socket.disconnected then network.disconnectSocket client else network
      let (network, later) ← serveClients commands network activeConnections
      return (network,
        .served client :: (commands client).flatMap (SocketCall.events client) ++ later)

/-! ## Iterations -/

structure Iteration where
  select : SelectAnswer
  accept : AcceptAnswer
  commands : Int → List SocketCall

structure State where
  network : NetworkUnix
  history : List (List SocketEvent)

def State.events (state : State) : List SocketEvent := state.history.flatten

def start (listenSocket : Int) : State := ⟨NetworkUnix.opened listenSocket, []⟩

/-- An iteration the kernel cannot answer so, one that steps into undefined behaviour or
never ends, and one after which the server stops. -/
inductive Stop
  | refused
  | fault (fault : Fault)
  | failed (ret : Int)

def State.opens (state : State) (fd : Int) : Prop :=
  fd ≠ state.network.listenSocket ∧ isConnected fd state.events = false

instance (state : State) (fd : Int) : Decidable (state.opens fd) := by
  unfold State.opens
  infer_instance

def iterate (state : State) (iteration : Iteration) : Except Stop State :=
  match state.network.checkForNewConnections iteration.select iteration.accept with
  | .error fault => .error (.fault fault)
  | .ok (ret, newSocket, network) =>
      if ∃ fd ∈ newSocket, ¬ state.opens fd then .error .refused
      else if ret < 0 then .error (.failed ret)
      else match network.getActiveConnections with
        | .error fault => .error (.fault fault)
        | .ok activeConnections =>
            match serveClients iteration.commands network activeConnections with
            | .error fault => .error (.fault fault)
            | .ok (network, events) => .ok {
                network := network
                history := state.history ++
                  [newSocket.toList.map SocketEvent.accepted ++ events] }

/-! ## Connections -/

section Connections

variable {fd : Int} {events later : List SocketEvent}

theorem isConnected_append_of_not_accepted (none : .accepted fd ∉ later) :
    isConnected fd (events ++ later) =
      (isConnected fd events && decide (.closed fd ∉ later)) := by
  rw [isConnected, List.foldl_append, ← isConnected]
  generalize isConnected fd events = connected
  induction later generalizing connected with
  | nil => simp
  | cons event later induction =>
      simp only [List.mem_cons, not_or] at none
      rw [List.foldl_cons, induction none.2]
      cases event with
      | accepted other =>
          have different : other ≠ fd := fun equal => none.1 (by rw [equal])
          simp [different]
      | closed other =>
          by_cases same : other = fd
          · simp [same]
          · have different : fd ≠ other := fun equal => same equal.symm
            simp [same, different]
      | served other => simp
      | received other => simp
      | sent other => simp

theorem isConnected_concat_accepted (other : Int) :
    isConnected fd (events ++ [.accepted other]) =
      (isConnected fd events || decide (other = fd)) := by
  rw [isConnected, List.foldl_append, ← isConnected]
  rfl

theorem isConnected_iff :
    isConnected fd events = true ↔
      ∃ earlier later, events = earlier ++ .accepted fd :: later ∧
        .closed fd ∉ later := by
  apply Iff.intro
  · induction events using List.reverseRecOn with
    | nil => simp [isConnected]
    | append_singleton events event induction =>
        intro connected
        by_cases opened : event = .accepted fd
        · exact ⟨events, [], by rw [opened], by simp⟩
        · rw [isConnected_append_of_not_accepted (by simpa using Ne.symm opened),
            Bool.and_eq_true, decide_eq_true_eq, List.mem_singleton] at connected
          rcases induction connected.1 with ⟨earlier, later, split, open_since⟩
          refine ⟨earlier, later ++ [event], by simp [split], ?_⟩
          simpa using ⟨open_since, connected.2⟩
  · intro since
    rcases since with ⟨earlier, later, rfl, kept⟩
    have reaccepted : ∀ events : List SocketEvent, isConnected fd events = true →
        .closed fd ∉ later → isConnected fd (events ++ later) = true := by
      clear kept
      induction later with
      | nil =>
          intro events connected _
          simpa using connected
      | cons event later induction =>
          intro events connected kept
          simp only [List.mem_cons, not_or] at kept
          have next : isConnected fd (events ++ [event]) = true := by
            by_cases opened : event = .accepted fd
            · rw [opened, isConnected_concat_accepted]
              simp
            · rw [isConnected_append_of_not_accepted (by simpa using Ne.symm opened),
                connected]
              simpa using kept.1
          have whole := induction _ next kept.2
          simpa using whole
    have here : isConnected fd (earlier ++ [.accepted fd]) = true := by
      rw [isConnected_concat_accepted]
      simp
    simpa using reaccepted _ here kept

end Connections

end IioEmu.TcpServer
