import IioEmu.Foundation.Components
import IioEmu.Networking.ClientTable

/-! # The server and its context

The loop hands each ready client's socket to the context, lets the parser serve a command
and tells the context when the connection is gone. The parser calls the operations of the
context in any order, and reads and writes through the socket the context was given last:
a pointer to an object of the loop that dies with the iteration over the clients. -/

namespace IioEmu.TcpServer

open Execution

/-- The virtual functions of `AbstractOps`; `perform` stands for those of the table. -/
structure AbstractOps (Context Operation Answer : Type) where
  setCurrentSocket : Context → Int → Context
  perform : Context → Operation → Outcome (Answer × Context)
  socketDisconnected : Context → Int → Outcome Context

inductive ParserCall (Operation : Type)
  | data (call : SocketCall)
  | operation (op : Operation)

inductive ContextCall (Operation : Type)
  | accepted (fd : Int)
  | setCurrentSocket (fd : Int)
  | data (fd : Int)
  | operation (fd : Int) (op : Operation)
  | socketDisconnected (fd : Int)
  | released (fd : Int)

section Server

variable {Context Operation Answer : Type}

/-- The calls that are no operation answer nothing. -/
def AbstractOps.step (ops : AbstractOps Context Operation Answer) (context : Context) :
    ContextCall Operation → Outcome (Option Answer × Context)
  | .accepted _ | .data _ | .released _ => .ok (none, context)
  | .setCurrentSocket fd => .ok (none, ops.setCurrentSocket context fd)
  | .operation _ op => do
      let (answer, context) ← ops.perform context op
      return (some answer, context)
  | .socketDisconnected fd => do
      let context ← ops.socketDisconnected context fd
      return (none, context)

def socketCalls (command : List (ParserCall Operation)) : List SocketCall :=
  command.filterMap fun call =>
    match call with
    | .data call => some call
    | .operation _ => none

def contextCalls (client : Int) (command : List (ParserCall Operation)) :
    List (ContextCall Operation) :=
  command.map fun call =>
    match call with
    | .data _ => .data client
    | .operation op => .operation client op

def callsFor (client : Int) (command : List (ParserCall Operation)) :
    List (ContextCall Operation) :=
  .setCurrentSocket client :: contextCalls client command ++
    (if (socketCalls command).any SocketCall.drops then [.socketDisconnected client]
      else []) ++
    [.released client]

variable (ops : AbstractOps Context Operation Answer)

def parseCommand (socket : SocketUnix) (context : Context) :
    List (ParserCall Operation) → Outcome (SocketUnix × Context)
  | [] => .ok (socket, context)
  | .data call :: command => do
      let socket ← call.perform socket
      parseCommand socket context command
  | .operation op :: command => do
      let (_, context) ← ops.perform context op
      parseCommand socket context command

def serveClient (command : List (ParserCall Operation)) (network : NetworkUnix)
    (context : Context) (client : Int) : Outcome (NetworkUnix × Context) := do
  let (socket, context) ← parseCommand ops (SocketUnix.construct client)
    (ops.setCurrentSocket context client) command
  if socket.disconnected then
    let context ← ops.socketDisconnected context client
    return (network.disconnectSocket client, context)
  else return (network, context)

def serveActive (commands : Int → List (ParserCall Operation)) (network : NetworkUnix)
    (context : Context) : List Int → Outcome (NetworkUnix × Context)
  | [] => .ok (network, context)
  | client :: activeConnections => do
      let (network, context) ← serveClient ops (commands client) network context client
      serveActive commands network context activeConnections

/-- What the kernel answers in one iteration, and what the parser makes of the bytes. -/
structure ServedIteration (Operation : Type) where
  select : SelectAnswer
  accept : AcceptAnswer
  commands : Int → List (ParserCall Operation)

def ServedIteration.network (iteration : ServedIteration Operation) : Iteration :=
  ⟨iteration.select, iteration.accept, fun fd => socketCalls (iteration.commands fd)⟩

/-- The server with its context. The calls are kept beside it, as the events are. -/
structure ServerState (Context Operation : Type) where
  server : State
  context : Context
  calls : List (ContextCall Operation)

def startServing (listenSocket : Int) (context : Context) :
    ServerState Context Operation :=
  ⟨start listenSocket, context, []⟩

def serveIteration (state : ServerState Context Operation)
    (iteration : ServedIteration Operation) :
    Except Stop (ServerState Context Operation) :=
  match state.server.network.checkForNewConnections iteration.select iteration.accept with
  | .error fault => .error (.fault fault)
  | .ok (ret, newSocket, network) =>
      if ∃ fd ∈ newSocket, ¬ state.server.opens fd then .error .refused
      else if ret < 0 then .error (.failed ret)
      else match network.getActiveConnections with
        | .error fault => .error (.fault fault)
        | .ok activeConnections =>
            match serveActive ops iteration.commands network state.context
                activeConnections with
            | .error fault => .error (.fault fault)
            | .ok (network, context) => .ok {
                server := {
                  network := network
                  history := state.server.history ++
                  [newSocket.toList.map SocketEvent.accepted ++
                    activeConnections.flatMap fun client => .served client ::
                      (socketCalls (iteration.commands client)).flatMap
                        (SocketCall.events client)] }
                context := context
                calls := state.calls ++ newSocket.toList.map ContextCall.accepted ++
                  activeConnections.flatMap fun client =>
                    callsFor client (iteration.commands client) }

end Server

/-! ## The discipline of sockets -/

structure SocketUse where
  connected : Finset Int
  current : Option Int
  deriving DecidableEq

/-- A call follows the socket of the client it is made for, while the object lives and the
connection is in the table; and a connection is reported gone once, through its own socket. -/
def SocketUse.step {Operation : Type} (use : SocketUse) :
    ContextCall Operation → Except Unit SocketUse
  | .accepted fd =>
      if fd ∈ use.connected then .error ()
      else .ok { use with connected := insert fd use.connected }
  | .setCurrentSocket fd =>
      if fd ∈ use.connected ∧ use.current = none then .ok { use with current := some fd }
      else .error ()
  | .data fd | .operation fd _ =>
      if use.current = some fd ∧ fd ∈ use.connected then .ok use else .error ()
  | .socketDisconnected fd =>
      if use.current = some fd ∧ fd ∈ use.connected then
        .ok { use with connected := use.connected.erase fd }
      else .error ()
  | .released fd =>
      if use.current = some fd then .ok { use with current := none } else .error ()

section Steps

variable {Operation : Type} {use next : SocketUse} {fd : Int}

theorem SocketUse.allowed_iff {allowed : Prop} [Decidable allowed] {after : SocketUse} :
    (if allowed then .ok after else .error () : Except Unit SocketUse) = .ok next ↔
      allowed ∧ after = next := by
  by_cases holds : allowed <;> simp [holds]

theorem SocketUse.step_accepted :
    use.step (.accepted fd : ContextCall Operation) = .ok next ↔
      fd ∉ use.connected ∧ { use with connected := insert fd use.connected } = next := by
  rw [SocketUse.step, ← ite_not, SocketUse.allowed_iff]

theorem SocketUse.step_setCurrentSocket :
    use.step (.setCurrentSocket fd : ContextCall Operation) = .ok next ↔
      (fd ∈ use.connected ∧ use.current = none) ∧
        { use with current := some fd } = next := by
  rw [SocketUse.step, SocketUse.allowed_iff]

theorem SocketUse.step_data :
    use.step (.data fd : ContextCall Operation) = .ok next ↔
      (use.current = some fd ∧ fd ∈ use.connected) ∧ use = next := by
  rw [SocketUse.step, SocketUse.allowed_iff]

theorem SocketUse.step_operation {op : Operation} :
    use.step (.operation fd op) = .ok next ↔
      (use.current = some fd ∧ fd ∈ use.connected) ∧ use = next := by
  rw [SocketUse.step, SocketUse.allowed_iff]

theorem SocketUse.step_socketDisconnected :
    use.step (.socketDisconnected fd : ContextCall Operation) = .ok next ↔
      (use.current = some fd ∧ fd ∈ use.connected) ∧
        { use with connected := use.connected.erase fd } = next := by
  rw [SocketUse.step, SocketUse.allowed_iff]

theorem SocketUse.step_released :
    use.step (.released fd : ContextCall Operation) = .ok next ↔
      use.current = some fd ∧ { use with current := none } = next := by
  rw [SocketUse.step, SocketUse.allowed_iff]

end Steps

section Calls

variable {Operation : Type}

theorem use_of_command (command : List (ParserCall Operation))
    {use : SocketUse} {client : Int} (current : use.current = some client)
    (connected : client ∈ use.connected) :
    run SocketUse.step use (contextCalls client command) = .ok use := by
  induction command with
  | nil => rfl
  | cons call command induction =>
      refine (run_cons_eq_ok_iff _).mpr ⟨use, ?_, induction⟩
      cases call with
      | data | operation => rw [SocketUse.step, if_pos ⟨current, connected⟩]

theorem use_of_callsFor (command : List (ParserCall Operation)) {connected : Finset Int}
    {client : Int} (member : client ∈ connected) :
    run SocketUse.step ⟨connected, none⟩ (callsFor client command) =
      .ok ⟨if (socketCalls command).any SocketCall.drops then connected.erase client
        else connected, none⟩ := by
  have taken : SocketUse.step ⟨connected, none⟩
      (.setCurrentSocket client : ContextCall Operation) =
      .ok ⟨connected, some client⟩ := by
    rw [SocketUse.step, if_pos ⟨member, rfl⟩]
  have noticed : SocketUse.step ⟨connected, some client⟩
      (.socketDisconnected client : ContextCall Operation) =
        .ok ⟨connected.erase client, some client⟩ := by
    rw [SocketUse.step, if_pos ⟨rfl, member⟩]
  have released (connected : Finset Int) : run SocketUse.step ⟨connected, some client⟩
      [(.released client : ContextCall Operation)] = .ok ⟨connected, none⟩ := by
    rw [run_singleton, SocketUse.step, if_pos rfl]
  have followed : run SocketUse.step ⟨connected,
    some client⟩ (contextCalls client command) =
      .ok ⟨connected, some client⟩ := use_of_command command rfl member
  rw [callsFor, List.cons_append, List.cons_append, run_cons_eq_ok_iff]
  refine ⟨_, taken, ?_⟩
  rw [List.append_assoc, run_append_eq_ok_iff]
  refine ⟨_, followed, ?_⟩
  cases (socketCalls command).any SocketCall.drops with
  | false => exact released connected
  | true => exact (run_cons_eq_ok_iff _).mpr ⟨_, noticed, released _⟩

theorem mem_callsFor {command : List (ParserCall Operation)} {client fd : Int}
    {op : Operation} (member : .operation fd op ∈ callsFor client command) :
    fd = client ∧ .operation op ∈ command := by
  have called : .operation fd op ∈ contextCalls client command := by
    cases dropped : (socketCalls command).any SocketCall.drops <;>
      simpa [callsFor, dropped] using member
  rcases List.mem_map.mp called with ⟨call, inside, equal⟩
  cases call with
  | data call => cases equal
  | operation op =>
      cases equal
      exact ⟨rfl, inside⟩

theorem not_accepted_mem_callsFor
    {command : List (ParserCall Operation)} {client fd : Int} :
    .accepted fd ∉ callsFor client command := by
  intro member
  have called : .accepted fd ∈ contextCalls client command := by
    cases dropped : (socketCalls command).any SocketCall.drops <;>
      simpa [callsFor, dropped] using member
  rcases List.mem_map.mp called with ⟨call, _, equal⟩
  cases call <;> cases equal

end Calls

/-! ## The table and the context, apart -/

section Apart

variable {Context Operation Answer : Type} {ops : AbstractOps Context Operation Answer}
  {network network' : NetworkUnix} {context context' : Context}

theorem parseCommand_eq_ok_iff (client : Int) {command : List (ParserCall Operation)}
    {socket socket' : SocketUnix} :
    parseCommand ops socket context command = .ok (socket', context') ↔
      readCommand socket (socketCalls command) = .ok socket' ∧
        run (advance ops.step) context (contextCalls client command) = .ok context' := by
  induction command generalizing socket context with
  | nil => simp [parseCommand, socketCalls, contextCalls, readCommand,
        Pure.pure, Except.pure]
  | cons call command induction =>
      cases call with
      | data call =>
          have head : socketCalls (.data call :: command) =
            call :: socketCalls command := rfl
          have quiet : run (advance ops.step) context
              (contextCalls client (.data call :: command)) =
              run (advance ops.step) context (contextCalls client command) := rfl
          rw [parseCommand, Outcome.bind_eq_ok, quiet, readCommand,
            head, List.foldlM_cons, Outcome.bind_eq_ok]
          constructor
          · intro parsed
            rcases parsed with ⟨middle, performed, rest⟩
            rcases induction.mp rest with ⟨read, ran⟩
            exact ⟨⟨middle, performed, read⟩, ran⟩
          · intro apart
            rcases apart with ⟨⟨middle, performed, read⟩, ran⟩
            exact ⟨middle, performed, induction.mpr ⟨read, ran⟩⟩
      | operation op =>
          have unread : socketCalls (.operation op :: command) =
            socketCalls command := rfl
          have head : contextCalls client (.operation op :: command) =
              .operation client op :: contextCalls client command := rfl
          have stepped {middle : Context} :
              advance ops.step context (.operation client op) = .ok middle ↔
                ∃ answer, ops.perform context op = .ok (answer, middle) := by
            simp [advance_eq_ok_iff, AbstractOps.step, Outcome.bind_eq_ok]
          rw [parseCommand, Outcome.bind_eq_ok, unread, head, run_cons_eq_ok_iff]
          constructor
          · intro parsed
            rcases parsed with ⟨⟨answer, middle⟩, performed, rest⟩
            rcases induction.mp rest with ⟨read, ran⟩
            exact ⟨read, middle, stepped.mpr ⟨answer, performed⟩, ran⟩
          · intro apart
            rcases apart with ⟨read, middle, advanced, ran⟩
            rcases stepped.mp advanced with ⟨answer, performed⟩
            exact ⟨(answer, middle), performed, induction.mpr ⟨read, ran⟩⟩

theorem serveClient_eq_ok_iff {command : List (ParserCall Operation)} {client : Int} :
    serveClient ops command network context client = .ok (network', context') ↔
      (∃ socket,
        readCommand (SocketUnix.construct client) (socketCalls command) = .ok socket ∧
        network' = if socket.disconnected then network.disconnectSocket client else network) ∧
      run (advance ops.step) context (callsFor client command) = .ok context' := by
  have set : advance ops.step context (.setCurrentSocket client) =
      .ok (ops.setCurrentSocket context client) := rfl
  have told {middle last : Context} :
      advance ops.step middle (.socketDisconnected client) = .ok last ↔
        ops.socketDisconnected middle client = .ok last := by
    simp [advance_eq_ok_iff, AbstractOps.step, Outcome.bind_eq_ok]
  have dropped {socket : SocketUnix}
      (read : readCommand (SocketUnix.construct client) (socketCalls command) = .ok socket) :
      (socketCalls command).any SocketCall.drops = socket.disconnected := by
    rw [of_readCommand read]
    simp [SocketUnix.construct]
  have calls : run (advance ops.step) context (callsFor client command) = .ok context' ↔
      ∃ middle, run (advance ops.step) (ops.setCurrentSocket context client)
          (contextCalls client command) = .ok middle ∧
        if (socketCalls command).any SocketCall.drops then
          ops.socketDisconnected middle client = .ok context'
        else middle = context' := by
    rw [callsFor, List.cons_append, List.cons_append, run_cons_eq_ok_iff]
    simp only [set, Except.ok.injEq, exists_eq_left']
    rw [List.append_assoc, run_append_eq_ok_iff]
    refine exists_congr fun middle => and_congr_right fun _ => ?_
    cases (socketCalls command).any SocketCall.drops with
    | false =>
        have kept : run (advance ops.step) middle [.released client] = .ok middle := rfl
        simp [kept]
    | true =>
        rw [if_pos rfl, if_pos rfl, List.cons_append, run_cons_eq_ok_iff]
        simp only [told]
        constructor
        · intro ran
          rcases ran with ⟨last, noticed, rest⟩
          cases rest
          exact noticed
        · intro noticed
          exact ⟨context', noticed, rfl⟩
  rw [serveClient, Outcome.bind_eq_ok, calls]
  constructor
  · intro served
    rcases served with ⟨⟨socket, middle⟩, parsed, left⟩
    rcases (parseCommand_eq_ok_iff client).mp parsed with ⟨read, ran⟩
    rw [dropped read]
    cases gone : socket.disconnected with
    | false =>
        simp only [gone, Bool.false_eq_true, if_false,
          Outcome.pure_eq_ok, Except.ok.injEq, Prod.mk.injEq] at left
        rcases left with ⟨rfl, rfl⟩
        exact ⟨⟨socket, read, by simp [gone]⟩, middle, ran, rfl⟩
    | true =>
        simp only [gone, if_true, Outcome.bind_eq_ok, Outcome.pure_eq_ok, Except.ok.injEq,
          Prod.mk.injEq] at left
        rcases left with ⟨last, noticed, rfl, rfl⟩
        exact ⟨⟨socket, read, by simp [gone]⟩, middle, ran, noticed⟩
  · intro apart
    rcases apart with ⟨⟨socket, read, rfl⟩, middle, ran, left⟩
    refine ⟨(socket, middle), (parseCommand_eq_ok_iff client).mpr ⟨read, ran⟩, ?_⟩
    rw [dropped read] at left
    cases gone : socket.disconnected with
    | false =>
        simp only [gone, Bool.false_eq_true, if_false] at left
        simp [gone, left]
    | true =>
        rw [gone, if_pos rfl] at left
        simp [gone, left]

theorem serveActive_eq_ok_iff {commands : Int → List (ParserCall Operation)}
    {active : List Int} :
    serveActive ops commands network context active = .ok (network', context') ↔
      serveClients (fun fd => socketCalls (commands fd)) network active =
        .ok (network', active.flatMap fun client => .served client ::
          (socketCalls (commands client)).flatMap (SocketCall.events client)) ∧
      run (advance ops.step) context
        (active.flatMap fun client => callsFor client (commands client)) = .ok context' := by
  induction active generalizing network context with
  | nil => simp [serveActive, serveClients]
  | cons client active induction =>
      rw [serveActive, Outcome.bind_eq_ok, List.flatMap_cons, List.flatMap_cons,
        run_append_eq_ok_iff, serveClients, Outcome.bind_eq_ok]
      constructor
      · intro served
        rcases served with ⟨⟨middle, middleContext⟩, first, rest⟩
        rcases serveClient_eq_ok_iff.mp first with ⟨⟨socket, read, rfl⟩, ran⟩
        rcases induction.mp rest with ⟨tables, later⟩
        refine ⟨⟨socket, read, ?_⟩, middleContext, ran, later⟩
        simp only [tables, Outcome.ok_bind]
        rfl
      · intro apart
        rcases apart with ⟨⟨socket, read, tables⟩, middleContext, ran, later⟩
        simp only [Outcome.bind_eq_ok, Outcome.pure_eq_ok, Except.ok.injEq, Prod.mk.injEq,
          Prod.exists] at tables
        rcases tables with ⟨last, events, rest, rfl, same⟩
        have kept : events = active.flatMap fun client => .served client ::
            (socketCalls (commands client)).flatMap (SocketCall.events client) :=
          List.append_cancel_left same
        rw [kept] at rest
        exact ⟨(_, middleContext), serveClient_eq_ok_iff.mpr ⟨⟨socket, read, rfl⟩, ran⟩,
          induction.mpr ⟨rest, later⟩⟩

theorem events_of_serveClients {commands : Int → List SocketCall} {active : List Int}
    {events : List SocketEvent}
    (served : serveClients commands network active = .ok (network', events)) :
    events = active.flatMap fun client => .served client ::
      (commands client).flatMap (SocketCall.events client) := by
  induction active generalizing network events with
  | nil =>
      cases served
      rfl
  | cons client active induction =>
      simp only [serveClients, Outcome.bind_eq_ok, Outcome.pure_eq_ok, Except.ok.injEq,
        Prod.mk.injEq, Prod.exists] at served
      rcases served with ⟨socket, read, last, later, rest, rfl, rfl⟩
      rw [induction rest]
      rfl

end Apart

/-! ## Iterations -/

section Iterations

structure Checks (network next : NetworkUnix) (answer : AcceptAnswer) (ret : Int)
    (newSocket : Option Int) : Prop where
  listenSocket : next.listenSocket = network.listenSocket
  listening : next.listening =
    if ret < 0 then network.close.2.listening else network.listening
  clients : next.clients =
    if ret < 0 then network.clients else network.clients ++ newSocket.toList
  accepted : ∀ fd ∈ newSocket, answer = .accepted fd (decide (¬ ret < 0))

section Checks

variable {network next : NetworkUnix} {select : SelectAnswer} {answer : AcceptAnswer}
  {ret : Int} {newSocket : Option Int}

/-- `accept` gives `-EAGAIN`, which is not the `EAGAIN` its caller looks for. -/
theorem accept_returns (network : NetworkUnix) (answer : AcceptAnswer) :
    (network.accept answer).1 ≠ EAGAIN ∧ ∀ fd ∈ (network.accept answer).2,
      answer = .accepted fd (decide (¬ (network.accept answer).1 < 0)) := by
  simp only [NetworkUnix.accept]
  split
  · exact ⟨by decide, by simp⟩
  · cases answer with
    | failed => exact ⟨by decide, by simp⟩
    | accepted fd optionsSet => cases optionsSet <;> simp [EAGAIN]

theorem checks_of_acceptReported {current : NetworkUnix} {left : FdSet}
    (same : current = { network with fdSet := left })
    (reported : NetworkUnix.checkForNewConnections.acceptReported current left answer =
      .ok (ret, newSocket, next)) : Checks network next answer ret newSocket := by
  rw [NetworkUnix.checkForNewConnections.acceptReported, Outcome.bind_eq_ok] at reported
  rcases reported with ⟨pending, _, reported⟩
  subst same
  cases pending with
  | false =>
      cases reported
      constructor <;> simp
  | true =>
      rcases accept_returns { network with fdSet := left } answer with ⟨never, accepted⟩
      rw [if_pos rfl] at reported
      simp only [if_neg never] at reported
      by_cases failed : ({ network with fdSet := left }.accept answer).1 < 0
      · rw [if_pos failed] at reported
        cases reported
        constructor
        · simp only [NetworkUnix.close]
          split <;> rfl
        · simp only [if_pos failed, NetworkUnix.close]
          split <;> rfl
        · simp only [if_pos failed, NetworkUnix.close]
          split <;> rfl
        · exact accepted
      · rw [if_neg failed] at reported
        cases reported
        constructor
        · rfl
        · simp
        · simp
        · intro fd inside
          simpa [failed] using accepted fd inside

theorem checks_of_check
    (check : network.checkForNewConnections select answer = .ok (ret, newSocket, next)) :
    Checks network next answer ret newSocket := by
  rw [NetworkUnix.checkForNewConnections, Outcome.bind_eq_ok] at check
  rcases check with ⟨listenOnly, _, check⟩
  rw [Outcome.bind_eq_ok] at check
  rcases check with ⟨watched, _, check⟩
  cases select with
  | ready readable beyond => exact checks_of_acceptReported rfl check
  | failed errno =>
      simp only at check
      by_cases signalled : errno = EINTR
      · rw [if_neg (not_not_intro signalled)] at check
        exact checks_of_acceptReported rfl check
      · rw [if_pos signalled] at check
        cases check
        constructor
        · simp only [NetworkUnix.close]
          split <;> rfl
        · simp only [NetworkUnix.close]
          split <;> rfl
        · simp only [NetworkUnix.close]
          split <;> rfl
        · simp

end Checks

variable {Context Operation Answer : Type} {ops : AbstractOps Context Operation Answer}
  {listenSocket : Int} {iterations : List (ServedIteration Operation)}

theorem TableExact.checked {state : State} {network : NetworkUnix}
    {newSocket : Option Int} (table : TableExact state)
    (fresh : ∀ fd ∈ newSocket, state.opens fd)
    (clients : network.clients = state.network.clients ++ newSocket.toList) :
    network.clients.Nodup := by
  rw [clients]
  apply List.Nodup.append table.nodup
  · cases newSocket <;> simp
  · intro fd member new
    rw [table.exact, (fresh fd (by simpa using new)).2] at member
    cases member

theorem TableExact.after {state : State} {network next : NetworkUnix}
    {newSocket : Option Int} {active : List Int} {events : List SocketEvent}
    (table : TableExact state) (fresh : ∀ fd ∈ newSocket, state.opens fd)
    (clients : network.clients = state.network.clients ++ newSocket.toList)
    (serves : Serves network next active events) :
    TableExact ⟨next, state.history ++
      [newSocket.toList.map SocketEvent.accepted ++ events]⟩ := by
  constructor
  · intro fd
    have all : State.events ⟨next, state.history ++
        [newSocket.toList.map SocketEvent.accepted ++ events]⟩ =
          state.events ++ newSocket.toList.map SocketEvent.accepted ++ events := by
      simp [State.events]
    rw [all, isConnected_append_of_not_accepted (serves.acceptsNone fd),
      serves.clients, clients]
    cases newSocket with
    | none => simp [table.exact]
    | some other =>
        have flipped : fd = other ↔ other = fd := eq_comm
        simp [isConnected_concat_accepted, table.exact, flipped, or_and_right]
  · rw [serves.clients]
    exact (table.checked fresh clients).filter _

theorem use_of_accepted {Operation : Type} {state : State} {network : NetworkUnix}
    {newSocket : Option Int} (table : TableExact state)
    (fresh : ∀ fd ∈ newSocket, state.opens fd)
    (clients : network.clients = state.network.clients ++ newSocket.toList) :
    run SocketUse.step ⟨state.network.clients.toFinset, none⟩
        (newSocket.toList.map (@ContextCall.accepted Operation)) =
      .ok ⟨network.clients.toFinset, none⟩ := by
  rw [clients]
  cases newSocket with
  | none => simp
  | some fd =>
      have absent : fd ∉ state.network.clients.toFinset := by
        intro member
        rw [List.mem_toFinset, table.exact, (fresh fd rfl).2] at member
        cases member
      have joined : (state.network.clients ++ [fd]).toFinset =
          insert fd state.network.clients.toFinset := by
        ext other
        simp only [List.mem_toFinset, List.mem_append,
          List.mem_singleton, Finset.mem_insert]
        exact or_comm
      rw [Option.toList_some, List.map_singleton, run_singleton,
        SocketUse.step, if_neg absent, joined]

def callsIn (server : State) (iteration : ServedIteration Operation) :
    List (ContextCall Operation) :=
  match server.network.checkForNewConnections iteration.select iteration.accept with
  | .error _ => []
  | .ok (_, newSocket, network) =>
      match network.getActiveConnections with
      | .error _ => []
      | .ok activeConnections => newSocket.toList.map ContextCall.accepted ++
          activeConnections.flatMap fun client => callsFor client (iteration.commands client)

def callsOver (server : State) : List (ServedIteration Operation) →
    List (ContextCall Operation)
  | [] => []
  | iteration :: iterations => callsIn server iteration ++
      match iterate server iteration.network with
      | .error _ => []
      | .ok next => callsOver next iterations

theorem serveIteration_eq_ok_iff {state next : ServerState Context Operation}
    {iteration : ServedIteration Operation} :
    serveIteration ops state iteration = .ok next ↔
      iterate state.server iteration.network = .ok next.server ∧
        run (advance ops.step) state.context (callsIn state.server iteration) =
          .ok next.context ∧
        next.calls = state.calls ++ callsIn state.server iteration := by
  have unanswered (newSocket : Option Int) (context : Context) :
      run (advance ops.step) context (newSocket.toList.map ContextCall.accepted) =
        .ok context := by
    cases newSocket <;> rfl
  simp only [serveIteration, iterate, callsIn, ServedIteration.network]
  cases check : state.server.network.checkForNewConnections iteration.select
    iteration.accept with
  | error fault => simp
  | ok answer =>
      rcases answer with ⟨ret, newSocket, network⟩
      simp only
      by_cases refused : ∃ fd ∈ newSocket, ¬ state.server.opens fd
      · simp only [if_pos refused, reduceCtorEq, false_and]
      by_cases failed : ret < 0
      · simp only [if_neg refused, if_pos failed, reduceCtorEq, false_and]
      simp only [if_neg refused, if_neg failed]
      cases active : network.getActiveConnections with
      | error fault => simp
      | ok activeConnections =>
          simp only [run_append_eq_ok_iff, unanswered, Except.ok.injEq, exists_eq_left']
          constructor
          · intro served
            cases loop : serveActive ops iteration.commands network state.context
              activeConnections with
            | error fault =>
                rw [loop] at served
                cases served
            | ok last =>
                rw [loop] at served
                cases served
                rcases serveActive_eq_ok_iff.mp loop with ⟨tables, ran⟩
                rw [tables]
                exact ⟨rfl, ran, List.append_assoc ..⟩
          · intro apart
            rcases apart with ⟨tables, ran, called⟩
            cases loop :
              serveClients (fun fd => socketCalls (iteration.commands fd)) network
              activeConnections with
            | error fault =>
                rw [loop] at tables
                cases tables
            | ok last =>
                rw [loop] at tables
                rcases last with ⟨tableAfter, events⟩
                have told := events_of_serveClients loop
                rw [told] at loop tables
                rw [serveActive_eq_ok_iff.mpr ⟨loop, ran⟩]
                rcases next with ⟨server, context, calls⟩
                cases tables
                cases called
                simp [List.append_assoc]

theorem run_serveIteration_eq_ok_iff {state final : ServerState Context Operation} :
    run (serveIteration ops) state iterations = .ok final ↔
      run iterate state.server
        (iterations.map ServedIteration.network) = .ok final.server ∧
        run (advance ops.step) state.context (callsOver state.server iterations) =
          .ok final.context ∧
        final.calls = state.calls ++ callsOver state.server iterations := by
  induction iterations generalizing state with
  | nil =>
      rcases state with ⟨server, context, calls⟩
      rcases final with ⟨finalServer, finalContext, finalCalls⟩
      simp [callsOver, eq_comm]
  | cons iteration iterations induction =>
      rw [run_cons_eq_ok_iff, List.map_cons, run_cons_eq_ok_iff]
      constructor
      · intro ran
        rcases ran with ⟨next, iterated, rest⟩
        rcases serveIteration_eq_ok_iff.mp iterated with ⟨table, ranFirst, calls⟩
        rcases induction.mp rest with ⟨tables, ranRest, callsRest⟩
        refine ⟨⟨next.server, table, tables⟩, ?_, ?_⟩
        · simp only [callsOver, table]
          rw [run_append_eq_ok_iff]
          exact ⟨next.context, ranFirst, ranRest⟩
        · simp only [callsOver, table]
          rw [callsRest, calls, List.append_assoc]
      · intro apart
        rcases apart with ⟨⟨server, table, tables⟩, ran, calls⟩
        simp only [callsOver, table] at ran calls
        rw [run_append_eq_ok_iff] at ran
        rcases ran with ⟨context, ranFirst, ranRest⟩
        refine ⟨⟨server, context, state.calls ++ callsIn state.server iteration⟩, ?_, ?_⟩
        · exact serveIteration_eq_ok_iff.mpr ⟨table, ranFirst, rfl⟩
        · rw [← List.append_assoc] at calls
          exact induction.mpr ⟨tables, ranRest, calls⟩

theorem context_of_served {initial : Context} {final : ServerState Context Operation}
    (ran : run (serveIteration ops) (startServing listenSocket initial)
      iterations = .ok final) :
    ∃ answers, record ops.step initial final.calls = .ok (answers, final.context) := by
  rcases run_serveIteration_eq_ok_iff.mp ran with ⟨_, context, calls⟩
  have called : final.calls = callsOver (start listenSocket) iterations := calls
  rw [called]
  exact (run_advance_iff ops.step).mp context

theorem asked_of_mem_callsIn {server : State}
    {iteration : ServedIteration Operation} {fd : Int} {op : Operation}
    (member : .operation fd op ∈ callsIn server iteration) :
    .operation op ∈ iteration.commands fd := by
  rw [callsIn] at member
  split at member
  · cases member
  · split at member
    · cases member
    · rcases List.mem_append.mp member with accepted | served
      · rcases List.mem_map.mp accepted with ⟨_, _, equal⟩
        cases equal
      · rcases List.mem_flatMap.mp served with ⟨client, _, inside⟩
        rcases mem_callsFor inside with ⟨rfl, asked⟩
        exact asked

theorem asked_of_mem_callsOver {server : State} {fd : Int} {op : Operation}
    (member : .operation fd op ∈ callsOver server iterations) :
    ∃ iteration ∈ iterations, .operation op ∈ iteration.commands fd := by
  induction iterations generalizing server with
  | nil => cases member
  | cons iteration iterations induction =>
      rw [callsOver] at member
      rcases List.mem_append.mp member with now | later
      · exact ⟨iteration, by simp, asked_of_mem_callsIn now⟩
      · split at later
        · cases later
        · rcases induction later with ⟨other, inside, asked⟩
          exact ⟨other, List.mem_cons_of_mem _ inside, asked⟩

theorem accept_of_mem_callsOver {server : State} {fd : Int}
    (member : .accepted fd ∈ callsOver server iterations) :
    ∃ iteration ∈ iterations, ∃ optionsSet, iteration.accept =
    .accepted fd optionsSet := by
  induction iterations generalizing server with
  | nil => cases member
  | cons iteration iterations induction =>
      rw [callsOver] at member
      rcases List.mem_append.mp member with now | later
      · refine ⟨iteration, by simp, ?_⟩
        rw [callsIn] at now
        cases check : server.network.checkForNewConnections iteration.select
          iteration.accept with
        | error fault =>
            rw [check] at now
            cases now
        | ok answer =>
            rcases answer with ⟨ret, newSocket, network⟩
            rw [check] at now
            simp only at now
            split at now
            · cases now
            · rcases List.mem_append.mp now with accepted | served
              · have new : newSocket = some fd := by simpa using accepted
                exact ⟨_, (checks_of_check check).accepted fd new⟩
              · rcases List.mem_flatMap.mp served with ⟨client, _, inside⟩
                exact absurd inside not_accepted_mem_callsFor
      · split at later
        · cases later
        · rcases induction later with ⟨other, inside, accepts⟩
          exact ⟨other, List.mem_cons_of_mem _ inside, accepts⟩

theorem use_of_active {commands : Int → List (ParserCall Operation)} {active : List Int}
    (nodup : active.Nodup) {network next : NetworkUnix} {events : List SocketEvent}
    (members : ∀ client ∈ active, client ∈ network.clients)
    (served : serveClients (fun fd => socketCalls (commands fd)) network active =
      .ok (next, events)) :
    run SocketUse.step ⟨network.clients.toFinset, none⟩
        (active.flatMap fun client => callsFor client (commands client)) =
      .ok ⟨next.clients.toFinset, none⟩ := by
  induction active generalizing network events with
  | nil =>
      cases served
      rfl
  | cons client active induction =>
      simp only [serveClients, Outcome.bind_eq_ok, Outcome.pure_eq_ok, Except.ok.injEq,
        Prod.mk.injEq, Prod.exists] at served
      rcases served with ⟨socket, read, last, later, rest, rfl, rfl⟩
      rcases List.nodup_cons.mp nodup with ⟨absent, nodup⟩
      have dropped : (socketCalls (commands client)).any SocketCall.drops =
          socket.disconnected := by
        rw [of_readCommand read]
        simp [SocketUnix.construct]
      rw [List.flatMap_cons, run_append_eq_ok_iff]
      refine ⟨_, use_of_callsFor _ (by simpa using members client (by simp)), ?_⟩
      have left : (if (socketCalls (commands client)).any SocketCall.drops then
            network.clients.toFinset.erase client else network.clients.toFinset) =
          (if socket.disconnected then network.disconnectSocket client
            else network).clients.toFinset := by
        rw [dropped]
        cases socket.disconnected with
        | false => rfl
        | true =>
            ext fd
            simp [NetworkUnix.disconnectSocket, and_comm]
      rw [left]
      apply induction nodup ?_ rest
      intro other inside
      have different : other ≠ client := fun equal => absent (equal ▸ inside)
      have before := members other (List.mem_cons_of_mem _ inside)
      cases socket.disconnected with
      | false => exact before
      | true => simpa [NetworkUnix.disconnectSocket, different] using before

structure Iterates (state next : State) (iteration : Iteration) (ret : Int)
    (newSocket : Option Int) (network : NetworkUnix) (active : List Int)
    (events : List SocketEvent) : Prop where
  check : state.network.checkForNewConnections iteration.select iteration.accept =
    .ok (ret, newSocket, network)
  goesOn : ¬ ret < 0
  fresh : ∀ fd ∈ newSocket, state.opens fd
  ready : network.getActiveConnections = .ok active
  served : serveClients iteration.commands network active = .ok (next.network, events)
  history : next.history =
    state.history ++ [newSocket.toList.map SocketEvent.accepted ++ events]

theorem iterates_of_iterate {state next : State} {iteration : Iteration}
    (iterated : iterate state iteration = .ok next) :
    ∃ ret newSocket network active events,
      Iterates state next iteration ret newSocket network active events := by
  rw [iterate] at iterated
  cases check :
      state.network.checkForNewConnections iteration.select iteration.accept with
  | error fault =>
      rw [check] at iterated
      cases iterated
  | ok answer =>
      rcases answer with ⟨ret, newSocket, network⟩
      rw [check] at iterated
      simp only at iterated
      by_cases refused : ∃ fd ∈ newSocket, ¬ state.opens fd
      · rw [if_pos refused] at iterated
        cases iterated
      by_cases failed : ret < 0
      · rw [if_neg refused, if_pos failed] at iterated
        cases iterated
      rw [if_neg refused, if_neg failed] at iterated
      have fresh : ∀ fd ∈ newSocket, state.opens fd := by
        intro fd inside
        by_contra closed
        exact refused ⟨fd, inside, closed⟩
      cases chosen : network.getActiveConnections with
      | error fault =>
          rw [chosen] at iterated
          cases iterated
      | ok active =>
          rw [chosen] at iterated
          simp only at iterated
          cases served : serveClients iteration.commands network active with
          | error fault =>
              rw [served] at iterated
              cases iterated
          | ok last =>
              rw [served] at iterated
              cases iterated
              exact ⟨ret, newSocket, network, active, last.2,
                check, failed, fresh, chosen, served, rfl⟩

section Iterates

variable {state next : State} {iteration : Iteration} {ret : Int} {newSocket : Option Int}
  {network : NetworkUnix} {active : List Int} {events : List SocketEvent}

theorem Iterates.clients (iterates : Iterates state next iteration ret newSocket network
    active events) : network.clients = state.network.clients ++ newSocket.toList := by
  simpa [iterates.goesOn] using (checks_of_check iterates.check).clients

theorem Iterates.active_eq (iterates : Iterates state next iteration ret newSocket network
    active events) : active = network.clients.filter (· ∈ network.fdSet) :=
  (NetworkUnix.getActiveConnections_eq_ok_iff.mp iterates.ready).2

theorem Iterates.tableExact
    (iterates : Iterates state next iteration ret newSocket network
    active events) (table : TableExact state) : TableExact next := by
  have after :=
    table.after iterates.fresh iterates.clients (of_serveClients iterates.served)
  rw [← iterates.history] at after
  exact after

theorem Iterates.listenSocket_eq
    (iterates : Iterates state next iteration ret newSocket network
    active events) : next.network.listenSocket = state.network.listenSocket := by
  rw [(of_serveClients iterates.served).listenSocket,
    (checks_of_check iterates.check).listenSocket]

theorem Iterates.mem_of_mem_next
    (iterates : Iterates state next iteration ret newSocket network
    active events) {client : Int} (inside : client ∈ next.network.clients) :
    client ∈ network.clients := by
  rw [(of_serveClients iterates.served).clients] at inside
  exact (List.mem_filter.mp inside).1

theorem Iterates.notClient (iterates : Iterates state next iteration ret newSocket network
    active events) (notClient : state.network.listenSocket ∉ state.network.clients) :
    state.network.listenSocket ∉ network.clients := by
  intro inside
  rw [iterates.clients, List.mem_append, Option.mem_toList] at inside
  rcases inside with old | new
  · exact notClient old
  · exact (iterates.fresh _ new).1 rfl

end Iterates

theorem use_of_iterate {server next : State} {iteration : ServedIteration Operation}
    (table : TableExact server) (iterated : iterate server iteration.network = .ok next) :
    TableExact next ∧ run SocketUse.step ⟨server.network.clients.toFinset, none⟩
      (callsIn server iteration) = .ok ⟨next.network.clients.toFinset, none⟩ := by
  rcases iterates_of_iterate iterated with ⟨ret, newSocket, network,
    active, events, iterates⟩
  refine ⟨iterates.tableExact table, ?_⟩
  have check := iterates.check
  simp only [ServedIteration.network] at check
  have nodup : network.clients.Nodup := table.checked iterates.fresh iterates.clients
  simp only [callsIn, check, iterates.ready]
  rw [run_append_eq_ok_iff]
  refine ⟨_, use_of_accepted table iterates.fresh iterates.clients, ?_⟩
  apply use_of_active ?_ ?_ iterates.served
  · rw [iterates.active_eq]
    exact nodup.filter _
  · rw [iterates.active_eq]
    exact fun client inside => (List.mem_filter.mp inside).1

theorem use_of_run {server final : State} (table : TableExact server)
    (ran : run iterate server (iterations.map ServedIteration.network) = .ok final) :
    run SocketUse.step ⟨server.network.clients.toFinset,
      none⟩ (callsOver server iterations) =
      .ok ⟨final.network.clients.toFinset, none⟩ := by
  induction iterations generalizing server with
  | nil =>
      cases ran
      rfl
  | cons iteration iterations induction =>
      rw [List.map_cons, run_cons_eq_ok_iff] at ran
      rcases ran with ⟨next, iterated, rest⟩
      rcases use_of_iterate table iterated with ⟨tableNext, used⟩
      simp only [callsOver, iterated]
      rw [run_append_eq_ok_iff]
      exact ⟨_, used, induction tableNext rest⟩

theorem tableExact_start (listenSocket : Int) : TableExact (start listenSocket) := by
  constructor
  · intro fd
    simp [start, NetworkUnix.opened, State.events, isConnected]
  · exact List.nodup_nil

theorem use_of_start {final : State}
    (ran : run iterate (start listenSocket) (iterations.map ServedIteration.network) =
      .ok final) :
    run SocketUse.step ⟨∅, none⟩ (callsOver (start listenSocket) iterations) =
      .ok ⟨final.network.clients.toFinset, none⟩ := by
  simpa [start, NetworkUnix.opened] using use_of_run (tableExact_start listenSocket) ran

end Iterations

/-! ## Notices -/

section Notices

variable {Operation : Type}

def ContextCall.isAccepted (fd : Int) : ContextCall Operation → Bool
  | .accepted other => other = fd
  | _ => false

def ContextCall.isNotice (fd : Int) : ContextCall Operation → Bool
  | .socketDisconnected other => other = fd
  | _ => false

theorem count_of_step {call : ContextCall Operation} {use next : SocketUse}
    (stepped : use.step call = .ok next) (fd : Int) :
    (if call.isAccepted fd = true then 1 else 0) + (if fd ∈ use.connected then 1 else 0) =
      (if call.isNotice fd = true then 1 else 0) +
      (if fd ∈ next.connected then 1 else 0) := by
  cases call with
  | accepted other =>
      rcases SocketUse.step_accepted.mp stepped with ⟨absent, rfl⟩
      by_cases same : other = fd
      · subst same
        simp [ContextCall.isAccepted, ContextCall.isNotice, absent]
      · have different : ¬ fd = other := fun equal => same equal.symm
        simp [ContextCall.isAccepted, ContextCall.isNotice, same, different]
  | socketDisconnected other =>
      rcases SocketUse.step_socketDisconnected.mp stepped with ⟨alive, rfl⟩
      by_cases same : other = fd
      · subst same
        simp [ContextCall.isAccepted, ContextCall.isNotice, alive.2]
      · have different : ¬ fd = other := fun equal => same equal.symm
        simp [ContextCall.isAccepted, ContextCall.isNotice, same, different]
  | setCurrentSocket other =>
      rcases SocketUse.step_setCurrentSocket.mp stepped with ⟨_, rfl⟩
      rfl
  | data other =>
      rcases SocketUse.step_data.mp stepped with ⟨_, rfl⟩
      rfl
  | operation other op =>
      rcases SocketUse.step_operation.mp stepped with ⟨_, rfl⟩
      rfl
  | released other =>
      rcases SocketUse.step_released.mp stepped with ⟨_, rfl⟩
      rfl

/-- Of the connections a disciplined run accepts on a descriptor all are reported gone but
the one that is open. -/
theorem count_of_use {calls : List (ContextCall Operation)} {use final : SocketUse}
    (ran : run SocketUse.step use calls = .ok final) (fd : Int) :
    calls.countP (ContextCall.isAccepted fd) + (if fd ∈ use.connected then 1 else 0) =
      calls.countP (ContextCall.isNotice fd) +
      (if fd ∈ final.connected then 1 else 0) := by
  induction calls generalizing use with
  | nil =>
      cases ran
      rfl
  | cons call calls induction =>
      rw [run_cons_eq_ok_iff] at ran
      rcases ran with ⟨next, stepped, rest⟩
      have now := count_of_step stepped fd
      have later := induction rest
      rw [List.countP_cons, List.countP_cons]
      omega

def ContextCall.client? : ContextCall Operation → Option Int
  | .operation fd _ | .socketDisconnected fd => some fd
  | _ => none

theorem connected_of_client {call : ContextCall Operation}
    {use next : SocketUse} {fd : Int} (stepped : use.step call = .ok next)
    (client : call.client? = some fd) :
    fd ∈ use.connected := by
  cases call with
  | operation other op =>
      cases client
      exact (SocketUse.step_operation.mp stepped).1.2
  | socketDisconnected other =>
      cases client
      exact (SocketUse.step_socketDisconnected.mp stepped).1.2
  | accepted | setCurrentSocket | data | released => cases client

theorem connected_of_step {call : ContextCall Operation} {use next : SocketUse} {fd : Int}
    (stepped : use.step call = .ok next) (connected : fd ∈ next.connected) :
    fd ∈ use.connected ∨ call = .accepted fd := by
  cases call with
  | accepted other =>
      rcases SocketUse.step_accepted.mp stepped with ⟨_, rfl⟩
      rcases Finset.mem_insert.mp connected with rfl | old
      · exact Or.inr rfl
      · exact Or.inl old
  | socketDisconnected other =>
      rcases SocketUse.step_socketDisconnected.mp stepped with ⟨_, rfl⟩
      exact Or.inl (Finset.mem_of_mem_erase connected)
  | setCurrentSocket other =>
      rcases SocketUse.step_setCurrentSocket.mp stepped with ⟨_, rfl⟩
      exact Or.inl connected
  | data other =>
      rcases SocketUse.step_data.mp stepped with ⟨_, rfl⟩
      exact Or.inl connected
  | operation other op =>
      rcases SocketUse.step_operation.mp stepped with ⟨_, rfl⟩
      exact Or.inl connected
  | released other =>
      rcases SocketUse.step_released.mp stepped with ⟨_, rfl⟩
      exact Or.inl connected

theorem accepted_of_use {calls : List (ContextCall Operation)} {use final : SocketUse}
    (ran : run SocketUse.step use calls = .ok final)
    {call : ContextCall Operation} {fd : Int} (member : call ∈ calls)
    (client : call.client? = some fd) :
    fd ∈ use.connected ∨ .accepted fd ∈ calls := by
  induction calls generalizing use with
  | nil => cases member
  | cons first calls induction =>
      rw [run_cons_eq_ok_iff] at ran
      rcases ran with ⟨next, stepped, rest⟩
      rcases List.mem_cons.mp member with rfl | later
      · exact Or.inl (connected_of_client stepped client)
      · rcases induction rest later with connected | accepted
        · rcases connected_of_step stepped connected with before | rfl
          · exact Or.inl before
          · exact Or.inr List.mem_cons_self
        · exact Or.inr (List.mem_cons_of_mem _ accepted)

end Notices

section Runs

variable {Context Operation Answer : Type} {ops : AbstractOps Context Operation Answer}
  {initial : Context} {listenSocket : Int} {iterations : List (ServedIteration Operation)}
  {final : ServerState Context Operation}

/-- Whatever the kernel answers and whatever the parser asks for: the table of clients is as
without a context, the context is what its calls make of it, every operation is one the parser
asked for, every call is made through the socket of its client while that lives and its
connection is open, and every connection that ends is reported to the context exactly once. -/
theorem context_is_served
    (ran : run (serveIteration ops) (startServing listenSocket initial)
      iterations = .ok final) :
    run iterate (start listenSocket) (iterations.map ServedIteration.network) =
        .ok final.server ∧
      (∃ answers, record ops.step initial final.calls = .ok (answers, final.context)) ∧
      (∀ fd op, .operation fd op ∈ final.calls →
        ∃ iteration ∈ iterations, .operation op ∈ iteration.commands fd) ∧
      run SocketUse.step ⟨∅, none⟩ final.calls =
        .ok ⟨final.server.network.clients.toFinset, none⟩ ∧
      ∀ fd, final.calls.countP (ContextCall.isAccepted fd) =
        final.calls.countP (ContextCall.isNotice fd) +
          (if fd ∈ final.server.network.clients then 1 else 0) := by
  rcases run_serveIteration_eq_ok_iff.mp ran with ⟨tables, _, calls⟩
  have called : final.calls = callsOver (start listenSocket) iterations := calls
  have answered := context_of_served ran
  have used := use_of_start tables
  rw [called] at answered ⊢
  refine ⟨tables, answered, ?_, used, ?_⟩
  · intro fd op member
    exact asked_of_mem_callsOver member
  · intro fd
    simpa using count_of_use used fd

end Runs

end IioEmu.TcpServer
