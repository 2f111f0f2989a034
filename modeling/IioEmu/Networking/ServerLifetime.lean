import IioEmu.Networking.ServedContext

/-! # From `open` to `close`

The server sets its socket up, loops until a signal or an error ends it, and returns. What
the kernel opens and closes is kept beside the state. -/

namespace IioEmu

inductive DescriptorEvent
  | opened (fd : Int)
  | closed (fd : Int)
  deriving DecidableEq

def isOpen (fd : Int) (events : List DescriptorEvent) : Bool :=
  events.foldl (fun found event =>
    match event with
    | .opened other => found || other = fd
    | .closed other => found && other ≠ fd) false

namespace NetworkUnix

structure SetupAnswers where
  socket : Int
  nonblock : Bool
  reuseaddr : Bool
  bind : Bool
  listen : Bool

def closed (network : NetworkUnix) : NetworkUnix × List DescriptorEvent :=
  (network.close.2, if network.close.1 = 0 then [.closed network.listenSocket] else [])

def «open» (answers : SetupAnswers) : Int × NetworkUnix × List DescriptorEvent :=
  let network : NetworkUnix := ⟨∅, answers.socket, decide (0 ≤ answers.socket), []⟩
  let created :=
    if 0 ≤ answers.socket then [DescriptorEvent.opened answers.socket] else []
  if answers.socket ≤ 0 then (-1, network, created)
  else if !answers.nonblock then (-1, network.closed.1, created ++ network.closed.2)
  else if !answers.reuseaddr then (-1, network.closed.1, created ++ network.closed.2)
  else (0, network, created)

def callListening (network : NetworkUnix) (succeeds : Bool) :
    Int × NetworkUnix × List DescriptorEvent :=
  if network.listenSocket ≤ 0 then (-1, network, [])
  else if !succeeds then (-1, network.closed)
  else (0, network, [])

def bind (network : NetworkUnix) (answers : SetupAnswers) :
    Int × NetworkUnix × List DescriptorEvent := network.callListening answers.bind

def listen (network : NetworkUnix) (answers : SetupAnswers) :
    Int × NetworkUnix × List DescriptorEvent := network.callListening answers.listen

section Positive

variable {network : NetworkUnix} {answers : SetupAnswers}

theorem closed_of_positive (positive : 0 < network.listenSocket) :
    network.closed = ({ network with listening := false },
      [.closed network.listenSocket]) := by
  simp [closed, close, Int.not_le.mpr positive]

theorem callListening_of_positive
    (positive : 0 < network.listenSocket) (succeeds : Bool) :
    network.callListening succeeds = if succeeds then (0, network, [])
      else (-1, { network with listening := false }, [.closed network.listenSocket]) := by
  rw [callListening, if_neg (Int.not_le.mpr positive), closed_of_positive positive]
  cases succeeds <;> rfl

theorem open_of_positive (positive : 0 < answers.socket) :
    NetworkUnix.open answers = if answers.nonblock && answers.reuseaddr
      then (0, opened answers.socket, [.opened answers.socket])
      else (-1, { opened answers.socket with listening := false },
        [.opened answers.socket, .closed answers.socket]) := by
  have opens : 0 ≤ answers.socket := Int.le_of_lt positive
  have shut :=
    closed_of_positive (show 0 < (opened answers.socket).listenSocket from positive)
  rw [opened] at shut
  simp only [NetworkUnix.open, opens, Int.not_le.mpr positive, if_true,
    if_false, decide_true, opened, shut]
  cases answers.nonblock
  · rfl
  · cases answers.reuseaddr <;> rfl

end Positive

end NetworkUnix

namespace TcpServer

open Execution NetworkUnix

def SocketEvent.descriptor? : SocketEvent → Option DescriptorEvent
  | .accepted fd => some (.opened fd)
  | .closed fd => some (.closed fd)
  | _ => none

/-- How `start` ended: what it returned, its network and what became of the descriptors. A
new socket whose options could not be set is in no table. -/
structure Lifetime where
  returned : Bool
  network : NetworkUnix
  refused : Option Int
  events : List DescriptorEvent

def serveUntilStopped (state : State) : List Iteration → Except Stop Lifetime
  | [] => .ok ⟨true, state.network.closed.1, none,
      state.events.filterMap SocketEvent.descriptor? ++ state.network.closed.2⟩
  | iteration :: iterations =>
      match iterate state iteration with
      | .ok next => serveUntilStopped next iterations
      | .error (.failed _) =>
          match state.network.checkForNewConnections iteration.select iteration.accept with
          | .error fault => .error (.fault fault)
          | .ok (_, newSocket, network) => .ok ⟨false, network, newSocket,
              state.events.filterMap SocketEvent.descriptor? ++
                newSocket.toList.map DescriptorEvent.opened ++
                if network.listening then [] else [.closed network.listenSocket]⟩
      | .error stop => .error stop

def startServer (answers : SetupAnswers) (iterations : List Iteration) :
    Except Stop Lifetime :=
  match NetworkUnix.open answers with
  | (ret, network, created) =>
      if ret < 0 then .ok ⟨false, network, none, created⟩
      else match network.bind answers with
      | (ret, network, bound) =>
          if ret < 0 then .ok ⟨false, network, none, created ++ bound⟩
          else match network.listen answers with
          | (ret, network, listened) =>
              if ret < 0 then .ok ⟨false, network, none, created ++ bound ++ listened⟩
              else match serveUntilStopped ⟨network, []⟩ iterations with
              | .error stop => .error stop
              | .ok lifetime => .ok { lifetime with
                  events := created ++ bound ++ listened ++ lifetime.events }

/-! ## Descriptors -/

section Descriptors

variable {fd : Int} {earlier later : List DescriptorEvent}

theorem isOpen_concat_opened (other : Int) :
    isOpen fd (earlier ++ [.opened other]) =
    (isOpen fd earlier || decide (other = fd)) := by
  rw [isOpen, List.foldl_append, ← isOpen]
  rfl

theorem isOpen_concat_closed (other : Int) :
    isOpen fd (earlier ++ [.closed other]) =
    (isOpen fd earlier && decide (other ≠ fd)) := by
  rw [isOpen, List.foldl_append, ← isOpen]
  rfl

theorem isOpen_append_of_closed (closed : isOpen fd earlier = false) :
    isOpen fd (earlier ++ later) = isOpen fd later := by
  rw [isOpen, List.foldl_append, ← isOpen, closed]
  rfl

theorem isOpen_descriptors (events : List SocketEvent) :
    isOpen fd (events.filterMap SocketEvent.descriptor?) = isConnected fd events := by
  induction events using List.reverseRecOn with
  | nil => rfl
  | append_singleton events event induction =>
      rw [List.filterMap_append, isConnected, List.foldl_append,
        ← isConnected, ← induction]
      cases event with
      | accepted other => exact isOpen_concat_opened other
      | closed other => exact isOpen_concat_closed other
      | served other => exact congrArg (isOpen fd) (List.append_nil _)
      | received other => exact congrArg (isOpen fd) (List.append_nil _)
      | sent other => exact congrArg (isOpen fd) (List.append_nil _)

theorem closed_mem_descriptors {events : List SocketEvent} :
    .closed fd ∈ events.filterMap SocketEvent.descriptor? ↔ .closed fd ∈ events := by
  rw [List.mem_filterMap]
  apply Iff.intro
  · intro found
    rcases found with ⟨event, inside, equal⟩
    cases event <;> cases equal
    exact inside
  · intro inside
    exact ⟨_, inside, rfl⟩

end Descriptors

/-! ## The loop -/

structure Kept (socket : Int) (state : State) : Prop extends TableExact state where
  positive : 0 < socket
  listenSocket : state.network.listenSocket = socket
  listening : state.network.listening = true
  notClient : socket ∉ state.network.clients
  notClosed : .closed socket ∉ state.events

section Loop

variable {socket : Int} {state next : State} {iteration : Iteration}

theorem kept_start (positive : 0 < socket) : Kept socket (start socket) := by
  constructor
  · exact tableExact_start socket
  · exact positive
  · rfl
  · rfl
  · simp [start, opened]
  · simp [start, State.events]

theorem listening_of_serveClients {commands : Int → List SocketCall}
    {network last : NetworkUnix} {active : List Int} {events : List SocketEvent}
    (served : serveClients commands network active = .ok (last, events)) :
    last.listening = network.listening := by
  induction active generalizing network events with
  | nil =>
      cases served
      rfl
  | cons client active induction =>
      simp only [serveClients, Outcome.bind_eq_ok, Outcome.pure_eq_ok, Except.ok.injEq,
        Prod.mk.injEq, Prod.exists] at served
      rcases served with ⟨current, _, middle, later, rest, rfl, _⟩
      rw [induction rest]
      split <;> rfl

theorem closed_of_serveClients {commands : Int → List SocketCall}
    {network last : NetworkUnix} {active : List Int}
    {events : List SocketEvent} {fd : Int}
    (served : serveClients commands network active = .ok (last, events))
    (closed : .closed fd ∈ events) : fd ∈ active := by
  rw [events_of_serveClients served, List.mem_flatMap] at closed
  rcases closed with ⟨client, inside, closed⟩
  rw [List.mem_cons, closed_mem_command_events] at closed
  rcases closed with equal | ⟨_, same⟩
  · cases equal
  · rw [same]
    exact inside

theorem Kept.iterate (kept : Kept socket state)
    (iterated : TcpServer.iterate state iteration = .ok next) : Kept socket next := by
  rcases iterates_of_iterate iterated with ⟨ret, newSocket, network,
    active, events, iterates⟩
  have notFound : socket ∉ network.clients := by
    have notClient := kept.notClient
    rw [← kept.listenSocket] at notClient ⊢
    exact iterates.notClient notClient
  have after : next.events = state.events ++
      (newSocket.toList.map SocketEvent.accepted ++ events) := by
    simp [State.events, iterates.history]
  constructor
  · exact iterates.tableExact kept.toTableExact
  · exact kept.positive
  · rw [iterates.listenSocket_eq, kept.listenSocket]
  · rw [listening_of_serveClients iterates.served,
      (checks_of_check iterates.check).listening, if_neg iterates.goesOn, kept.listening]
  · exact fun inside => notFound (iterates.mem_of_mem_next inside)
  · intro closed
    rw [after, List.mem_append, List.mem_append] at closed
    rcases closed with before | new | now
    · exact kept.notClosed before
    · simp at new
    · have inside := closed_of_serveClients iterates.served now
      rw [iterates.active_eq] at inside
      exact notFound (List.mem_filter.mp inside).1

theorem check_of_failed {ret : Int}
    (failed : TcpServer.iterate state iteration = .error (.failed ret)) :
    ∃ newSocket network, state.network.checkForNewConnections iteration.select
      iteration.accept = .ok (ret, newSocket, network) ∧ ret < 0 ∧
        ∀ fd ∈ newSocket, state.opens fd := by
  rw [TcpServer.iterate] at failed
  cases check :
      state.network.checkForNewConnections iteration.select iteration.accept with
  | error fault =>
      rw [check] at failed
      cases failed
  | ok answer =>
      rcases answer with ⟨answered, newSocket, network⟩
      rw [check] at failed
      simp only at failed
      by_cases refused : ∃ fd ∈ newSocket, ¬ state.opens fd
      · rw [if_pos refused] at failed
        cases failed
      rw [if_neg refused] at failed
      by_cases negative : answered < 0
      · rw [if_pos negative] at failed
        cases failed
        refine ⟨newSocket, network, rfl, negative, ?_⟩
        intro fd inside
        by_contra closed
        exact refused ⟨fd, inside, closed⟩
      · rw [if_neg negative] at failed
        split at failed
        · cases failed
        · split at failed <;> cases failed

/-- How the loop leaves the descriptors: it closes the listening socket at its very end, and
leaves the clients of the table open, and the connection it could not set up. -/
structure Leaves (socket : Int) (state : State) (iterations : List Iteration)
    (lifetime : Lifetime) (earlier : List DescriptorEvent) : Prop where
  events : lifetime.events = earlier ++ [.closed socket]
  notClosed : .closed socket ∉ earlier
  opened : ∀ fd, isOpen fd earlier = true ↔
    fd ∈ lifetime.network.clients ∨ fd ∈ lifetime.refused
  notClient : socket ∉ lifetime.network.clients
  notRefused : socket ∉ lifetime.refused
  returned : lifetime.returned = true ↔
    ∃ final, run TcpServer.iterate state iterations = .ok final
  refused : ∀ fd ∈ lifetime.refused, ∃ iteration ∈ iterations,
    iteration.accept = .accepted fd false

theorem Kept.closed_eq (kept : Kept socket state) :
    state.network.closed = ({ state.network with listening := false },
      [.closed socket]) := by
  have positive : 0 < state.network.listenSocket := by
    rw [kept.listenSocket]
    exact kept.positive
  simp [closed_of_positive positive, kept.listenSocket]

theorem Kept.leaves_of_signal (kept : Kept socket state) :
    Leaves socket state [] ⟨true, state.network.closed.1, none,
      state.events.filterMap SocketEvent.descriptor? ++ state.network.closed.2⟩
      (state.events.filterMap SocketEvent.descriptor?) := by
  rw [kept.closed_eq]
  constructor
  · rfl
  · rw [closed_mem_descriptors]
    exact kept.notClosed
  · intro fd
    rw [isOpen_descriptors, ← kept.exact]
    simp
  · exact kept.notClient
  · simp
  · simp
  · simp

theorem Kept.leaves_of_failure (kept : Kept socket state) {iterations : List Iteration}
    {network : NetworkUnix} {newSocket : Option Int} {ret : Int} (negative : ret < 0)
    (fresh : ∀ fd ∈ newSocket, state.opens fd)
    (check : state.network.checkForNewConnections iteration.select iteration.accept =
      .ok (ret, newSocket, network))
    (failed : TcpServer.iterate state iteration = .error (.failed ret)) :
    Leaves socket state (iteration :: iterations) ⟨false, network, newSocket,
      state.events.filterMap SocketEvent.descriptor? ++
        newSocket.toList.map DescriptorEvent.opened ++
        if network.listening then [] else [.closed network.listenSocket]⟩
      (state.events.filterMap SocketEvent.descriptor? ++
        newSocket.toList.map DescriptorEvent.opened) := by
  have checks := checks_of_check check
  have clients : network.clients = state.network.clients := by
    rw [checks.clients, if_pos negative]
  have quiet : network.listening = false := by
    rw [checks.listening, if_pos negative]
    exact congrArg (fun ended => ended.1.listening) kept.closed_eq
  constructor
  · simp [quiet, checks.listenSocket, kept.listenSocket]
  · rw [List.mem_append, closed_mem_descriptors]
    intro closed
    rcases closed with before | new
    · exact kept.notClosed before
    · simp at new
  · intro fd
    rw [clients, kept.exact, ← isOpen_descriptors]
    cases newSocket with
    | none => simp
    | some other =>
        rw [Option.toList_some, List.map_singleton, isOpen_concat_opened, Bool.or_eq_true,
          decide_eq_true_eq, Option.mem_some_iff]
  · rw [clients]
    exact kept.notClient
  · exact fun inside => (fresh socket inside).1 kept.listenSocket.symm
  · simp [run_cons, failed, Bind.bind, Except.bind]
  · intro fd inside
    refine ⟨iteration, by simp, ?_⟩
    rw [checks.accepted fd inside]
    simp [negative]

theorem Kept.leaves {iterations : List Iteration} {lifetime : Lifetime}
    (kept : Kept socket state)
    (ended : serveUntilStopped state iterations = .ok lifetime) :
    ∃ earlier, Leaves socket state iterations lifetime earlier := by
  induction iterations generalizing state with
  | nil =>
      cases ended
      exact ⟨_, kept.leaves_of_signal⟩
  | cons iteration iterations induction =>
      rw [serveUntilStopped] at ended
      cases iterated : TcpServer.iterate state iteration with
      | ok next =>
          rw [iterated] at ended
          rcases induction (kept.iterate iterated) ended with ⟨earlier, leaves⟩
          refine ⟨earlier, { leaves with returned := ?_, refused := ?_ }⟩
          · rw [leaves.returned]
            simp [run_cons, iterated, Bind.bind, Except.bind]
          · intro fd inside
            rcases leaves.refused fd inside with ⟨other, member, accepts⟩
            exact ⟨other, List.mem_cons_of_mem _ member, accepts⟩
      | error stop =>
          rw [iterated] at ended
          cases stop with
          | refused => cases ended
          | fault fault => cases ended
          | failed ret =>
              rcases check_of_failed iterated with ⟨newSocket, network,
                check, negative, fresh⟩
              simp only [check] at ended
              cases ended
              exact ⟨_, kept.leaves_of_failure negative fresh check iterated⟩

end Loop

/-! ## From the first call to the last -/

structure Established (answers : SetupAnswers) : Prop where
  positive : 0 < answers.socket
  nonblock : answers.nonblock = true
  reuseaddr : answers.reuseaddr = true
  bind : answers.bind = true
  listen : answers.listen = true

section Server

variable {answers : SetupAnswers} {iterations : List Iteration}

theorem startServer_of_established (established : Established answers) :
    startServer answers iterations =
      match serveUntilStopped (start answers.socket) iterations with
      | .error stop => .error stop
      | .ok lifetime => .ok { lifetime with
          events := .opened answers.socket :: lifetime.events } := by
  have positive : 0 < (opened answers.socket).listenSocket := established.positive
  simp only [startServer, open_of_positive established.positive, NetworkUnix.bind,
    NetworkUnix.listen, callListening_of_positive positive, established.nonblock,
    established.reuseaddr, established.bind, established.listen, Bool.and_true, if_true,
    Int.lt_irrefl, if_false, List.append_nil, List.singleton_append]
  rfl

/-- A socket that cannot be set up is closed again, unless it has number 0. -/
theorem startServer_of_not_established (failed : ¬ Established answers) :
    ∃ network, startServer answers iterations = .ok ⟨false, network, none,
      (if 0 ≤ answers.socket then [.opened answers.socket] else []) ++
        if 0 < answers.socket then [.closed answers.socket] else []⟩ ∧
      network.clients = [] := by
  by_cases positive : 0 < answers.socket
  · have listens : 0 < (opened answers.socket).listenSocket := positive
    rw [if_pos (Int.le_of_lt positive), if_pos positive]
    simp only [startServer, open_of_positive positive,
      NetworkUnix.bind, NetworkUnix.listen]
    by_cases created : (answers.nonblock && answers.reuseaddr) = true
    · simp only [created, if_true, Int.lt_irrefl, if_false,
        callListening_of_positive listens]
      cases bound : answers.bind with
      | false => exact ⟨_, rfl, rfl⟩
      | true =>
          cases listened : answers.listen with
          | false =>
              simp only [if_true, Int.lt_irrefl, if_false,
                callListening_of_positive listens]
              exact ⟨_, rfl, rfl⟩
          | true =>
              rw [Bool.and_eq_true] at created
              exact absurd ⟨positive, created.1, created.2, bound, listened⟩ failed
    · simp only [created]
      exact ⟨_, rfl, rfl⟩
  · have small : answers.socket ≤ 0 := Int.not_lt.mp positive
    simp [startServer, NetworkUnix.open, small, positive]

/-- Whatever the kernel answers and whenever the signal comes, the listening socket is closed
once, as the last thing the server does. What stays open are the clients of its table, the
connection that ended the loop because it could not be set up, and a listening socket that
has number 0. -/
theorem server_releases_listening_socket {lifetime : Lifetime}
    (ended : startServer answers iterations = .ok lifetime) :
    (lifetime.returned = true ↔ Established answers ∧
      ∃ final, run TcpServer.iterate (start answers.socket) iterations = .ok final) ∧
    (∃ earlier, .closed answers.socket ∉ earlier ∧ lifetime.events =
      earlier ++ if 0 < answers.socket then [.closed answers.socket] else []) ∧
    (∀ fd, isOpen fd lifetime.events = true ↔ fd ∈ lifetime.network.clients ∨
      fd ∈ lifetime.refused ∨ fd = 0 ∧ answers.socket = 0) ∧
    ∀ fd ∈ lifetime.refused, ∃ iteration ∈ iterations,
      iteration.accept = .accepted fd false := by
  by_cases established : Established answers
  · have positive := established.positive
    rw [startServer_of_established established] at ended
    cases looped : serveUntilStopped (start answers.socket) iterations with
    | error stop =>
        rw [looped] at ended
        cases ended
    | ok loop =>
        rw [looped] at ended
        cases ended
        rcases (kept_start positive).leaves looped with ⟨earlier, leaves⟩
        refine ⟨?_, ⟨.opened answers.socket :: earlier, ?_, ?_⟩, ?_, leaves.refused⟩
        · rw [leaves.returned]
          exact (and_iff_right established).symm
        · simpa using leaves.notClosed
        · simp [leaves.events, positive]
        · intro fd
          have nonzero : answers.socket ≠ 0 := Int.ne_of_gt positive
          simp only [leaves.events, nonzero, and_false, or_false]
          rw [← List.cons_append, isOpen_concat_closed,
            Bool.and_eq_true, decide_eq_true_eq]
          by_cases same : answers.socket = fd
          · subst same
            simp [leaves.notClient, leaves.notRefused]
          · have shut : isOpen fd [.opened answers.socket] =
            false := by simp [isOpen, same]
            have later :=
              @isOpen_append_of_closed fd [.opened answers.socket] earlier shut
            rw [List.singleton_append] at later
            rw [later, leaves.opened]
            simp [same]
  · rcases @startServer_of_not_established answers iterations established with
      ⟨network, started, none⟩
    rw [started] at ended
    cases ended
    refine ⟨?_, ⟨_, ?_, rfl⟩, ?_, ?_⟩
    · simp [established]
    · split <;> simp
    · intro fd
      by_cases positive : 0 < answers.socket
      · have opens : 0 ≤ answers.socket := Int.le_of_lt positive
        have nonzero : answers.socket ≠ 0 := Int.ne_of_gt positive
        simp [opens, positive, nonzero, none, isOpen]
      · by_cases zero : answers.socket = 0
        · simp [zero, none, isOpen, eq_comm]
        · have negative : ¬ 0 ≤ answers.socket := by omega
          simp [positive, negative, zero, none, isOpen]
    · simp

def refusing : List Iteration :=
  [⟨.ready {3} ∅, .accepted 4 true, fun _ => []⟩,
    ⟨.ready {3} ∅, .accepted 5 false, fun _ => []⟩]

theorem refused_option_leaves_clients : ∃ lifetime,
    startServer ⟨3, true, true, true, true⟩ refusing = .ok lifetime ∧
      lifetime.returned = false ∧ lifetime.refused = some 5 ∧
      ∀ fd, isOpen fd lifetime.events = true ↔ fd = 4 ∨ fd = 5 := by
  have ended : startServer ⟨3, true, true, true, true⟩ refusing = .ok
      ⟨false, ⟨{3}, 3, false, [4]⟩, some 5,
          [.opened 3, .opened 4, .opened 5, .closed 3]⟩ := by
    rfl
  refine ⟨_, ended, rfl, rfl, ?_⟩
  intro fd
  rw [(server_releases_listening_socket ended).2.2.1 fd]
  simp [eq_comm]

end Server

end TcpServer

end IioEmu
