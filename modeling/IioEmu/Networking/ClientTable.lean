import IioEmu.Networking.ServerLoop

/-! # The table of clients

At the head of the server's loop the clients are the descriptors that were accepted and not
closed. A closed descriptor leaves the table in the iteration that closed it, before the
kernel can give it out again, and a new one has no bit in the set of that iteration. -/

namespace IioEmu.TcpServer

open Execution

/-! ## Commands -/

section Commands

variable {socket next : SocketUnix}

theorem SocketCall.of_perform {call : SocketCall}
    (performed : call.perform socket = .ok next) :
    next = ⟨socket.fd, socket.disconnected || call.drops⟩ := by
  cases call with
  | getData len buf answers =>
      simp only [perform, Outcome.bind_eq_ok, Outcome.pure_eq_ok, Except.ok.injEq,
        Prod.exists] at performed
      rcases performed with ⟨size, filled, socket', returned, rfl⟩
      exact SocketUnix.of_getData returned
  | write buf len answers =>
      simp only [perform, Outcome.bind_eq_ok, Outcome.pure_eq_ok, Except.ok.injEq,
        Prod.exists] at performed
      rcases performed with ⟨taken, socket', returned, rfl⟩
      exact SocketUnix.of_write returned

theorem of_readCommand {command : List SocketCall}
    (returned : readCommand socket command = .ok next) :
    next = ⟨socket.fd, socket.disconnected || command.any SocketCall.drops⟩ := by
  unfold readCommand at returned
  induction command generalizing socket with
  | nil =>
      cases returned
      simp
  | cons call command induction =>
      rw [List.foldlM_cons, Outcome.bind_eq_ok] at returned
      rcases returned with ⟨middle, performed, rest⟩
      rw [induction rest, SocketCall.of_perform performed]
      simp [Bool.or_assoc]

theorem mem_events_iff {fd : Int} {call : SocketCall} {event : SocketEvent} :
    event ∈ call.events fd ↔ event = call.uses fd ∨ call.drops = true ∧
    event = .closed fd := by
  rw [SocketCall.events]
  cases call.drops <;> simp

theorem uses_eq (fd : Int) (call : SocketCall) :
    call.uses fd = .received fd ∨ call.uses fd = .sent fd := by
  cases call
  · exact .inl rfl
  · exact .inr rfl

theorem mem_command_events {fd : Int} {command : List SocketCall} {event : SocketEvent}
    (member : event ∈ command.flatMap (SocketCall.events fd)) :
    event = .received fd ∨ event = .sent fd ∨ event = .closed fd := by
  rw [List.mem_flatMap] at member
  rcases member with ⟨call, _, inside⟩
  cases mem_events_iff.mp inside with
  | inl used =>
      rw [used]
      exact (uses_eq fd call).imp_right Or.inl
  | inr closes => exact .inr (.inr closes.2)

theorem closed_mem_command_events {fd other : Int} {command : List SocketCall} :
    .closed other ∈ command.flatMap (SocketCall.events fd) ↔
      command.any SocketCall.drops = true ∧ other = fd := by
  rw [List.any_eq_true, List.mem_flatMap]
  apply Iff.intro
  · intro member
    rcases member with ⟨call, inCommand, inside⟩
    cases mem_events_iff.mp inside with
    | inl used =>
        cases uses_eq fd call with
        | inl received =>
            rw [received] at used
            cases used
        | inr sent =>
            rw [sent] at used
            cases used
    | inr closes => exact ⟨⟨call, inCommand, closes.1⟩, SocketEvent.closed.inj closes.2⟩
  · intro dropped
    rcases dropped with ⟨⟨call, inCommand, drops⟩, rfl⟩
    exact ⟨call, inCommand, mem_events_iff.mpr (.inr ⟨drops, rfl⟩)⟩

end Commands

/-! ## Serving -/

section Serving

variable {commands : Int → List SocketCall} {network next : NetworkUnix}
  {active : List Int} {events : List SocketEvent}

structure Serves (network next : NetworkUnix) (active : List Int)
    (events : List SocketEvent) : Prop where
  clients : next.clients = network.clients.filter fun fd => .closed fd ∉ events
  listenSocket : next.listenSocket = network.listenSocket
  served : ∀ fd, events.count (.served fd) = active.count fd
  acceptsNone : ∀ fd, .accepted fd ∉ events
  touched : ∀ fd, .received fd ∈ events → fd ∈ active

theorem serves_nil (network : NetworkUnix) : Serves network network [] [] := by
  constructor
  · simp
  · rfl
  · simp
  · simp
  · simp

theorem Serves.cons {client : Int} {command : List SocketCall} {middle : NetworkUnix}
    (rest : Serves middle next active events)
    (sameSocket : middle.listenSocket = network.listenSocket)
    (removed : middle.clients = if command.any SocketCall.drops
      then network.clients.filter (· ≠ client) else network.clients) :
    Serves network next (client :: active)
      (.served client :: command.flatMap (SocketCall.events client) ++ events) := by
  have closes : ∀ fd, .closed fd ∈ .served client ::
      command.flatMap (SocketCall.events client) ++ events ↔
        (command.any SocketCall.drops = true ∧ fd = client) ∨ .closed fd ∈ events := by
    intro fd
    rw [List.cons_append, List.mem_cons, List.mem_append, closed_mem_command_events]
    simp
  constructor
  · simp only [rest.clients, removed, closes]
    cases dropped : command.any SocketCall.drops with
    | false => simp
    | true =>
        rw [if_pos rfl, List.filter_filter]
        apply List.filter_congr
        intro fd _
        by_cases same : fd = client
        · simp [same]
        · simp [same]
  · exact rest.listenSocket.trans sameSocket
  · intro fd
    have quiet : (command.flatMap (SocketCall.events client)).count (.served fd) = 0 := by
      rw [List.count_eq_zero]
      intro member
      rcases mem_command_events member with equal | equal | equal <;> cases equal
    rw [List.cons_append, List.count_cons, List.count_append, quiet,
      rest.served, List.count_cons]
    by_cases same : client = fd
    · simp [same]
    · simp [same]
  · intro fd member
    rw [List.cons_append, List.mem_cons, List.mem_append] at member
    rcases member with equal | inCommand | inRest
    · cases equal
    · rcases mem_command_events inCommand with equal | equal | equal <;> cases equal
    · exact rest.acceptsNone fd inRest
  · intro fd member
    rw [List.cons_append, List.mem_cons, List.mem_append] at member
    rcases member with equal | inCommand | inRest
    · cases equal
    · rcases mem_command_events inCommand with equal | equal | equal
      · cases equal
        simp
      · cases equal
      · cases equal
    · exact List.mem_cons_of_mem _ (rest.touched fd inRest)

theorem of_serveClients
    (returned : serveClients commands network active = .ok (next, events)) :
    Serves network next active events := by
  induction active generalizing network events with
  | nil =>
      cases returned
      exact serves_nil _
  | cons client active induction =>
      simp only [serveClients, Outcome.bind_eq_ok, Outcome.pure_eq_ok, Except.ok.injEq,
        Prod.mk.injEq, Prod.exists] at returned
      rcases returned with ⟨socket, read, last, later, rest, rfl, rfl⟩
      have dropped : socket.disconnected = (commands client).any SocketCall.drops := by
        rw [of_readCommand read]
        simp [SocketUnix.construct]
      rw [dropped] at rest
      apply (induction rest).cons
      · cases (commands client).any SocketCall.drops <;> rfl
      · cases (commands client).any SocketCall.drops <;> rfl

end Serving

/-! ## The table -/

/-- The clients are the descriptors accepted and not yet closed, each once. -/
structure TableExact (state : State) : Prop where
  exact : ∀ fd, fd ∈ state.network.clients ↔ isConnected fd state.events = true
  nodup : state.network.clients.Nodup

def Iteration.Readable (iteration : Iteration) (fd : Int) : Prop :=
  ∃ readable beyond, iteration.select = .ready readable beyond ∧ fd ∈ readable

/-- Every ready client is served exactly once, a connection accepted in the iteration is not
served in it, and what is received comes from a connection that was open before. -/
structure ServedOnce (state : State) (iteration : Iteration) (events : List SocketEvent) :
    Prop where
  ready : ∀ fd ∈ state.network.clients, iteration.Readable fd →
    events.count (.served fd) = 1
  once : ∀ fd, events.count (.served fd) ≤ 1
  notYet : ∀ fd, .accepted fd ∈ events → .served fd ∉ events
  connected : ∀ fd, .received fd ∈ events → isConnected fd state.events = true

/-- The kernel answers as the server hopes: `select` is at most interrupted, `accept` returns
a descriptor, and every call on a socket returns. -/
structure Granted (iteration : Iteration) : Prop where
  selects : ∀ errno, iteration.select = .failed errno → errno = EINTR
  accepts : ∃ fd, iteration.accept = .accepted fd true
  answers : ∀ fd, ∀ call ∈ iteration.commands fd, ∀ socket, ∃ next,
    SocketCall.perform socket call = .ok next

def HasBits (iteration : Iteration) : Prop :=
  ∀ fd optionsSet, iteration.accept = .accepted fd optionsSet → HasBit fd

structure Listening (state : State) : Prop extends TableExact state where
  positive : 0 < state.network.listenSocket
  listenBit : HasBit state.network.listenSocket
  bits : ∀ client ∈ state.network.clients, HasBit client
  notClient : state.network.listenSocket ∉ state.network.clients

theorem listening_start {listenSocket : Int} (positive : 0 < listenSocket)
    (bit : HasBit listenSocket) : Listening (start listenSocket) := by
  constructor
  · constructor
    · intro fd
      simp [start, NetworkUnix.opened, State.events, isConnected]
    · exact List.nodup_nil
  · exact positive
  · exact bit
  · simp [start, NetworkUnix.opened]
  · simp [start, NetworkUnix.opened]

section Iterations

variable {state : State} {iteration : Iteration}

theorem readCommand_returns {command : List SocketCall}
    (answers : ∀ call ∈ command, ∀ socket, ∃ next,
      SocketCall.perform socket call = .ok next)
    (socket : SocketUnix) : ∃ next, readCommand socket command = .ok next := by
  unfold readCommand
  induction command generalizing socket with
  | nil => exact ⟨socket, rfl⟩
  | cons call command induction =>
      rcases answers call (by simp) socket with ⟨middle, performed⟩
      rcases induction (fun later member => answers later (by simp [member])) middle with
        ⟨next, rest⟩
      exact ⟨next, by rw [List.foldlM_cons, performed, Outcome.ok_bind, rest]⟩

theorem serveClients_returns {commands : Int → List SocketCall}
    (answers : ∀ fd, ∀ call ∈ commands fd, ∀ socket, ∃ next,
      SocketCall.perform socket call = .ok next)
    (network : NetworkUnix) (active : List Int) :
    ∃ next events, serveClients commands network active = .ok (next, events) := by
  induction active generalizing network with
  | nil => exact ⟨network, [], rfl⟩
  | cons client active induction =>
      rcases readCommand_returns (answers client) (SocketUnix.construct client) with
        ⟨socket, read⟩
      rcases induction (if socket.disconnected then network.disconnectSocket client
        else network) with ⟨next, events, rest⟩
      simp only [serveClients, read, Outcome.ok_bind, rest]
      exact ⟨_, _, rfl⟩

def checked (state : State) (iteration : Iteration)
    (newSocket : Option Int) : NetworkUnix :=
  { state.network with
    fdSet := state.network.left iteration.select
    clients := state.network.clients ++ newSocket.toList }

theorem Listening.iterate (listening : Listening state) (granted : Granted iteration)
    (bits : HasBits iteration) :
    TcpServer.iterate state iteration = .error .refused ∨
      ∃ newSocket next served, (∀ fd ∈ newSocket, state.opens fd ∧ HasBit fd) ∧
        Serves (checked state iteration newSocket) next
          ((checked state iteration newSocket).clients.filter
            (· ∈ state.network.left iteration.select)) served ∧
        TcpServer.iterate state iteration = .ok {
          network := next
          history := state.history ++
            [newSocket.toList.map SocketEvent.accepted ++ served] } := by
  rcases granted.accepts with ⟨fd, accepts⟩
  have bit : HasBit fd := bits fd true accepts
  have newSocketIs : ∃ newSocket : Option Int, (∀ other ∈ newSocket, other = fd) ∧
      state.network.checkForNewConnections iteration.select iteration.accept =
        .ok (0, newSocket, checked state iteration newSocket) := by
    rw [accepts, NetworkUnix.checkForNewConnections_eq listening.listenBit
      listening.positive listening.bits granted.selects fd]
    by_cases pending : state.network.listenSocket ∈ state.network.left iteration.select
    · refine ⟨some fd, by simp, ?_⟩
      rw [if_pos pending]
      rfl
    · refine ⟨none, by simp, ?_⟩
      rw [if_neg pending]
      simp [checked]
  rcases newSocketIs with ⟨newSocket, only, check⟩
  by_cases open_already : ∃ fd ∈ newSocket, ¬ state.opens fd
  · apply Or.inl
    simp only [TcpServer.iterate, check, open_already, if_true]
  · have fresh : ∀ other ∈ newSocket, state.opens other ∧ HasBit other := by
      intro other member
      apply And.intro
      · by_contra closed
        exact open_already ⟨other, member, closed⟩
      · rw [only other member]
        exact bit
    have allBits :
        ∀ client ∈ (checked state iteration newSocket).clients, HasBit client := by
      intro client member
      cases List.mem_append.mp member with
      | inl old => exact listening.bits client old
      | inr new => exact (fresh client (by simpa using new)).2
    have active := NetworkUnix.getActiveConnections_eq_ok_iff.mpr
      ⟨allBits, rfl⟩
    rcases serveClients_returns granted.answers (checked state iteration newSocket)
      ((checked state iteration newSocket).clients.filter
        (· ∈ (checked state iteration newSocket).fdSet)) with ⟨next, served, serves⟩
    refine .inr ⟨newSocket, next, served, fresh, of_serveClients serves, ?_⟩
    simp only [TcpServer.iterate, check, open_already, if_false,
      Int.lt_irrefl, active, serves]

variable {newSocket : Option Int} {next : NetworkUnix} {served : List SocketEvent}

theorem mem_iteration_events {event : SocketEvent} :
    event ∈ newSocket.toList.map SocketEvent.accepted ++ served ↔
      (∃ fd ∈ newSocket, event = .accepted fd) ∨ event ∈ served := by
  simp [eq_comm]

theorem isConnected_after (serves : Serves (checked state iteration newSocket) next
      ((checked state iteration newSocket).clients.filter
        (· ∈ state.network.left iteration.select)) served) (fd : Int) :
    isConnected fd
      (state.events ++ (newSocket.toList.map SocketEvent.accepted ++ served)) =
      ((isConnected fd state.events || decide (fd ∈ newSocket)) &&
        decide (.closed fd ∉ served)) := by
  rw [← List.append_assoc, isConnected_append_of_not_accepted (serves.acceptsNone fd)]
  cases newSocket with
  | none => simp
  | some other => simp [isConnected_concat_accepted, eq_comm]

theorem Listening.after (listening : Listening state)
    (fresh : ∀ fd ∈ newSocket, state.opens fd ∧ HasBit fd)
    (serves : Serves (checked state iteration newSocket) next
      ((checked state iteration newSocket).clients.filter
        (· ∈ state.network.left iteration.select)) served) :
    Listening {
      network := next
      history := state.history ++
      [newSocket.toList.map SocketEvent.accepted ++ served] } := by
  have memNext : ∀ fd, fd ∈ next.clients ↔
      (fd ∈ state.network.clients ∨ fd ∈ newSocket) ∧ .closed fd ∉ served := by
    intro fd
    simp [serves.clients, checked, or_and_right]
  have sameSocket : next.listenSocket = state.network.listenSocket := serves.listenSocket
  constructor
  · constructor
    · intro fd
      have events : State.events ⟨next, state.history ++
          [newSocket.toList.map SocketEvent.accepted ++ served]⟩ =
            state.events ++ (newSocket.toList.map SocketEvent.accepted ++ served) := by
        simp [State.events]
      rw [events, isConnected_after serves, memNext, listening.exact]
      simp
    · rw [serves.clients]
      apply List.Nodup.filter
      apply List.Nodup.append listening.nodup
      · cases newSocket <;> simp
      · intro fd member new
        have opens := (fresh fd (by simpa using new)).1
        rw [listening.exact, opens.2] at member
        cases member
  · rw [sameSocket]
    exact listening.positive
  · rw [sameSocket]
    exact listening.listenBit
  · intro client member
    rcases (memNext client).mp member with ⟨old | new, _⟩
    · exact listening.bits client old
    · exact (fresh client new).2
  · intro member
    rw [sameSocket] at member
    rcases (memNext _).mp member with ⟨old | new, _⟩
    · exact listening.notClient old
    · exact (fresh _ new).1.1 rfl

theorem Listening.new_not_left (listening : Listening state)
    (fresh : ∀ fd ∈ newSocket, state.opens fd ∧ HasBit fd) {fd : Int}
    (new : fd ∈ newSocket) : fd ∉ state.network.left iteration.select := by
  intro left
  have opens := (fresh fd new).1
  cases NetworkUnix.mem_watched_iff.mp (NetworkUnix.mem_leaves_of_mem left) with
  | inl listens => exact opens.1 listens
  | inr client =>
      rw [listening.exact, opens.2] at client
      cases client

theorem Listening.servedOnce (listening : Listening state)
    (fresh : ∀ fd ∈ newSocket, state.opens fd ∧ HasBit fd)
    (serves : Serves (checked state iteration newSocket) next
      ((checked state iteration newSocket).clients.filter
        (· ∈ state.network.left iteration.select)) served) :
    ServedOnce state iteration (newSocket.toList.map SocketEvent.accepted ++ served) := by
  have active : (checked state iteration newSocket).clients.filter
      (· ∈ state.network.left iteration.select) =
        state.network.clients.filter (· ∈ state.network.left iteration.select) := by
    have dropped : newSocket.toList.filter
        (· ∈ state.network.left iteration.select) = [] := by
      rw [List.filter_eq_nil_iff]
      intro fd new
      simpa using listening.new_not_left fresh (by simpa using new)
    simp only [checked, List.filter_append, dropped, List.append_nil]
  rw [active] at serves
  have nodup := listening.nodup.filter (· ∈ state.network.left iteration.select)
  have counted : ∀ fd, (newSocket.toList.map SocketEvent.accepted ++ served).count
      (.served fd) =
        (state.network.clients.filter (· ∈ state.network.left iteration.select)).count
          fd := by
    intro fd
    have none : (newSocket.toList.map SocketEvent.accepted).count (.served fd) = 0 := by
      rw [List.count_eq_zero]
      simp
    rw [List.count_append, none, serves.served, Nat.zero_add]
  constructor
  · intro fd member readable
    rcases readable with ⟨readable, beyond, select, reported⟩
    have left : fd ∈ state.network.left iteration.select := by
      rw [select]
      exact NetworkUnix.mem_left_of_readable member reported
    rw [counted, List.count_eq_one_of_mem nodup]
    simpa using ⟨member, left⟩
  · intro fd
    rw [counted]
    exact List.nodup_iff_count_le_one.mp nodup fd
  · intro fd accepted isServed
    have new : fd ∈ newSocket := by
      cases mem_iteration_events.mp accepted with
      | inl isNew =>
          rcases isNew with ⟨other, member, same⟩
          cases same
          exact member
      | inr later => exact absurd later (serves.acceptsNone fd)
    have positive := List.count_pos_iff.mpr isServed
    rw [counted, List.count_pos_iff, List.mem_filter] at positive
    exact listening.new_not_left fresh new (by simpa using positive.2)
  · intro fd received
    cases mem_iteration_events.mp received with
    | inl isNew =>
        rcases isNew with ⟨other, _, same⟩
        cases same
    | inr later =>
        have client := serves.touched fd later
        rw [List.mem_filter] at client
        exact (listening.exact fd).mp client.1

end Iterations

/-! ## Runs -/

/-- The table of clients in every run of the server's loop: while every descriptor the
kernel gives out has a bit in a descriptor set, the table is exact at the head of every
iteration, and an iteration whose `accept` returns a descriptor that is not open is
completed and serves every ready client once. -/
theorem client_table_exact_of_bits {listenSocket : Int} (positive : 0 < listenSocket)
    (listenBit : HasBit listenSocket) (iterations : List Iteration)
    (granted : ∀ iteration ∈ iterations, Granted iteration)
    (bits : ∀ iteration ∈ iterations, HasBits iteration) :
    ∀ state, Reached iterate (start listenSocket) iterations state →
      TableExact state ∧
      ∀ iteration, Taken iterate (start listenSocket) iterations state iteration →
        iterate state iteration = .error .refused ∨
        ∃ next events, iterate state iteration = .ok next ∧
          next.history = state.history ++ [events] ∧
          ServedOnce state iteration events := by
  have listens : ∀ state, Reached iterate (start listenSocket) iterations state →
      Listening state := by
    apply reached_invariant iterate Listening (listening_start positive listenBit)
    intro state iteration next taken stepped listening
    cases listening.iterate (granted iteration taken.mem) (bits iteration taken.mem) with
    | inl refused =>
        rw [refused] at stepped
        cases stepped
    | inr completed =>
        rcases completed with ⟨newSocket, network, served, fresh, serves, iterated⟩
        rw [iterated] at stepped
        cases stepped
        exact listening.after fresh serves
  intro state reached
  have listening := listens state reached
  apply And.intro listening.toTableExact
  intro iteration taken
  cases listening.iterate (granted iteration taken.mem) (bits iteration taken.mem) with
  | inl refused => exact .inl refused
  | inr completed =>
      rcases completed with ⟨newSocket, network, served, fresh, serves, iterated⟩
      exact .inr ⟨_, _, iterated, rfl, listening.servedOnce fresh serves⟩

section Examples

def hangUp : List SocketCall := [.getData 1 [none] [.again, .stored []]]

theorem hangUp_answers : ∀ call ∈ hangUp, ∀ socket, ∃ next,
    SocketCall.perform socket call = .ok next := by
  intro call member socket
  rw [List.mem_singleton.mp member]
  exact ⟨_, rfl⟩

def reuse : List Iteration :=
  [⟨.ready {3} ∅, .accepted 4 true, fun _ => []⟩,
    ⟨.ready {3, 4} ∅, .accepted 5 true, fun _ => []⟩,
    ⟨.ready {4, 5} ∅, .accepted 6 true, fun _ => hangUp⟩,
    ⟨.ready {3} ∅, .accepted 5 true, fun _ => []⟩,
    ⟨.failed EINTR, .accepted 4 true, fun _ => hangUp⟩]

theorem client_table_exact_in_reuse :
    (run iterate (start 3) reuse).toOption.map
      (fun state => (state.network.clients, state.history.length)) = some ([4], 5) ∧
    ∀ state, Reached iterate (start 3) reuse state →
      TableExact state ∧
      ∀ iteration, Taken iterate (start 3) reuse state iteration →
        iterate state iteration = .error .refused ∨
        ∃ next events, iterate state iteration = .ok next ∧
          next.history = state.history ++ [events] ∧
          ServedOnce state iteration events := by
  refine ⟨by decide +kernel, ?_⟩
  apply client_table_exact_of_bits (by decide) (by decide)
  · simp only [reuse, List.forall_mem_cons]
    refine ⟨?_, ?_, ?_, ?_, ?_, List.forall_mem_nil _⟩
    all_goals
      constructor
      · simp [EINTR]
      · exact ⟨_, rfl⟩
      · first | exact fun _ => hangUp_answers | simp
  · simp only [reuse, List.forall_mem_cons]
    refine ⟨?_, ?_, ?_, ?_, ?_, List.forall_mem_nil _⟩
    all_goals
      intro fd optionsSet accepts
      cases accepts
      decide

/-- The descriptor after the last one with a bit: the iteration that accepts it does not
complete. -/
theorem client_table_overruns_the_set :
    ¬ ∀ (listenSocket : Int), 0 < listenSocket → HasBit listenSocket →
      ∀ iterations : List Iteration, (∀ iteration ∈ iterations, Granted iteration) →
      ∀ state, Reached iterate (start listenSocket) iterations state →
        TableExact state ∧
        ∀ iteration, Taken iterate (start listenSocket) iterations state iteration →
          iterate state iteration = .error .refused ∨
          ∃ next events, iterate state iteration = .ok next ∧
            next.history = state.history ++ [events] ∧
            ServedOnce state iteration events := by
  intro exact
  let iteration : Iteration := ⟨.ready {3} ∅, .accepted 1024 true, fun _ => []⟩
  have granted : ∀ other ∈ [iteration], Granted other := by
    intro other member
    rw [List.mem_singleton.mp member]
    constructor
    · intro errno failed
      cases failed
    · exact ⟨1024, rfl⟩
    · simp [iteration]
  have reached : Reached iterate (start 3) [iteration] (start 3) := ⟨[], by simp, rfl⟩
  have taken :
    Taken iterate (start 3) [iteration] (start 3) iteration := ⟨[], by simp, rfl⟩
  have overrun : iterate (start 3) iteration = .error (.fault .outOfBounds) := by
    rfl
  cases (exact 3 (by decide) (by decide) [iteration] granted (start 3) reached).2 iteration
      taken with
  | inl refused =>
      rw [overrun] at refused
      cases refused
  | inr completed =>
      rcases completed with ⟨next, events, iterated, _⟩
      rw [overrun] at iterated
      cases iterated

end Examples

end IioEmu.TcpServer
