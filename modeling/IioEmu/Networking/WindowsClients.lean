import IioEmu.Networking.PlatformAgreement

/-! # The clients a server on Windows serves

The table is exact however long it grows, but only the clients at its head are in the set of an
iteration. The others wait until those before them are gone. -/

namespace IioEmu.TcpServer

open Execution NetworkWin

def WinIteration.Readable (iteration : WinIteration) (socket : Nat) : Prop :=
  ∃ readable, iteration.select = .ready readable ∧ socket ∈ readable

/-- Every ready client at the head of the table is served exactly once, and nobody else is. -/
structure ServedFirst (state : WinState) (iteration : WinIteration)
    (events : List SocketEvent) : Prop where
  ready : ∀ socket ∈ state.network.watchedClients, iteration.Readable socket →
    events.count (.served socket) = 1
  once : ∀ fd : Int, events.count (.served fd) ≤ 1
  first : ∀ fd : Int, .served fd ∈ events → ∃ socket ∈ state.network.watchedClients,
    iteration.Readable socket ∧ fd = socket

structure Tabled (state : WinState) : Prop where
  exact : TableExact state.unix
  narrow : ∀ client ∈ state.network.clients, client < 2 ^ 31
  notClient : state.network.listenSocket ∉ state.network.clients

theorem tabled_start (listenSocket : Nat) (error : Int) :
    Tabled (startWin listenSocket error) := by
  constructor
  · exact tableExact_start listenSocket
  · simp [startWin, opened]
  · simp [startWin, opened]

section Iterations

variable {state next : WinState} {iteration : WinIteration}

theorem Tabled.distinct (tabled : Tabled state) : state.network.clients.Nodup :=
  tabled.exact.nodup.of_map

theorem Tabled.connected (tabled : Tabled state) :
    ∀ socket ∈ state.network.clients, isConnected (socket : Int) state.events = true :=
  fun socket inside =>
    (tabled.exact.exact socket).mp (List.mem_map.mpr ⟨socket, inside, rfl⟩)

structure ChecksWin (network next : NetworkWin) (iteration : WinIteration)
    (newSocket : Option Nat) : Prop where
  listenSocket : next.listenSocket = network.listenSocket
  clients : next.clients = network.clients ++ newSocket.toList
  fdSet : ∀ socket, socket ∈ next.fdSet ↔
    (socket = network.listenSocket ∨ socket ∈ network.watchedClients) ∧
      iteration.Readable socket
  accepted : ∀ socket ∈ newSocket, iteration.accept = .accepted socket true

theorem Tabled.checks (tabled : Tabled state) {ret : Int} {newSocket : Option Nat}
    {network : NetworkWin}
    (check : state.network.checkForNewConnections iteration.select iteration.accept =
      (ret, newSocket, network)) (goesOn : ¬ ret < 0) :
    ChecksWin state.network network iteration newSocket := by
  cases selected : iteration.select with
  | failed =>
      rw [selected, checkForNewConnections] at check
      cases check
      exact absurd (show (-1 : Int) < 0 by decide) goesOn
  | ready readable =>
      have inSet : ∀ socket, socket ∈ (state.network.listenSocket ::
          state.network.watchedClients).filter (· ∈ readable) ↔
            (socket = state.network.listenSocket ∨
              socket ∈ state.network.watchedClients) ∧
              iteration.Readable socket := by
        intro socket
        have reported : iteration.Readable socket ↔ socket ∈ readable := by
          simp [WinIteration.Readable, selected]
        rw [List.mem_filter, List.mem_cons, decide_eq_true_eq, reported]
      simp only [selected, checkForNewConnections,
        watched_eq tabled.distinct tabled.notClient]
        at check
      split at check
      · simp only [accept] at check
        by_cases invalid : state.network.listenSocket = INVALID_SOCKET
        · simp only [if_pos invalid] at check
          cases check
          exact absurd (show (-1 : Int) < 0 by decide) goesOn
        · simp only [if_neg invalid] at check
          cases accepts : iteration.accept with
          | failed =>
              rw [accepts] at check
              cases check
              exact absurd (show (-1 : Int) < 0 by decide) goesOn
          | accepted socket optionsSet =>
              rw [accepts] at check
              cases optionsSet with
              | false =>
                  cases check
                  exact absurd (show (-1 : Int) < 0 by decide) goesOn
              | true =>
                  cases check
                  exact ⟨rfl, rfl, inSet, by simp [accepts]⟩
      · cases check
        exact ⟨rfl, by simp, inSet, by simp⟩

section Checked

variable {network : NetworkWin} {newSocket : Option Nat}
  (checks : ChecksWin state.network network iteration newSocket)

include checks

theorem ChecksWin.mem_clients {client : Nat} :
    client ∈ network.clients ↔ client ∈ state.network.clients ∨ client ∈ newSocket := by
  rw [checks.clients, List.mem_append, Option.mem_toList, Option.mem_def]

theorem ChecksWin.unix_clients :
    network.unix.clients = state.unix.network.clients ++
      (newSocket.map fun socket : Nat => (socket : Int)).toList := by
  rw [NetworkWin.unix, checks.clients, List.map_append]
  cases newSocket <;> rfl

theorem ChecksWin.small (tabled : Tabled state)
    (narrow : ∀ socket optionsSet, iteration.accept = .accepted socket optionsSet →
      socket < 2 ^ 31) :
    ∀ client ∈ network.clients, client < 2 ^ 31 := by
  intro client inside
  rcases checks.mem_clients.mp inside with old | new
  · exact tabled.narrow client old
  · exact narrow client true (checks.accepted client new)

variable (tabled : Tabled state) (fresh : ∀ socket ∈ newSocket, state.opens socket)

include tabled fresh

theorem ChecksWin.distinct : network.clients.Nodup := by
  rw [checks.clients]
  apply List.Nodup.append tabled.distinct
  · cases newSocket <;> simp
  · intro client old new
    exact not_mem_of_opens tabled.connected (fresh client (Option.mem_toList.mp new)) old

theorem ChecksWin.notClient : state.network.listenSocket ∉ network.clients := by
  intro inside
  rcases checks.mem_clients.mp inside with old | new
  · exact tabled.notClient old
  · exact (fresh _ new).1 rfl

theorem ChecksWin.mem_active (small : ∀ client ∈ network.clients,
      client < 2 ^ 31) {fd : Int} :
    fd ∈ network.getActiveConnections ↔
      ∃ socket ∈ state.network.watchedClients,
      iteration.Readable socket ∧ fd = socket := by
  rw [active_eq small, List.mem_map]
  apply Iff.intro
  · intro found
    rcases found with ⟨socket, member, rfl⟩
    rw [List.mem_filter, decide_eq_true_eq, checks.fdSet] at member
    rcases member with ⟨inside, listens | watched, readable⟩
    · rw [listens] at inside
      exact absurd inside (checks.notClient tabled fresh)
    · exact ⟨socket, watched, readable, rfl⟩
  · intro found
    rcases found with ⟨socket, watched, readable, rfl⟩
    have inside := checks.mem_clients.mpr (.inl (List.mem_of_mem_take watched))
    have inSet := (checks.fdSet socket).mpr ⟨.inr watched, readable⟩
    exact ⟨socket, List.mem_filter.mpr ⟨inside, decide_eq_true inSet⟩, rfl⟩

end Checked

theorem mem_of_serves {network last : NetworkWin} {active : List Int}
    {events : List SocketEvent}
    (serves : Serves network.unix last.unix active events) {client : Nat}
    (inside : client ∈ last.clients) : client ∈ network.clients := by
  have found : (client : Int) ∈ last.unix.clients :=
    List.mem_map.mpr ⟨client, inside, rfl⟩
  rw [serves.clients, List.mem_filter] at found
  rcases List.mem_map.mp found.1 with ⟨socket, member, equal⟩
  rw [← Int.natCast_inj.mp equal]
  exact member

theorem count_served_accepted (newSocket : Option Nat)
    (events : List SocketEvent) (fd : Int) :
    (newSocket.toList.map (fun socket : Nat => SocketEvent.accepted socket) ++ events).count
      (.served fd) = events.count (.served fd) := by
  have none : (newSocket.toList.map (fun socket : Nat => SocketEvent.accepted socket)).count
      (.served fd) = 0 := by
    rw [List.count_eq_zero]
    simp
  rw [List.count_append, none, Nat.zero_add]

theorem Tabled.iterate (tabled : Tabled state)
    (narrow : ∀ socket optionsSet, iteration.accept = .accepted socket optionsSet →
      socket < 2 ^ 31)
    (iterated : iterateWin state iteration = .ok next) :
    Tabled next ∧ ∃ events, next.history = state.history ++ [events] ∧
      ServedFirst state iteration events := by
  rcases served_of_iterateWin iterated with
    ⟨ret, newSocket, network, events, check, goesOn, fresh, served, history⟩
  have checks := tabled.checks check goesOn
  have small := checks.small tabled narrow
  have distinct := distinct_of_active small (checks.distinct tabled fresh)
  have heard :=
    @serveClientsWin_eq iteration.commands _ (fun client => narrow_of_active small)
    distinct network state.error
  rw [served] at heard
  have serves := of_serveClients heard.symm
  refine ⟨?_, _, history, ?_⟩
  · constructor
    · have freshUnix : ∀ fd ∈ newSocket.map fun socket : Nat => (socket : Int),
          state.unix.opens fd := by
        intro fd inside
        rcases Option.mem_map.mp inside with ⟨socket, member, rfl⟩
        exact opens_unix.mpr (fresh socket member)
      have newEvents : (newSocket.map fun socket : Nat => (socket : Int)).toList.map
          SocketEvent.accepted =
            newSocket.toList.map (fun socket : Nat => SocketEvent.accepted socket) := by
        cases newSocket <;> rfl
      have after := tabled.exact.after freshUnix checks.unix_clients serves
      rw [newEvents] at after
      rw [WinState.unix, history]
      exact after
    · exact fun client inside => small client (mem_of_serves serves inside)
    · have sameSocket : next.network.listenSocket = state.network.listenSocket := by
        rw [← checks.listenSocket]
        exact Int.natCast_inj.mp serves.listenSocket
      rw [sameSocket]
      exact fun inside => checks.notClient tabled fresh (mem_of_serves serves inside)
  · have active := fun fd => @ChecksWin.mem_active _ _ _ _ checks tabled fresh small fd
    constructor
    · intro socket watched readable
      rw [count_served_accepted, serves.served]
      exact List.count_eq_one_of_mem distinct
        ((active socket).mpr ⟨socket, watched, readable, rfl⟩)
    · intro fd
      rw [count_served_accepted, serves.served]
      exact List.nodup_iff_count_le_one.mp distinct fd
    · intro fd isServed
      rw [← List.count_pos_iff, count_served_accepted, serves.served, List.count_pos_iff]
        at isServed
      exact (active fd).mp isServed

end Iterations

/-! ## Runs -/

section Runs

variable {listenSocket : Nat} {error : Int} {iterations : List WinIteration}

theorem tabled_of_reached
    (narrow : ∀ iteration ∈ iterations, ∀ socket optionsSet,
      iteration.accept = .accepted socket optionsSet → socket < 2 ^ 31) :
    ∀ state, Reached iterateWin (startWin listenSocket error) iterations state →
      Tabled state := by
  apply reached_invariant iterateWin Tabled (tabled_start listenSocket error)
  intro state iteration next taken iterated tabled
  exact (tabled.iterate (narrow iteration taken.mem) iterated).1

/-- The table of clients in every run of a server on Windows, as long as it may grow: it is
exact, an iteration that is completed serves the ready clients at its head once and nobody
else, and a client that never comes to its head is never served. -/
theorem windows_serves_first_clients
    (narrow : ∀ iteration ∈ iterations, ∀ socket optionsSet,
      iteration.accept = .accepted socket optionsSet → socket < 2 ^ 31) :
    (∀ state, Reached iterateWin (startWin listenSocket error) iterations state →
      TableExact state.unix ∧
      ∀ iteration next, Taken iterateWin (startWin listenSocket error)
        iterations state iteration →
        iterateWin state iteration = .ok next →
        ∃ events, next.history = state.history ++ [events] ∧
          ServedFirst state iteration events) ∧
    ∀ socket : Nat,
      (∀ state, Reached iterateWin (startWin listenSocket error) iterations state →
        socket ∉ state.network.watchedClients) →
      ∀ state, Reached iterateWin (startWin listenSocket error) iterations state →
        .served (socket : Int) ∉ state.events := by
  have tables := @tabled_of_reached listenSocket error iterations narrow
  constructor
  · intro state reached
    refine ⟨(tables state reached).exact, ?_⟩
    intro iteration next taken iterated
    exact ((tables state reached).iterate (narrow iteration taken.mem) iterated).2
  · intro socket waits
    apply reached_invariant iterateWin (fun state => .served (socket : Int) ∉ state.events)
    · simp [startWin, WinState.events]
    · intro state iteration next taken iterated unserved
      have reached := taken.reached iterateWin
      rcases (tables state reached).iterate (narrow iteration taken.mem) iterated with
        ⟨_, events, history, served⟩
      rw [WinState.events, history, List.flatten_append,
        List.mem_append, ← WinState.events]
      intro found
      rcases found with before | now
      · exact unserved before
      · rw [List.flatten_singleton] at now
        rcases served.first _ now with ⟨client, watched, _, equal⟩
        rw [Int.natCast_inj.mp equal] at waits
        exact waits state reached watched

def crowd (count : Nat) : List WinIteration :=
  (List.range count).map (fun client => ⟨.ready {3},
    .accepted (client + 4) true, fun _ => []⟩) ++
    [⟨.ready ((List.range count).map (· + 4)).toFinset, .failed, fun _ => []⟩]

theorem crowd_leaves_last_client :
    ((run iterateWin (startWin 3 0) (crowd 64)).toOption.map fun state =>
      (state.network.clients.length,
      [66, 67].map fun fd => state.events.count (.served fd))) =
        some (64, [1, 0]) ∧
    ∀ state, Reached iterateWin (startWin 3 0) (crowd 64) state →
    TableExact state.unix := by
  refine ⟨by decide +kernel, ?_⟩
  intro state reached
  apply ((windows_serves_first_clients ?_).1 state reached).1
  intro iteration inside socket optionsSet accepts
  rcases List.mem_append.mp inside with connects | asks
  · rcases List.mem_map.mp connects with ⟨client, member, rfl⟩
    cases accepts
    rw [List.mem_range] at member
    omega
  · rw [List.mem_singleton.mp asks] at accepts
    cases accepts

end Runs

end IioEmu.TcpServer
