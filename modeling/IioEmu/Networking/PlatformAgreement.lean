import IioEmu.Networking.NetworkWin
import IioEmu.Networking.ServedContext
import Mathlib.Data.Finset.Image

/-! # The server on Windows and on Unix

Each state of the server on Windows is one of the server on Unix, and serving the clients is
serving them on Unix with the calls they hear. -/

namespace IioEmu

def NetworkWin.unix (network : NetworkWin) : NetworkUnix where
  fdSet := (network.fdSet.map fun socket : Nat => (socket : Int)).toFinset
  listenSocket := network.listenSocket
  listening := network.listening
  clients := network.clients.map fun socket : Nat => (socket : Int)

def WinSelectAnswer.unix : WinSelectAnswer → SelectAnswer
  | .ready readable =>
      let readable := readable.image fun socket : Nat => (socket : Int)
      .ready readable readable
  | .failed => .failed 0

def WinAcceptAnswer.unix : WinAcceptAnswer → AcceptAnswer
  | .failed => .failed
  | .accepted socket optionsSet => .accepted socket optionsSet

def IsNarrow (fd : Int) : Prop := ∃ socket : Nat, socket < 2 ^ 31 ∧ fd = socket

namespace TcpServer

open Execution NetworkWin

def WinState.unix (state : WinState) : State := ⟨state.network.unix, state.history⟩

/-! ## Serving -/

def heardCommands (commands : Int → List WinCall) (error : Int) :
    List Int → Int → List SocketCall
  | [], _ => []
  | client :: activeConnections, fd =>
      if fd = client then heardCommand error (commands client)
      else heardCommands commands (commandError error (commands client)) activeConnections fd

section Serving

variable {commands : Int → List WinCall} {network : NetworkWin}

theorem serveClients_congr {first second : Int → List SocketCall} {active : List Int}
    (same : ∀ client ∈ active, first client = second client) (network : NetworkUnix) :
    serveClients first network active = serveClients second network active := by
  induction active generalizing network with
  | nil => rfl
  | cons client active induction =>
      have rest := induction fun other inside => same other (List.mem_cons_of_mem _ inside)
      simp only [serveClients, same client List.mem_cons_self, rest]

theorem heardCommands_own (error : Int) (client : Int) (active : List Int) :
    heardCommands commands error (client :: active) client =
      heardCommand error (commands client) := by
  rw [heardCommands, if_pos rfl]

theorem heardCommands_of_mem (error : Int) {client other : Int} {active : List Int}
    (distinct : (client :: active).Nodup) (inside : other ∈ active) :
    heardCommands commands error (client :: active) other =
      heardCommands commands (commandError error (commands client)) active other := by
  have different : other ≠ client := by
    intro equal
    rw [equal] at inside
    exact (List.nodup_cons.mp distinct).1 inside
  rw [heardCommands, if_neg different]

theorem disconnectSocket_unix {socket : Nat} (narrow : socket < 2 ^ 31) :
    (network.disconnectSocket socket).unix = network.unix.disconnectSocket socket := by
  simp only [disconnectSocket, NetworkUnix.disconnectSocket, NetworkWin.unix,
    socketOfInt_natCast narrow, List.filter_map]
  congr 2
  apply List.filter_congr
  intro client _
  simp only [Function.comp_apply, ne_eq, decide_not, Int.natCast_inj]

theorem serveClientsWin_eq {active : List Int}
    (narrow : ∀ client ∈ active, IsNarrow client) (distinct : active.Nodup)
    (network : NetworkWin) (error : Int) :
    (fun (last, _, events) => (last.unix, events)) <$>
        serveClientsWin commands network error active =
      serveClients (heardCommands commands error active) network.unix active := by
  induction active generalizing network error with
  | nil => rfl
  | cons client active induction =>
      rcases narrow client List.mem_cons_self with ⟨socket, small, rfl⟩
      have others :=
        fun other => @heardCommands_of_mem commands error socket other _ distinct
      have made : SocketWin.unix (SocketWin.construct socket) =
          SocketUnix.construct socket := by
        rw [SocketWin.construct, SocketWin.unix, SocketUnix.construct,
          socketOfInt_natCast small]
      simp only [serveClientsWin, serveClients, heardCommands_own]
      rw [readCommandWin_eq, made]
      cases read : readCommand (SocketUnix.construct socket)
          (heardCommand error (commands socket)) with
      | error fault => rfl
      | ok last =>
          have kept : (if last.disconnected then network.disconnectSocket socket
              else network).unix =
                if last.disconnected then network.unix.disconnectSocket socket
                else network.unix := by
            cases last.disconnected
            · rfl
            · exact disconnectSocket_unix small
          have rest := induction
            (fun other inside => narrow other (List.mem_cons_of_mem _ inside))
            (List.nodup_cons.mp distinct).2
            (if last.disconnected then network.disconnectSocket socket else network)
            (commandError error (commands socket))
          rw [kept, ← serveClients_congr others] at rest
          have descriptor : ((SocketWin.construct socket).fd : Int) = socket := by
            rw [SocketWin.construct, socketOfInt_natCast small]
          simp only [Outcome.ok_bind, Functor.map, Except.map, ← rest, descriptor,
            commandEvents_eq]
          cases serveClientsWin commands
              (if last.disconnected then network.disconnectSocket socket else network)
              (commandError error (commands socket)) active <;> rfl

end Serving

/-! ## Looking for connections -/

structure Fits (network : NetworkWin) : Prop where
  positive : 0 < network.listenSocket
  listenBit : HasBit network.listenSocket
  bits : ∀ client ∈ network.clients, HasBit (client : Int)
  distinct : network.clients.Nodup
  notClient : network.listenSocket ∉ network.clients
  room : network.clients.length < NetworkWin.FD_SETSIZE

section Checking

variable {network : NetworkWin}

theorem Fits.watched (fits : Fits network) :
    network.clients.foldl addSocket (addSocket [] network.listenSocket) =
      network.listenSocket :: network.clients := by
  rw [watched_eq fits.distinct fits.notClient, watchedClients, List.take_of_length_le]
  exact Nat.le_sub_one_of_lt fits.room

theorem Fits.listens (fits : Fits network) : network.listenSocket ≠ INVALID_SOCKET := by
  have bit := fits.listenBit
  unfold HasBit FD_SETSIZE at bit
  unfold INVALID_SOCKET
  omega

theorem Fits.unix_listenBit (fits : Fits network) : HasBit network.unix.listenSocket :=
  fits.listenBit

theorem Fits.unix_bits (fits : Fits network) :
    ∀ client ∈ network.unix.clients, HasBit client := by
  intro client inside
  rcases List.mem_map.mp inside with ⟨socket, member, rfl⟩
  exact fits.bits socket member

def seen (network : NetworkWin) (readable : Finset Nat) : NetworkWin :=
  { network with
      fdSet := (network.listenSocket :: network.clients).filter (· ∈ readable) }

theorem mem_unix_left {readable : Finset Nat} {fd : Int} :
    fd ∈ network.unix.left (WinSelectAnswer.ready readable).unix ↔
      ∃ socket : Nat, (socket = network.listenSocket ∨ socket ∈ network.clients) ∧
        socket ∈ readable ∧ (socket : Int) = fd := by
  rw [NetworkUnix.left, WinSelectAnswer.unix, SelectAnswer.leaves,
    Finset.mem_filter, ite_self, NetworkUnix.mem_watched_iff, Finset.mem_image]
  apply Iff.intro
  · intro found
    rcases found with ⟨watched, ⟨socket, reported, rfl⟩⟩
    refine ⟨socket, ?_, reported, rfl⟩
    rcases watched with equal | inside
    · exact .inl (Int.natCast_inj.mp equal)
    · rcases List.mem_map.mp inside with ⟨client, member, equal⟩
      rw [← Int.natCast_inj.mp equal]
      exact .inr member
  · intro found
    rcases found with ⟨socket, watched, reported, rfl⟩
    refine ⟨?_, socket, reported, rfl⟩
    rcases watched with equal | inside
    · exact .inl (congrArg _ equal)
    · exact .inr (List.mem_map.mpr ⟨socket, inside, rfl⟩)

theorem seen_unix (network : NetworkWin) (readable : Finset Nat) :
    (seen network readable).unix = { network.unix with
      fdSet := network.unix.left (WinSelectAnswer.ready readable).unix } := by
  have set : (seen network readable).unix.fdSet =
      network.unix.left (WinSelectAnswer.ready readable).unix := by
    ext fd
    rw [mem_unix_left]
    simp only [seen, NetworkWin.unix, List.mem_toFinset, List.mem_map, List.mem_filter,
      List.mem_cons, decide_eq_true_eq, and_assoc]
  rw [← set]
  rfl

theorem check_ready (fits : Fits network) (readable : Finset Nat)
    (answer : WinAcceptAnswer) :
    network.checkForNewConnections (.ready readable) answer =
      if network.listenSocket ∈ readable then
        match answer with
        | .failed => (-1, none, { seen network readable with listening := false })
        | .accepted socket false =>
            (-1, some socket, { seen network readable with listening := false })
        | .accepted socket true =>
            (0, some socket, { seen network readable with
              clients := network.clients ++ [socket] })
      else (0, none, seen network readable) := by
  have listens := fits.listens
  simp only [checkForNewConnections, fits.watched, List.mem_filter,
    List.mem_cons, true_or, true_and, decide_eq_true_eq]
  by_cases pending : network.listenSocket ∈ readable
  · rw [if_pos pending, if_pos pending]
    cases answer with
    | failed => simp [accept, close, listens, EAGAIN, seen]
    | accepted socket optionsSet =>
        cases optionsSet <;> simp [accept, close, listens, EAGAIN, seen]
  · rw [if_neg pending, if_neg pending]
    rfl

theorem unix_check_ready (fits : Fits network) (readable : Finset Nat)
    (answer : WinAcceptAnswer) :
    network.unix.checkForNewConnections
      (WinSelectAnswer.ready readable).unix answer.unix =
      .ok (if network.listenSocket ∈ readable then
        match answer with
        | .failed => (-EAGAIN, none,
        { (seen network readable).unix with listening := false })
        | .accepted socket false =>
            (-1, some (socket : Int),
              { (seen network readable).unix with listening := false })
        | .accepted socket true =>
            (0, some (socket : Int), { (seen network readable).unix with
              clients := network.unix.clients ++ [(socket : Int)] })
      else (0, none, (seen network readable).unix)) := by
  have listenBit := fits.unix_listenBit
  have listens : ¬ network.unix.listenSocket ≤ 0 := by
    have positive := fits.positive
    simp only [NetworkWin.unix]
    omega
  have watches := NetworkUnix.watched_bits listenBit fits.unix_bits
  rw [Outcome.bind_eq_ok] at watches
  rcases watches with ⟨listenOnly, first, rest⟩
  have pending_iff : network.unix.listenSocket ∈
      network.unix.left (WinSelectAnswer.ready readable).unix ↔
        network.listenSocket ∈ readable := by
    rw [mem_unix_left]
    apply Iff.intro
    · intro found
      rcases found with ⟨socket, _, reported, equal⟩
      rw [← Int.natCast_inj.mp equal]
      exact reported
    · exact fun reported => ⟨network.listenSocket, .inl rfl, reported, rfl⟩
  rw [seen_unix]
  rw [NetworkUnix.checkForNewConnections, first, Outcome.ok_bind, rest, Outcome.ok_bind]
  change NetworkUnix.checkForNewConnections.acceptReported _
    (network.unix.left (WinSelectAnswer.ready readable).unix) _ = _
  rw [NetworkUnix.checkForNewConnections.acceptReported, fdIsSet, if_pos listenBit,
    Outcome.ok_bind]
  by_cases pending : network.listenSocket ∈ readable
  · simp only [pending_iff.mpr pending, decide_true, if_true, pending]
    cases answer with
    | failed =>
        simp only [WinAcceptAnswer.unix, NetworkUnix.accept, NetworkUnix.close, listens]
        rfl
    | accepted socket optionsSet =>
        cases optionsSet <;>
          simp only [WinAcceptAnswer.unix, NetworkUnix.accept,
            NetworkUnix.close, listens] <;>
            rfl
  · have absent := mt pending_iff.mp pending
    simp only [absent, decide_false, Bool.false_eq_true, if_false, pending]
    rfl

theorem check_failed (answer : WinAcceptAnswer) :
    ∃ next, network.checkForNewConnections .failed answer = (-1, none, next) := by
  simp only [checkForNewConnections]
  exact ⟨_, rfl⟩

theorem unix_check_failed (fits : Fits network) (answer : WinAcceptAnswer) :
    ∃ next, network.unix.checkForNewConnections WinSelectAnswer.failed.unix answer.unix =
      .ok (-1, none, next) := by
  have watches := NetworkUnix.watched_bits fits.unix_listenBit fits.unix_bits
  rw [Outcome.bind_eq_ok] at watches
  rcases watches with ⟨listenOnly, first, rest⟩
  rw [NetworkUnix.checkForNewConnections, first, Outcome.ok_bind, rest, Outcome.ok_bind]
  exact ⟨_, rfl⟩

end Checking

/-! ## One iteration -/

def WinIteration.unix (iteration : WinIteration) : Iteration :=
  ⟨iteration.select.unix, iteration.accept.unix,
    fun fd => (iteration.commands fd).map WinCall.unix⟩

/-- What an iteration gives each platform to do is answered in the same terms. -/
structure WinIteration.Answerable (iteration : WinIteration) : Prop where
  bits : ∀ socket optionsSet, iteration.accept = .accepted socket optionsSet →
    HasBit (socket : Int)
  ends : ∀ fd, ∀ call ∈ iteration.commands fd, call.EndsForGood

def WinIteration.Waits (iteration : WinIteration) : Prop :=
  ∃ fd, ∃ call ∈ iteration.commands fd, call.Waits

def Stop.settled : Stop → Stop
  | .failed _ => .failed (-1)
  | stop => stop

def settled (result : Except Stop State) : Except Stop State :=
  result.mapError Stop.settled

section Iterations

variable {state : WinState} {iteration : WinIteration}

theorem narrow_of_hasBit {socket : Nat} (bit : HasBit (socket : Int)) :
    socket < 2 ^ 31 := by
  unfold HasBit FD_SETSIZE at bit
  omega

theorem heardCommands_cases {commands : Int → List WinCall}
    (ends : ∀ fd, ∀ call ∈ commands fd, call.EndsForGood) {active : List Int}
    (distinct : active.Nodup) (network : NetworkUnix) (error : Int) :
    ((triesAgain error = true ∨ ∃ fd, ∃ call ∈ commands fd, call.Waits) ∧
      serveClients (heardCommands commands error active) network active = .error .diverges) ∨
    serveClients (heardCommands commands error active) network active =
      serveClients (fun fd => (commands fd).map WinCall.unix) network active := by
  induction active generalizing network error with
  | nil => exact .inr rfl
  | cons client active induction =>
      have others :=
        fun other => @heardCommands_of_mem commands error client other _ distinct
      have waits : Waited error (commands client) →
          triesAgain error = true ∨ ∃ fd, ∃ call ∈ commands fd, call.Waits :=
        Or.imp_right fun waits => ⟨client, waits⟩
      simp only [serveClients, heardCommands_own]
      rcases @heardCommand_cases error _ (ends client) (SocketUnix.construct client) with
        ⟨waited, hangs⟩ | ⟨same, events⟩
      · exact .inl ⟨waits waited, by rw [hangs]; rfl⟩
      · cases read : readCommand (SocketUnix.construct client)
            (heardCommand error (commands client)) with
        | error fault =>
            rw [read] at same
            rw [← same]
            exact .inr rfl
        | ok last =>
            rw [← same, read]
            simp only [Outcome.ok_bind, events last read client]
            rw [serveClients_congr others]
            rcases induction (List.nodup_cons.mp distinct).2
                (if last.disconnected then network.disconnectSocket client else network)
                (commandError error (commands client)) with ⟨waited, hangs⟩ | agrees
            · refine .inl ⟨?_, by rw [hangs]; rfl⟩
              rcases waited with again | later
              · exact waits (waited_of_commandError again)
              · exact .inr later
            · exact .inr (by rw [agrees])

theorem waits_of_serveClientsWin {commands : Int → List WinCall}
    {network next : NetworkWin} {error last : Int} {active : List Int}
    {events : List SocketEvent}
    (served : serveClientsWin commands network error active = .ok (next, last, events))
    (again : triesAgain last = true) :
    triesAgain error = true ∨ ∃ fd, ∃ call ∈ commands fd, call.Waits := by
  induction active generalizing network error events with
  | nil =>
      cases served
      exact .inl again
  | cons client active induction =>
      simp only [serveClientsWin, Outcome.bind_eq_ok, Outcome.pure_eq_ok, Except.ok.injEq,
        Prod.exists] at served
      rcases served with ⟨socket, middle, read, middleNetwork, final, later, rest, equal⟩
      cases equal
      rw [readCommandWin_eq, Outcome.map_eq_ok] at read
      rcases read with ⟨_, _, equal⟩
      cases equal
      rcases induction rest with before | later
      · exact (waited_of_commandError before).imp_right fun waits => ⟨client, waits⟩
      · exact .inr later

section Active

variable {network : NetworkWin}

theorem active_eq (small : ∀ client ∈ network.clients, client < 2 ^ 31) :
    network.getActiveConnections =
      (network.clients.filter (· ∈ network.fdSet)).map fun socket : Nat =>
        (socket : Int) := by
  rw [NetworkWin.getActiveConnections]
  apply List.map_congr_left
  intro client inside
  exact intOfSocket_of_lt (small client (List.mem_filter.mp inside).1)

theorem narrow_of_active (small : ∀ client ∈ network.clients,
      client < 2 ^ 31) {client : Int}
    (inside : client ∈ network.getActiveConnections) : IsNarrow client := by
  rw [active_eq small] at inside
  rcases List.mem_map.mp inside with ⟨socket, member, rfl⟩
  exact ⟨socket, small socket (List.mem_filter.mp member).1, rfl⟩

theorem distinct_of_active (small : ∀ client ∈ network.clients, client < 2 ^ 31)
    (distinct : network.clients.Nodup) : network.getActiveConnections.Nodup := by
  rw [active_eq small]
  apply (distinct.filter _).map
  exact fun first second equal => Int.natCast_inj.mp equal

end Active

theorem small_of_bits {network : NetworkWin}
    (bits : ∀ client ∈ network.clients, HasBit (client : Int)) :
    ∀ client ∈ network.clients, client < 2 ^ 31 :=
  fun client inside => narrow_of_hasBit (bits client inside)

theorem getActiveConnections_unix {network : NetworkWin}
    (bits : ∀ client ∈ network.clients, HasBit (client : Int)) :
    network.unix.getActiveConnections = .ok network.getActiveConnections := by
  rw [NetworkUnix.getActiveConnections_eq_ok_iff]
  constructor
  · intro client inside
    rcases List.mem_map.mp inside with ⟨socket, member, rfl⟩
    exact bits socket member
  · rw [active_eq (small_of_bits bits)]
    simp only [NetworkWin.unix, List.filter_map]
    congr 1
    apply List.filter_congr
    intro client _
    simp only [Function.comp_apply, List.mem_toFinset, List.mem_map, Int.natCast_inj,
      exists_eq_right]

theorem opens_unix {socket : Nat} : state.unix.opens socket ↔ state.opens socket := by
  simp only [State.opens, WinState.opens, WinState.unix, NetworkWin.unix, State.events,
    WinState.events, ne_eq, Int.natCast_inj]

def finishWin (state : WinState) (iteration : WinIteration) (newSocket : Option Nat)
    (network : NetworkWin) : Except Stop WinState :=
  match serveClientsWin iteration.commands network state.error
      network.getActiveConnections with
  | .error fault => .error (.fault fault)
  | .ok (network, error, events) => .ok {
      network := network
      error := error
      history := state.history ++
        [newSocket.toList.map (fun socket : Nat => SocketEvent.accepted socket) ++ events] }

def finish (state : State) (iteration : Iteration) (newSocket : Option Int)
    (network : NetworkUnix) : Except Stop State :=
  match network.getActiveConnections with
  | .error fault => .error (.fault fault)
  | .ok activeConnections =>
      match serveClients iteration.commands network activeConnections with
      | .error fault => .error (.fault fault)
      | .ok (network, events) => .ok {
          network := network
          history := state.history ++
            [newSocket.toList.map SocketEvent.accepted ++ events] }

theorem finish_cases {network : NetworkWin} (newSocket : Option Nat)
    (bits : ∀ client ∈ network.clients, HasBit (client : Int))
    (distinct : network.clients.Nodup)
    (ends : ∀ fd, ∀ call ∈ iteration.commands fd, call.EndsForGood) :
    ((triesAgain state.error = true ∨ iteration.Waits) ∧
      finishWin state iteration newSocket network = .error (.fault .diverges)) ∨
    finish state.unix iteration.unix (newSocket.map fun socket : Nat => (socket : Int))
        network.unix =
      WinState.unix <$> finishWin state iteration newSocket network := by
  have distinctActive := distinct_of_active (small_of_bits bits) distinct
  have heard := @serveClientsWin_eq iteration.commands _
    (fun client => narrow_of_active (small_of_bits bits)) distinctActive network state.error
  rw [finish, getActiveConnections_unix bits]
  rcases heardCommands_cases ends distinctActive network.unix state.error with
    ⟨waited, hangs⟩ | agrees
  · refine .inl ⟨waited, ?_⟩
    rw [hangs] at heard
    rw [finishWin]
    cases served : serveClientsWin iteration.commands network state.error
        network.getActiveConnections with
    | error fault =>
        rw [served] at heard
        cases heard
        rfl
    | ok last =>
        rw [served] at heard
        cases heard
  · have same : serveClients iteration.unix.commands network.unix
        network.getActiveConnections = _ := agrees.symm.trans heard.symm
    simp only [same, finishWin]
    apply Or.inr
    cases serveClientsWin iteration.commands network state.error
        network.getActiveConnections with
    | error fault => rfl
    | ok last => cases newSocket <;> rfl

theorem iterateWin_eq {ret : Int} {newSocket : Option Nat} {network : NetworkWin}
    (check : state.network.checkForNewConnections iteration.select iteration.accept =
      (ret, newSocket, network)) :
    iterateWin state iteration =
      if ∃ socket ∈ newSocket, ¬ state.opens socket then .error .refused
      else if ret < 0 then .error (.failed ret)
      else finishWin state iteration newSocket network := by
  simp only [iterateWin, check]
  rfl

theorem iterate_eq {state : State} {iteration : Iteration} {ret : Int}
    {newSocket : Option Int} {network : NetworkUnix}
    (check : state.network.checkForNewConnections iteration.select iteration.accept =
      .ok (ret, newSocket, network)) :
    iterate state iteration =
      if ∃ fd ∈ newSocket, ¬ state.opens fd then .error .refused
      else if ret < 0 then .error (.failed ret)
      else finish state iteration newSocket network := by
  simp only [iterate, check]
  rfl

theorem refused_unix (newSocket : Option Nat) :
    (∃ fd ∈ newSocket.map fun socket : Nat => (socket : Int), ¬ state.unix.opens fd) ↔
      ∃ socket ∈ newSocket, ¬ state.opens socket := by
  cases newSocket with
  | none => simp
  | some socket => simp [opens_unix]

theorem iterate_cases_of_check {ret unixRet : Int} {newSocket : Option Nat}
    {network : NetworkWin} {unixNetwork : NetworkUnix}
    (check : state.network.checkForNewConnections iteration.select iteration.accept =
      (ret, newSocket, network))
    (unixCheck : state.unix.network.checkForNewConnections iteration.unix.select
      iteration.unix.accept =
        .ok (unixRet, newSocket.map fun socket : Nat => (socket : Int), unixNetwork))
    (sameSign : ret < 0 ↔ unixRet < 0)
    (goesOn : ¬ ret < 0 → (∀ socket ∈ newSocket, state.opens socket) →
      unixNetwork = network.unix ∧
      (∀ client ∈ network.clients, HasBit (client : Int)) ∧ network.clients.Nodup)
    (ends : ∀ fd, ∀ call ∈ iteration.commands fd, call.EndsForGood) :
    ((triesAgain state.error = true ∨ iteration.Waits) ∧
      iterateWin state iteration = .error (.fault .diverges)) ∨
    settled (iterate state.unix iteration.unix) =
      settled (WinState.unix <$> iterateWin state iteration) := by
  rw [iterateWin_eq check, iterate_eq unixCheck]
  simp only [refused_unix, ← sameSign]
  by_cases refused : ∃ socket ∈ newSocket, ¬ state.opens socket
  · rw [if_pos refused, if_pos refused]
    exact .inr rfl
  · rw [if_neg refused, if_neg refused]
    by_cases failed : ret < 0
    · rw [if_pos failed, if_pos failed]
      exact .inr rfl
    · rw [if_neg failed, if_neg failed]
      have fresh : ∀ socket ∈ newSocket, state.opens socket := by
        intro socket inside
        by_contra closed
        exact refused ⟨socket, inside, closed⟩
      rcases goesOn failed fresh with ⟨rfl, bits, distinct⟩
      rcases @finish_cases state iteration network newSocket bits distinct ends with
        hangs | agrees
      · exact .inl hangs
      · exact .inr (by rw [agrees])

theorem not_mem_of_opens
    (exact : ∀ socket ∈ state.network.clients,
      isConnected (socket : Int) state.events = true)
    {socket : Nat} (opens : state.opens socket) : socket ∉ state.network.clients := by
  intro inside
  have connected := exact socket inside
  rw [opens.2] at connected
  cases connected

/-- An iteration on Windows hangs, or the one on Unix does the same. -/
theorem iterateWin_cases (fits : Fits state.network)
    (exact : ∀ socket ∈ state.network.clients,
      isConnected (socket : Int) state.events = true)
    (answerable : iteration.Answerable) :
    ((triesAgain state.error = true ∨ iteration.Waits) ∧
      iterateWin state iteration = .error (.fault .diverges)) ∨
    settled (iterate state.unix iteration.unix) =
      settled (WinState.unix <$> iterateWin state iteration) := by
  cases selected : iteration.select with
  | failed =>
      rcases @check_failed state.network iteration.accept with ⟨next, check⟩
      rcases unix_check_failed fits iteration.accept with ⟨unixNext, unixCheck⟩
      rw [← selected] at check unixCheck
      refine iterate_cases_of_check check unixCheck Iff.rfl ?_ answerable.ends
      exact fun goesOn => absurd (by decide) goesOn
  | ready readable =>
      have check := check_ready fits readable
      have unixCheck := unix_check_ready fits readable
      by_cases pending : state.network.listenSocket ∈ readable
      · cases accepts : iteration.accept with
        | failed =>
            have check := check .failed
            have unixCheck := unixCheck .failed
            simp only [if_pos pending] at check unixCheck
            rw [← selected, ← accepts] at check unixCheck
            refine iterate_cases_of_check check unixCheck (by decide) ?_ answerable.ends
            exact fun goesOn => absurd (by decide) goesOn
        | accepted socket optionsSet =>
            cases optionsSet with
            | false =>
                have check := check (.accepted socket false)
                have unixCheck := unixCheck (.accepted socket false)
                simp only [if_pos pending] at check unixCheck
                rw [← selected, ← accepts] at check unixCheck
                refine iterate_cases_of_check check unixCheck Iff.rfl ?_ answerable.ends
                exact fun goesOn => absurd (by decide) goesOn
            | true =>
                have check := check (.accepted socket true)
                have unixCheck := unixCheck (.accepted socket true)
                simp only [if_pos pending] at check unixCheck
                rw [← selected, ← accepts] at check unixCheck
                refine iterate_cases_of_check check unixCheck Iff.rfl ?_ answerable.ends
                intro _ fresh
                refine ⟨?_, ?_, ?_⟩
                · simp only [NetworkWin.unix, List.map_append,
                    List.map_cons, List.map_nil]
                · intro client inside
                  rcases List.mem_append.mp inside with old | new
                  · exact fits.bits client old
                  · rw [List.mem_singleton.mp new]
                    exact answerable.bits socket true accepts
                · have absent := not_mem_of_opens exact (fresh socket rfl)
                  exact List.nodup_append.mpr ⟨fits.distinct, List.nodup_singleton _,
                    fun client old other new => by
                      rw [List.mem_singleton.mp new]
                      exact fun equal => absent (equal ▸ old)⟩
      · have check := check iteration.accept
        have unixCheck := unixCheck iteration.accept
        rw [if_neg pending, ← selected] at check unixCheck
        refine iterate_cases_of_check check unixCheck Iff.rfl ?_ answerable.ends
        exact fun _ _ => ⟨rfl, fits.bits, fits.distinct⟩

theorem served_of_iterateWin {next : WinState}
    (iterated : iterateWin state iteration = .ok next) :
    ∃ ret newSocket network events,
      state.network.checkForNewConnections iteration.select iteration.accept =
        (ret, newSocket, network) ∧ ¬ ret < 0 ∧ (∀ socket ∈ newSocket,
        state.opens socket) ∧
      serveClientsWin iteration.commands network state.error network.getActiveConnections =
        .ok (next.network, next.error, events) ∧
      next.history = state.history ++
        [newSocket.toList.map (fun socket : Nat =>
          SocketEvent.accepted socket) ++ events] := by
  rcases check :
      state.network.checkForNewConnections iteration.select iteration.accept with
    ⟨ret, newSocket, network⟩
  rw [iterateWin_eq check] at iterated
  by_cases refused : ∃ socket ∈ newSocket, ¬ state.opens socket
  · rw [if_pos refused] at iterated
    cases iterated
  · rw [if_neg refused] at iterated
    by_cases failed : ret < 0
    · rw [if_pos failed] at iterated
      cases iterated
    · rw [if_neg failed, finishWin] at iterated
      have fresh : ∀ socket ∈ newSocket, state.opens socket := by
        intro socket inside
        by_contra closed
        exact refused ⟨socket, inside, closed⟩
      cases served : serveClientsWin iteration.commands network state.error
          network.getActiveConnections with
      | error fault =>
          rw [served] at iterated
          cases iterated
      | ok last =>
          rw [served] at iterated
          cases iterated
          exact ⟨ret, newSocket, network, last.2.2, rfl, failed, fresh, served, rfl⟩

theorem waits_of_iterateWin {next : WinState}
    (iterated : iterateWin state iteration = .ok next)
    (again : triesAgain next.error = true) :
    triesAgain state.error = true ∨ iteration.Waits := by
  rcases served_of_iterateWin iterated with ⟨ret, newSocket, network,
    events, _, _, _, served, _⟩
  exact waits_of_serveClientsWin served again

theorem settled_ok_iff {result : Except Stop State} {next : State} :
    settled result = .ok next ↔ result = .ok next := by
  cases result <;> simp [settled, Except.mapError]

theorem Listening.of_iterate {state next : State} {iteration : Iteration}
    (listening : Listening state)
    (iterated : TcpServer.iterate state iteration = .ok next) :
    Listening next := by
  rcases iterates_of_iterate iterated with ⟨ret, newSocket, network,
    active, events, iterates⟩
  have bits := (NetworkUnix.getActiveConnections_eq_ok_iff.mp iterates.ready).1
  constructor
  · exact iterates.tableExact listening.toTableExact
  · rw [iterates.listenSocket_eq]
    exact listening.positive
  · rw [iterates.listenSocket_eq]
    exact listening.listenBit
  · exact fun client inside => bits client (iterates.mem_of_mem_next inside)
  · rw [iterates.listenSocket_eq]
    exact fun inside => iterates.notClient listening.notClient
      (iterates.mem_of_mem_next inside)

theorem Listening.fits (listening : Listening state.unix)
    (room : state.network.clients.length < NetworkWin.FD_SETSIZE) :
    Fits state.network := by
  constructor
  · exact Int.natCast_pos.mp listening.positive
  · exact listening.listenBit
  · exact fun client inside => listening.bits client (List.mem_map.mpr ⟨client, inside, rfl⟩)
  · exact listening.nodup.of_map
  · exact fun inside => listening.notClient (List.mem_map.mpr ⟨_, inside, rfl⟩)
  · exact room

end Iterations

/-! ## Runs -/

section Runs

variable {iterations : List WinIteration}

theorem run_cases {state : WinState} (listening : Listening state.unix)
    (answerable : ∀ iteration ∈ iterations, iteration.Answerable)
    (room : ∀ reached, Reached iterateWin state iterations reached →
      reached.network.clients.length < NetworkWin.FD_SETSIZE) :
    ((triesAgain state.error = true ∨ ∃ iteration ∈ iterations, iteration.Waits) ∧
      run iterateWin state iterations = .error (.fault .diverges)) ∨
    settled (run iterate state.unix (iterations.map WinIteration.unix)) =
      settled (WinState.unix <$> run iterateWin state iterations) := by
  induction iterations generalizing state with
  | nil => exact .inr rfl
  | cons iteration iterations induction =>
      have fits := listening.fits (room state ⟨[], List.nil_prefix, rfl⟩)
      have exact : ∀ socket ∈ state.network.clients,
          isConnected (socket : Int) state.events = true := by
        intro socket inside
        exact (listening.exact socket).mp (List.mem_map.mpr ⟨socket, inside, rfl⟩)
      rw [List.map_cons, run_cons, run_cons]
      rcases iterateWin_cases fits exact (answerable iteration List.mem_cons_self) with
        ⟨waited, hangs⟩ | agrees
      · rw [hangs]
        exact .inl ⟨waited.imp_right fun waits => ⟨iteration, List.mem_cons_self, waits⟩, rfl⟩
      · cases iterated : iterateWin state iteration with
        | error stop =>
            rw [iterated] at agrees
            cases unixIterated : iterate state.unix iteration.unix with
            | error unixStop =>
                rw [unixIterated] at agrees
                exact .inr agrees
            | ok unixNext =>
                rw [unixIterated] at agrees
                cases agrees
        | ok next =>
            rw [iterated] at agrees
            have unixIterated : iterate state.unix iteration.unix = .ok next.unix :=
              settled_ok_iff.mp agrees
            rw [unixIterated]
            have rest := induction (listening.of_iterate unixIterated)
              (fun other inside => answerable other (List.mem_cons_of_mem _ inside))
              (fun reached ⟨prior, inside, ran⟩ => room reached
                ⟨iteration :: prior, List.cons_prefix_cons.mpr ⟨rfl, inside⟩, by
                  rw [run_cons, iterated]
                  exact ran⟩)
            rcases rest with ⟨waited, hangs⟩ | same
            · refine .inl ⟨?_, hangs⟩
              rcases waited with again | ⟨other, inside, waits⟩
              · exact (waits_of_iterateWin iterated again).imp_right
                  fun waits => ⟨iteration, List.mem_cons_self, waits⟩
              · exact .inr ⟨other, List.mem_cons_of_mem _ inside, waits⟩
            · exact .inr same

/-- A server on Windows, while its clients find room in a descriptor set of either platform:
over every run it hangs, which takes a call that was told to try again, or it does as the
server on Unix, with the same table of clients and the same events. -/
theorem windows_runs_as_unix {listenSocket : Nat} (positive : 0 < listenSocket)
    (listenBit : HasBit (listenSocket : Int)) {error : Int}
    (answerable : ∀ iteration ∈ iterations, iteration.Answerable)
    (room : ∀ state, Reached iterateWin (startWin listenSocket error) iterations state →
      state.network.clients.length < NetworkWin.FD_SETSIZE) :
    ((triesAgain error = true ∨ ∃ iteration ∈ iterations, iteration.Waits) ∧
      run iterateWin (startWin listenSocket error) iterations =
      .error (.fault .diverges)) ∨
    settled (run iterate (start listenSocket) (iterations.map WinIteration.unix)) =
      settled (WinState.unix <$>
        run iterateWin (startWin listenSocket error) iterations) := by
  have started : (startWin listenSocket error).unix = start listenSocket := rfl
  have listening := listening_start (Int.natCast_pos.mpr positive) listenBit
  rw [← started] at listening ⊢
  exact run_cases listening answerable room

def parting (waits : List WinRecvAnswer) : List WinIteration :=
  [⟨.ready {3}, .accepted 4 true, fun _ => []⟩,
    ⟨.ready {4}, .failed,
      fun _ => [.getData 1 [none] (waits ++ [.stored [], .stored []])]⟩]

example : run iterateWin (startWin 3 0) (parting [.failed WSAEWOULDBLOCK]) =
    .error (.fault .diverges) := by rfl

theorem parting_agrees : ∃ final,
    run iterateWin (startWin 3 0) (parting []) = .ok final ∧ final.network.clients = [] ∧
      run iterate (start 3) ((parting []).map WinIteration.unix) = .ok final.unix := by
  have connected : run iterateWin (startWin 3 0) (parting [] |>.take 1) =
      .ok ⟨⟨[3], 3, true, [4]⟩, 0, [[.accepted 4]]⟩ := by rfl
  have parted : run iterateWin (startWin 3 0) (parting []) =
      .ok ⟨⟨[4], 3, true, []⟩, 0,
        [[.accepted 4], [.served 4, .received 4, .closed 4]]⟩ := by rfl
  have answerable : ∀ iteration ∈ parting [], iteration.Answerable := by
    simp only [parting, List.forall_mem_cons]
    refine ⟨?_, ?_, List.forall_mem_nil _⟩
    · constructor
      · intro socket optionsSet accepts
        cases accepts
        decide
      · simp
    · constructor
      · simp
      · intro fd call inside
        rw [List.mem_singleton.mp inside]
        simp [WinCall.EndsForGood, TcpServer.EndsForGood]
  have room : ∀ state, Reached iterateWin (startWin 3 0) (parting []) state →
      state.network.clients.length < NetworkWin.FD_SETSIZE := by
    intro state reached
    rcases reached with ⟨prior, inside, ran⟩
    rcases List.prefix_cons_iff.mp inside with rfl | ⟨rest, rfl, later⟩
    · cases ran
      decide
    · rcases List.prefix_cons_iff.mp later with rfl | ⟨none, rfl, nothing⟩
      · rw [show run iterateWin (startWin 3 0) [_] = _ from connected] at ran
        cases ran
        decide
      · rw [List.prefix_nil.mp nothing] at ran
        rw [show run iterateWin (startWin 3 0) [_, _] = _ from parted] at ran
        cases ran
        decide
  refine ⟨_, parted, rfl, ?_⟩
  rcases windows_runs_as_unix (by decide) (by decide) answerable room with
    ⟨waited, hangs⟩ | agrees
  · rw [parted] at hangs
    cases hangs
  · rw [parted] at agrees
    exact settled_ok_iff.mp agrees

end Runs


end TcpServer

end IioEmu
