import IioEmu.Adalm2000.ServedSessions

/-! # Clients of one server

The server takes turns between its clients as the kernel reports them, and one context serves
them all. The clients of a signal path are answered by a server as they are by one to which
the clients of the other paths connect, and from which they hang up, without asking for
anything. -/

namespace IioEmu.Emulator

open Execution TcpServer

section Silence

variable (clients : Clients) (path : SignalPath)

def isData : ParserCall Command → Bool
  | .data _ => true
  | .operation _ => false

def silenced (iteration : ServedIteration Command) : ServedIteration Command :=
  { iteration with
    commands := fun fd => if clients.path fd = path then iteration.commands fd
      else (iteration.commands fd).filter isData }

def heeded : ContextCall Command → Bool
  | .operation fd _ => clients.path fd = path
  | _ => true

theorem socketCalls_filter (command : List (ParserCall Command)) :
    socketCalls (command.filter isData) = socketCalls command := by
  rw [socketCalls, List.filterMap_filter]
  apply List.filterMap_congr
  intro call _
  cases call <;> rfl

theorem network_silenced (iteration : ServedIteration Command) :
    (silenced clients path iteration).network = iteration.network := by
  have same : (fun fd => socketCalls ((silenced clients path iteration).commands fd)) =
      fun fd => socketCalls (iteration.commands fd) := by
    funext fd
    by_cases own : clients.path fd = path
    · simp only [silenced, if_pos own]
    · simp only [silenced, if_neg own, socketCalls_filter]
  rw [ServedIteration.network, same]
  rfl

theorem contextCalls_filter {client : Int} (own : clients.path client ≠ path)
    (command : List (ParserCall Command)) :
    contextCalls client (command.filter isData) =
      (contextCalls client command).filter (heeded clients path) := by
  induction command with
  | nil => rfl
  | cons call command induction =>
      cases call with
      | data call =>
          rw [List.filter_cons_of_pos rfl]
          exact congrArg (ContextCall.data client :: ·) induction
      | operation op =>
          have unheeded : ¬ heeded clients path (.operation client op) = true := by
            simpa [heeded] using own
          rw [List.filter_cons_of_neg (by simp [isData]), induction]
          exact (List.filter_cons_of_neg unheeded).symm

theorem contextCalls_own {client : Int} (own : clients.path client = path)
    (command : List (ParserCall Command)) :
    (contextCalls client command).filter (heeded clients path) =
    contextCalls client command := by
  rw [List.filter_eq_self]
  intro call member
  rcases List.mem_map.mp member with ⟨asked, _, rfl⟩
  cases asked with
  | data => rfl
  | operation op => simpa [heeded] using own

theorem callsFor_silenced (iteration : ServedIteration Command) (client : Int) :
    callsFor client ((silenced clients path iteration).commands client) =
      (callsFor client (iteration.commands client)).filter (heeded clients path) := by
  have asked : contextCalls client ((silenced clients path iteration).commands client) =
      (contextCalls client (iteration.commands client)).filter (heeded clients path) := by
    by_cases own : clients.path client = path
    · rw [contextCalls_own clients path own]
      simp only [silenced, if_pos own]
    · rw [← contextCalls_filter clients path own]
      simp only [silenced, if_neg own]
  have drops : socketCalls ((silenced clients path iteration).commands client) =
      socketCalls (iteration.commands client) :=
    congrFun (congrArg Iteration.commands (network_silenced clients path iteration)) client
  have noticed (dropped : Bool) :
      (if dropped then [ContextCall.socketDisconnected client] else []).filter
          (heeded clients path) =
        if dropped then [ContextCall.socketDisconnected client] else [] := by
    cases dropped <;> rfl
  rw [callsFor, callsFor, List.filter_append, List.filter_append, drops, noticed, asked]
  rfl

theorem callsIn_silenced (server : State) (iteration : ServedIteration Command) :
    callsIn server (silenced clients path iteration) =
      (callsIn server iteration).filter (heeded clients path) := by
  have select : (silenced clients path iteration).select = iteration.select := rfl
  have accept : (silenced clients path iteration).accept = iteration.accept := rfl
  rw [callsIn, callsIn, select, accept]
  cases server.network.checkForNewConnections iteration.select iteration.accept with
  | error fault => rfl
  | ok answer =>
      rcases answer with ⟨ret, newSocket, network⟩
      simp only
      cases network.getActiveConnections with
      | error fault => rfl
      | ok active =>
          have accepted : (newSocket.toList.map (@ContextCall.accepted Command)).filter
              (heeded clients path) = newSocket.toList.map ContextCall.accepted := by
            cases newSocket <;> rfl
          simp only
          rw [List.filter_append, accepted, List.filter_flatMap]
          congr 1
          apply List.flatMap_congr
          intro client _
          exact callsFor_silenced clients path iteration client

theorem callsOver_silenced (server : State)
    (iterations : List (ServedIteration Command)) :
    callsOver server (iterations.map (silenced clients path)) =
      (callsOver server iterations).filter (heeded clients path) := by
  induction iterations generalizing server with
  | nil => rfl
  | cons iteration iterations induction =>
      rw [List.map_cons, callsOver, callsOver, List.filter_append, callsIn_silenced,
        network_silenced]
      congr 1
      cases iterate server iteration.network with
      | error stop => rfl
      | ok next => exact induction next

theorem purge_silenced (calls : List (ContextCall Command)) :
    purge (Action.path clients) path (sessionOf (calls.filter (heeded clients path))) =
      purge (Action.path clients) path (sessionOf calls) := by
  induction calls with
  | nil => rfl
  | cons call calls induction =>
      have cons (calls : List (ContextCall Command)) : sessionOf (call :: calls) =
          (actionOf Action.serve Action.disconnect call).toList ++ sessionOf calls :=
        sessionOf_cons _ _ call calls
      by_cases kept : heeded clients path call = true
      · rw [List.filter_cons_of_pos kept, cons, cons, purge_append,
          purge_append, induction]
      · rw [List.filter_cons_of_neg kept, cons, purge_append, induction]
        cases call with
        | operation fd command =>
            have elsewhere : Action.path clients (.serve fd command) ≠ path := by
              simpa [heeded, Action.path, Action.fd] using kept
            simp [actionOf, purge, elsewhere]
        | accepted | setCurrentSocket | data | socketDisconnected | released =>
            exact absurd rfl kept

theorem disconnects_of_silenced {calls : List (ContextCall Command)} {other : SignalPath}
    (elsewhere : other ≠ path) {action : Action}
    (member : action ∈ purge (Action.path clients) other
      (sessionOf (calls.filter (heeded clients path)))) :
    ∃ fd, action = .disconnect fd := by
  rcases List.mem_filter.mp member with ⟨inside, own⟩
  rcases List.mem_filterMap.mp inside with ⟨call, called, taken⟩
  have kept := (List.mem_filter.mp called).2
  cases call with
  | operation fd command =>
      cases taken
      have paths : clients.path fd = path := by simpa [heeded] using kept
      have others : clients.path fd = other := of_decide_eq_true own
      exact absurd (others.symm.trans paths) elsewhere
  | socketDisconnected fd =>
      cases taken
      exact ⟨fd, rfl⟩
  | accepted | setCurrentSocket | data | released => cases taken

end Silence

section Runs

variable {δ : Type} [Double δ] [LibXml2] [TinyIIOD]
  {clients : Clients} {path : SignalPath}
  {memory initial emulator : Emulator δ} {listenSocket : Int}
  {iterations : List (ServedIteration Command)}

omit [Double δ] [TinyIIOD] in
theorem agrees_setCurrentSocket (emulator : Emulator δ) (fd : Int) :
    Agrees path emulator (emulator.setCurrentSocket fd) :=
  ⟨AgreeOn.refl _ _, ⟨rfl, rfl⟩, fun _ _ => rfl, fun _ => rfl, fun _ => ⟨rfl, rfl, rfl⟩,
    fun _ => ⟨rfl, rfl⟩⟩

omit [Double δ] [LibXml2] [TinyIIOD] in
theorem socketDisconnected_returns (emulator : Emulator δ) (fd : Int) :
    ∃ next, emulator.socketDisconnected fd = .ok next := by
  rw [socketDisconnected]
  cases emulator.getDeviceByDescriptor fd with
  | none => exact ⟨emulator, rfl⟩
  | some slot => cases slot <;> exact ⟨_, rfl⟩

theorem record_returns_of_disconnects {actions : List Action}
    (only : ∀ action ∈ actions, ∃ fd, action = .disconnect fd) :
    ∃ result, record step emulator actions = .ok result := by
  induction actions generalizing emulator with
  | nil => exact ⟨_, rfl⟩
  | cons action actions induction =>
      rcases only action (by simp) with ⟨fd, rfl⟩
      rcases (emulator.setCurrentSocket fd).socketDisconnected_returns
        fd with ⟨next, cancelled⟩
      rcases @induction next (fun action member =>
        only action (List.mem_cons_of_mem _ member)) with ⟨⟨outputs, final⟩, recorded⟩
      refine ⟨_, (record_cons_eq_ok_iff _).mpr ⟨.returned 0, next,
        outputs, ?_, recorded, rfl⟩⟩
      rw [step, Outcome.bind_eq_ok]
      exact ⟨next, cancelled, rfl⟩

omit [Double δ] [LibXml2] [TinyIIOD] in
theorem keeps_of_served {server : State}
    (accepts : ∀ iteration ∈ iterations, ∀ fd optionsSet,
      iteration.accept = .accepted fd optionsSet → clients.connected fd)
    (keeps : ∀ iteration ∈ iterations, ∀ fd command,
      .operation command ∈ iteration.commands fd → command.KeepsTo (clients.path fd))
    {use : SocketUse}
    (disciplined : run SocketUse.step ⟨∅, none⟩ (callsOver server iterations) = .ok use) :
    ∀ action ∈ sessionOf (callsOver server iterations), action.Keeps clients := by
  intro action member
  rcases List.mem_filterMap.mp member with ⟨call, called, taken⟩
  have connected {fd : Int} (client : call.client? = some fd) : clients.connected fd := by
    rcases accepted_of_use disciplined called client with none | accepted
    · exact absurd none (Finset.notMem_empty fd)
    · rcases accept_of_mem_callsOver accepted with ⟨iteration, inside,
        optionsSet, returned⟩
      exact accepts iteration inside fd optionsSet returned
  cases call with
  | operation fd command =>
      cases taken
      rw [Action.keeps_serve]
      rcases asked_of_mem_callsOver called with ⟨iteration, inside, asked⟩
      exact ⟨connected rfl, keeps iteration inside fd command asked⟩
  | socketDisconnected fd =>
      cases taken
      rw [Action.keeps_disconnect]
      exact connected rfl
  | accepted | setCurrentSocket | data | released => cases taken

theorem silenced_session (wellFormed : WellFormed clients initial)
    {calls : List (ContextCall Command)}
    (allowed : ∀ action ∈ sessionOf calls, action.Keeps clients)
    {outputs : List (Action × Reply)} {reached : Emulator δ}
    (session : record step initial (sessionOf calls) = .ok (outputs, reached)) :
    ∃ aloneOutputs aloneReached,
      record step initial (sessionOf (calls.filter (heeded clients path))) =
        .ok (aloneOutputs, aloneReached) ∧
      told (Action.path clients) path aloneOutputs =
      told (Action.path clients) path outputs ∧
      Agrees path reached aloneReached := by
  have refl := (agrees_equivalence path).refl initial
  have silencedAllowed : ∀ action ∈ sessionOf (calls.filter (heeded clients path)),
      action.Keeps clients := by
    intro action member
    rcases List.mem_filterMap.mp member with ⟨call, inside, taken⟩
    exact allowed action (List.mem_filterMap.mpr ⟨call,
      (List.mem_filter.mp inside).1, taken⟩)
  rcases (unwinds clients).record_purge allowed wellFormed wellFormed refl session with
    ⟨after, purged, seen⟩
  have returns : ∃ result, record step initial
      (sessionOf (calls.filter (heeded clients path))) = .ok result := by
    rw [(unwinds clients).returns_iff silencedAllowed wellFormed]
    intro other
    by_cases same : other = path
    · rw [same, purge_silenced]
      exact ⟨_, purged⟩
    · apply record_returns_of_disconnects
      intro action member
      exact disconnects_of_silenced clients path same member
  rcases returns with ⟨⟨aloneOutputs, aloneReached⟩, aloneSession⟩
  rcases (unwinds clients).record_purge silencedAllowed wellFormed wellFormed refl
    aloneSession with ⟨aloneAfter, alonePurged, aloneSeen⟩
  rw [purge_silenced, purged] at alonePurged
  injection alonePurged with sameResult
  injection sameResult with sameTold sameAfter
  subst sameAfter
  exact ⟨aloneOutputs, aloneReached, aloneSession, sameTold.symm,
    (agrees_equivalence path).trans seen ((agrees_equivalence path).symm aloneSeen)⟩

variable [LibXml2Text] {final : ServerState (Emulator δ) Command}
  {answers : List (ContextCall Command × Option Reply)}

/-- However the kernel interleaves the clients of a server: when those of other paths ask for
nothing, the server keeps the same table, gives the clients of a path the same replies, and
leaves them the same context. -/
theorem server_isolates_paths (constructed : construct memory = .ok initial)
    (unset : ∀ slot, clients.connected (memory.descriptor slot) →
      clients.path (memory.descriptor slot) = slot.path)
    (accepts : ∀ iteration ∈ iterations, ∀ fd optionsSet,
      iteration.accept = .accepted fd optionsSet → clients.connected fd)
    (keeps : ∀ iteration ∈ iterations, ∀ fd command,
      .operation command ∈ iteration.commands fd → command.KeepsTo (clients.path fd))
    (ran : run (serveIteration ops) (startServing listenSocket initial)
      iterations = .ok final)
    (recorded : record ops.step initial final.calls = .ok (answers, final.context))
    (path : SignalPath) :
    ∃ alone aloneAnswers,
      run (serveIteration ops) (startServing listenSocket initial)
        (iterations.map (silenced clients path)) = .ok alone ∧
      record ops.step initial alone.calls = .ok (aloneAnswers, alone.context) ∧
      alone.server = final.server ∧
      told (Action.path clients) path (aloneAnswers.filterMap outputOf) =
        told (Action.path clients) path (answers.filterMap outputOf) ∧
      Agrees path final.context alone.context := by
  rcases run_serveIteration_eq_ok_iff.mp ran with ⟨tables, _, calls⟩
  have called : final.calls = callsOver (start listenSocket) iterations := calls
  have allowed := keeps_of_served accepts keeps (use_of_start tables)
  rcases sessions.session_of_served ran recorded with ⟨reached, session, sameContext⟩
  rw [called] at session
  rcases @silenced_session _ _ _ _ _ path _
    (wellFormed_of_construct constructed unset) _ allowed
    _ _ session with ⟨aloneOutputs, aloneReached, aloneSession, sameTold, agrees⟩
  have silencedTables : run iterate (start listenSocket)
      ((iterations.map (silenced clients path)).map ServedIteration.network) =
        .ok final.server := by
    have same : ServedIteration.network ∘ silenced clients path =
        ServedIteration.network :=
      funext (network_silenced clients path)
    rw [List.map_map, same]
    exact tables
  rw [← callsOver_silenced] at aloneSession
  rcases sessions.served_of_session silencedTables aloneSession with
    ⟨alone, aloneRan, sameServer, aloneCalls⟩
  rcases context_of_served aloneRan with ⟨aloneAnswers, aloneRecorded⟩
  rcases sessions.session_of_served aloneRan aloneRecorded with
    ⟨served, servedSession, aloneSame⟩
  rw [aloneCalls] at servedSession
  cases aloneSession.symm.trans servedSession
  refine ⟨alone, aloneAnswers, aloneRan, aloneRecorded, sameServer, sameTold, ?_⟩
  rw [sameContext, aloneSame]
  have trans {first second third : Emulator δ} :=
    @(agrees_equivalence (δ := δ) path).trans
    first second third
  have symm {first second : Emulator δ} :=
    @(agrees_equivalence (δ := δ) path).symm first second
  exact trans (symm (agrees_setCurrentSocket reached _))
    (trans agrees (agrees_setCurrentSocket aloneReached _))

end Runs

section Examples

open scoped Reference

theorem arrivals_accept : ∀ iteration ∈ arrivals, ∀ fd optionsSet,
    iteration.accept = .accepted fd optionsSet → threeClients.connected fd := by
  simp only [arrivals, List.forall_mem_cons]
  refine ⟨?_, ?_, ?_, ?_, List.forall_mem_nil _⟩
  all_goals
    intro fd optionsSet accepts
    cases accepts
  · exact Or.inl rfl
  · exact Or.inr (Or.inl rfl)

theorem arrivals_keep : ∀ iteration ∈ arrivals, ∀ fd command,
    .operation command ∈ iteration.commands fd →
    command.KeepsTo (threeClients.path fd) := by
  have asked {fd client : Int} {command other : Command}
      (keeps : other.KeepsTo (threeClients.path fd))
      (member : .operation command ∈ asks fd other client) :
      command.KeepsTo (threeClients.path client) := by
    rw [asks] at member
    split at member
    · rename_i same
      subst same
      simp only [List.mem_singleton, ParserCall.operation.injEq] at member
      subst member
      exact keeps
    · cases member
  simp only [arrivals, List.forall_mem_cons]
  refine ⟨?_, ?_, ?_, ?_, List.forall_mem_nil _⟩
  · intro fd command member
    cases member
  · intro fd command member
    exact asked (by decide) member
  · intro fd command member
    rcases List.mem_append.mp member with digital | analog
    · exact asked (by decide) digital
    · exact asked (by decide) analog
  · intro fd command member
    simp [hangUp] at member

theorem arrivals_are_isolated :
    ∃ initial final answers alone aloneAnswers, construct zeroed = .ok initial ∧
      run (serveIteration ops) (startServing 3 initial) arrivals = .ok final ∧
      record ops.step initial final.calls = .ok (answers, final.context) ∧
      run (serveIteration ops) (startServing 3 initial)
        (arrivals.map (silenced threeClients .digital)) = .ok alone ∧
      record ops.step initial alone.calls = .ok (aloneAnswers, alone.context) ∧
      told (Action.path threeClients) .digital (List.filterMap outputOf aloneAnswers) =
        told (Action.path threeClients) .digital (List.filterMap outputOf answers) := by
  rcases arrivals_returns with ⟨initial, final, constructed, served, _⟩
  rcases context_of_served served with ⟨answers, recorded⟩
  rcases server_isolates_paths constructed zeroed_unset arrivals_accept arrivals_keep served
    recorded .digital with ⟨alone, aloneAnswers, aloneServed, aloneRecorded, _, same, _⟩
  exact ⟨initial, final, answers, alone, aloneAnswers, constructed, served, recorded,
    aloneServed, aloneRecorded, same⟩

end Examples

end IioEmu.Emulator
