import IioEmu.Networking.ServedContext

/-! # What the server asks of its context

The calls of a run of the server are a session: a command is served for the client whose
socket is current, and a connection that ends is noticed once. What holds of every session of
a context holds of every run of the server with that context. -/

namespace IioEmu.TcpServer

open Execution

variable {Context Operation Answer Action : Type}

section Translated

variable (serve : Int → Operation → Action) (disconnect : Int → Action)

def actionOf : ContextCall Operation → Option Action
  | .operation fd op => some (serve fd op)
  | .socketDisconnected fd => some (disconnect fd)
  | _ => none

def sessionOf (calls : List (ContextCall Operation)) : List Action :=
  calls.filterMap (actionOf serve disconnect)

def outputOf (gone : Answer) : ContextCall Operation × Option Answer →
    Option (Action × Answer)
  | (.operation fd op, some answer) => some (serve fd op, answer)
  | (.socketDisconnected fd, _) => some (disconnect fd, gone)
  | _ => none

theorem sessionOf_cons (call : ContextCall Operation)
    (calls : List (ContextCall Operation)) :
    sessionOf serve disconnect (call :: calls) =
      (actionOf serve disconnect call).toList ++ sessionOf serve disconnect calls := by
  rw [sessionOf, List.filterMap_cons]
  cases actionOf serve disconnect call <;> rfl

end Translated

/-- The steps of a session are the operations behind the socket of the client, and no
operation sets a socket. -/
structure Sessions (ops : AbstractOps Context Operation Answer)
    (step : Context → Action → Outcome (Answer × Context))
    (serve : Int → Operation → Action) (disconnect : Int → Action) (gone : Answer)
    (currentSocket : Context → Int) : Prop where
  current : ∀ context fd, currentSocket (ops.setCurrentSocket context fd) = fd
  kept : ∀ context, ops.setCurrentSocket context (currentSocket context) = context
  overwritten : ∀ context fd other,
    ops.setCurrentSocket (ops.setCurrentSocket context other) fd =
    ops.setCurrentSocket context fd
  performed : ∀ {context op answer next}, ops.perform context op = .ok (answer, next) →
    currentSocket next = currentSocket context
  cancelled : ∀ {context fd next}, ops.socketDisconnected context fd = .ok next →
    currentSocket next = currentSocket context
  serves : ∀ context fd op,
    step context (serve fd op) = ops.perform (ops.setCurrentSocket context fd) op
  disconnects : ∀ context fd, step context (disconnect fd) =
    (ops.socketDisconnected (ops.setCurrentSocket context fd) fd >>=
      fun next => .ok (gone, next))

variable {ops : AbstractOps Context Operation Answer}
  {step : Context → Action → Outcome (Answer × Context)}
  {serve : Int → Operation → Action}
  {disconnect : Int → Action} {gone : Answer} {currentSocket : Context → Int}

/-- The context the server has and the one of the session, which differ in the socket they
were given last at most. -/
structure Follows (ops : AbstractOps Context Operation Answer)
    (currentSocket : Context → Int) (current : Option Int)
    (context other : Context) : Prop where
  same : context = ops.setCurrentSocket other (currentSocket context)
  followed : ∀ fd, current = some fd → currentSocket context = fd

namespace Sessions

variable (sessions : Sessions ops step serve disconnect gone currentSocket)

include sessions

theorem follows_start (context : Context) :
    Follows ops currentSocket none context context :=
  ⟨(sessions.kept context).symm, fun _ none => by cases none⟩

theorem follows_step {use nextUse : SocketUse} {context middle other : Context}
    {call : ContextCall Operation} {answer : Option Answer}
    (follows : Follows ops currentSocket use.current context other)
    (used : use.step call = .ok nextUse)
    (taken : ops.step context call = .ok (answer, middle)) :
    ∃ after, record step other (actionOf serve disconnect call).toList =
        .ok ((outputOf serve disconnect gone (call, answer)).toList, after) ∧
      Follows ops currentSocket nextUse.current middle after := by
  have alone {action : Action} {answer : Answer}
      (stepped : step other action = .ok (answer, middle)) :
      record step other [action] = .ok ([(action, answer)], middle) := by
    rw [record_cons_eq_ok_iff]
    exact ⟨answer, middle, [], stepped, rfl, rfl⟩
  have goesOn (kept : currentSocket middle = currentSocket context) :
      Follows ops currentSocket use.current middle middle :=
    ⟨(sessions.kept middle).symm,
      fun fd current => kept.trans (follows.followed fd current)⟩
  cases call with
  | accepted fd =>
      rcases SocketUse.step_accepted.mp used with ⟨_, rfl⟩
      cases taken
      exact ⟨other, rfl, follows⟩
  | data fd =>
      rcases SocketUse.step_data.mp used with ⟨_, rfl⟩
      cases taken
      exact ⟨other, rfl, follows⟩
  | released fd =>
      rcases SocketUse.step_released.mp used with ⟨_, rfl⟩
      cases taken
      exact ⟨other, rfl, follows.same, fun _ none => by cases none⟩
  | setCurrentSocket fd =>
      rcases SocketUse.step_setCurrentSocket.mp used with ⟨_, rfl⟩
      cases taken
      have set : ops.setCurrentSocket context fd = ops.setCurrentSocket other fd := by
        rw [follows.same, sessions.overwritten]
      refine ⟨other, rfl, ?_, ?_⟩
      · rw [sessions.current]
        exact set
      · intro next equal
        rw [sessions.current]
        exact Option.some.inj equal
  | operation fd op =>
      rcases SocketUse.step_operation.mp used with ⟨alive, rfl⟩
      rw [AbstractOps.step, Outcome.bind_eq_ok] at taken
      rcases taken with ⟨⟨answer, after⟩, performed, equal⟩
      cases equal
      have stepped : step other (serve fd op) = .ok (answer, middle) := by
        rw [sessions.serves, ← follows.followed fd alive.1, ← follows.same]
        exact performed
      exact ⟨middle, alone stepped, goesOn (sessions.performed performed)⟩
  | socketDisconnected fd =>
      rcases SocketUse.step_socketDisconnected.mp used with ⟨alive, rfl⟩
      rw [AbstractOps.step, Outcome.bind_eq_ok] at taken
      rcases taken with ⟨after, cancelled, equal⟩
      cases equal
      have socket := follows.followed fd alive.1
      have same := follows.same
      rw [socket] at same
      have stepped : step other (disconnect fd) = .ok (gone, middle) := by
        rw [sessions.disconnects, ← same, cancelled]
        rfl
      exact ⟨middle, alone stepped, goesOn (sessions.cancelled cancelled)⟩

theorem answered {use nextUse : SocketUse} {context other : Context}
    {call : ContextCall Operation} {result : List (Action × Answer) × Context}
    (follows : Follows ops currentSocket use.current context other)
    (used : use.step call = .ok nextUse)
    (ran : record step other (actionOf serve disconnect call).toList = .ok result) :
    ∃ answer middle, ops.step context call = .ok (answer, middle) := by
  cases call with
  | accepted | data | released | setCurrentSocket => exact ⟨none, _, rfl⟩
  | operation fd op =>
      rcases SocketUse.step_operation.mp used with ⟨alive, rfl⟩
      rcases (record_cons_eq_ok_iff _).mp ran with ⟨answer, middle, _, stepped, _, _⟩
      rw [sessions.serves, ← follows.followed fd alive.1, ← follows.same] at stepped
      exact ⟨some answer, middle, by rw [AbstractOps.step, stepped]; rfl⟩
  | socketDisconnected fd =>
      rcases SocketUse.step_socketDisconnected.mp used with ⟨alive, rfl⟩
      rcases (record_cons_eq_ok_iff _).mp ran with ⟨answer, middle, _, stepped, _, _⟩
      have same := follows.same
      rw [follows.followed fd alive.1] at same
      rw [sessions.disconnects, ← same, Outcome.bind_eq_ok] at stepped
      rcases stepped with ⟨after, cancelled, _⟩
      exact ⟨none, after, by rw [AbstractOps.step, cancelled]; rfl⟩

theorem follows_record {calls : List (ContextCall Operation)} {use finalUse : SocketUse}
    {context context' other : Context}
    {answers : List (ContextCall Operation × Option Answer)}
    (follows : Follows ops currentSocket use.current context other)
    (disciplined : run SocketUse.step use calls = .ok finalUse)
    (recorded : record ops.step context calls = .ok (answers, context')) :
    ∃ final, record step other (sessionOf serve disconnect calls) =
        .ok (answers.filterMap (outputOf serve disconnect gone), final) ∧
      Follows ops currentSocket finalUse.current context' final := by
  induction calls generalizing use context other answers with
  | nil =>
      cases disciplined
      cases recorded
      exact ⟨other, rfl, follows⟩
  | cons call calls induction =>
      rw [run_cons_eq_ok_iff] at disciplined
      rcases disciplined with ⟨nextUse, used, disciplined⟩
      rw [record_cons_eq_ok_iff] at recorded
      rcases recorded with ⟨answer, middle, later, taken, rest, rfl⟩
      rcases sessions.follows_step follows used taken with ⟨after, ran, followsNext⟩
      rcases induction followsNext disciplined rest with ⟨final, ranLater, followsFinal⟩
      refine ⟨final, ?_, followsFinal⟩
      rw [sessionOf_cons, record_append_eq_ok_iff]
      refine ⟨after, _, _, ran, ranLater, ?_⟩
      rw [List.filterMap_cons]
      cases outputOf serve disconnect gone (call, answer) <;> rfl

theorem returns {calls : List (ContextCall Operation)} {use finalUse : SocketUse}
    {context other : Context} {result : List (Action × Answer) × Context}
    (follows : Follows ops currentSocket use.current context other)
    (disciplined : run SocketUse.step use calls = .ok finalUse)
    (recorded : record step other (sessionOf serve disconnect calls) = .ok result) :
    ∃ answered, record ops.step context calls = .ok answered := by
  induction calls generalizing use context other result with
  | nil => exact ⟨_, rfl⟩
  | cons call calls induction =>
      rw [run_cons_eq_ok_iff] at disciplined
      rcases disciplined with ⟨nextUse, used, disciplined⟩
      rcases result with ⟨outputs, final⟩
      rw [sessionOf_cons, record_append_eq_ok_iff] at recorded
      rcases recorded with ⟨next, earlier, later, ran, rest, _⟩
      rcases sessions.answered follows used ran with ⟨answer, middle, taken⟩
      rcases sessions.follows_step follows used taken with ⟨after, ranToo, followsNext⟩
      rw [ran] at ranToo
      cases ranToo
      rcases induction followsNext disciplined rest with ⟨⟨answers, last⟩, answered⟩
      exact ⟨_, (record_cons_eq_ok_iff _).mpr ⟨answer, middle, answers,
        taken, answered, rfl⟩⟩

variable {initial : Context} {listenSocket : Int}
  {iterations : List (ServedIteration Operation)}
  {server : State}

/-- What the server asked of the context is a session, with the same answers. -/
theorem session_of_served {final : ServerState Context Operation}
    {answers : List (ContextCall Operation × Option Answer)}
    (ran : run (serveIteration ops) (startServing listenSocket initial)
      iterations = .ok final)
    (recorded : record ops.step initial final.calls = .ok (answers, final.context)) :
    ∃ reached, record step initial (sessionOf serve disconnect final.calls) =
        .ok (answers.filterMap (outputOf serve disconnect gone), reached) ∧
      final.context = ops.setCurrentSocket reached (currentSocket final.context) := by
  rcases run_serveIteration_eq_ok_iff.mp ran with ⟨tables, _, calls⟩
  have called : final.calls = callsOver (start listenSocket) iterations := calls
  have used := use_of_start tables
  rw [← called] at used
  rcases sessions.follows_record (sessions.follows_start initial) used recorded with
    ⟨reached, told, follows⟩
  exact ⟨reached, told, follows.same⟩

/-- The server completes the iterations of a session that is served. -/
theorem served_of_session {result : List (Action × Answer) × Context}
    (tables : run iterate (start listenSocket) (iterations.map ServedIteration.network) =
      .ok server)
    (recorded : record step initial
      (sessionOf serve disconnect (callsOver (start listenSocket) iterations)) = .ok result) :
    ∃ final, run (serveIteration ops) (startServing listenSocket initial) iterations =
        .ok final ∧ final.server = server ∧
      final.calls = callsOver (start listenSocket) iterations := by
  have used := use_of_start tables
  rcases sessions.returns (sessions.follows_start initial) used recorded with
    ⟨⟨answers, context⟩, answered⟩
  refine ⟨⟨server, context, callsOver (start listenSocket) iterations⟩, ?_, rfl, rfl⟩
  apply run_serveIteration_eq_ok_iff.mpr
  exact ⟨tables, (run_advance_iff ops.step).mpr ⟨answers, answered⟩, rfl⟩

end Sessions

end IioEmu.TcpServer
