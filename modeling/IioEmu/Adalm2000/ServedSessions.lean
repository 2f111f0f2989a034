import IioEmu.Adalm2000.Isolation
import IioEmu.Networking.ServedSessions

/-! # The bundled context behind the server

What the server asks of the bundled context is a session: each operation is served for the
client whose socket is current, and each connection that ends is noticed once. -/

namespace IioEmu.Emulator

open Execution TcpServer

section Sessions

variable {δ : Type} [Double δ] [LibXml2] [TinyIIOD]

def ops : AbstractOps (Emulator δ) Command Reply where
  setCurrentSocket := setCurrentSocket
  perform := perform
  socketDisconnected := socketDisconnected

def sessionOf : List (ContextCall Command) → List Action :=
  TcpServer.sessionOf Action.serve Action.disconnect

def outputOf : ContextCall Command × Option Reply → Option (Action × Reply) :=
  TcpServer.outputOf Action.serve Action.disconnect (.returned 0)

variable {emulator next : Emulator δ}

theorem socket_of_perform {command : Command} {reply : Reply}
    (performed : emulator.perform command = .ok (reply, next)) :
    next.currentSocket = emulator.currentSocket := by
  cases stores : command.StoresAttribute with
  | false => exact (calls_of_perform stores performed).socket
  | true =>
      cases command with
      | writeAttr | chWriteAttr =>
          simp only [perform, writeAttr, chWriteAttr,
            Outcome.bind_eq_ok, Outcome.pure_eq_ok, Except.ok.injEq, Prod.mk.injEq,
            Prod.exists] at performed
          rcases performed with ⟨_, _, ⟨_, _, _, _, rfl⟩, _, rfl⟩
          rfl
      | _ => cases stores

omit [Double δ] [LibXml2] [TinyIIOD] in
theorem socket_of_socketDisconnected {fd : Int}
    (cancelled : emulator.socketDisconnected fd = .ok next) :
    next.currentSocket = emulator.currentSocket := by
  rw [socketDisconnected] at cancelled
  cases found : emulator.getDeviceByDescriptor fd with
  | none =>
      rw [found] at cancelled
      cases cancelled
      rfl
  | some slot =>
      rw [found] at cancelled
      exact (cancelSlot_same cancelled).2.2.2.2

theorem sessions :
    Sessions (ops (δ := δ)) step Action.serve Action.disconnect (.returned 0)
    currentSocket where
  current _ _ := rfl
  kept _ := rfl
  overwritten _ _ _ := rfl
  performed := socket_of_perform
  cancelled := socket_of_socketDisconnected
  serves _ _ _ := rfl
  disconnects _ _ := rfl

end Sessions

/-! ## Runs of the server -/

section Runs

variable {δ : Type} [Double δ] [LibXml2] [TinyIIOD] {emulator : Emulator δ}
  {listenSocket : Int}
  {iterations : List (ServedIteration Command)} {server : State}

/-- The server completes its iterations exactly when the session they amount to is served,
and it leaves the context, and the parser the replies, of that session. -/
theorem server_runs_sessions
    (tables : run iterate (start listenSocket) (iterations.map ServedIteration.network) =
      .ok server) :
    ((∃ final, run (serveIteration ops) (startServing listenSocket emulator) iterations =
        .ok final) ↔
      ∃ result, record step emulator
        (sessionOf (callsOver (start listenSocket) iterations)) =
        .ok result) ∧
    ∀ final answers,
    run (serveIteration ops) (startServing listenSocket emulator) iterations =
        .ok final → record ops.step emulator final.calls = .ok (answers, final.context) →
      ∃ reached, record step emulator (sessionOf final.calls) =
          .ok (answers.filterMap outputOf, reached) ∧
        final.context = reached.setCurrentSocket final.context.currentSocket := by
  constructor
  · constructor
    · intro served
      rcases served with ⟨final, ran⟩
      rcases context_of_served ran with ⟨answers, recorded⟩
      rcases sessions.session_of_served ran recorded with ⟨reached, told, _⟩
      rcases run_serveIteration_eq_ok_iff.mp ran with ⟨_, _, calls⟩
      have called : final.calls = callsOver (start listenSocket) iterations := calls
      rw [called] at told
      exact ⟨_, told⟩
    · intro session
      rcases session with ⟨result, recorded⟩
      rcases sessions.served_of_session tables recorded with ⟨final, ran, _⟩
      exact ⟨final, ran⟩
  · intro final answers ran recorded
    exact sessions.session_of_served ran recorded

end Runs

section Examples

open scoped Reference

def asks (fd : Int) (command : Command) (client : Int) : List (ParserCall Command) :=
  if client = fd then [.operation command] else []

def arrivals : List (ServedIteration Command) :=
  [⟨.ready {3} ∅, .accepted 4 true, fun _ => []⟩,
    ⟨.ready {3, 4} ∅, .accepted 5 true,
      asks 4 (.writeDev "iio:device9" (bytesOfWords [1, 2]) 0 4)⟩,
    ⟨.ready {4, 5} ∅, .failed, fun client =>
      asks 4 (.readDev "iio:device10" 0 4) client ++
        asks 5 (.openDev "iio:device6" 2 1 false) client⟩,
    ⟨.ready {5} ∅, .failed, fun _ => hangUp.map ParserCall.data⟩]

theorem arrivals_returns :
    ∃ initial final, construct zeroed = .ok initial ∧
      run (serveIteration ops) (startServing 3 initial) arrivals = .ok final ∧
      final.server.network.clients = [4] := by
  have ran : ((construct zeroed).toOption.bind fun initial =>
      (run (serveIteration ops) (startServing 3 initial) arrivals).toOption).map
        (fun final => final.server.network.clients) = some [4] := by
    decide +kernel
  cases constructed : construct zeroed with
  | error fault =>
      rw [constructed] at ran
      cases ran
  | ok initial =>
      cases served : run (serveIteration ops) (startServing 3 initial) arrivals with
      | error stop =>
          simp [constructed, served, Except.toOption] at ran
      | ok final =>
          refine ⟨initial, final, rfl, served, ?_⟩
          simpa [constructed, served, Except.toOption] using ran

theorem arrivals_are_served :
    ∃ initial final, construct zeroed = .ok initial ∧
      run (serveIteration ops) (startServing 3 initial) arrivals = .ok final ∧
      run SocketUse.step ⟨∅, none⟩ final.calls = .ok ⟨{4}, none⟩ ∧
      final.calls.countP (ContextCall.isAccepted 5) =
        final.calls.countP (ContextCall.isNotice 5) := by
  rcases arrivals_returns with ⟨initial, final, constructed, served, clients⟩
  rcases context_is_served served with ⟨_, _, _, used, counted⟩
  have five := counted 5
  rw [clients] at used five
  exact ⟨initial, final, constructed, served, by simpa using used, by simpa using five⟩

theorem arrivals_are_a_session :
    ∃ initial final answers reached, construct zeroed = .ok initial ∧
      run (serveIteration ops) (startServing 3 initial) arrivals = .ok final ∧
      record step initial (sessionOf final.calls) =
        .ok (List.filterMap outputOf answers, reached) := by
  rcases arrivals_returns with ⟨initial, final, constructed, served, _⟩
  rcases run_serveIteration_eq_ok_iff.mp served with ⟨tables, context, _⟩
  rcases context_of_served served with ⟨answers, recorded⟩
  rcases (server_runs_sessions tables).2 final answers served recorded with ⟨reached, told, _⟩
  exact ⟨initial, final, answers, reached, constructed, served, told⟩

end Examples

end IioEmu.Emulator
