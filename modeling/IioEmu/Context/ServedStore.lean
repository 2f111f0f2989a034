import IioEmu.Context.GenericRefinement
import IioEmu.Networking.ServedSessions

/-! # A generic context behind the server

The clients of a server with a generic context share the store the context is: in the order
in which the server served them, each was answered from it. -/

namespace IioEmu.GenericEmulator

open Execution TcpServer

section Sessions

variable [LibXml2]

def ops : AbstractOps GenericEmulator (Surroundings × Command) Reply where
  setCurrentSocket := setCurrentSocket
  perform emulator operation := emulator.perform operation.1 operation.2
  socketDisconnected emulator fd := .ok (emulator.socketDisconnected fd)

def serve (fd : Int) (operation : Surroundings × Command) : Action :=
  .serve fd operation.1 operation.2

variable {emulator next : GenericEmulator} {around : Surroundings} {command : Command}
  {reply : Reply}

theorem socket_of_perform
    (performed : emulator.perform around command = .ok (reply, next)) :
    next.currentSocket = emulator.currentSocket := by
  cases command with
  | writeAttr | chWriteAttr =>
      simp only [perform, writeAttr, chWriteAttr, Outcome.bind_eq_ok, Outcome.pure_eq_ok,
        Except.ok.injEq, Prod.mk.injEq, Prod.exists] at performed
      rcases performed with ⟨_, _, ⟨_, _, _, _, rfl⟩, _, rfl⟩
      rfl
  | openDev device sampleSize mask cyclic =>
      simp only [perform, openDev, Outcome.bind_eq_ok, Prod.exists] at performed
      rcases performed with ⟨_, _, ⟨found, _, opened⟩, equal⟩
      cases equal
      cases found with
      | none | some => cases opened; rfl
  | readDev device offset bytesCount =>
      simp only [perform, readDev, Outcome.bind_eq_ok, Prod.exists] at performed
      rcases performed with ⟨_, _, _, ⟨found, _, read⟩, equal⟩
      cases equal
      cases receiver : found.bind emulator.receiver with
      | none =>
          rw [receiver] at read
          cases read
          rfl
      | some deviceIn =>
          simp only [receiver, Outcome.bind_eq_ok] at read
          rcases read with ⟨_, _, equal⟩
          cases equal
          rfl
  | writeDev device buf offset bytesCount =>
      simp only [perform, writeDev, Outcome.bind_eq_ok, Prod.exists] at performed
      rcases performed with ⟨_, _, ⟨found, _, wrote⟩, equal⟩
      cases equal
      cases transmitter : found.bind emulator.transmitter with
      | none =>
          rw [transmitter] at wrote
          cases wrote
          rfl
      | some deviceOut =>
          simp only [transmitter, Outcome.bind_eq_ok] at wrote
          rcases wrote with ⟨_, _, equal⟩
          cases equal
          rfl
  | getTrigger | setTrigger | getXml =>
      cases performed
      rfl
  | readAttr | chReadAttr | closeDev | transferDevToMem | transferMemToDev | getMask
  | setBuffersCount =>
      simp only [perform, Outcome.bind_eq_ok, Outcome.pure_eq_ok, Except.ok.injEq,
        Prod.mk.injEq] at performed
      rcases performed with ⟨_, _, _, rfl⟩
      rfl

theorem sessions :
    Sessions ops step serve Action.disconnect (.returned 0) currentSocket where
  current _ _ := rfl
  kept _ := rfl
  overwritten _ _ _ := rfl
  performed := socket_of_perform
  cancelled := by
    intro emulator fd next cancelled
    cases cancelled
    rw [socketDisconnected_eq]
  serves _ _ _ := rfl
  disconnects _ _ := rfl

end Sessions

section Runs

variable [LibXml2] {place : String → Option Nat} {linked : String → Option Linked}
  {initial : GenericEmulator} {listenSocket : Int}
  {iterations : List (ServedIteration (Surroundings × Command))} {server : State}

omit [LibXml2] in
theorem spelled_of_served
    (spelled : ∀ iteration ∈ iterations, ∀ fd around command,
      .operation (around, command) ∈ iteration.commands fd →
        ∀ device ∈ command.device?, NulFree device) :
    ∀ action ∈ sessionOf serve Action.disconnect (callsOver server iterations),
      action.Spelled := by
  intro action member
  rcases List.mem_filterMap.mp member with ⟨call, called, taken⟩
  cases call with
  | operation fd operation =>
      cases taken
      rcases asked_of_mem_callsOver called with ⟨iteration, inside, asked⟩
      intro _ _ _ equal
      cases equal
      exact spelled iteration inside fd operation.1 operation.2 asked
  | socketDisconnected fd =>
      cases taken
      intro _ _ _ equal
      cases equal
  | accepted | setCurrentSocket | data | released => cases taken

variable [LibXml2Text] {doc : Option XmlDoc} {args : List String}
  {prior : Nat → Nat → Char}
  {memory : GenericEmulator}

/-- The server completes its iterations exactly when the store serves their commands in the
order the kernel brought them in, and then the clients have the replies of the store, which is
what they find afterwards. -/
theorem server_serves_store (prepared : Prepared doc args prior memory.files)
    (constructed : construct doc args prior memory = .ok initial)
    (spelled : ∀ iteration ∈ iterations, ∀ fd around command,
      .operation (around, command) ∈ iteration.commands fd →
        ∀ device ∈ command.device?, NulFree device)
    (tables : run iterate (start listenSocket) (iterations.map ServedIteration.network) =
      .ok server) :
    ((∃ final, run (serveIteration ops) (startServing listenSocket initial) iterations =
        .ok final) ↔
      ∃ result, record (GenericStore.step (linkedBy doc (boundDevices doc args)))
        (initial.view (placeOf (boundDevices doc args)))
        (sessionOf serve Action.disconnect (callsOver (start listenSocket) iterations)) =
          .ok result) ∧
    ∀ final answers,
    run (serveIteration ops) (startServing listenSocket initial) iterations =
        .ok final → record ops.step initial final.calls = .ok (answers, final.context) →
      record (GenericStore.step (linkedBy doc (boundDevices doc args)))
          (initial.view (placeOf (boundDevices doc args)))
          (sessionOf serve Action.disconnect final.calls) =
        .ok (answers.filterMap (outputOf serve Action.disconnect (.returned 0)),
          final.context.view (placeOf (boundDevices doc args))) := by
  have allowed : ∀ action ∈ sessionOf serve Action.disconnect
      (callsOver (start listenSocket) iterations), action.Spelled :=
        spelled_of_served spelled
  have refines := abstracts.record_eq allowed (stands_of_construct prepared constructed)
  constructor
  · rw [refines]
    constructor
    · intro served
      rcases served with ⟨final, ran⟩
      rcases context_of_served ran with ⟨answers, recorded⟩
      rcases sessions.session_of_served ran recorded with ⟨reached, told, _⟩
      rcases run_serveIteration_eq_ok_iff.mp ran with ⟨_, _, calls⟩
      have called : final.calls = callsOver (start listenSocket) iterations := calls
      rw [called] at told
      exact ⟨_, abstracted_eq_ok_iff.mpr ⟨reached, told, rfl⟩⟩
    · intro store
      rcases store with ⟨⟨outputs, seen⟩, recorded⟩
      rcases abstracted_eq_ok_iff.mp recorded with ⟨reached, session, _⟩
      rcases sessions.served_of_session tables session with ⟨final, ran, _⟩
      exact ⟨final, ran⟩
  · intro final answers ran recorded
    rcases run_serveIteration_eq_ok_iff.mp ran with ⟨_, _, calls⟩
    have called : final.calls = callsOver (start listenSocket) iterations := calls
    rcases sessions.session_of_served ran recorded with ⟨reached, told, same⟩
    rw [called] at told ⊢
    rw [refines, told, same]
    rfl

end Runs

section Examples

open scoped Reference

def loopArrivals : List (ServedIteration (Surroundings × Command)) :=
  [⟨.ready {3} ∅, .accepted 4 true, fun _ => []⟩,
    ⟨.ready {3} ∅, .accepted 5 true, fun _ => []⟩,
    ⟨.ready {4, 5} ∅, .failed, fun client =>
      if client = 5 then [.operation (calm 0, .writeDev "iio:device1" [1, 2, 3] 0 3)]
      else [.operation (calm 2, .readDev "iio:device0" 0 2)]⟩,
    ⟨.ready {4, 5} ∅, .failed, fun client =>
      if client = 5 then hangUp.map ParserCall.data
      else [.operation (calm 2, .readDev "iio:device0" 0 2)]⟩]

theorem loopArrivals_spelled : ∀ iteration ∈ loopArrivals, ∀ fd around command,
    .operation (around, command) ∈ iteration.commands fd →
      ∀ device ∈ command.device?, NulFree device := by
  have receiver : NulFree "iio:device0" := by decide
  have transmitter : NulFree "iio:device1" := by decide
  simp only [loopArrivals, List.forall_mem_cons]
  refine ⟨?_, ?_, ?_, ?_, List.forall_mem_nil _⟩
  · intro fd around command member
    cases member
  · intro fd around command member
    cases member
  · intro fd around command member
    split at member
    · simp only [List.mem_singleton, ParserCall.operation.injEq, Prod.mk.injEq] at member
      rcases member with ⟨rfl, rfl⟩
      simpa [Command.device?] using transmitter
    · simp only [List.mem_singleton, ParserCall.operation.injEq, Prod.mk.injEq] at member
      rcases member with ⟨rfl, rfl⟩
      simpa [Command.device?] using receiver
  · intro fd around command member
    split at member
    · simp [hangUp] at member
    · simp only [List.mem_singleton, ParserCall.operation.injEq, Prod.mk.injEq] at member
      rcases member with ⟨rfl, rfl⟩
      simpa [Command.device?] using receiver

theorem loopArrivals_return :
    ∃ initial final answers, construct loopDocument loopArgs (fun _ _ => nul) emptyFiles =
        .ok initial ∧
      run (serveIteration ops) (startServing 3 initial) loopArrivals = .ok final ∧
      record ops.step initial final.calls = .ok (answers, final.context) ∧
      (List.filterMap (outputOf serve Action.disconnect (.returned 0)) answers).map Prod.snd =
        [.samples 2 [0, 0], .returned 3, .samples 2 [1, 2], .returned 0] := by
  have constructed := construct_eq loopDocument loopArgs (fun _ _ => nul) emptyFiles
  generalize set : ({ emptyFiles with
      doc := loopDocument
      ctxXml := (IioEmu.getXml loopDocument).2
      xmlSize := (IioEmu.getXml loopDocument).1
      devices := devicesOf loopDocument (fun _ _ => nul)
        (boundDevices loopDocument loopArgs) } : GenericEmulator) = initial at constructed
  have ran : ((run (serveIteration ops) (startServing 3 initial) loopArrivals).toOption.bind
      fun final => (record ops.step initial final.calls).toOption).map (fun recorded =>
        (recorded.1.filterMap (outputOf serve Action.disconnect (.returned 0))).map
          Prod.snd) =
      some [.samples 2 [0, 0], .returned 3, .samples 2 [1, 2], .returned 0] := by
    rw [← set]
    decide +kernel
  cases served : run (serveIteration ops) (startServing 3 initial) loopArrivals with
  | error stop => simp [served, Except.toOption] at ran
  | ok final =>
      rcases context_of_served served with ⟨answers, recorded⟩
      refine ⟨initial, final, answers, constructed, served, recorded, ?_⟩
      simpa [served, recorded, Except.toOption] using ran

theorem loop_arrivals_serve_store :
    ∃ initial final answers, construct loopDocument loopArgs (fun _ _ => nul) emptyFiles =
        .ok initial ∧
      run (serveIteration ops) (startServing 3 initial) loopArrivals = .ok final ∧
      record (GenericStore.step (linkedBy loopDocument (boundDevices loopDocument loopArgs)))
          (initial.view (placeOf (boundDevices loopDocument loopArgs)))
          (sessionOf serve Action.disconnect final.calls) =
        .ok (List.filterMap (outputOf serve Action.disconnect (.returned 0)) answers,
          final.context.view (placeOf (boundDevices loopDocument loopArgs))) ∧
      (List.filterMap (outputOf serve Action.disconnect (.returned 0)) answers).map Prod.snd =
        [.samples 2 [0, 0], .returned 3, .samples 2 [1, 2], .returned 0] := by
  rcases loopArrivals_return with ⟨initial, final, answers, constructed,
    served, recorded, told⟩
  rcases run_serveIteration_eq_ok_iff.mp served with ⟨tables, _, _⟩
  have store :=
    (server_serves_store loop_prepared constructed loopArrivals_spelled tables).2
    final answers served recorded
  exact ⟨initial, final, answers, constructed, served, store, told⟩

end Examples

end IioEmu.GenericEmulator
