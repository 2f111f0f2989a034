import IioEmu.Networking.ServerLoop

/-! # Interrupted selects and connections that are gone

An interrupted `select` leaves every bit set, the listening socket's among them, and the call
goes on to accept. An `accept` that would block is reported with a negative number, and the
caller compares it with a positive one. -/

namespace IioEmu

namespace NetworkUnix

theorem foldlM_fdSet_eq_ok_iff {clients : List Int} {set final : FdSet} :
    clients.foldlM IioEmu.fdSet set = .ok final ↔
      (∀ client ∈ clients, HasBit client) ∧ final = set ∪ clients.toFinset := by
  constructor
  · intro returned
    have bits : ∀ client ∈ clients, HasBit client := by
      induction clients generalizing set with
      | nil => simp
      | cons client clients induction =>
          rw [List.foldlM_cons, Outcome.bind_eq_ok] at returned
          rcases returned with ⟨middle, first, rest⟩
          rw [List.forall_mem_cons]
          refine ⟨?_, induction rest⟩
          by_contra outside
          rw [IioEmu.fdSet, if_neg outside] at first
          cases first
    rw [foldlM_fdSet bits, Except.ok.injEq] at returned
    exact ⟨bits, returned.symm⟩
  · rintro ⟨bits, rfl⟩
    exact foldlM_fdSet bits set

/-- `select` is interrupted, or it reports the listening socket and there is no connection to
accept any more. -/
def Transient (network : NetworkUnix) (select : SelectAnswer)
    (answer : AcceptAnswer) : Prop :=
  select = .failed EINTR ∨
    (∃ readable beyond, select = .ready readable beyond) ∧
      network.listenSocket ∈ network.left select ∧ answer = .failed

/-- The call returns zero, the clients and the listening socket are as before, and no client
is ready after an interruption. -/
def Unharmed (network : NetworkUnix) (select : SelectAnswer)
    (answer : AcceptAnswer) : Prop :=
  ∃ newSocket next, network.checkForNewConnections select answer =
    .ok (0, newSocket, next) ∧
    next.clients = network.clients ∧ next.listenSocket = network.listenSocket ∧
    next.listening = network.listening ∧
    (select = .failed EINTR → next.getActiveConnections = .ok [])

section Transient

variable {network next : NetworkUnix} {select : SelectAnswer} {answer : AcceptAnswer}
  {ret : Int} {newSocket : Option Int} {left : FdSet}

theorem acceptReported_of_mem (reported : network.listenSocket ∈ left)
    (returned : checkForNewConnections.acceptReported network left answer =
      .ok (ret, newSocket, next)) :
    (ret < 0 ∧ next = network.close.2) ∨
      ∃ fd, answer = .accepted fd true ∧ ret = 0 ∧
        next = { network with clients := network.clients ++ [fd] } := by
  rw [checkForNewConnections.acceptReported, Outcome.bind_eq_ok] at returned
  rcases returned with ⟨bit, tested, branch⟩
  have set : bit = true := by
    rw [fdIsSet] at tested
    split at tested
    · cases tested
      exact decide_eq_true reported
    · cases tested
  rw [set, if_pos rfl] at branch
  cases answer with
  | failed =>
      by_cases closed : network.listenSocket ≤ 0
      · simp only [accept, if_pos closed] at branch
        cases branch
        exact Or.inl ⟨by decide, rfl⟩
      · simp only [accept, if_neg closed] at branch
        cases branch
        exact Or.inl ⟨by decide, rfl⟩
  | accepted fd optionsSet =>
      by_cases closed : network.listenSocket ≤ 0
      · simp only [accept, if_pos closed] at branch
        cases branch
        exact Or.inl ⟨by decide, rfl⟩
      · cases optionsSet with
        | false =>
            simp only [accept, if_neg closed] at branch
            cases branch
            exact Or.inl ⟨by decide, rfl⟩
        | true =>
            simp only [accept, if_neg closed] at branch
            cases branch
            exact Or.inr ⟨fd, rfl, rfl, rfl⟩

theorem checkForNewConnections_eq_ok
    (selects : ∀ errno, select = .failed errno → errno = EINTR)
    (returned : network.checkForNewConnections select answer =
      .ok (ret, newSocket, next)) :
    checkForNewConnections.acceptReported { network with fdSet := network.left select }
      (network.left select) answer = .ok (ret, newSocket, next) := by
  simp only [checkForNewConnections, Outcome.bind_eq_ok] at returned
  rcases returned with ⟨listenOnly, first, watched, filled, rest⟩
  have only : listenOnly = {network.listenSocket} := by
    rw [IioEmu.fdSet] at first
    split at first
    · cases first
      rfl
    · cases first
  have all : watched = network.watched := by
    rw [(foldlM_fdSet_eq_ok_iff.mp filled).2, only]
    rfl
  subst all
  cases select with
  | ready readable beyond => exact rest
  | failed errno =>
      rw [selects errno rfl] at rest ⊢
      exact rest

theorem mem_left_of_transient (transient : network.Transient select answer) :
    network.listenSocket ∈ network.left select := by
  rcases transient with interrupted | ⟨_, reported, _⟩
  · rw [interrupted]
    exact mem_watched_iff.mpr (.inl rfl)
  · exact reported

theorem Transient.selects (transient : network.Transient select answer) (errno : Int)
    (failed : select = .failed errno) : errno = EINTR := by
  rcases transient with interrupted | ⟨⟨_, _, ready⟩, _⟩
  · rw [failed] at interrupted
    cases interrupted
    rfl
  · rw [ready] at failed
    cases failed

theorem Transient.of_checked (transient : network.Transient select answer)
    (returned : network.checkForNewConnections select answer =
      .ok (ret, newSocket, next)) :
    ret < 0 ∨ ∃ fd, answer = .accepted fd true ∧
      next.clients = network.clients ++ [fd] := by
  have rest := checkForNewConnections_eq_ok transient.selects returned
  have reported :
      ({ network with fdSet := network.left select } : NetworkUnix).listenSocket ∈
      network.left select := mem_left_of_transient transient
  rcases acceptReported_of_mem reported rest with ⟨negative, _⟩ | ⟨fd, accepted, _, rfl⟩
  · exact Or.inl negative
  · exact Or.inr ⟨fd, accepted, rfl⟩

/-- Neither condition passes without harm: the call closes the listening socket or accepts a
connection. -/
theorem transient_harms (transient : network.Transient select answer) :
    ¬ network.Unharmed select answer := by
  rintro ⟨newSocket, next, returned, sameClients, _, _, _⟩
  rcases transient.of_checked returned with negative | ⟨fd, _, grown⟩
  · exact absurd negative (by decide)
  · rw [grown] at sameClients
    exact List.cons_ne_nil fd [] (List.append_right_eq_self.mp sameClients)

end Transient

section Examples

/-- The peer went away before its connection was accepted: the listening socket is closed. -/
theorem blocked_accept_closes :
    (opened 3).Transient (.ready {3} ∅) .failed ∧
      (opened 3).checkForNewConnections (.ready {3} ∅) .failed =
        .ok (-EAGAIN, none, { opened 3 with fdSet := {3}, listening := false }) ∧
      ¬ (opened 3).Unharmed (.ready {3} ∅) .failed := by
  have returned : (opened 3).checkForNewConnections (.ready {3} ∅) .failed =
      .ok (-EAGAIN, none, { opened 3 with fdSet := {3}, listening := false }) := by decide
  refine ⟨.inr ⟨⟨_, _, rfl⟩, by decide, rfl⟩, returned, ?_⟩
  rintro ⟨newSocket, next, other, _⟩
  rw [returned] at other
  cases other

theorem interruption_harms : ¬ (opened 3).Unharmed (.failed EINTR) .failed :=
  transient_harms (.inl rfl)

end Examples

end NetworkUnix

theorem TcpServer.stops_of_transient {state : State} {iteration : Iteration}
    (transient : state.network.Transient iteration.select iteration.accept)
    (nothing : iteration.accept = .failed) (next : State) :
    iterate state iteration ≠ .ok next := by
  intro iterated
  rw [iterate] at iterated
  split at iterated
  · cases iterated
  · rename_i ret newSocket network checked
    rcases transient.of_checked checked with negative | ⟨fd, accepted, _⟩
    · split at iterated
      · cases iterated
      · cases iterated
    · rw [nothing] at accepted
      cases accepted

end IioEmu
