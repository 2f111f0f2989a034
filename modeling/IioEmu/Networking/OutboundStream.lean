import IioEmu.Context.GenericXmlContext

/-! # The outbound stream

The kernel takes as much of a buffer as it has room for. A write makes one call that is not
told to try again and does not look at the number it returns, so what the kernel leaves of the
buffer is lost. -/

namespace IioEmu

namespace SocketUnix

def accepted : List SendAnswer → Option Nat
  | [] => none
  | .again :: answers => accepted answers
  | .failed _ :: _ => none
  | .sent count :: _ => some count

section OneWrite

variable (socket : SocketUnix) {buf : List Byte} {len : Nat} {answers : List SendAnswer}

theorem write_of_none (refused : accepted answers = none) {taken : List Byte}
    {next : SocketUnix} (returned : socket.write buf len answers = .ok (taken, next)) :
    next.disconnected = true := by
  induction answers with
  | nil => cases returned
  | cons answer answers induction =>
      cases answer with
      | again => exact induction refused returned
      | failed errno =>
          cases returned
          rfl
      | sent count => cases refused

theorem write_of_some {count : Nat} (taken : accepted answers = some count)
    (holds : len ≤ buf.length) :
    socket.write buf len answers = .ok (buf.take (min count len), socket) := by
  induction answers with
  | nil => cases taken
  | cons answer answers induction =>
      cases answer with
      | again => exact induction taken
      | failed errno => cases taken
      | sent other =>
          cases taken
          rw [write, memcpy_of_le (by omega)]
          rfl

end OneWrite

end SocketUnix

/-! ## Sequences of writes -/

structure DataWrite where
  buf : List Byte
  len : Nat
  holds : len ≤ buf.length
  answers : List SendAnswer

namespace DataWrite

def data (write : DataWrite) : List Byte := write.buf.take write.len

def taken (write : DataWrite) : List Byte :=
  write.buf.take (min ((SocketUnix.accepted write.answers).getD 0) write.len)

def isAccepted (write : DataWrite) : Bool := (SocketUnix.accepted write.answers).isSome

def Whole (write : DataWrite) : Prop :=
  ∃ count ∈ SocketUnix.accepted write.answers, write.len ≤ count

theorem length_data (write : DataWrite) : write.data.length = write.len := by
  rw [data, List.length_take, Nat.min_eq_left write.holds]

theorem length_taken (write : DataWrite) :
    write.taken.length = min ((SocketUnix.accepted write.answers).getD 0) write.len := by
  have holds := write.holds
  rw [taken, List.length_take]
  omega

theorem taken_eq_data_iff {write : DataWrite} (accepts : write.isAccepted) :
    write.taken = write.data ↔ write.Whole := by
  rw [isAccepted, Option.isSome_iff_exists] at accepts
  rcases accepts with ⟨count, accepts⟩
  constructor
  · intro same
    have lengths := congrArg List.length same
    rw [length_taken, length_data, accepts, Option.getD_some] at lengths
    exact ⟨count, accepts, by omega⟩
  · rintro ⟨other, found, enough⟩
    rw [accepts] at found
    cases found
    rw [taken, data, accepts, Option.getD_some, Nat.min_eq_right enough]

end DataWrite

namespace GenericXmlContext

def writeAll (context : GenericXmlContext) :
    List DataWrite → Outcome (List Byte × GenericXmlContext)
  | [] => .ok ([], context)
  | write :: writes => do
      let (_, taken, context) ← context.writeData write.buf write.len write.answers
      let (later, context) ← writeAll context writes
      return (taken ++ later, context)

/-- As long as the writes return and leave the connection open, the kernel has all of their
bytes, in order and once. -/
def Delivers (context : GenericXmlContext) (writes : List DataWrite) : Prop :=
  ∀ earlier, earlier <+: writes → ∀ bytes final,
    context.writeAll earlier = .ok (bytes, final) →
    final.currentSocket.disconnected = false → bytes = earlier.flatMap DataWrite.data

section Writes

variable {context final : GenericXmlContext} {writes : List DataWrite} {bytes : List Byte}

theorem writeAll_of_disconnected (dropped : context.currentSocket.disconnected = true)
    (returned : context.writeAll writes = .ok (bytes, final)) :
    final.currentSocket.disconnected = true := by
  induction writes generalizing context bytes with
  | nil =>
      cases returned
      exact dropped
  | cons write writes induction =>
      simp only [writeAll, writeData, Outcome.bind_eq_ok,
        Outcome.pure_eq_ok, Except.ok.injEq, Prod.mk.injEq, Prod.exists] at returned
      rcases returned with
        ⟨_, _, _, ⟨taken, socket, sent, rfl, rfl, rfl⟩, _, _, rest, _, rfl⟩
      apply induction ?_ rest
      rw [SocketUnix.of_write sent]
      simp [dropped]

theorem writeAll_of_none {write : DataWrite} (member : write ∈ writes)
    (refused : SocketUnix.accepted write.answers = none)
    (returned : context.writeAll writes = .ok (bytes, final)) :
    final.currentSocket.disconnected = true := by
  induction writes generalizing context bytes with
  | nil => cases member
  | cons first writes induction =>
      simp only [writeAll, writeData, Outcome.bind_eq_ok,
        Outcome.pure_eq_ok, Except.ok.injEq, Prod.mk.injEq, Prod.exists] at returned
      rcases returned with
        ⟨_, _, _, ⟨taken, socket, sent, rfl, rfl, rfl⟩, _, _, rest, _, rfl⟩
      cases List.mem_cons.mp member with
      | inl equal =>
          rw [← equal] at sent
          exact writeAll_of_disconnected (SocketUnix.write_of_none _ refused sent) rest
      | inr later => exact induction later rest

theorem writeAll_of_some
    (accepts : ∀ write ∈ writes, write.isAccepted) :
    context.writeAll writes = .ok (writes.flatMap DataWrite.taken, context) := by
  induction writes with
  | nil => rfl
  | cons write writes induction =>
      have first := accepts write (by simp)
      rw [DataWrite.isAccepted, Option.isSome_iff_exists] at first
      rcases first with ⟨count, first⟩
      have sent : context.writeData write.buf write.len write.answers =
          .ok (0, write.taken, context) := by
        rw [writeData, SocketUnix.write_of_some _ first write.holds,
          DataWrite.taken, first]
        rfl
      have rest := induction fun later member => accepts later (by simp [member])
      simp only [writeAll, sent, Outcome.ok_bind, rest]
      rfl

theorem length_flatMap_taken_le (writes : List DataWrite) :
    (writes.flatMap DataWrite.taken).length ≤ (writes.flatMap DataWrite.data).length := by
  induction writes with
  | nil => exact Nat.le_refl _
  | cons write writes induction =>
      simp only [List.flatMap_cons, List.length_append, DataWrite.length_taken,
        DataWrite.length_data]
      omega

theorem flatMap_taken_eq_iff
    (accepts : ∀ write ∈ writes, write.isAccepted) :
    writes.flatMap DataWrite.taken = writes.flatMap DataWrite.data ↔
      ∀ write ∈ writes, write.Whole := by
  induction writes with
  | nil => simp
  | cons write writes induction =>
      have first := DataWrite.taken_eq_data_iff (accepts write (by simp))
      have rest : writes.flatMap DataWrite.taken = writes.flatMap DataWrite.data ↔
          ∀ write ∈ writes, write.Whole :=
        induction fun later member => accepts later (by simp [member])
      rw [List.forall_mem_cons, ← first, ← rest, List.flatMap_cons, List.flatMap_cons]
      constructor
      · intro same
        have lengths := congrArg List.length same
        have later := length_flatMap_taken_le writes
        rw [List.length_append, List.length_append, DataWrite.length_data,
          DataWrite.length_taken] at lengths
        apply List.append_inj same
        rw [DataWrite.length_data, DataWrite.length_taken]
        omega
      · rintro ⟨same, others⟩
        rw [same, others]

theorem accepted_of_open (returned : context.writeAll writes = .ok (bytes, final))
    (connected : final.currentSocket.disconnected = false) :
    ∀ write ∈ writes, write.isAccepted := by
  intro write member
  rw [DataWrite.isAccepted, Option.isSome_iff_ne_none]
  intro refused
  rw [writeAll_of_none member refused returned] at connected
  cases connected

theorem mem_takeWhile_of_longer {earlier : List DataWrite} (begins : earlier <+: writes)
    (accepts : ∀ write ∈ earlier, write.isAccepted) :
    ∀ write ∈ earlier, write ∈ writes.takeWhile DataWrite.isAccepted := by
  rcases begins with ⟨later, rfl⟩
  intro write member
  rw [List.takeWhile_append_of_pos accepts]
  exact List.mem_append_left _ member

/-- The client receives what was written exactly when every write before the first that is not
accepted is taken whole. -/
theorem delivers_iff (alive : context.currentSocket.disconnected = false) :
    context.Delivers writes ↔
      ∀ write ∈ writes.takeWhile DataWrite.isAccepted, write.Whole := by
  constructor
  · intro delivers
    have accepts : ∀ write ∈ writes.takeWhile DataWrite.isAccepted, write.isAccepted :=
      List.all_eq_true.mp List.all_takeWhile
    rw [← flatMap_taken_eq_iff accepts]
    exact delivers _ (List.takeWhile_prefix _) _ _ (writeAll_of_some accepts) alive
  · intro whole earlier begins bytes final returned connected
    have accepts := accepted_of_open returned connected
    have taken := (flatMap_taken_eq_iff accepts).mpr fun write member =>
      whole write (mem_takeWhile_of_longer begins accepts write member)
    rw [writeAll_of_some accepts, Except.ok.injEq, Prod.mk.injEq] at returned
    rw [← returned.1, taken]

end Writes

section Examples

theorem two_whole_writes_are_delivered :
    (GenericXmlContext.mk [] (SocketUnix.construct 7)).Delivers
      [⟨[1, 2], 2, by decide, [.sent 2]⟩, ⟨[3], 1, by decide, [.again, .sent 1]⟩,
        ⟨[4], 1, by decide, [.failed 32]⟩] :=
  (delivers_iff rfl).mpr (by
    simp [List.takeWhile, DataWrite.isAccepted, DataWrite.Whole, SocketUnix.accepted])

/-- The kernel has room for one of two bytes and would take the other one afterwards. -/
theorem second_byte_is_not_delivered :
    ¬ ∀ (context : GenericXmlContext) (writes : List DataWrite),
      context.currentSocket.disconnected = false →
      (∀ write ∈ writes, ∀ answer ∈ write.answers, answer = .again ∨
        ∃ count, answer = .sent count ∧ 1 ≤ count ∧ count ≤ write.len) →
      context.Delivers writes := by
  intro delivers
  have received := delivers ⟨[], SocketUnix.construct 7⟩
    [⟨[1, 2], 2, by decide, [.sent 1, .sent 1]⟩] rfl (by simp) _ List.prefix_rfl _ _ rfl rfl
  exact absurd received (by decide)

end Examples

end GenericXmlContext

end IioEmu
