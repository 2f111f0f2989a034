import IioEmu.Networking.SocketUnix

/-! # The inbound stream

The kernel cuts the stream of a client where it likes. A read reports the length it asked for,
not the number of bytes it was given, and then reads its buffer as a string for the log. So the
protocol sees the client's stream only while the kernel fills every request and the string has
an end. -/

namespace IioEmu.SocketUnix

def EndsInside (buffer : ByteBuffer) : Prop := some 0#8 ∈ buffer.takeWhile Option.isSome

instance (buffer : ByteBuffer) : Decidable (EndsInside buffer) :=
  inferInstanceAs (Decidable (some 0#8 ∈ buffer.takeWhile Option.isSome))

theorem cString_returns_iff {buffer : ByteBuffer} :
    (∃ text, cString (buffer.map (Option.map charOfByte)) = .ok text) ↔
    EndsInside buffer := by
  have sameCells : (Option.isSome ∘ Option.map charOfByte) = Option.isSome := by
    funext cell
    exact Option.isSome_map
  have sameEnd (cell : Option Byte) : cell.map charOfByte = some nul ↔
      cell = some 0#8 := by
    cases cell with
    | none => simp
    | some byte => simp [charOfByte_eq_nul_iff]
  calc (∃ text, cString (buffer.map (Option.map charOfByte)) = .ok text)
      ↔ ∃ chars, charsToNul (buffer.map (Option.map charOfByte)) = .ok chars := by
        simp [cString, Outcome.bind_eq_ok]
    _ ↔ some nul ∈ (buffer.map (Option.map charOfByte)).takeWhile Option.isSome :=
        charsToNul_returns_iff
    _ ↔ EndsInside buffer := by
        rw [List.takeWhile_map, sameCells, List.mem_map, EndsInside]
        simp [sameEnd]

section Requests

variable [TinyIIOD]

/-- One request of the protocol, what the read finds in its buffer, and how the kernel serves
it: some calls to try again, then a number of bytes. -/
structure Request where
  len : Nat
  stack : StackBuffer Byte
  retries : Nat
  count : Nat

def Request.answers (request : Request) (stream : List Byte) : List RecvAnswer :=
  List.replicate request.retries .again ++ [.stored (stream.take request.count)]

def Request.received (request : Request) (stream : List Byte) : ByteBuffer :=
  (stream.take request.count).map some ++ request.stack.1.drop request.count

structure Request.ServedFrom (request : Request) (stream : List Byte) : Prop where
  positive : 1 ≤ request.count
  within : request.count ≤ request.len
  sent : request.count ≤ stream.length

def Served : List Byte → List Request → Prop
  | _, [] => True
  | stream, request :: requests =>
      request.ServedFrom stream ∧ Served (stream.drop request.count) requests

/-! ## One read -/

section OneRead

variable (socket : SocketUnix) {stream : List Byte} {request : Request}

theorem getData_answers (buf : ByteBuffer) (served : request.ServedFrom stream) :
    socket.getData request.len buf (request.answers stream) =
      store buf ((stream.take request.count).map some) >>= fun filled =>
        .ok (request.len, filled, socket) := by
  have someBytes : (stream.take request.count).isEmpty = false := by
    rw [List.isEmpty_eq_false_iff, ← List.length_pos_iff, List.length_take]
    have positive := served.positive
    have sent := served.sent
    omega
  rw [Request.answers]
  induction request.retries with
  | zero =>
      rw [List.replicate_zero, List.nil_append, getData, someBytes]
      rfl
  | succ retries induction => exact induction

theorem length_given (served : request.ServedFrom stream) :
    ((stream.take request.count).map some).length = request.count := by
  rw [List.length_map, List.length_take, Nat.min_eq_left served.sent]

theorem getData_of_le {buf : ByteBuffer} (served : request.ServedFrom stream)
    (holds : request.count ≤ buf.length) :
    socket.getData request.len buf (request.answers stream) =
      .ok (request.len, (stream.take request.count).map some ++ buf.drop request.count,
        socket) := by
  have length := length_given served
  rw [getData_answers socket buf served, store_of_le (by omega), length]
  rfl

theorem getData_of_lt {buf : ByteBuffer} (served : request.ServedFrom stream)
    (overflows : buf.length < request.count) :
    socket.getData request.len buf (request.answers stream) = .error .outOfBounds := by
  have length := length_given served
  rw [getData_answers socket buf served, store_of_lt (by omega)]
  rfl

/-- A read that fits its buffer hands on as many bytes as were asked for, those the kernel
stored and then what the buffer held before, unless the log runs off the buffer. -/
theorem socketRead_of_le (served : request.ServedFrom stream)
    (small : request.len ≤ TinyIIOD.IIOD_BUFFER_SIZE) :
    socket.socketRead request.stack (List.replicate request.len none) request.len
        (request.answers stream) =
      cString ((request.received stream).map (Option.map charOfByte)) >>= fun _ =>
        .ok ((request.len : Int),
        (request.received stream).take request.len, socket) := by
  have length := length_given served
  have within := served.within
  have sized := request.stack.2
  have holds : request.count ≤ request.stack.1.length := by omega
  have total : (request.received stream).length = TinyIIOD.IIOD_BUFFER_SIZE := by
    rw [Request.received, List.length_append, length, List.length_drop]
    omega
  have copied : memcpy (request.received stream) 0 request.len =
      .ok ((request.received stream).take request.len) := by
    rw [memcpy_of_le (by omega)]
    rfl
  have taken : ((request.received stream).take request.len).length = request.len := by
    rw [List.length_take]
    omega
  have handed : store (List.replicate request.len none)
      ((request.received stream).take request.len) =
        .ok ((request.received stream).take request.len) := by
    have same : (List.replicate request.len (none : Option Byte)).length = request.len :=
      List.length_replicate
    rw [store_of_le (by omega), taken]
    simp
  have given : socket.getData request.len request.stack.1 (request.answers stream) =
      .ok (request.len, request.received stream, socket) :=
        getData_of_le socket served holds
  simp only [socketRead, given, Outcome.ok_bind, copied, handed, Outcome.pure_eq_ok]

theorem socketRead_of_lt (served : request.ServedFrom stream)
    (large : TinyIIOD.IIOD_BUFFER_SIZE < request.len) :
    socket.socketRead request.stack (List.replicate request.len none) request.len
        (request.answers stream) = .error .outOfBounds := by
  have length := length_given served
  have sized := request.stack.2
  rcases Nat.lt_or_ge request.stack.1.length request.count with overflows | holds
  · simp only [socketRead, getData_of_lt socket served overflows, Outcome.error_bind]
  · have outside : memcpy ((stream.take request.count).map some ++
        request.stack.1.drop request.count) 0 request.len = .error .outOfBounds := by
      apply memcpy_of_lt
      rw [List.length_append, length, List.length_drop]
      omega
    simp only [socketRead, getData_of_le socket served holds, Outcome.ok_bind, outside,
      Outcome.error_bind]

end OneRead

/-! ## Sequences of reads -/

def readAll (socket : SocketUnix) :
    List Byte → List Request → Outcome (List (Int × ByteBuffer) × SocketUnix)
  | _, [] => .ok ([], socket)
  | stream, request :: requests => do
      let (size, buf, socket) ← socket.socketRead request.stack
        (List.replicate request.len none) request.len (request.answers stream)
      let (handed, socket) ← readAll socket (stream.drop request.count) requests
      return ((size, buf) :: handed, socket)

def handedBytes (handed : List (Int × ByteBuffer)) : ByteBuffer :=
  handed.flatMap fun read => read.2.take read.1.toNat

/-- Every read returns the number of bytes the kernel stored, and what is handed
on begins the client's stream. -/
def Intact (socket : SocketUnix) (stream : List Byte) (requests : List Request) : Prop :=
  ∃ handed final, socket.readAll stream requests = .ok (handed, final) ∧
    handed.map Prod.fst = requests.map (fun request => (request.count : Int)) ∧
    handedBytes handed <+: stream.map some

/-- The kernel fills the request, the stack buffer can hold it, and the string the log makes
of the buffer has an end in it. -/
structure Request.FilledFrom (request : Request) (stream : List Byte) : Prop where
  full : request.count = request.len
  fits : request.len ≤ TinyIIOD.IIOD_BUFFER_SIZE
  ends : EndsInside (request.received stream)

def Filled : List Byte → List Request → Prop
  | _, [] => True
  | stream, request :: requests =>
      request.FilledFrom stream ∧ Filled (stream.drop request.count) requests

theorem handed_of_full {stream : List Byte} {request : Request}
    (served : request.ServedFrom stream) (full : request.count = request.len) :
    ((request.received stream).take request.len).take request.len =
      (stream.take request.count).map some := by
  have length := length_given served
  rw [List.take_take, Nat.min_self, ← full, Request.received,
    List.take_append_of_le_length
    (by omega), List.take_of_length_le (by omega)]

omit [TinyIIOD] in
theorem given_append_begins_iff (stream : List Byte) (count : Nat) (rest : ByteBuffer) :
    (stream.take count).map some ++ rest <+: stream.map some ↔
      rest <+: (stream.drop count).map some := by
  have cut : stream.map some =
      (stream.take count).map some ++ (stream.drop count).map some := by
    rw [← List.map_append, List.take_append_drop]
  rw [cut, List.prefix_append_right_inj]

section FirstRead

variable {socket : SocketUnix} {stream : List Byte} {request : Request}
  {requests : List Request}

theorem not_intact_of_fault {fault : Fault}
    (failed : socket.socketRead request.stack (List.replicate request.len none) request.len
      (request.answers stream) = .error fault) :
    ¬ Intact socket stream (request :: requests) := by
  intro intact
  rcases intact with ⟨handed, final, returned, _⟩
  simp only [readAll, failed, Outcome.error_bind] at returned
  cases returned

/-- A read that returns is counted right exactly when it is filled, and then the rest of the
stream is left to the requests after it. -/
theorem intact_of_read (served : request.ServedFrom stream)
    (read : socket.socketRead request.stack (List.replicate request.len none) request.len
      (request.answers stream) =
        .ok ((request.len : Int), (request.received stream).take request.len, socket)) :
    Intact socket stream (request :: requests) ↔ request.count = request.len ∧
      Intact socket (stream.drop request.count) requests := by
  simp only [Intact, readAll, read, Outcome.ok_bind, Outcome.bind_eq_ok, Outcome.pure_eq_ok,
    Except.ok.injEq, Prod.mk.injEq, Prod.exists]
  constructor
  · intro intact
    rcases intact with ⟨_, final, ⟨handed, _, returned, rfl, rfl⟩, counted, begins⟩
    simp only [List.map_cons, List.cons.injEq] at counted
    have full : request.count = request.len := by omega
    simp only [handedBytes, List.flatMap_cons, Int.toNat_natCast, handed_of_full served full,
      given_append_begins_iff] at begins
    exact ⟨full, handed, _, returned, counted.2, begins⟩
  · intro intact
    rcases intact with ⟨full, handed, final, returned, counted, begins⟩
    refine ⟨_, final, ⟨handed, final, returned, rfl, rfl⟩, ?_, ?_⟩
    · rw [List.map_cons, List.map_cons, counted, full]
    · simp only [handedBytes, List.flatMap_cons, Int.toNat_natCast,
        handed_of_full served full, given_append_begins_iff]
      exact begins

theorem intact_cons_iff (served : request.ServedFrom stream) :
    Intact socket stream (request :: requests) ↔ request.FilledFrom stream ∧
      Intact socket (stream.drop request.count) requests := by
  rcases Nat.lt_or_ge TinyIIOD.IIOD_BUFFER_SIZE request.len with large | small
  · have unfilled : ¬ request.FilledFrom stream := fun filled =>
      Nat.not_lt.mpr filled.fits large
    have failed := socketRead_of_lt socket served large
    simp only [not_intact_of_fault failed, unfilled, false_and]
  · have read := socketRead_of_le socket served small
    cases logged : cString ((request.received stream).map (Option.map charOfByte)) with
    | error fault =>
        have endless : ¬ EndsInside (request.received stream) := by
          rw [← cString_returns_iff, logged]
          simp
        have unfilled : ¬ request.FilledFrom stream := fun filled => endless filled.ends
        rw [logged, Outcome.error_bind] at read
        simp only [not_intact_of_fault read, unfilled, false_and]
    | ok text =>
        have ends := cString_returns_iff.mp ⟨text, logged⟩
        rw [logged, Outcome.ok_bind] at read
        rw [intact_of_read served read]
        constructor
        · rintro ⟨full, later⟩
          exact ⟨⟨full, small, ends⟩, later⟩
        · rintro ⟨filled, later⟩
          exact ⟨filled.full, later⟩

end FirstRead

/-- The protocol sees the client's stream exactly when every request is filled. -/
theorem stream_intact_iff_filled (socket : SocketUnix) (stream : List Byte)
    (requests : List Request) (served : Served stream requests) :
    Intact socket stream requests ↔ Filled stream requests := by
  induction requests generalizing stream with
  | nil => simp [Intact, readAll, handedBytes, Filled]
  | cons request requests induction =>
      rcases served with ⟨first, rest⟩
      rw [intact_cons_iff first, Filled, induction (stream.drop request.count) rest]

end Requests

section Examples

open scoped Reference

def zeroed : StackBuffer Byte :=
  ⟨List.replicate TinyIIOD.IIOD_BUFFER_SIZE (some 0#8), List.length_replicate⟩

theorem stream_intact_of_full_reads :
    Intact ⟨7, false⟩ [1, 2, 3] [⟨1, zeroed, 0, 1⟩, ⟨2, zeroed, 1, 2⟩] :=
  (stream_intact_iff_filled ⟨7, false⟩ [1, 2, 3] [⟨1, zeroed, 0, 1⟩, ⟨2, zeroed, 1, 2⟩]
    ⟨⟨by decide, by decide, by decide⟩, ⟨by decide, by decide, by decide⟩, trivial⟩).mpr
    ⟨⟨rfl, by decide, by decide +kernel⟩, ⟨rfl, by decide, by decide +kernel⟩, trivial⟩

theorem short_read_not_intact :
    ¬ ∀ (socket : SocketUnix) (stream : List Byte) (requests : List Request),
      Served stream requests → Intact socket stream requests := by
  intro intact
  have served : Served [1] [⟨2, zeroed, 0, 1⟩] :=
    ⟨⟨by decide, by decide, by decide⟩, trivial⟩
  rcases intact ⟨7, false⟩ [1] [⟨2, zeroed, 0, 1⟩] served with
    ⟨handed, final, returned, counted, _⟩
  have reported : (readAll ⟨7, false⟩ [1] [⟨2, zeroed, 0, 1⟩]).map
      (fun read => read.1.map Prod.fst) = .ok [2] := by
    decide +kernel
  rw [returned] at reported
  have two : handed.map Prod.fst = [2] := Except.ok.inj reported
  rw [two] at counted
  simp at counted

end Examples

end IioEmu.SocketUnix
