import IioEmu.Networking.ClientTable

/-! # The socket of a client on Windows

A call of Winsock that fails sets the error of the thread, and one that succeeds leaves it as
it was. A socket asks for the error also at the end of the stream, which sets none: while the
last call that failed was told to try again, the socket goes on reading.

So a socket on Windows is one on Unix that hears some ends of the stream as a call to try
again. -/

namespace IioEmu

def WSAEWOULDBLOCK : Int := 10035

def WSAETIMEDOUT : Int := 10060

def INVALID_SOCKET : Nat := 2 ^ 64 - 1

def intOfSocket (socket : Nat) : Int := (BitVec.ofNat 32 socket).toInt

def socketOfInt (fd : Int) : Nat := (BitVec.ofInt 64 fd).toNat

def intLength (len : Nat) : Nat := (BitVec.ofNat 32 len).toInt.toNat

theorem intOfSocket_of_lt {socket : Nat} (narrow : socket < 2 ^ 31) :
    intOfSocket socket = socket := by
  rw [intOfSocket, BitVec.toInt_eq_toNat_of_lt (by rw [BitVec.toNat_ofNat]; omega),
    BitVec.toNat_ofNat, Nat.mod_eq_of_lt (by omega)]

theorem socketOfInt_natCast {socket : Nat} (narrow : socket < 2 ^ 31) :
    socketOfInt socket = socket := by
  rw [socketOfInt, BitVec.ofInt_natCast, BitVec.toNat_ofNat, Nat.mod_eq_of_lt (by omega)]

inductive WinRecvAnswer
  | failed (error : Int)
  | stored (bytes : List Byte)

inductive WinSendAnswer
  | failed (error : Int)
  | sent (count : Nat)

def triesAgain (error : Int) : Bool := error = WSAEWOULDBLOCK || error = WSAETIMEDOUT

structure SocketWin where
  fd : Nat
  disconnected : Bool
  deriving DecidableEq

namespace SocketWin

def construct (fd : Int) : SocketWin := ⟨socketOfInt fd, false⟩

def dropConnection (socket : SocketWin) (buf : ByteBuffer) (error : Int) :
    Outcome (Nat × ByteBuffer × SocketWin × Int) := do
  let cleared ← store buf [some 0#8]
  return (0, cleared, { socket with disconnected := true }, error)

/-- The last error is given to the call, and the one it leaves is returned. -/
def getData (socket : SocketWin) (len : Nat) (buf : ByteBuffer) (error : Int) :
    List WinRecvAnswer → Outcome (Nat × ByteBuffer × SocketWin × Int)
  | [] => .error .diverges
  | .failed error :: answers =>
      if triesAgain error then getData socket len buf error answers
      else socket.dropConnection buf error
  | .stored bytes :: answers =>
      if bytes.isEmpty then
        if triesAgain error then getData socket len buf error answers
        else socket.dropConnection buf error
      else do
        let filled ← store buf (bytes.map some)
        return (len, filled, socket, error)

def write (socket : SocketWin) (buf : List Byte) (len : Nat) (error : Int) :
    List WinSendAnswer → Outcome (List Byte × SocketWin × Int)
  | [] => .error .diverges
  | .failed error :: answers =>
      if triesAgain error then write socket buf len error answers
      else .ok ([], { socket with disconnected := true }, error)
  | .sent count :: _ => do
      let taken ← memcpy buf 0 (min count (intLength len))
      return (taken, socket, error)

/-! ## When a call drops the connection -/

def recvDrops (error : Int) : List WinRecvAnswer → Bool
  | [] => false
  | .failed error :: answers => if triesAgain error then recvDrops error answers else true
  | .stored bytes :: answers =>
      bytes.isEmpty && if triesAgain error then recvDrops error answers else true

def sendDrops : List WinSendAnswer → Bool
  | [] => false
  | .failed error :: answers => if triesAgain error then sendDrops answers else true
  | .sent _ :: _ => false

def recvError (error : Int) : List WinRecvAnswer → Int
  | [] => error
  | .failed error :: answers => if triesAgain error then recvError error answers else error
  | .stored bytes :: answers =>
      if bytes.isEmpty && triesAgain error then recvError error answers else error

def sendError (error : Int) : List WinSendAnswer → Int
  | [] => error
  | .failed error :: answers => if triesAgain error then sendError error answers else error
  | .sent _ :: _ => error

/-! ## What the socket hears -/

def recvHeard (error : Int) : List WinRecvAnswer → List RecvAnswer
  | [] => []
  | .failed error :: answers =>
      if triesAgain error then .again :: recvHeard error answers else [.failed error]
  | .stored bytes :: answers =>
      if bytes.isEmpty && triesAgain error then .again :: recvHeard error answers
      else [.stored bytes]

def sendHeard : List WinSendAnswer → List SendAnswer
  | [] => []
  | .failed error :: answers =>
      if triesAgain error then .again :: sendHeard answers else [.failed error]
  | .sent count :: _ => [.sent count]

def unix (socket : SocketWin) : SocketUnix := ⟨socket.fd, socket.disconnected⟩

theorem recvDrops_eq (error : Int) (answers : List WinRecvAnswer) :
    recvDrops error answers = SocketUnix.recvDrops (recvHeard error answers) := by
  induction answers generalizing error with
  | nil => rfl
  | cons answer answers induction =>
      cases answer with
      | failed code =>
          rw [recvDrops, recvHeard, induction]
          cases triesAgain code <;> rfl
      | stored bytes =>
          rw [recvDrops, recvHeard, induction]
          cases ended : bytes.isEmpty
          · simp [SocketUnix.recvDrops, ended]
          · cases triesAgain error <;> simp [SocketUnix.recvDrops, ended]

theorem sendDrops_eq (answers : List WinSendAnswer) :
    sendDrops answers = SocketUnix.sendDrops (sendHeard answers) := by
  induction answers with
  | nil => rfl
  | cons answer answers induction =>
      cases answer with
      | failed code =>
          rw [sendDrops, sendHeard, induction]
          cases triesAgain code <;> rfl
      | sent count => rfl

section Heard

variable (socket : SocketWin) (len : Nat) (error : Int)

theorem dropConnection_eq (buf : ByteBuffer) :
    socket.dropConnection buf error =
      (fun (size, filled, last) => (size, filled,
      ⟨socket.fd, last.disconnected⟩, error)) <$>
        socket.unix.dropConnection buf := by
  rw [dropConnection, SocketUnix.dropConnection]
  cases store buf [some 0#8] <;> rfl

theorem getData_eq (buf : ByteBuffer) (answers : List WinRecvAnswer) :
    socket.getData len buf error answers =
      (fun (size, filled, last) =>
        (size, filled, ⟨socket.fd, last.disconnected⟩, recvError error answers)) <$>
          socket.unix.getData len buf (recvHeard error answers) := by
  induction answers generalizing error with
  | nil => rfl
  | cons answer answers induction =>
      cases answer with
      | failed code =>
          cases again : triesAgain code with
          | true =>
              rw [getData, recvHeard, recvError, if_pos again, if_pos again, if_pos again]
              exact induction code
          | false =>
              have gives : ¬ triesAgain code = true := by simp [again]
              rw [getData, recvHeard, recvError, if_neg gives, if_neg gives, if_neg gives]
              exact socket.dropConnection_eq code buf
      | stored bytes =>
          cases ended : bytes.isEmpty with
          | true =>
              cases again : triesAgain error with
              | true =>
                  simp only [getData, recvHeard, recvError, ended, again,
                    Bool.and_self, if_true]
                  exact induction error
              | false =>
                  simp only [getData, recvHeard, recvError, ended, again, Bool.and_false,
                    Bool.false_eq_true, if_true, if_false, SocketUnix.getData]
                  exact socket.dropConnection_eq error buf
          | false =>
              simp only [getData, recvHeard, recvError, ended, Bool.false_and,
                Bool.false_eq_true, if_false, SocketUnix.getData]
              cases store buf (bytes.map some) <;> rfl

theorem write_eq (buf : List Byte) (answers : List WinSendAnswer) :
    socket.write buf len error answers =
      (fun (taken, last) => (taken, ⟨socket.fd, last.disconnected⟩,
      sendError error answers)) <$>
        socket.unix.write buf (intLength len) (sendHeard answers) := by
  induction answers generalizing error with
  | nil => rfl
  | cons answer answers induction =>
      cases answer with
      | failed code =>
          cases again : triesAgain code with
          | true =>
              rw [write, sendHeard, sendError, if_pos again, if_pos again, if_pos again]
              exact induction code
          | false =>
              have gives : ¬ triesAgain code = true := by simp [again]
              rw [write, sendHeard, sendError, if_neg gives, if_neg gives, if_neg gives]
              rfl
      | sent count =>
          rw [write, sendHeard, sendError, SocketUnix.write]
          cases memcpy buf 0 (min count (intLength len)) <;> rfl

end Heard

end SocketWin

namespace TcpServer

/-! ## Commands -/

inductive WinCall
  | getData (len : Nat) (buf : ByteBuffer) (answers : List WinRecvAnswer)
  | write (buf : List Byte) (len : Nat) (answers : List WinSendAnswer)

def WinCall.perform (socket : SocketWin) (error : Int) :
    WinCall → Outcome (SocketWin × Int)
  | .getData len buf answers => do
      let (_, _, socket, error) ← socket.getData len buf error answers
      return (socket, error)
  | .write buf len answers => do
      let (_, socket, error) ← socket.write buf len error answers
      return (socket, error)

def WinCall.drops (error : Int) : WinCall → Bool
  | .getData _ _ answers => SocketWin.recvDrops error answers
  | .write _ _ answers => SocketWin.sendDrops answers

def WinCall.error (error : Int) : WinCall → Int
  | .getData _ _ answers => SocketWin.recvError error answers
  | .write _ _ answers => SocketWin.sendError error answers

def WinCall.uses (fd : Int) : WinCall → SocketEvent
  | .getData .. => .received fd
  | .write .. => .sent fd

def WinCall.events (fd error : Int) (call : WinCall) : List SocketEvent :=
  call.uses fd :: if call.drops error then [.closed fd] else []

def WinCall.heard (error : Int) : WinCall → SocketCall
  | .getData len buf answers => .getData len buf (SocketWin.recvHeard error answers)
  | .write buf len answers => .write buf (intLength len) (SocketWin.sendHeard answers)

def readCommandWin (socket : SocketWin) (error : Int) :
    List WinCall → Outcome (SocketWin × Int)
  | [] => .ok (socket, error)
  | call :: command => do
      let (socket, error) ← call.perform socket error
      readCommandWin socket error command

def commandEvents (fd error : Int) : List WinCall → List SocketEvent
  | [] => []
  | call :: command => call.events fd error ++ commandEvents fd (call.error error) command

def heardCommand (error : Int) : List WinCall → List SocketCall
  | [] => []
  | call :: command => call.heard error :: heardCommand (call.error error) command

def commandError (error : Int) : List WinCall → Int
  | [] => error
  | call :: command => commandError (call.error error) command

theorem WinCall.events_eq (fd error : Int) (call : WinCall) :
    call.events fd error = (call.heard error).events fd := by
  cases call with
  | getData len buf answers =>
      simp only [events, drops, SocketWin.recvDrops_eq]
      rfl
  | write buf len answers =>
      simp only [events, drops, SocketWin.sendDrops_eq]
      rfl

theorem commandEvents_eq (fd error : Int) (command : List WinCall) :
    commandEvents fd error command =
      (heardCommand error command).flatMap (SocketCall.events fd) := by
  induction command generalizing error with
  | nil => rfl
  | cons call command induction =>
      rw [commandEvents, heardCommand, List.flatMap_cons, call.events_eq, induction]

theorem WinCall.perform_eq (call : WinCall) (socket : SocketWin) (error : Int) :
    call.perform socket error =
      (fun last => (⟨socket.fd, last.disconnected⟩, call.error error)) <$>
        (call.heard error).perform socket.unix := by
  cases call with
  | getData len buf answers =>
      simp only [perform, heard, SocketCall.perform, WinCall.error, SocketWin.getData_eq]
      cases socket.unix.getData len buf (SocketWin.recvHeard error answers) <;> rfl
  | write buf len answers =>
      simp only [perform, heard, SocketCall.perform, WinCall.error, SocketWin.write_eq]
      cases socket.unix.write buf (intLength len) (SocketWin.sendHeard answers) <;> rfl

theorem readCommandWin_eq (command : List WinCall) (socket : SocketWin) (error : Int) :
    readCommandWin socket error command =
      (fun last => (⟨socket.fd, last.disconnected⟩, commandError error command)) <$>
        readCommand socket.unix (heardCommand error command) := by
  induction command generalizing socket error with
  | nil => rfl
  | cons call command induction =>
      rw [readCommandWin, call.perform_eq, heardCommand, readCommand, List.foldlM_cons]
      cases performed : (call.heard error).perform socket.unix with
      | error fault => rfl
      | ok last =>
          have same : last.fd = socket.fd := by rw [SocketCall.of_perform performed]; rfl
          have image : SocketWin.unix ⟨socket.fd, last.disconnected⟩ = last := by
            rw [SocketWin.unix, ← same]
          have rest := induction ⟨socket.fd, last.disconnected⟩ (call.error error)
          rw [image] at rest
          exact rest

/-! ## Calls that wait

An end of the stream is heard as it is, unless a call of the thread was told to wait: then the
call never returns. -/

def WinRecvAnswer.unix : WinRecvAnswer → RecvAnswer
  | .failed error => if triesAgain error then .again else .failed error
  | .stored bytes => .stored bytes

def WinSendAnswer.unix : WinSendAnswer → SendAnswer
  | .failed error => if triesAgain error then .again else .failed error
  | .sent count => .sent count

def WinCall.unix : WinCall → SocketCall
  | .getData len buf answers => .getData len buf (answers.map WinRecvAnswer.unix)
  | .write buf len answers => .write buf (intLength len) (answers.map WinSendAnswer.unix)

/-- After the end of the stream nothing else is answered. -/
def EndsForGood : List WinRecvAnswer → Prop
  | [] => True
  | .failed _ :: answers => EndsForGood answers
  | .stored bytes :: answers => bytes = [] → ∀ answer ∈ answers, answer = .stored []

def WinCall.EndsForGood : WinCall → Prop
  | .getData _ _ answers => TcpServer.EndsForGood answers
  | .write .. => True

def WinCall.Waits : WinCall → Prop
  | .getData _ _ answers => ∃ error, .failed error ∈ answers ∧ triesAgain error = true
  | .write _ _ answers => ∃ error, .failed error ∈ answers ∧ triesAgain error = true

/-- The calls do the same, and are seen to do the same. -/
structure Alike (first second : SocketCall) : Prop where
  performs : ∀ socket, first.perform socket = second.perform socket
  events : ∀ fd, first.events fd = second.events fd

section Waiting

variable {error : Int}

theorem recvHeard_of_ended {answers : List WinRecvAnswer}
    (ended : ∀ answer ∈ answers, answer = .stored []) (again : triesAgain error = true) :
    SocketWin.recvHeard error answers = List.replicate answers.length .again := by
  induction answers with
  | nil => rfl
  | cons answer answers induction =>
      rw [ended answer List.mem_cons_self, SocketWin.recvHeard, if_pos (by simp [again]),
        induction fun other inside => ended other (List.mem_cons_of_mem _ inside)]
      rfl

theorem getData_of_replicate (count : Nat) (socket : SocketUnix) (len : Nat)
    (buf : ByteBuffer) :
    socket.getData len buf (List.replicate count .again) = .error .diverges := by
  induction count with
  | zero => rfl
  | succ count induction => exact induction

theorem recvHeard_cases {answers : List WinRecvAnswer} (ends : EndsForGood answers) :
    ((triesAgain error = true ∨ ∃ code, .failed code ∈ answers ∧ triesAgain code = true) ∧
      ∃ count, SocketWin.recvHeard error answers = List.replicate count .again) ∨
    (∀ (socket : SocketUnix) len buf,
      socket.getData len buf (SocketWin.recvHeard error answers) =
        socket.getData len buf (answers.map WinRecvAnswer.unix)) ∧
      SocketUnix.recvDrops (SocketWin.recvHeard error answers) =
        SocketUnix.recvDrops (answers.map WinRecvAnswer.unix) := by
  induction answers generalizing error with
  | nil => exact .inr ⟨fun _ _ _ => rfl, rfl⟩
  | cons answer answers induction =>
      cases answer with
      | failed code =>
          cases again : triesAgain code with
          | true =>
              have heard : SocketWin.recvHeard error (.failed code :: answers) =
                  .again :: SocketWin.recvHeard code answers := by
                rw [SocketWin.recvHeard, if_pos again]
              have told : WinRecvAnswer.unix (.failed code) = .again := by
                rw [WinRecvAnswer.unix, if_pos again]
              rw [heard, List.map_cons, told]
              rcases induction ends with ⟨_, count, hangs⟩ | same
              · exact .inl ⟨.inr ⟨code, List.mem_cons_self, again⟩, count + 1, by
                  rw [hangs, List.replicate_succ]⟩
              · exact .inr same
          | false =>
              have heard : SocketWin.recvHeard error (.failed code :: answers) =
                  [.failed code] := by
                simp [SocketWin.recvHeard, again]
              have told : WinRecvAnswer.unix (.failed code) = .failed code := by
                simp [WinRecvAnswer.unix, again]
              rw [heard, List.map_cons, told]
              exact .inr ⟨fun _ _ _ => rfl, rfl⟩
      | stored bytes =>
          by_cases waits : (bytes.isEmpty && triesAgain error) = true
          · rw [Bool.and_eq_true, List.isEmpty_iff] at waits
            have ended : ∀ answer ∈ WinRecvAnswer.stored bytes :: answers,
                answer = .stored [] := by
              intro answer inside
              rcases List.mem_cons.mp inside with rfl | later
              · rw [waits.1]
              · exact ends waits.1 answer later
            exact .inl ⟨.inl waits.2, _, recvHeard_of_ended ended waits.2⟩
          · have heard : SocketWin.recvHeard error (.stored bytes :: answers) =
                [.stored bytes] := by
              rw [SocketWin.recvHeard, if_neg waits]
            rw [heard, List.map_cons]
            exact .inr ⟨fun _ _ _ => rfl, rfl⟩

theorem sendHeard_same (answers : List WinSendAnswer) :
    (∀ (socket : SocketUnix) buf len,
      socket.write buf len (SocketWin.sendHeard answers) =
        socket.write buf len (answers.map WinSendAnswer.unix)) ∧
      SocketUnix.sendDrops (SocketWin.sendHeard answers) =
        SocketUnix.sendDrops (answers.map WinSendAnswer.unix) := by
  induction answers with
  | nil => exact ⟨fun _ _ _ => rfl, rfl⟩
  | cons answer answers induction =>
      cases answer with
      | failed code =>
          rw [SocketWin.sendHeard, List.map_cons, WinSendAnswer.unix]
          cases triesAgain code with
          | true => exact induction
          | false => exact ⟨fun _ _ _ => rfl, rfl⟩
      | sent count => exact ⟨fun _ _ _ => rfl, rfl⟩

theorem WinCall.heard_cases {call : WinCall} (ends : call.EndsForGood) :
    ((triesAgain error = true ∨ call.Waits) ∧
      ∀ socket, (call.heard error).perform socket = .error .diverges) ∨
    Alike (call.heard error) call.unix := by
  cases call with
  | getData len buf answers =>
      rcases recvHeard_cases ends with ⟨waits, count, hangs⟩ | ⟨same, drops⟩
      · refine .inl ⟨waits, ?_⟩
        intro socket
        rw [heard, SocketCall.perform, hangs, getData_of_replicate]
        rfl
      · apply Or.inr
        constructor
        · intro socket
          simp only [heard, unix, SocketCall.perform, same]
        · intro fd
          simp only [heard, unix, SocketCall.events, SocketCall.uses,
            SocketCall.drops, drops]
          rfl
  | write buf len answers =>
      rcases sendHeard_same answers with ⟨same, drops⟩
      apply Or.inr
      constructor
      · intro socket
        simp only [heard, unix, SocketCall.perform, same]
      · intro fd
        simp only [heard, unix, SocketCall.events, SocketCall.uses,
          SocketCall.drops, drops]
        rfl

theorem waits_of_recvError {answers : List WinRecvAnswer}
    (again : triesAgain (SocketWin.recvError error answers) = true) :
    triesAgain error = true ∨ ∃ code, .failed code ∈ answers ∧
    triesAgain code = true := by
  induction answers generalizing error with
  | nil => exact .inl again
  | cons answer answers induction =>
      have later (first : triesAgain error = true ∨
          ∃ code, .failed code ∈ answers ∧ triesAgain code = true) :
          triesAgain error = true ∨
            ∃ code, .failed code ∈ answer :: answers ∧ triesAgain code = true := by
        rcases first with before | ⟨code, inside, waits⟩
        · exact .inl before
        · exact .inr ⟨code, List.mem_cons_of_mem _ inside, waits⟩
      cases answer with
      | failed code =>
          rw [SocketWin.recvError] at again
          cases waits : triesAgain code with
          | true => exact .inr ⟨code, List.mem_cons_self, waits⟩
          | false =>
              simp only [waits, Bool.false_eq_true, if_false] at again
      | stored bytes =>
          rw [SocketWin.recvError] at again
          split at again
          · exact later (induction again)
          · exact .inl again

theorem waits_of_sendError {answers : List WinSendAnswer}
    (again : triesAgain (SocketWin.sendError error answers) = true) :
    triesAgain error = true ∨ ∃ code, .failed code ∈ answers ∧
    triesAgain code = true := by
  cases answers with
  | nil => exact .inl again
  | cons answer answers =>
      cases answer with
      | failed code =>
          rw [SocketWin.sendError] at again
          cases waits : triesAgain code with
          | true => exact .inr ⟨code, List.mem_cons_self, waits⟩
          | false =>
              simp only [waits, Bool.false_eq_true, if_false] at again
      | sent count => exact .inl again

theorem WinCall.waits_of_error {call : WinCall}
    (again : triesAgain (call.error error) = true) :
    triesAgain error = true ∨ call.Waits := by
  cases call with
  | getData len buf answers => exact waits_of_recvError again
  | write buf len answers => exact waits_of_sendError again

def Waited (error : Int) (command : List WinCall) : Prop :=
  triesAgain error = true ∨ ∃ call ∈ command, call.Waits

theorem Waited.cons {call : WinCall} {command : List WinCall}
    (waited : Waited (call.error error) command) : Waited error (call :: command) := by
  rcases waited with before | ⟨other, inside, waits⟩
  · rcases WinCall.waits_of_error before with earlier | waits
    · exact .inl earlier
    · exact .inr ⟨call, List.mem_cons_self, waits⟩
  · exact .inr ⟨other, List.mem_cons_of_mem _ inside, waits⟩

theorem waited_of_commandError {command : List WinCall}
    (again : triesAgain (commandError error command) = true) : Waited error command := by
  induction command generalizing error with
  | nil => exact .inl again
  | cons call command induction => exact (induction again).cons

theorem heardCommand_cases {command : List WinCall}
    (ends : ∀ call ∈ command, call.EndsForGood) (socket : SocketUnix) :
    (Waited error command ∧
      readCommand socket (heardCommand error command) = .error .diverges) ∨
    readCommand socket (heardCommand error command) =
        readCommand socket (command.map WinCall.unix) ∧
      ∀ last, readCommand socket (heardCommand error command) = .ok last → ∀ fd,
        (heardCommand error command).flatMap (SocketCall.events fd) =
          (command.map WinCall.unix).flatMap (SocketCall.events fd) := by
  induction command generalizing error socket with
  | nil => exact .inr ⟨rfl, fun _ _ _ => rfl⟩
  | cons call command induction =>
      have rest := fun last : SocketUnix => @induction (call.error error)
        (fun other inside => ends other (List.mem_cons_of_mem _ inside)) last
      simp only [heardCommand, List.map_cons, readCommand, List.foldlM_cons,
        List.flatMap_cons] at rest ⊢
      rcases WinCall.heard_cases (ends call List.mem_cons_self) with
        ⟨waits, hangs⟩ | alike
      · refine .inl ⟨?_, by rw [hangs socket]; rfl⟩
        rcases waits with before | waits
        · exact .inl before
        · exact .inr ⟨call, List.mem_cons_self, waits⟩
      · rw [alike.performs]
        cases call.unix.perform socket with
        | error fault => exact .inr ⟨rfl, fun last returned => nomatch returned⟩
        | ok last =>
            rcases rest last with ⟨waited, hangs⟩ | ⟨same, events⟩
            · exact .inl ⟨waited.cons, hangs⟩
            · refine .inr ⟨same, ?_⟩
              intro final returned fd
              rw [alike.events, events final returned fd]

end Waiting

end TcpServer

end IioEmu
