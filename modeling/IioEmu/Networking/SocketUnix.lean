import IioEmu.Foundation.Memory

/-! # The socket of a client

The kernel is a parameter: a call is given the answers of the system calls it
makes. A byte of a buffer that was never stored is `none`. -/

namespace IioEmu

abbrev ByteBuffer := List (Option Byte)

inductive RecvAnswer
  | again
  | failed (errno : Int)
  | stored (bytes : List Byte)

inductive SendAnswer
  | again
  | failed (errno : Int)
  | sent (count : Nat)

structure SocketUnix where
  fd : Int
  disconnected : Bool
  deriving DecidableEq

namespace SocketUnix

def construct (fd : Int) : SocketUnix := ⟨fd, false⟩

/-- The branch for the end of the stream and for every error but `EAGAIN`. -/
def dropConnection (socket : SocketUnix) (buf : ByteBuffer) :
    Outcome (Nat × ByteBuffer × SocketUnix) := do
  let cleared ← store buf [some 0#8]
  return (0, cleared, { socket with disconnected := true })

/-- Without an answer the call blocks for ever. -/
def getData (socket : SocketUnix) (len : Nat) (buf : ByteBuffer) :
    List RecvAnswer → Outcome (Nat × ByteBuffer × SocketUnix)
  | [] => .error .diverges
  | .again :: answers => getData socket len buf answers
  | .failed _ :: _ => socket.dropConnection buf
  | .stored bytes :: _ =>
      if bytes.isEmpty then socket.dropConnection buf
      else do
        let filled ← store buf (bytes.map some)
        return (len, filled, socket)

/-- The bytes given to the kernel. Only one call of `send` is made that is not told to try
again, however many bytes it took. -/
def write (socket : SocketUnix) (buf : List Byte) (len : Nat) :
    List SendAnswer → Outcome (List Byte × SocketUnix)
  | [] => .error .diverges
  | .again :: answers => write socket buf len answers
  | .failed _ :: _ => .ok ([], { socket with disconnected := true })
  | .sent count :: _ => do
      let taken ← memcpy buf 0 (min count len)
      return (taken, socket)

/-! ## When a call drops the connection -/

def recvDrops : List RecvAnswer → Bool
  | [] => false
  | .again :: answers => recvDrops answers
  | .failed _ :: _ => true
  | .stored bytes :: _ => bytes.isEmpty

def sendDrops : List SendAnswer → Bool
  | [] => false
  | .again :: answers => sendDrops answers
  | .failed _ :: _ => true
  | .sent _ :: _ => false

theorem of_getData {socket next : SocketUnix} {len size : Nat} {buf filled : ByteBuffer}
    {answers : List RecvAnswer}
    (returned : socket.getData len buf answers = .ok (size, filled, next)) :
    next = ⟨socket.fd, socket.disconnected || recvDrops answers⟩ := by
  induction answers with
  | nil => cases returned
  | cons answer answers induction =>
      cases answer with
      | again => exact induction returned
      | failed errno =>
          simp only [getData, dropConnection, Outcome.bind_eq_ok, Outcome.pure_eq_ok,
            Except.ok.injEq, Prod.mk.injEq] at returned
          rcases returned with ⟨_, _, _, _, rfl⟩
          simp [recvDrops]
      | stored bytes =>
          rw [getData] at returned
          split at returned
          · rename_i ended
            simp only [dropConnection, Outcome.bind_eq_ok, Outcome.pure_eq_ok,
              Except.ok.injEq, Prod.mk.injEq] at returned
            rcases returned with ⟨_, _, _, _, rfl⟩
            simp [recvDrops, ended]
          · rename_i going
            simp only [Outcome.bind_eq_ok, Outcome.pure_eq_ok, Except.ok.injEq,
              Prod.mk.injEq] at returned
            rcases returned with ⟨_, _, _, _, rfl⟩
            simp [recvDrops, going]

theorem of_write {socket next : SocketUnix} {len : Nat} {buf taken : List Byte}
    {answers : List SendAnswer}
    (returned : socket.write buf len answers = .ok (taken, next)) :
    next = ⟨socket.fd, socket.disconnected || sendDrops answers⟩ := by
  induction answers with
  | nil => cases returned
  | cons answer answers induction =>
      cases answer with
      | again => exact induction returned
      | failed errno =>
          cases returned
          simp [sendDrops]
      | sent count =>
          simp only [write, Outcome.bind_eq_ok, Outcome.pure_eq_ok, Except.ok.injEq,
            Prod.mk.injEq] at returned
          rcases returned with ⟨_, _, _, rfl⟩
          simp [sendDrops]

variable [TinyIIOD]

/-- `socket_read`, which goes through a buffer on the stack. -/
def socketRead (socket : SocketUnix) (stack : StackBuffer Byte)
    (buf : ByteBuffer) (len : Nat) (answers : List RecvAnswer) :
    Outcome (Int × ByteBuffer × SocketUnix) := do
  let (size, dataReceived, socket) ← socket.getData len stack.1 answers
  let copied ← memcpy dataReceived 0 size
  let handed ← store buf copied
  -- The log is given a string of the whole buffer, also where it prints nothing.
  let _ ← cString (dataReceived.map (Option.map charOfByte))
  return ((size : Int), handed, socket)

end SocketUnix

end IioEmu
