import Socketchat.Chat.Piped
import Socketchat.Sockets.SharedMemory

/-!
# Two processes on one shared memory

Each side is a connection whose socket is a `WsocketSharedMemory`: it writes one
ring and reads the other. A `poll` is split where the other process can act, at
each access to a ring. What lies between two accesses is local to the side and
computed at once; so a side is either outside of every call or inside `read` or
`write`, called from one of the two loops of `poll`.
-/

namespace Socketchat.Sockets

open Foundation Chat Spsc

namespace WsocketSharedMemory

def wouldBlock : Bool := true

def inProgress : Bool := false

/-- What `receive` returns after `read` has stored these bytes. -/
def receiveAnswer : List UInt8 → Received
  | [] => .refused (.error wouldBlock inProgress)
  | b :: bs => .bytes b bs

/-- What `send` returns after `write` has taken so many bytes. -/
def sendAnswer : ℕ → Sent
  | 0 => .refused (.error wouldBlock inProgress)
  | k + 1 => .room k

end WsocketSharedMemory

end Socketchat.Sockets

namespace Socketchat.Shared

open Foundation Chat Spsc Sockets

def SHARED_BUFFER_SIZE : ℕ := 1024 * 16

/-- Where a side is. -/
inductive Stage where
  | idle
  /-- inside `mReader.read`, called from the receive loop; -/
  | receiving (callback : Option Callback)
  /-- inside `mWriter.write`, called from the transmit loop. -/
  | sending (callback : Option Callback)

/-- The side is outside of every call. -/
def Stage.isIdle : Stage → Bool
  | .idle => true
  | _ => false

theorem Stage.eq_idle {stage : Stage} (h : stage.isIdle = true) :
    stage = .idle := by
  cases stage with
  | idle => rfl
  | _ => cases h

structure Endpoint where
  session : Session
  stage : Stage

/-! ## `poll` between two accesses -/

namespace Endpoint

/-- Behind the transmit loop. -/
def finish (t : Session) (callback : Option Callback) : Endpoint :=
  let r₃ := t.chat.finishClosing
  let r₄ := r₃.1.dispatch callback
  ⟨⟨r₄.1, t.trace ++ (r₃.2 ++ r₄.2)⟩, .idle⟩

/-- `while (mTransmitBuffer->getSize())`, up to the call of `write`. -/
def transmit (t : Session) (callback : Option Callback) : Endpoint :=
  if t.chat.mTransmitBuffer.getSize = 0 then
    finish t callback
  else
    ⟨t, .sending callback⟩

/-- `while (true)`, up to the call of `read`. -/
def receive (t : Session) (callback : Option Callback) : Endpoint :=
  match t.chat.mReceiveBuffer.confirmCapacity DEFAULT_MAX_READ_SIZE with
  | (none, b) => transmit ⟨{ t.chat with mReceiveBuffer := b }, t.trace⟩ callback
  | (some _, _) => ⟨t, .receiving callback⟩

/-- The receive loop, once `receive` has returned. -/
def received (t : Session) (callback : Option Callback)
    (answer : Received) : Endpoint :=
  let r := t.chat.receivePass answer
  let t : Session := ⟨r.2.1, t.trace ++ r.2.2⟩
  if r.1 then
    receive t callback
  else if t.chat.mReadyState = .CLOSED then
    ⟨t, .idle⟩
  else
    transmit t callback

/-- The transmit loop, once `send` has returned. -/
def sent (t : Session) (callback : Option Callback) (answer : Sent) :
    Endpoint :=
  let r := t.chat.transmitPass answer
  let t : Session := ⟨r.2.1, t.trace ++ r.2.2⟩
  if r.1 then
    transmit t callback
  else if t.chat.mReadyState = .CLOSED then
    ⟨t, .idle⟩
  else
    finish t callback

/-- `poll` up to its first access. -/
def poll (t : Session) (callback : Option Callback) (timeout : ℤ) : Endpoint :=
  if t.chat.mSocket.isNone then
    ⟨t, .idle⟩
  else if t.chat.mReadyState = .CLOSED then
    ⟨⟨t.chat, t.trace ++ if timeout > 0 then [.nullSelect timeout] else []⟩,
      .idle⟩
  else
    receive t callback

end Endpoint

/-! ## Both sides -/

/-- The two sides, `A` the server, and the ring each of them writes. -/
structure SharedChat where
  ends : Side → Endpoint
  rings : Side → Spsc.State

/-- What the process of a side does next: a call of the application, or an
access to a ring. -/
inductive Move where
  | sendText (str : Option CString)
  | close
  | poll (callback : Option Callback) (timeout : ℤ)
  | access

namespace SharedChat

variable (n : SharedChat) (i : Side)

def setRing (ring : Spsc.State) : SharedChat :=
  { n with rings := Function.update n.rings i ring }

/-- Side `i` has come this far. If that is a call of `read` or `write`, the
call begins. -/
def enter (e : Endpoint) : SharedChat :=
  let n := { n with ends := Function.update n.ends i e }
  match e.stage with
  | .idle => n
  | .receiving _ =>
      n.setRing i.peer ((n.rings i.peer).startRead DEFAULT_MAX_READ_SIZE)
  | .sending _ =>
      n.setRing i ((n.rings i).startWrite e.session.chat.mTransmitBuffer.getData)

/-- The next access of a `read`; when it is the last one, `receive` returns
what has been read. -/
def readOn (callback : Option Callback) : Option SharedChat :=
  (n.rings i.peer).readerNext.map fun ring =>
    let bytes := ring.returned.drop (n.rings i.peer).returned.length
    match ring.reading with
    | .idle =>
        (n.setRing i.peer ring).enter i <|
          .received (n.ends i).session callback
            (WsocketSharedMemory.receiveAnswer bytes)
    | _ => n.setRing i.peer ring

/-- The next access of a `write`; when it is the last one, `send` returns how
much has been taken. -/
def writeOn (callback : Option Callback) : Option SharedChat :=
  (n.rings i).writerNext.map fun ring =>
    let count := ring.accepted.length - (n.rings i).accepted.length
    match ring.writing with
    | .idle =>
        (n.setRing i ring).enter i <|
          .sent (n.ends i).session callback
            (WsocketSharedMemory.sendAnswer count)
    | _ => n.setRing i ring

/-- A side that is inside a call cannot make another one. -/
def next (move : Move) : Option SharedChat :=
  let t := (n.ends i).session
  match (n.ends i).stage, move with
  | .idle, .sendText str => some (n.enter i ⟨t.call (.sendText str), .idle⟩)
  | .idle, .close => some (n.enter i ⟨t.call .close, .idle⟩)
  | .idle, .poll callback timeout =>
      some (n.enter i (.poll t callback timeout))
  | .receiving callback, .access => n.readOn i callback
  | .sending callback, .access => n.writeOn i callback
  | _, _ => none

/-- Both sockets have been created over two files of this content, the
server's first; nothing has been said yet. -/
def create (files : SharedFiles) : SharedChat :=
  let size := some SHARED_BUFFER_SIZE
  let server := WsocketSharedMemory.construct ⟨SHARED_SERVER, by decide⟩ size
    size files
  let client := WsocketSharedMemory.construct ⟨SHARED_CLIENT, by decide⟩ size
    size server.2
  { ends := fun i => ⟨⟨.construct (some i.socket), []⟩, .idle⟩
    rings := fun i =>
      { memory := match i with
          | .A => client.2.server
          | .B => client.2.client
        writer := match i with
          | .A => server.1.mWriter
          | .B => client.1.mWriter
        reader := match i with
          | .A => client.1.mReader
          | .B => server.1.mReader
        writing := .idle
        reading := .idle
        accepted := []
        returned := [] } }

end SharedChat

/-- The two processes, access by access. -/
def sharedChat : System SharedChat (Side × Move) where
  init n := ∃ files : SharedFiles,
    files.server.base.size + HEADER_SIZE = SHARED_BUFFER_SIZE ∧
    files.client.base.size + HEADER_SIZE = SHARED_BUFFER_SIZE ∧
    n = .create files
  step n act n' := n.next act.1 act.2 = some n'

end Socketchat.Shared
