import Socketchat.Buffer.SimpleBuffer
import Socketchat.Chat.Wsocket

/-!
# `SocketChatImpl`

The connection: a ready state, a socket and two buffers. Every function
returns the new state together with the events an observer of the socket and
of the callback sees, in order. The loops of `poll` are split into one pass,
which says whether the loop goes on, and the loop over the transport's
answers.
-/

namespace Socketchat.Chat

open Foundation Buffer

inductive ReadyState where
  | CLOSING
  | CLOSED
  | CONNECTING
  | OPEN
deriving DecidableEq

def DEFAULT_TRANSMIT_BUFFER_SIZE : ℕ := 1024 * 16
def DEFAULT_RECEIVE_BUFFER_SIZE : ℕ := 1024 * 16
def DEFAULT_MAX_READ_SIZE : ℕ := 1024 * 4
def DEFAULT_MAXIMUM_BUFFER_SIZE : ℕ := 1024 * 1024 * 512

/-- What happens at the interfaces of a connection. -/
inductive Event where
  /-- `receive` returned these bytes. -/
  | received (bytes : List UInt8)
  | receiveRefused (r : Refusal)
  /-- `send` accepted these bytes. -/
  | sent (bytes : List UInt8)
  | sendRefused (r : Refusal)
  /-- `mSocket->close()`. -/
  | closeSocket
  | nullSelect (timeout : ℤ)
  /-- `mReadyState` was assigned. -/
  | ready (state : ReadyState)
  /-- `callback->receiveMessage(message)`. -/
  | delivered (message : CString)
  /-- `sendText(text)`, and what its two `addBuffer` calls returned. -/
  | queued (text : CString) (textAdded delimiterAdded : Bool)

/-- The fields of `SocketChatImpl`; `mSocket` says which socket object, `none`
for null. -/
structure SocketChatImpl where
  mSocket : Option ℕ
  mReadyState : ReadyState
  mReceiveBuffer : SimpleBuffer
  mTransmitBuffer : SimpleBuffer

/-- The calls a callback may make on the connection that runs it. -/
inductive Call where
  | sendText (str : Option CString)
  | close

/-- A callback: what it calls, given the messages this poll has passed to it so
far, the latest last. -/
abbrev Callback := List CString → List Call

namespace SocketChatImpl

/-- The state both constructors leave, also when no socket was obtained. -/
def construct (socket : Option ℕ) : SocketChatImpl :=
  { mSocket := socket
    mReadyState := .OPEN
    mReceiveBuffer := SimpleBuffer.create DEFAULT_RECEIVE_BUFFER_SIZE
      DEFAULT_MAXIMUM_BUFFER_SIZE
    mTransmitBuffer := SimpleBuffer.create DEFAULT_TRANSMIT_BUFFER_SIZE
      DEFAULT_MAXIMUM_BUFFER_SIZE }

/-- `mSocket->close(); mReadyState = CLOSED;` -/
def disconnect (s : SocketChatImpl) : SocketChatImpl × List Event :=
  ({ s with mReadyState := .CLOSED }, [.closeSocket, .ready .CLOSED])

/-- The text of a `sendText` argument; a null pointer has length zero. -/
def textOf (str : Option CString) : CString :=
  str.getD ⟨[], List.not_mem_nil⟩

/-- `str` is `none` for a null pointer. The length is narrowed to `uint32_t`
and neither result of `addBuffer` is looked at. -/
def sendText (s : SocketChatImpl) (str : Option CString) :
    SocketChatImpl × List Event :=
  let text := textOf str
  let len := text.val.length
  let r₁ := s.mTransmitBuffer.addBuffer (str.map (·.val)) (toU32 len)
  let r₂ := r₁.2.addBuffer (some [13, 10]) 2
  ({ s with mTransmitBuffer := r₂.2 }, [.queued text r₁.1 r₂.1])

def close (s : SocketChatImpl) : SocketChatImpl × List Event :=
  if s.mReadyState = .CLOSING ∨ s.mReadyState = .CLOSED then
    (s, [])
  else
    ({ s with mReadyState := .CLOSING }, [.ready .CLOSING])

/-- What a callback does to the connection. -/
def react (s : SocketChatImpl) : List Call → SocketChatImpl × List Event
  | [] => (s, [])
  | call :: calls =>
      let r := match call with
        | .sendText str => s.sendText str
        | .close => s.close
      let r' := react r.1 calls
      (r'.1, r.2 ++ r'.2)

/-! ## The receive loop -/

def receivePass (s : SocketChatImpl) (answer : Received) :
    Bool × SocketChatImpl × List Event :=
  match s.mReceiveBuffer.confirmCapacity DEFAULT_MAX_READ_SIZE with
  | (none, b) => (false, { s with mReceiveBuffer := b }, [])
  | (some rbuffer, b) =>
      let s := { s with mReceiveBuffer := b }
      match answer with
      | .refused r =>
          if r.transient then
            (false, s, [.receiveRefused r])
          else
            (false, s.disconnect.1, .receiveRefused r :: s.disconnect.2)
      | .bytes x xs =>
          let bytes := (x :: xs).take DEFAULT_MAX_READ_SIZE
          let b := ((b.store rbuffer bytes).addBuffer none bytes.length).2
          (true, { s with mReceiveBuffer := b }, [.received bytes])

def receiveLoop (s : SocketChatImpl) :
    List Received → SocketChatImpl × List Event
  | [] => (s.receivePass (.refused (.error true false))).2
  | answer :: answers =>
      let r := s.receivePass answer
      if r.1 then
        let r' := receiveLoop r.2.1 answers
        (r'.1, r.2.2 ++ r'.2)
      else
        r.2

/-! ## The transmit loop -/

def transmitPass (s : SocketChatImpl) (answer : Sent) :
    Bool × SocketChatImpl × List Event :=
  if s.mTransmitBuffer.getSize = 0 then
    (false, s, [])
  else
    let buffer := s.mTransmitBuffer.getData
    match answer with
    | .refused r =>
        if r.transient then
          (false, s, [.sendRefused r])
        else
          (false, s.disconnect.1, .sendRefused r :: s.disconnect.2)
    | .room k =>
        let ret := min (k + 1) buffer.length
        (true, { s with mTransmitBuffer := s.mTransmitBuffer.consume ret },
          [.sent (buffer.take ret)])

def transmitLoop (s : SocketChatImpl) :
    List Sent → SocketChatImpl × List Event
  | [] => (s.transmitPass (.refused (.error true false))).2
  | answer :: answers =>
      let r := s.transmitPass answer
      if r.1 then
        let r' := transmitLoop r.2.1 answers
        (r'.1, r.2.2 ++ r'.2)
      else
        r.2

/-! ## Dispatching messages -/

/-- The `for` loop of `_dispatchBinary`: the first `i < dataLen - 1` with a
carriage return at `i` and a line feed behind it. -/
def messageEnd (data : List UInt8) : Option ℕ :=
  (List.range (data.length - 1)).find? fun i =>
    data[i]? == some 13 && data[i + 1]? == some 10

/-- `past` are the messages this poll has passed to the callback already. -/
def dispatchPass (s : SocketChatImpl) (callback : Callback)
    (past : List CString) : Option (CString × SocketChatImpl × List Event) :=
  let data := s.mReceiveBuffer.getData
  if data.length < 2 then
    none
  else
    match messageEnd data with
    | none => none
    | some messageEnd =>
        -- `data[messageEnd] = 0`: the string ends where the delimiter was
        let b := s.mReceiveBuffer.store
          (s.mReceiveBuffer.mStartLoc + messageEnd) [0]
        let message := cstring b.getData
        let r := react { s with mReceiveBuffer := b }
          (callback (past ++ [message]))
        some (message,
          { r.1 with
            mReceiveBuffer := r.1.mReceiveBuffer.consume (messageEnd + 2) },
          .delivered message :: r.2)

/-- Each pass consumes at least two bytes, so as many passes as there are bytes
are more than the loop makes. -/
def dispatchLoop (s : SocketChatImpl) (callback : Callback)
    (past : List CString) : ℕ → SocketChatImpl × List Event
  | 0 => (s, [])
  | fuel + 1 =>
      match s.dispatchPass callback past with
      | none => (s, [])
      | some (message, s', events) =>
          let r := dispatchLoop s' callback (past ++ [message]) fuel
          (r.1, events ++ r.2)

/-- `_dispatchBinary`. -/
def dispatchBinary (s : SocketChatImpl) (callback : Callback) :
    SocketChatImpl × List Event :=
  s.dispatchLoop callback [] s.mReceiveBuffer.getSize

/-! ## `poll` -/

/-- `if (!mTransmitBuffer->getSize() && mReadyState == CLOSING)` -/
def finishClosing (s : SocketChatImpl) : SocketChatImpl × List Event :=
  if s.mTransmitBuffer.getSize = 0 ∧ s.mReadyState = .CLOSING then
    s.disconnect
  else
    (s, [])

def poll (s : SocketChatImpl) (callback : Option Callback) (timeout : ℤ)
    (io : Answers) : SocketChatImpl × List Event :=
  if s.mSocket.isNone then
    (s, [])
  else if s.mReadyState = .CLOSED then
    (s, if timeout > 0 then [.nullSelect timeout] else [])
  else
    let r₁ := s.receiveLoop io.recvs
    if r₁.1.mReadyState = .CLOSED then
      r₁
    else
      let r₂ := r₁.1.transmitLoop io.sends
      if r₂.1.mReadyState = .CLOSED then
        (r₂.1, r₁.2 ++ r₂.2)
      else
        let r₃ := r₂.1.finishClosing
        let r₄ := match callback with
          | some callback => r₃.1.dispatchBinary callback
          | none => (r₃.1, [])
        (r₄.1, r₁.2 ++ (r₂.2 ++ (r₃.2 ++ r₄.2)))

end SocketChatImpl

end Socketchat.Chat
