import Socketchat.Buffer.SharedHeap
import Socketchat.Chat.Network

/-!
# `SocketChatImpl` on the heap

The connection once more, with buffers that have their data on a heap. Every
function is the one of `SocketChatImpl`, with the calls on the buffers as what
they do to the heap, and with the transport and the callback reading and writing
the blocks through the pointers they are given.
-/

namespace Socketchat.Chat

open Foundation Buffer HeapM

/-- The fields of `SocketChatImpl`. -/
structure SocketChatObject where
  mSocket : Option ℕ
  mReadyState : ReadyState
  mReceiveBuffer : SimpleBufferImpl
  mTransmitBuffer : SimpleBufferImpl

namespace SocketChatObject

variable (s : SocketChatObject)

def construct (socket : Option ℕ) : Memory SocketChatObject := do
  let mTransmitBuffer ← SimpleBufferImpl.create DEFAULT_TRANSMIT_BUFFER_SIZE
    DEFAULT_MAXIMUM_BUFFER_SIZE
  let mReceiveBuffer ← SimpleBufferImpl.create DEFAULT_RECEIVE_BUFFER_SIZE
    DEFAULT_MAXIMUM_BUFFER_SIZE
  pure
    { mSocket := socket
      mReadyState := .OPEN
      mReceiveBuffer := mReceiveBuffer
      mTransmitBuffer := mTransmitBuffer }

/-- What the destructor does after its polls. -/
def release : Memory Unit := do
  s.mReceiveBuffer.release
  s.mTransmitBuffer.release

def disconnect : SocketChatObject × List Event :=
  ({ s with mReadyState := .CLOSED }, [.closeSocket, .ready .CLOSED])

def sendText (str : Option CString) :
    Memory (SocketChatObject × List Event) := do
  let text := SocketChatImpl.textOf str
  let len := text.val.length
  let r₁ ← s.mTransmitBuffer.addBuffer (str.map (·.val)) (toU32 len)
  let r₂ ← r₁.2.addBuffer (some [13, 10]) 2
  pure ({ s with mTransmitBuffer := r₂.2 }, [.queued text r₁.1 r₂.1])

def close : SocketChatObject × List Event :=
  if s.mReadyState = .CLOSING ∨ s.mReadyState = .CLOSED then
    (s, [])
  else
    ({ s with mReadyState := .CLOSING }, [.ready .CLOSING])

def react (s : SocketChatObject) :
    List Call → Memory (SocketChatObject × List Event)
  | [] => pure (s, [])
  | call :: calls => do
      let r ← match call with
        | .sendText str => s.sendText str
        | .close => pure s.close
      let r' ← react r.1 calls
      pure (r'.1, r.2 ++ r'.2)

/-- The transport writes to the address it is given. -/
def receivePass (answer : Received) :
    Memory (Bool × SocketChatObject × List Event) := do
  let (rbuffer, mReceiveBuffer) ←
    s.mReceiveBuffer.confirmCapacity DEFAULT_MAX_READ_SIZE
  let s := { s with mReceiveBuffer := mReceiveBuffer }
  match rbuffer with
  | none => pure (false, s, [])
  | some rbuffer =>
      match answer with
      | .refused r =>
          if r.transient then
            pure (false, s, [.receiveRefused r])
          else
            pure (false, s.disconnect.1, .receiveRefused r :: s.disconnect.2)
      | .bytes x xs => do
          let bytes := (x :: xs).take DEFAULT_MAX_READ_SIZE
          write s.mReceiveBuffer.mBuffer rbuffer bytes
          let (_, mReceiveBuffer) ←
            s.mReceiveBuffer.addBuffer none bytes.length
          pure (true, { s with mReceiveBuffer := mReceiveBuffer },
            [.received bytes])

def receiveLoop (s : SocketChatObject) :
    List Received → Memory (SocketChatObject × List Event)
  | [] => do
      let r ← s.receivePass (.refused (.error true false))
      pure r.2
  | answer :: answers => do
      let r ← s.receivePass answer
      if r.1 then
        let r' ← receiveLoop r.2.1 answers
        pure (r'.1, r.2.2 ++ r'.2)
      else
        pure r.2

/-- The transport reads what it is given. -/
def transmitPass (answer : Sent) :
    Memory (Bool × SocketChatObject × List Event) :=
  if s.mTransmitBuffer.getSize = 0 then
    pure (false, s, [])
  else do
    let buffer ← s.mTransmitBuffer.getData
    match answer with
    | .refused r =>
        if r.transient then
          pure (false, s, [.sendRefused r])
        else
          pure (false, s.disconnect.1, .sendRefused r :: s.disconnect.2)
    | .room k =>
        let ret := min (k + 1) buffer.length
        pure (true, { s with mTransmitBuffer := s.mTransmitBuffer.consume ret },
          [.sent (buffer.take ret)])

def transmitLoop (s : SocketChatObject) :
    List Sent → Memory (SocketChatObject × List Event)
  | [] => do
      let r ← s.transmitPass (.refused (.error true false))
      pure r.2
  | answer :: answers => do
      let r ← s.transmitPass answer
      if r.1 then
        let r' ← transmitLoop r.2.1 answers
        pure (r'.1, r.2.2 ++ r'.2)
      else
        pure r.2

/-- The callback reads the message where it stands. -/
def dispatchPass (callback : Callback) (past : List CString) :
    Memory (Option (CString × SocketChatObject × List Event)) := do
  let data ← s.mReceiveBuffer.getData
  if data.length < 2 then
    pure none
  else
    match SocketChatImpl.messageEnd data with
    | none => pure none
    | some messageEnd => do
        write s.mReceiveBuffer.mBuffer
          (s.mReceiveBuffer.mStartLoc + messageEnd) [0]
        let data ← s.mReceiveBuffer.getData
        let message := cstring data
        let r ← s.react (callback (past ++ [message]))
        pure (some (message,
          { r.1 with
            mReceiveBuffer := r.1.mReceiveBuffer.consume (messageEnd + 2) },
          .delivered message :: r.2))

def dispatchLoop (s : SocketChatObject) (callback : Callback)
    (past : List CString) : ℕ → Memory (SocketChatObject × List Event)
  | 0 => pure (s, [])
  | fuel + 1 => do
      match ← s.dispatchPass callback past with
      | none => pure (s, [])
      | some (message, s', events) => do
          let r ← dispatchLoop s' callback (past ++ [message]) fuel
          pure (r.1, events ++ r.2)

def finishClosing : SocketChatObject × List Event :=
  if s.mTransmitBuffer.getSize = 0 ∧ s.mReadyState = .CLOSING then
    s.disconnect
  else
    (s, [])

def dispatch (callback : Option Callback) :
    Memory (SocketChatObject × List Event) :=
  match callback with
  | some callback =>
      s.dispatchLoop callback [] s.mReceiveBuffer.getSize
  | none => pure (s, [])

def poll (callback : Option Callback) (timeout : ℤ) (io : Answers) :
    Memory (SocketChatObject × List Event) :=
  if s.mSocket.isNone then
    pure (s, [])
  else if s.mReadyState = .CLOSED then
    pure (s, if timeout > 0 then [.nullSelect timeout] else [])
  else do
    let r₁ ← s.receiveLoop io.recvs
    if r₁.1.mReadyState = .CLOSED then
      pure r₁
    else
      let r₂ ← r₁.1.transmitLoop io.sends
      if r₂.1.mReadyState = .CLOSED then
        pure (r₂.1, r₁.2 ++ r₂.2)
      else
        let r₃ := r₂.1.finishClosing
        let r₄ ← r₃.1.dispatch callback
        pure (r₄.1, r₁.2 ++ (r₂.2 ++ (r₃.2 ++ r₄.2)))

def exec : ApiCall → Memory (SocketChatObject × List Event)
  | .poll callback timeout io => s.poll callback timeout io
  | .sendText str => s.sendText str
  | .close => pure s.close

/-- `ret` is a `uint32_t`. -/
def getMemoryUsage : ℕ :=
  add32 s.mTransmitBuffer.getMaxBufferSize s.mReceiveBuffer.getMaxBufferSize

def getTransmitBufferSize : ℕ := s.mTransmitBuffer.getSize

def getTransmitBufferMaxSize : ℕ := s.mTransmitBuffer.getMaxBufferSize

end SocketChatObject

/-! ## The one and the other -/

namespace SocketChatImpl

/-- The object with the fields of `s`, and its blocks at `p` and `q`. -/
def handle (s : SocketChatImpl) (p q : Option ℕ) : SocketChatObject where
  mSocket := s.mSocket
  mReadyState := s.mReadyState
  mReceiveBuffer := s.mReceiveBuffer.handle p
  mTransmitBuffer := s.mTransmitBuffer.handle q

/-- The two blocks of `s`. -/
def blocks (s : SocketChatImpl) (p q : Option ℕ) : Assertion (Block UInt8) :=
  owns p s.mReceiveBuffer.mBuffer * owns q s.mTransmitBuffer.mBuffer

/-- `c` is `s`, and has its blocks. -/
def holds (s : SocketChatImpl) (c : SocketChatObject) :
    Assertion (Block UInt8) :=
  .fact (c = s.handle c.mReceiveBuffer.mBuffer c.mTransmitBuffer.mBuffer) *
    s.blocks c.mReceiveBuffer.mBuffer c.mTransmitBuffer.mBuffer

variable {s : SocketChatImpl} {p q : Option ℕ}

theorem holds_handle (s : SocketChatImpl) (p q : Option ℕ) :
    s.holds (s.handle p q) = s.blocks p q := by
  have hself : s.handle p q = s.handle (s.handle p q).mReceiveBuffer.mBuffer
      (s.handle p q).mTransmitBuffer.mBuffer := rfl
  rw [holds, Assertion.fact_true hself, one_mul]
  rfl

theorem triple_of_object {α : Type} {c : SocketChatObject} {m : Memory α}
    {Q : α → Assertion (Block UInt8)}
    (h : ∀ p q, c = s.handle p q → Triple (s.blocks p q) m Q) :
    Triple (s.holds c) m Q :=
  Triple.fact fun hc => h _ _ hc

/-- What a function of `SocketChatImpl` returns, on the heap. -/
def returns (r : SocketChatImpl × List Event)
    (a : SocketChatObject × List Event) : Assertion (Block UInt8) :=
  .fact (a.2 = r.2) * r.1.holds a.1

/-- The rest of a program, after a function has returned. -/
theorem bind_returns {γ : Type} {P : Assertion (Block UInt8)}
    {r : SocketChatImpl × List Event}
    {m : Memory (SocketChatObject × List Event)}
    {f : SocketChatObject × List Event → Memory γ}
    {Q : γ → Assertion (Block UInt8)} (hm : Triple P m (returns r))
    (hf : ∀ p q, Triple (r.1.blocks p q) (f (r.1.handle p q, r.2)) Q) :
    Triple P (m >>= f) Q := by
  refine hm.bind fun a => Triple.fact fun hes =>
    triple_of_object fun p q hc => ?_
  obtain ⟨c, es⟩ := a
  dsimp only at hes hc
  subst hes hc
  exact hf p q

/-- What was reported before comes first. -/
theorem returns_append {P : Assertion (Block UInt8)}
    {r : SocketChatImpl × List Event}
    {m : Memory (SocketChatObject × List Event)} (hm : Triple P m (returns r))
    (es : List Event) :
    Triple P (do let r' ← m; pure (r'.1, es ++ r'.2))
      (returns (r.1, es ++ r.2)) :=
  hm.bind fun _ => Triple.fact fun hes =>
    Triple.ret (congrArg (es ++ ·) hes) rfl

/-- What a pass of a loop returns; the first component is for the loop. -/
def passes {R : Type} (r : R × SocketChatImpl × List Event)
    (a : R × SocketChatObject × List Event) : Assertion (Block UInt8) :=
  .fact (a.1 = r.1 ∧ a.2.2 = r.2.2) * r.2.1.holds a.2.1

theorem triple_of_passes {R γ : Type} {r : R × SocketChatImpl × List Event}
    {a : R × SocketChatObject × List Event}
    {f : R × SocketChatObject × List Event → Memory γ}
    {Q : γ → Assertion (Block UInt8)}
    (hf : ∀ p q, Triple (r.2.1.blocks p q)
      (f (r.1, r.2.1.handle p q, r.2.2)) Q) :
    Triple (passes r a) (f a) Q := by
  refine Triple.fact fun ha => triple_of_object fun p q hc => ?_
  obtain ⟨x, c, es⟩ := a
  obtain ⟨hx, hes⟩ := ha
  dsimp only at hx hes hc
  subst hx hes hc
  exact hf p q

/-- The rest of a loop, after a pass. -/
theorem bind_passes {R γ : Type} {P : Assertion (Block UInt8)}
    {r : R × SocketChatImpl × List Event}
    {m : Memory (R × SocketChatObject × List Event)}
    {f : R × SocketChatObject × List Event → Memory γ}
    {Q : γ → Assertion (Block UInt8)} (hm : Triple P m (passes r))
    (hf : ∀ p q, Triple (r.2.1.blocks p q)
      (f (r.1, r.2.1.handle p q, r.2.2)) Q) :
    Triple P (m >>= f) Q :=
  hm.bind fun _ => triple_of_passes hf

theorem ret_returns (s : SocketChatImpl) (p q : Option ℕ)
    (events : List Event) :
    Triple (s.blocks p q) (pure (s.handle p q, events))
      (returns (s, events)) :=
  Triple.ret rfl (holds_handle s p q).symm

theorem passes_handle {R : Type} (x : R) (s : SocketChatImpl)
    (p q : Option ℕ) (events : List Event) :
    passes (x, s, events) (x, s.handle p q, events) = s.blocks p q := by
  rw [passes, Assertion.fact_true ⟨rfl, rfl⟩, one_mul, holds_handle]

theorem ret_passes {R : Type} (x : R) (s : SocketChatImpl) (p q : Option ℕ)
    (events : List Event) :
    Triple (s.blocks p q) (pure (x, s.handle p q, events))
      (passes (x, s, events)) :=
  (Triple.pure _).pre (le_of_eq (passes_handle x s p q events).symm)

end SocketChatImpl

end Socketchat.Chat
