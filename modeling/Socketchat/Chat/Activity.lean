import Socketchat.Buffer.Operations
import Socketchat.Chat.SocketChat
import Socketchat.Foundation.Framing
import Socketchat.Foundation.Transition

/-!
# What a connection can do

Every function of `SocketChatImpl` is a sequence of a few actions, each with
the events it emits: the receive buffer is moved or filled, a transport call is
answered, the socket is closed, a message is cut from the front of the receive
buffer, a text is queued. `poll_emits`, `sendText_emits` and `close_emits` say
so once; every invariant below is proved action by action.
-/

namespace Socketchat.Chat

open Foundation Buffer

/-- The delimiter of messages is a carriage return and a line feed. -/
abbrev Free (l : List UInt8) : Prop := Framing.Free 13 10 l

namespace SocketChatImpl

/-- There is a socket and it has not been closed. -/
structure Live (s : SocketChatImpl) : Prop where
  socket : s.mSocket ≠ none
  notClosed : s.mReadyState ≠ .CLOSED

/-- One action, and the events it emits. -/
inductive Act : SocketChatImpl → List Event → SocketChatImpl → Prop
  /-- The bytes received may move within the block, or to a new one. -/
  | move {s : SocketChatImpl} (b : SimpleBuffer) :
      b.Valid → b.getData = s.mReceiveBuffer.getData →
      Act s [] { s with mReceiveBuffer := b }
  | receive {s : SocketChatImpl} (b : SimpleBuffer) (bytes : List UInt8) :
      s.Live → b.Valid →
      b.getData = s.mReceiveBuffer.getData ++ bytes →
      Act s [.received bytes] { s with mReceiveBuffer := b }
  | receiveWait {s : SocketChatImpl} (r : Refusal) :
      s.Live → r.transient = true →
      Act s [.receiveRefused r] s
  | receiveBroken {s : SocketChatImpl} (r : Refusal) :
      s.Live → r.transient = false →
      Act s (.receiveRefused r :: s.disconnect.2) s.disconnect.1
  | send {s : SocketChatImpl} (n : ℕ) :
      s.Live → n ≤ s.mTransmitBuffer.getSize →
      Act s [.sent (s.mTransmitBuffer.getData.take n)]
        { s with mTransmitBuffer := s.mTransmitBuffer.consume n }
  | sendWait {s : SocketChatImpl} (r : Refusal) :
      s.Live → r.transient = true →
      Act s [.sendRefused r] s
  | sendBroken {s : SocketChatImpl} (r : Refusal) :
      s.Live → r.transient = false →
      Act s (.sendRefused r :: s.disconnect.2) s.disconnect.1
  | finish {s : SocketChatImpl} :
      s.Live → s.mReadyState = .CLOSING → s.mTransmitBuffer.getSize = 0 →
      Act s s.disconnect.2 s.disconnect.1
  | deliver {s : SocketChatImpl} (b : SimpleBuffer) (seg : List UInt8) :
      b.Valid → Free seg →
      s.mReceiveBuffer.getData = seg ++ 13 :: 10 :: b.getData →
      Act s [.delivered (cstring seg)] { s with mReceiveBuffer := b }
  | queue {s : SocketChatImpl} (str : Option CString) :
      Act s (s.sendText str).2 (s.sendText str).1
  | requestClose {s : SocketChatImpl} :
      s.mReadyState ≠ .CLOSING → s.mReadyState ≠ .CLOSED →
      Act s [.ready .CLOSING] { s with mReadyState := .CLOSING }
  | rest {s : SocketChatImpl} (timeout : ℤ) :
      s.mSocket ≠ none → s.mReadyState = .CLOSED →
      Act s [.nullSelect timeout] s

/-- The actions of a connection, from any of the states the constructors
leave. -/
def activity : System SocketChatImpl (List Event) where
  init s := ∃ socket, s = construct socket
  step := Act

variable {s t : SocketChatImpl} {events : List Event}

theorem Live.of_eq (h : s.Live) (hsocket : t.mSocket = s.mSocket)
    (hready : t.mReadyState = s.mReadyState) : t.Live :=
  ⟨hsocket ▸ h.socket, hready ▸ h.notClosed⟩

theorem Act.emits (h : Act s events t) : activity.Emits s events t :=
  System.Emits.single h

/-- The receive buffer stays well-formed. -/
theorem activity_valid (h : activity.Emits s events t)
    (hs : s.mReceiveBuffer.Valid) : t.mReceiveBuffer.Valid := by
  have hstep : ∀ (s : SocketChatImpl) (es : List Event) (t : SocketChatImpl)
      (_ : List Event), activity.step s es t →
      s.mReceiveBuffer.Valid → t.mReceiveBuffer.Valid := by
    intro s es t _ hact hs
    cases hact with
    | move b hb _ => exact hb
    | receive b bytes _ hb _ => exact hb
    | deliver b seg hb _ _ => exact hb
    | _ => exact hs
  exact System.Emits.preserves (I := fun s _ => s.mReceiveBuffer.Valid) hstep
    h [] hs

/-! ## Receiving -/

theorem receivePass_emits (h : s.mReceiveBuffer.Valid)
    (hlive : s.Live) (answer : Received) :
    activity.Emits s (s.receivePass answer).2.2 (s.receivePass answer).2.1 ∧
    ((s.receivePass answer).1 = true →
      (s.receivePass answer).2.1.Live) := by
  rcases SimpleBuffer.confirmCapacity_spec h
      (c := DEFAULT_MAX_READ_SIZE) (by decide) with
    ⟨b, hconf, hvalid, hdata, -, hspace, -⟩ | ⟨hconf, -⟩
  · have hmove : activity.Emits s [] { s with mReceiveBuffer := b } :=
      (Act.move b hvalid hdata).emits
    have hmoved : Live { s with mReceiveBuffer := b } := hlive.of_eq rfl rfl
    cases answer with
    | refused r =>
        cases hr : r.transient with
        | true =>
            simp only [receivePass, hconf, hr, if_true]
            have hwait := (Act.receiveWait
              (s := { s with mReceiveBuffer := b }) r hmoved hr).emits
            exact ⟨hmove.trans hwait, fun hfalse => absurd hfalse (by simp)⟩
        | false =>
            simp only [receivePass, hconf, hr, Bool.false_eq_true, if_false]
            have hbroken := (Act.receiveBroken
              (s := { s with mReceiveBuffer := b }) r hmoved hr).emits
            exact ⟨hmove.trans hbroken, fun hfalse => absurd hfalse (by simp)⟩
    | bytes x xs =>
        have hlen : ((x :: xs).take DEFAULT_MAX_READ_SIZE).length ≤
            b.mMaxLen - b.mEndLoc := by
          rw [List.length_take]
          omega
        obtain ⟨-, hvalid', hdata', -⟩ :=
          SimpleBuffer.store_commit_spec hvalid hlen
        have hread := (Act.receive (s := { s with mReceiveBuffer := b })
          _ _ hmoved hvalid' hdata').emits
        simp only [receivePass, hconf]
        exact ⟨hmove.trans hread, fun _ => hlive.of_eq rfl rfl⟩
  · have hfull : s.receivePass answer = (false, s, []) := by
      simp only [receivePass, hconf]
    rw [hfull]
    exact ⟨.refl s, fun hfalse => absurd hfalse (by simp)⟩

theorem receiveLoop_emits (answers : List Received)
    (h : s.mReceiveBuffer.Valid) (hlive : s.Live) :
    activity.Emits s (s.receiveLoop answers).2 (s.receiveLoop answers).1 := by
  induction answers generalizing s with
  | nil => exact (receivePass_emits h hlive _).1
  | cons answer answers ih =>
      obtain ⟨hpass, hnext⟩ := receivePass_emits h hlive answer
      rw [receiveLoop]
      cases hgo : (s.receivePass answer).1 with
      | false => exact hpass
      | true =>
          have hvalid := activity_valid hpass h
          exact hpass.trans (ih hvalid (hnext hgo))

/-! ## Transmitting -/

theorem transmitPass_emits (hlive : s.Live) (answer : Sent) :
    activity.Emits s (s.transmitPass answer).2.2 (s.transmitPass answer).2.1 ∧
    ((s.transmitPass answer).1 = true →
      (s.transmitPass answer).2.1.Live) := by
  by_cases hsize : s.mTransmitBuffer.getSize = 0
  · simp only [transmitPass, if_pos hsize]
    exact ⟨.refl s, fun hfalse => absurd hfalse (by simp)⟩
  · cases answer with
    | refused r =>
        cases hr : r.transient with
        | true =>
            simp only [transmitPass, if_neg hsize, hr, if_true]
            exact ⟨(Act.sendWait r hlive hr).emits,
              fun hfalse => absurd hfalse (by simp)⟩
        | false =>
            simp only [transmitPass, if_neg hsize, hr, Bool.false_eq_true,
              if_false]
            exact ⟨(Act.sendBroken r hlive hr).emits,
              fun hfalse => absurd hfalse (by simp)⟩
    | room k =>
        have hle : min (k + 1) s.mTransmitBuffer.getData.length ≤
            s.mTransmitBuffer.getSize := by
          rw [SimpleBuffer.length_getData]
          exact Nat.min_le_right ..
        simp only [transmitPass, if_neg hsize]
        exact ⟨(Act.send _ hlive hle).emits, fun _ => hlive.of_eq rfl rfl⟩

theorem transmitLoop_emits (answers : List Sent)
    (hlive : s.Live) :
    activity.Emits s (s.transmitLoop answers).2 (s.transmitLoop answers).1 := by
  induction answers generalizing s with
  | nil => exact (transmitPass_emits hlive _).1
  | cons answer answers ih =>
      obtain ⟨hpass, hnext⟩ := transmitPass_emits hlive answer
      rw [transmitLoop]
      cases hgo : (s.transmitPass answer).1 with
      | false => exact hpass
      | true => exact hpass.trans (ih (hnext hgo))

end SocketChatImpl

end Socketchat.Chat
