import Socketchat.Chat.Session

/-!
# What each part of `poll` emits

The receive loop emits what a receive can come to, the transmit loop what a send
can, and dispatching deliveries and what callbacks do. So the events of a kind
are those of one part.
-/

namespace Socketchat.Chat

open Foundation Buffer

/-- What the receive loop emits. -/
def Event.ofReceiveLoop : Event → Bool
  | .received _ | .receiveRefused _ | .closeSocket | .ready _ => true
  | _ => false

/-- What the transmit loop emits. -/
def Event.ofTransmitLoop : Event → Bool
  | .sent _ | .sendRefused _ | .closeSocket | .ready _ => true
  | _ => false

/-- What the calls of a callback emit. -/
def Event.ofCallback : Event → Bool
  | .queued _ _ _ | .ready _ => true
  | _ => false

/-- What dispatching emits. -/
def Event.ofDispatch : Event → Bool
  | .delivered _ | .queued _ _ _ | .ready _ => true
  | _ => false

namespace SocketChatImpl

variable {s : SocketChatImpl}

/-! ## The loops on the transport -/

theorem receivePass_events (s : SocketChatImpl) (answer : Received) :
    ∀ e ∈ (s.receivePass answer).2.2, e.ofReceiveLoop = true := by
  unfold receivePass
  split
  · simp
  · cases answer with
    | refused r =>
        cases hr : r.transient <;> simp [hr, disconnect, Event.ofReceiveLoop]
    | bytes x xs => simp [Event.ofReceiveLoop]

theorem receiveLoop_events (s : SocketChatImpl) (answers : List Received) :
    ∀ e ∈ (s.receiveLoop answers).2, e.ofReceiveLoop = true := by
  induction answers generalizing s with
  | nil => exact s.receivePass_events _
  | cons answer answers ih =>
      rw [receiveLoop]
      cases hgo : (s.receivePass answer).1 with
      | false => exact s.receivePass_events answer
      | true =>
          intro e he
          rcases List.mem_append.mp he with he | he
          · exact s.receivePass_events answer e he
          · exact ih _ e he

theorem transmitPass_events (s : SocketChatImpl) (answer : Sent) :
    ∀ e ∈ (s.transmitPass answer).2.2, e.ofTransmitLoop = true := by
  unfold transmitPass
  split
  · simp
  · cases answer with
    | refused r =>
        cases hr : r.transient <;> simp [hr, disconnect, Event.ofTransmitLoop]
    | room k => simp [Event.ofTransmitLoop]

theorem transmitLoop_events (s : SocketChatImpl) (answers : List Sent) :
    ∀ e ∈ (s.transmitLoop answers).2, e.ofTransmitLoop = true := by
  induction answers generalizing s with
  | nil => exact s.transmitPass_events _
  | cons answer answers ih =>
      rw [transmitLoop]
      cases hgo : (s.transmitPass answer).1 with
      | false => exact s.transmitPass_events answer
      | true =>
          intro e he
          rcases List.mem_append.mp he with he | he
          · exact s.transmitPass_events answer e he
          · exact ih _ e he

/-! ## Dispatching -/

theorem react_events (calls : List Call) :
    ∀ {s : SocketChatImpl}, ∀ e ∈ (react s calls).2, e.ofCallback = true := by
  induction calls with
  | nil =>
      intro s e he
      cases he
  | cons call calls ih =>
      intro s e he
      cases call with
      | sendText str =>
          rcases List.mem_append.mp he with he | he
          · rw [List.mem_singleton.mp he]
            rfl
          · exact ih e he
      | close =>
          have hclose : ∀ e ∈ s.close.2, e.ofCallback = true := by
            unfold close
            split
            · simp
            · simp [Event.ofCallback]
          rcases List.mem_append.mp he with he | he
          · exact hclose e he
          · exact ih e he

theorem dispatchLoop_events (callback : Callback) (fuel : ℕ) :
    ∀ {s : SocketChatImpl} (past : List CString), s.mReceiveBuffer.Valid →
    ∀ e ∈ (s.dispatchLoop callback past fuel).2, e.ofDispatch = true := by
  induction fuel with
  | zero =>
      intro s past _ e he
      cases he
  | succ fuel ih =>
      intro s past h e he
      rw [dispatchLoop] at he
      rcases dispatchPass_spec h callback past with
        ⟨hnone, -⟩ | ⟨seg, b, hb, -, -, hsome⟩
      · rw [hnone] at he
        cases he
      · have hkeep := react_receiveBuffer s b
            (callback (past ++ [cstring seg]))
        rw [hsome] at he
        rcases List.mem_append.mp he with he | he
        · rcases List.mem_cons.mp he with rfl | he
          · rfl
          · have hcallback := react_events _ e he
            cases e <;> trivial
        · exact ih _ (by rw [hkeep]; exact hb) e he

theorem dispatch_events (h : s.mReceiveBuffer.Valid)
    (callback : Option Callback) :
    ∀ e ∈ (s.dispatch callback).2, e.ofDispatch = true := by
  cases callback with
  | none =>
      intro e he
      cases he
  | some callback => exact dispatchLoop_events callback _ [] h

end SocketChatImpl

end Socketchat.Chat
