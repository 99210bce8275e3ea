import Socketchat.Chat.Dispatch

/-!
# Sessions

A session is a connection together with everything observed at its interfaces
so far. The application calls `poll`, `sendText` and `close` in any order, and
every `poll` gets whatever answers the transport gives. An invariant of the
actions is an invariant of every session (`session_invariant`).
-/

namespace Socketchat.Chat

open Foundation Buffer

/-- A call on a connection. -/
inductive ApiCall where
  | poll (callback : Option Callback) (timeout : ℤ) (io : Answers)
  | sendText (str : Option CString)
  | close

namespace SocketChatImpl

def exec (s : SocketChatImpl) : ApiCall → SocketChatImpl × List Event
  | .poll callback timeout io => s.poll callback timeout io
  | .sendText str => s.sendText str
  | .close => s.close

/-! ## `poll` as a sequence of actions -/

variable {s : SocketChatImpl}

theorem finishClosing_emits (hlive : s.Live) :
    activity.Emits s s.finishClosing.2 s.finishClosing.1 := by
  unfold finishClosing
  by_cases h : s.mTransmitBuffer.getSize = 0 ∧ s.mReadyState = .CLOSING
  · rw [if_pos h]
    exact (Act.finish hlive h.2 h.1).emits
  · rw [if_neg h]
    exact .refl s

/-- The last part of `poll`: messages are dispatched if there is a callback. -/
def dispatch (s : SocketChatImpl) (callback : Option Callback) :
    SocketChatImpl × List Event :=
  match callback with
  | some callback => s.dispatchBinary callback
  | none => (s, [])

theorem dispatch_emits (h : s.mReceiveBuffer.Valid)
    (callback : Option Callback) :
    activity.Emits s (s.dispatch callback).2 (s.dispatch callback).1 := by
  cases callback with
  | none => exact .refl s
  | some callback => exact dispatchBinary_emits h callback

/-- The socket object of a connection is never exchanged. -/
theorem activity_socket {t : SocketChatImpl} {events : List Event}
    (h : activity.Emits s events t) : t.mSocket = s.mSocket := by
  have hstep : ∀ (u : SocketChatImpl) (es : List Event) (v : SocketChatImpl)
      (_ : List Event), activity.step u es v →
      u.mSocket = s.mSocket → v.mSocket = s.mSocket := by
    intro u es v _ hact hu
    cases hact <;> exact hu
  exact System.Emits.preserves (I := fun u _ => u.mSocket = s.mSocket) hstep
    h [] rfl

/-- **The exits of `poll`.** It does nothing without a socket and rests on a
closed one; it stops where the receive loop or the transmit loop has closed
the socket; otherwise it finishes a requested close and dispatches. -/
theorem poll_cases (s : SocketChatImpl) (callback : Option Callback)
    (timeout : ℤ) (io : Answers) :
    (s.mSocket = none ∧ s.poll callback timeout io = (s, [])) ∨
    (s.mSocket ≠ none ∧ s.mReadyState = .CLOSED ∧
      s.poll callback timeout io =
        (s, if timeout > 0 then [.nullSelect timeout] else [])) ∨
    (s.Live ∧ (s.receiveLoop io.recvs).1.mReadyState = .CLOSED ∧
      s.poll callback timeout io = s.receiveLoop io.recvs) ∨
    (∃ t events, s.Live ∧ s.receiveLoop io.recvs = (t, events) ∧
      t.mReadyState ≠ .CLOSED ∧
      (t.transmitLoop io.sends).1.mReadyState = .CLOSED ∧
      s.poll callback timeout io =
        ((t.transmitLoop io.sends).1,
          events ++ (t.transmitLoop io.sends).2)) ∨
    (∃ t events u events', s.Live ∧ s.receiveLoop io.recvs = (t, events) ∧
      t.mReadyState ≠ .CLOSED ∧ t.transmitLoop io.sends = (u, events') ∧
      u.mReadyState ≠ .CLOSED ∧
      s.poll callback timeout io =
        ((u.finishClosing.1.dispatch callback).1,
          events ++ (events' ++ (u.finishClosing.2 ++
            (u.finishClosing.1.dispatch callback).2)))) := by
  cases hsocket : s.mSocket with
  | none =>
      refine Or.inl ⟨rfl, ?_⟩
      simp [poll, hsocket]
  | some k =>
      have hsome : s.mSocket ≠ none := by simp [hsocket]
      have hnotNone : ¬ s.mSocket.isNone = true := by simp [hsocket]
      refine Or.inr ?_
      by_cases hclosed : s.mReadyState = .CLOSED
      · refine Or.inl ⟨by simp, hclosed, ?_⟩
        simp only [poll, if_neg hnotNone, if_pos hclosed]
      have hlive : s.Live := ⟨hsome, hclosed⟩
      refine Or.inr ?_
      by_cases hread : (s.receiveLoop io.recvs).1.mReadyState = .CLOSED
      · refine Or.inl ⟨hlive, hread, ?_⟩
        simp only [poll, if_neg hnotNone, if_neg hclosed, if_pos hread]
      refine Or.inr ?_
      by_cases hsend : ((s.receiveLoop io.recvs).1.transmitLoop
          io.sends).1.mReadyState = .CLOSED
      · refine Or.inl ⟨_, _, hlive, rfl, hread, hsend, ?_⟩
        simp only [poll, if_neg hnotNone, if_neg hclosed, if_neg hread,
          if_pos hsend]
      · refine Or.inr ⟨_, _, _, _, hlive, rfl, hread, rfl, hsend, ?_⟩
        simp only [poll, if_neg hnotNone, if_neg hclosed, if_neg hread,
          if_neg hsend]
        cases callback <;> rfl

/-- What happens in a `poll` up to the end of the transmit loop. -/
theorem loops_emit {t u : SocketChatImpl} {events events' : List Event}
    {io : Answers} (h : s.mReceiveBuffer.Valid) (hlive : s.Live)
    (hread : s.receiveLoop io.recvs = (t, events))
    (hopen : t.mReadyState ≠ .CLOSED)
    (hsend : t.transmitLoop io.sends = (u, events')) :
    t.Live ∧ activity.Emits s (events ++ events') u := by
  have hreceive := receiveLoop_emits io.recvs h hlive
  rw [hread] at hreceive
  have hlive' : t.Live := ⟨activity_socket hreceive ▸ hlive.socket, hopen⟩
  have htransmit := transmitLoop_emits io.sends hlive'
  rw [hsend] at htransmit
  exact ⟨hlive', hreceive.trans htransmit⟩

theorem poll_emits (h : s.mReceiveBuffer.Valid) (callback : Option Callback)
    (timeout : ℤ) (io : Answers) :
    activity.Emits s (s.poll callback timeout io).2
      (s.poll callback timeout io).1 := by
  rcases poll_cases s callback timeout io with
    ⟨-, heq⟩ | ⟨hsocket, hclosed, heq⟩ | ⟨hlive, -, heq⟩ |
    ⟨t, es, hlive, hread, hopen, -, heq⟩ |
    ⟨t, es, u, es', hlive, hread, hopen, hsend, hopen', heq⟩
  · rw [heq]
    exact .refl s
  · rw [heq]
    by_cases hrest : timeout > 0
    · rw [if_pos hrest]
      exact (Act.rest timeout hsocket hclosed).emits
    · rw [if_neg hrest]
      exact .refl s
  · rw [heq]
    exact receiveLoop_emits io.recvs h hlive
  · rw [heq]
    exact (loops_emit h hlive hread hopen rfl).2
  · obtain ⟨hlive', hloops⟩ := loops_emit h hlive hread hopen hsend
    have hlive'' : u.Live := ⟨activity_socket hloops ▸ hlive.socket, hopen'⟩
    have hfinish := hloops.trans (finishClosing_emits hlive'')
    have hall := hfinish.trans
      (dispatch_emits (activity_valid hfinish h) callback)
    rw [heq]
    simpa only [List.append_assoc] using hall

theorem exec_emits (h : s.mReceiveBuffer.Valid) (call : ApiCall) :
    activity.Emits s (s.exec call).2 (s.exec call).1 := by
  cases call with
  | poll callback timeout io => exact poll_emits h callback timeout io
  | sendText str => exact sendText_emits s str
  | close => exact close_emits s

end SocketChatImpl

/-! ## Sessions -/

structure Session where
  chat : SocketChatImpl
  trace : List Event

def Session.call (t : Session) (call : ApiCall) : Session :=
  ⟨(t.chat.exec call).1, t.trace ++ (t.chat.exec call).2⟩

/-- A connection on this socket and its application. -/
def session (socket : Option ℕ) : System Session ApiCall where
  init t := t = ⟨.construct socket, []⟩
  step t call u := u = t.call call

theorem construct_valid (socket : Option ℕ) :
    (SocketChatImpl.construct socket).mReceiveBuffer.Valid ∧
    (SocketChatImpl.construct socket).mTransmitBuffer.Valid :=
  ⟨SimpleBuffer.create_valid (by decide) (by decide),
    SimpleBuffer.create_valid (by decide) (by decide)⟩

/-- **The invariant rule for sessions.** What holds of a new connection and is
preserved by every action holds throughout every session. -/
theorem session_invariant {socket : Option ℕ}
    {I : SocketChatImpl → List Event → Prop}
    (hinit : I (.construct socket) [])
    (hact : ∀ s es t tr, SocketChatImpl.Act s es t → I s tr → I t (tr ++ es))
    {t : Session} (ht : (session socket).Reachable t) :
    t.chat.mReceiveBuffer.Valid ∧ I t.chat t.trace := by
  have hinv : (session socket).Invariant
      fun t => t.chat.mReceiveBuffer.Valid ∧ I t.chat t.trace := by
    refine ⟨?_, ?_⟩
    · rintro t rfl
      exact ⟨(construct_valid socket).1, hinit⟩
    · rintro t call u - ⟨hvalid, hI⟩ rfl
      have hemits := SocketChatImpl.exec_emits hvalid call
      exact ⟨SocketChatImpl.activity_valid hemits hvalid,
        hemits.preserves hact _ hI⟩
  exact hinv.holds ht

theorem session_socket {socket : Option ℕ} {t : Session}
    (ht : (session socket).Reachable t) : t.chat.mSocket = socket := by
  refine (session_invariant (I := fun s _ => s.mSocket = socket) rfl ?_ ht).2
  intro s es u tr hact h
  cases hact <;> exact h

end Socketchat.Chat
