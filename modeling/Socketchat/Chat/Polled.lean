import Socketchat.Chat.Decoding
import Socketchat.Chat.Events

/-!
# What one poll passes to its callback

The messages are those that are complete in the receive buffer and the bytes
this `poll` reads, all of them, provided the transport lets `poll` get as far
as dispatching.
-/

namespace Socketchat.Chat

open Foundation Buffer

namespace SocketChatImpl

variable (s : SocketChatImpl)

/-! ## Nothing is delivered before the dispatch -/

theorem messages_eq_nil_of_kind {kind : Event → Bool} {trace : List Event}
    (h : ∀ e ∈ trace, kind e = true)
    (hother : ∀ e, kind e = true → e.messagesIn = []) : messages trace = [] := by
  rw [messages, List.flatMap_eq_nil_iff]
  intro e he
  exact hother e (h e he)

theorem messages_receiveLoop (answers : List Received) :
    messages (s.receiveLoop answers).2 = [] :=
  messages_eq_nil_of_kind (s.receiveLoop_events answers)
    (fun e he => by cases e <;> trivial)

theorem messages_transmitLoop (answers : List Sent) :
    messages (s.transmitLoop answers).2 = [] :=
  messages_eq_nil_of_kind (s.transmitLoop_events answers)
    (fun e he => by cases e <;> trivial)

theorem messages_finishClosing : messages s.finishClosing.2 = [] := by
  unfold finishClosing
  split <;> rfl

theorem finishClosing_receiveBuffer :
    s.finishClosing.1.mReceiveBuffer = s.mReceiveBuffer := by
  unfold finishClosing
  split <;> rfl

variable {s}

/-! ## The dispatch -/

theorem messages_react (calls : List Call) :
    messages (react s calls).2 = [] :=
  messages_eq_nil_of_kind (react_events calls)
    (fun e he => by cases e <;> trivial)

theorem messages_dispatchLoop (callback : Callback) (fuel : ℕ) :
    ∀ {s : SocketChatImpl} (past : List CString), s.mReceiveBuffer.Valid →
    s.mReceiveBuffer.getData.length ≤ fuel →
    messages (s.dispatchLoop callback past fuel).2 =
      (Chat.unframe s.mReceiveBuffer.getData).1.map cstring := by
  induction fuel with
  | zero =>
      intro s past _ hfuel
      have hfree : Free s.mReceiveBuffer.getData :=
        Framing.Free.of_length_lt_two (by omega)
      rw [show (Chat.unframe s.mReceiveBuffer.getData).1 = [] from
        Framing.unframe_fst_eq_nil.mpr hfree]
      rfl
  | succ fuel ih =>
      intro s past h hfuel
      rw [dispatchLoop]
      rcases dispatchPass_spec h callback past with
        ⟨hnone, hfree⟩ | ⟨seg, b, hb, hfree, hcut, hsome⟩
      · rw [hnone, show (Chat.unframe s.mReceiveBuffer.getData).1 = [] from
          Framing.unframe_fst_eq_nil.mpr hfree]
        rfl
      · have hkeep := react_receiveBuffer s b
            (callback (past ++ [cstring seg]))
        have hlen := congrArg List.length hcut
        simp only [List.length_append, List.length_cons] at hlen
        have hrest := ih (past ++ [cstring seg])
          (show SimpleBuffer.Valid _ from hkeep.symm ▸ hb)
          (by rw [hkeep]; omega)
        rw [hkeep] at hrest
        have hcons : (Chat.unframe s.mReceiveBuffer.getData).1 =
            seg :: (Chat.unframe b.getData).1 := by
          rw [hcut, show Chat.unframe (seg ++ 13 :: 10 :: b.getData) = _ from
            Framing.unframe_append (by decide) hfree b.getData]
        rw [hsome, hcons, List.map_cons, ← hrest]
        simp only
        rw [messages_append]
        show cstring seg :: messages (react _ _).2 ++ _ = _
        rw [messages_react]
        rfl

/-- **The dispatch** passes on every complete message in the buffer. -/
theorem messages_dispatchBinary (h : s.mReceiveBuffer.Valid)
    (callback : Callback) :
    messages (s.dispatchBinary callback).2 =
      (Chat.unframe s.mReceiveBuffer.getData).1.map cstring :=
  messages_dispatchLoop callback _ [] h (by rw [SimpleBuffer.length_getData])

/-! ## The whole poll -/

/-- The messages that are complete in the receive buffer once a `poll` with
these answers has read what there is; none if it does not get that far. -/
def complete (s : SocketChatImpl) (io : Answers) : List CString :=
  if s.mSocket.isNone ∨ s.mReadyState = .CLOSED ∨ s.transportFails io then
    []
  else
    (Chat.unframe (s.mReceiveBuffer.getData ++
      (incoming s.mReceiveBuffer io.recvs).1)).1.map cstring

theorem complete_of_not_fails (hlive : s.Live) {io : Answers}
    (hfails : s.transportFails io = false) :
    s.complete io = (Chat.unframe (s.mReceiveBuffer.getData ++
      (incoming s.mReceiveBuffer io.recvs).1)).1.map cstring := by
  refine if_neg ?_
  rintro (hnone | hclosed | hyes)
  · exact hlive.socket (Option.isNone_iff_eq_none.mp hnone)
  · exact hlive.notClosed hclosed
  · rw [hfails] at hyes
    cases hyes

/-- The transport fails a poll when one of its loops closes the socket. -/
theorem transportFails_iff (h : s.mReceiveBuffer.Valid)
    (hwords : Words s.mTransmitBuffer) (hopen : s.mReadyState ≠ .CLOSED)
    (io : Answers) :
    s.transportFails io = true ↔
      (s.receiveLoop io.recvs).1.mReadyState = .CLOSED ∨
      ((s.receiveLoop io.recvs).1.transmitLoop io.sends).1.mReadyState =
        .CLOSED := by
  obtain ⟨hready, -, -, -, htx⟩ := receiveLoop_spec io.recvs h
  obtain ⟨hready', -⟩ := transmitLoop_spec io.sends
    (s := (s.receiveLoop io.recvs).1) (htx.symm ▸ hwords)
  rw [htx] at hready'
  rw [transportFails, Bool.or_eq_true, hready', hready]
  cases (incoming s.mReceiveBuffer io.recvs).2 with
  | true => simp
  | false =>
      cases sendFails s.mTransmitBuffer.getSize io.sends with
      | true => simp
      | false => simp [hopen]

/-- **What a poll passes to its callback.** -/
theorem messages_poll (h : s.mReceiveBuffer.Valid)
    (hwords : Words s.mTransmitBuffer) (callback : Callback) (timeout : ℤ)
    (io : Answers) :
    messages (s.poll (some callback) timeout io).2 = s.complete io := by
  obtain ⟨-, -, -, hdata, -⟩ := receiveLoop_spec io.recvs h
  have hquiet := s.messages_receiveLoop io.recvs
  rcases poll_cases s (some callback) timeout io with
    ⟨hsocket, heq⟩ | ⟨-, hclosed, heq⟩ | ⟨hlive, hread, heq⟩ |
    ⟨t, es, hlive, hread, hopen, hsend, heq⟩ |
    ⟨t, es, u, es', hlive, hread, hopen, hsend, hopen', heq⟩
  · rw [heq, complete, if_pos (Or.inl (by rw [hsocket]; rfl))]
    rfl
  · rw [heq, complete, if_pos (Or.inr (Or.inl hclosed))]
    dsimp only
    split <;> rfl
  · have hfails := (transportFails_iff h hwords hlive.notClosed io).mpr
      (Or.inl hread)
    rw [heq, complete, if_pos (Or.inr (Or.inr hfails)), hquiet]
  · rw [hread] at hquiet
    have hfails := (transportFails_iff h hwords hlive.notClosed io).mpr
      (Or.inr (by rw [hread]; exact hsend))
    rw [heq, complete, if_pos (Or.inr (Or.inr hfails)), messages_append,
      hquiet, messages_transmitLoop, List.append_nil]
  · have hnot : ¬ (s.mSocket.isNone ∨ s.mReadyState = .CLOSED ∨
        s.transportFails io) := by
      rintro (hnone | hclosed | hfails)
      · exact hlive.socket (Option.isNone_iff_eq_none.mp hnone)
      · exact hlive.notClosed hclosed
      · rcases (transportFails_iff h hwords hlive.notClosed io).mp hfails with
          hr | hs
        · rw [hread] at hr
          exact hopen hr
        · rw [hread, hsend] at hs
          exact hopen' hs
    have hquiet' := t.messages_transmitLoop io.sends
    obtain ⟨hlive', hemits⟩ := loops_emit h hlive hread hopen hsend
    have hkeep := (transmitLoop_spec io.sends
      (s := (s.receiveLoop io.recvs).1)
      ((receiveLoop_spec io.recvs h).2.2.2.2.symm ▸ hwords)).2.2.1
    rw [hread] at hquiet hdata hkeep
    rw [hsend] at hquiet' hkeep
    have hvalid := activity_valid hemits h
    have hrx := u.finishClosing_receiveBuffer
    rw [heq, complete, if_neg hnot, messages_append, messages_append,
      messages_append, hquiet, hquiet', messages_finishClosing]
    show messages (u.finishClosing.1.dispatchBinary callback).2 = _
    rw [messages_dispatchBinary (hrx.symm ▸ hvalid), hrx,
      show u.mReceiveBuffer = t.mReceiveBuffer from hkeep, hdata]

end SocketChatImpl

end Socketchat.Chat
