import Socketchat.Chat.Link

/-!
# What one poll moves

A `poll` takes in what `receive` hands to it as long as there is room, and puts
out what `send` has room for; its callback moves nothing.
-/

namespace Socketchat.Chat

open Foundation Buffer

/-- The bytes these answers take of the data that is waiting. -/
def outgoing (data : List UInt8) : List Sent → List UInt8
  | [] => []
  | .refused _ :: _ => []
  | .room k :: answers =>
      data.take (k + 1) ++ outgoing (data.drop (k + 1)) answers

theorem outgoing_nil (answers : List Sent) : outgoing [] answers = [] := by
  induction answers with
  | nil => rfl
  | cons answer answers ih =>
      cases answer with
      | refused r => rfl
      | room k => exact ih

/-- Nothing passes the socket. -/
def Still (es : List Event) : Prop := received es = [] ∧ accepted es = []

theorem still_of_kind {kind : Event → Bool} {es : List Event}
    (h : ∀ e ∈ es, kind e = true)
    (hother : ∀ e, kind e = true → e.bytesIn = [] ∧ e.bytesOut = []) :
    Still es := by
  constructor
  · rw [received, List.flatMap_eq_nil_iff]
    exact fun e he => (hother e (h e he)).1
  · rw [accepted, List.flatMap_eq_nil_iff]
    exact fun e he => (hother e (h e he)).2

namespace SocketChatImpl

variable {s : SocketChatImpl}

theorem receiveLoop_accepted (s : SocketChatImpl) (answers : List Received) :
    accepted (s.receiveLoop answers).2 = [] := by
  rw [accepted, List.flatMap_eq_nil_iff]
  intro e he
  have hkind := s.receiveLoop_events answers e he
  cases e <;> first | rfl | cases hkind

theorem transmitLoop_received (s : SocketChatImpl) (answers : List Sent) :
    received (s.transmitLoop answers).2 = [] := by
  rw [received, List.flatMap_eq_nil_iff]
  intro e he
  have hkind := s.transmitLoop_events answers e he
  cases e <;> first | rfl | cases hkind

theorem finishClosing_still (s : SocketChatImpl) : Still s.finishClosing.2 := by
  unfold finishClosing
  split <;> exact ⟨rfl, rfl⟩

theorem dispatch_still (h : s.mReceiveBuffer.Valid)
    (callback : Option Callback) : Still (s.dispatch callback).2 := by
  refine still_of_kind (dispatch_events h callback) fun e he => ?_
  cases e <;> first | exact ⟨rfl, rfl⟩ | cases he

/-- **The transmit loop** puts out what there is room for. -/
theorem transmitLoop_accepted (answers : List Sent) :
    ∀ {s : SocketChatImpl}, s.mTransmitBuffer.Valid →
    accepted (s.transmitLoop answers).2 =
      outgoing s.mTransmitBuffer.getData answers := by
  induction answers with
  | nil =>
      intro s h
      rw [transmitLoop]
      by_cases hsize : s.mTransmitBuffer.getSize = 0
      · have hnil := List.eq_nil_of_length_eq_zero
          ((SimpleBuffer.length_getData _).trans hsize)
        rw [transmitPass_done hsize, hnil]
        rfl
      · rw [transmitPass_refused hsize]
        rfl
  | cons answer answers ih =>
      intro s h
      rw [transmitLoop]
      by_cases hsize : s.mTransmitBuffer.getSize = 0
      · have hnil := List.eq_nil_of_length_eq_zero
          ((SimpleBuffer.length_getData _).trans hsize)
        rw [transmitPass_done hsize, hnil, outgoing_nil]
        rfl
      cases answer with
      | refused r =>
          rw [transmitPass_refused hsize]
          cases r.transient <;> rfl
      | room k =>
          let ret := min (k + 1) s.mTransmitBuffer.getData.length
          have hpass : s.transmitPass (.room k) =
              (true, { s with mTransmitBuffer := s.mTransmitBuffer.consume ret },
                [.sent (s.mTransmitBuffer.getData.take ret)]) := by
            rw [transmitPass, if_neg hsize]
          obtain ⟨hvalid, hrest, -⟩ := SimpleBuffer.consume_spec h ret
          have htake : s.mTransmitBuffer.getData.take ret =
              s.mTransmitBuffer.getData.take (k + 1) :=
            (List.take_eq_take_min ..).symm
          have hdrop : s.mTransmitBuffer.getData.drop ret =
              s.mTransmitBuffer.getData.drop (k + 1) :=
            List.drop_eq_drop_min.symm
          have hloop := ih (s :=
            { s with mTransmitBuffer := s.mTransmitBuffer.consume ret }) hvalid
          rw [hrest, hdrop] at hloop
          rw [hpass]
          simp only [if_true, accepted_append, hloop]
          rw [htake, outgoing]
          simp [accepted, Event.bytesOut]

/-- **What a poll takes in.** -/
theorem poll_received (h : s.mReceiveBuffer.Valid) (hlive : s.Live)
    (callback : Option Callback) (timeout : ℤ) (io : Answers) :
    received (s.poll callback timeout io).2 =
      (incoming s.mReceiveBuffer io.recvs).1 := by
  obtain ⟨-, -, hrec, -⟩ := receiveLoop_spec io.recvs h
  rcases poll_cases s callback timeout io with
    ⟨hsocket, -⟩ | ⟨-, hclosed, -⟩ | ⟨-, -, heq⟩ | ⟨t, es, -, hread, -, -, heq⟩ |
    ⟨t, es, u, es', -, hread, hopen, hsend, -, heq⟩
  · exact absurd hsocket hlive.socket
  · exact absurd hclosed hlive.notClosed
  · rw [heq, hrec]
  · rw [hread] at hrec
    rw [heq, received_append, hrec, transmitLoop_received, List.append_nil]
  · obtain ⟨-, hemits⟩ := loops_emit h hlive hread hopen hsend
    have hvalid := activity_valid hemits h
    rw [← u.finishClosing_receiveBuffer] at hvalid
    have htransmit := t.transmitLoop_received io.sends
    rw [hread] at hrec
    rw [hsend] at htransmit
    rw [heq, received_append, received_append, received_append, hrec, htransmit,
      u.finishClosing_still.1, (dispatch_still hvalid callback).1,
      List.append_nil, List.append_nil, List.append_nil]

/-- **What a poll puts out.** Nothing, if the transport has failed before. -/
theorem poll_accepted (h : s.mReceiveBuffer.Valid)
    (htx : s.mTransmitBuffer.Valid) (hlive : s.Live)
    (callback : Option Callback) (timeout : ℤ) (io : Answers) :
    accepted (s.poll callback timeout io).2 =
      if (incoming s.mReceiveBuffer io.recvs).2 then []
      else outgoing s.mTransmitBuffer.getData io.sends := by
  obtain ⟨hready, -, -, -, hkeep⟩ := receiveLoop_spec io.recvs h
  have hloop := transmitLoop_accepted io.sends
    (s := (s.receiveLoop io.recvs).1) (hkeep.symm ▸ htx)
  rw [hkeep] at hloop
  have hreceive := s.receiveLoop_accepted io.recvs
  have hin : (s.receiveLoop io.recvs).1.mReadyState ≠ .CLOSED →
      (incoming s.mReceiveBuffer io.recvs).2 = false := by
    intro hopen
    by_contra hyes
    rw [Bool.not_eq_false] at hyes
    rw [hready, if_pos hyes] at hopen
    exact hopen rfl
  rcases poll_cases s callback timeout io with
    ⟨hsocket, -⟩ | ⟨-, hclosed, -⟩ | ⟨-, hread, heq⟩ |
    ⟨t, es, -, hread, hopen, -, heq⟩ |
    ⟨t, es, u, es', -, hread, hopen, hsend, -, heq⟩
  · exact absurd hsocket hlive.socket
  · exact absurd hclosed hlive.notClosed
  · have hyes : (incoming s.mReceiveBuffer io.recvs).2 = true := by
      by_contra hno
      rw [hready, if_neg hno] at hread
      exact hlive.notClosed hread
    rw [heq, hreceive, if_pos hyes]
  · rw [hread] at hloop hreceive hin
    rw [heq, accepted_append, hreceive, hloop, hin hopen]
    rfl
  · obtain ⟨-, hemits⟩ := loops_emit h hlive hread hopen hsend
    have hvalid := activity_valid hemits h
    rw [← u.finishClosing_receiveBuffer] at hvalid
    rw [hread] at hloop hreceive hin
    rw [hsend] at hloop
    rw [heq, accepted_append, accepted_append, accepted_append, hreceive, hloop,
      hin hopen, u.finishClosing_still.2, (dispatch_still hvalid callback).2,
      List.append_nil, List.append_nil]
    rfl

end SocketChatImpl

/-- With nothing underway but what holds no delimiter, the receiver has got
all. -/
theorem Pipe.delivered_of_free {t u : Session} {flight : List UInt8}
    (h : Pipe t u flight) (hwhole : Whole t.trace)
    (hfree : Free (u.chat.mReceiveBuffer.getData ++
      (flight ++ t.chat.mTransmitBuffer.getData))) :
    messages u.trace = texts t.trace := by
  obtain ⟨hstream, rest, hrest⟩ := h.stream hwhole
  rw [← hrest, List.map_append, show frame (_ ++ _) = frame _ ++ frame _
    from Framing.frame_append .., List.append_cancel_left_eq] at hstream
  have hnil : rest.map (·.val) = [] := by
    have hcut := Framing.unframe_fst_eq_nil.mpr hfree
    rw [← hstream] at hcut
    have hrestfree : ∀ m ∈ rest.map (·.val), Free m := by
      intro m hm
      obtain ⟨text, htext, rfl⟩ := List.mem_map.mp hm
      exact hwhole.free text (hrest ▸ List.mem_append_right _ htext)
    have hall : Framing.unframe 13 10 (frame (rest.map (·.val)) ++ []) = _ :=
      Framing.unframe_frame_append (by decide) hrestfree []
    rw [List.append_nil] at hall
    rw [hall] at hcut
    exact (List.append_eq_nil_iff.mp hcut).1
  rw [← hrest, List.map_eq_nil_iff.mp hnil, List.append_nil]

end Socketchat.Chat
