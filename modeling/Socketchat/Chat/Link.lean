import Socketchat.Chat.Network
import Socketchat.Chat.Polled

/-!
# One direction of a connection

Two sessions, at whatever sockets, and the bytes in flight from one to the
other. Nothing is said about who else the two talk to or why they call what
they call, so a system of many connections is a family of links. A link is
faithful as long as every text is queued whole, which a transmit buffer with
half of its capacity to spare always does.
-/

namespace Socketchat.Chat

open Foundation Buffer

/-- What `t` has sent is what `u` has received and what is in flight. -/
structure Link (t u : Session) (flight : List UInt8) : Prop where
  sender : ∃ socket, (session socket).Reachable t
  receiver : ∃ socket, (session socket).Reachable u
  carries : accepted t.trace = received u.trace ++ flight

/-- What a sender promises: all its texts can be framed, and all were queued
whole. -/
structure Whole (trace : List Event) : Prop where
  free : ∀ text ∈ texts trace, Free text.val
  short : ∀ text ∈ texts trace, text.val.length < shortLimit
  queued : NoneFailed trace

variable {t u : Session} {flight : List UInt8}

/-- A link at any moment, also in the middle of a call: what the sender has not
sent yet is in its transmit buffer, and what the receiver has not passed on yet
in its receive buffer. -/
structure Pipe (t u : Session) (flight : List UInt8) : Prop where
  outbound : Whole t.trace →
    placed t.trace = accepted t.trace ++ t.chat.mTransmitBuffer.getData
  inbound : u.chat.Inbound u.trace
  carries : accepted t.trace = received u.trace ++ flight

theorem Link.pipe (h : Link t u flight) : Pipe t u flight := by
  obtain ⟨socket, ht⟩ := h.sender
  obtain ⟨socket', hu⟩ := h.receiver
  refine ⟨fun hwhole => ?_, (session_inbound hu).2, h.carries⟩
  exact (session_outbound ht (session_intact ht hwhole.short)).2.2

/-- Framed, what the sender has sent is what the receiver has got, followed by
what is underway; and what the receiver has got is a first part of it. -/
theorem Pipe.stream (h : Pipe t u flight) (hwhole : Whole t.trace) :
    frame ((texts t.trace).map (·.val)) =
      frame ((messages u.trace).map (·.val)) ++
        (u.chat.mReceiveBuffer.getData ++
          (flight ++ t.chat.mTransmitBuffer.getData)) ∧
    messages u.trace <+: texts t.trace := by
  obtain ⟨segs, hsegs, hrec, hmsg⟩ := h.inbound
  have hframed : placed t.trace = frame ((texts t.trace).map (·.val)) :=
    placed_eq_frame hwhole.queued fun text htext => by
      have := hwhole.short text htext
      unfold shortLimit at this
      omega
  have hstream : frame ((texts t.trace).map (·.val)) =
      frame segs ++ (u.chat.mReceiveBuffer.getData ++
        (flight ++ t.chat.mTransmitBuffer.getData)) := by
    rw [← hframed, h.outbound hwhole, h.carries, hrec, List.append_assoc,
      List.append_assoc]
  have hprefix : segs <+: (texts t.trace).map (·.val) := by
    refine Framing.prefix_of_frame_eq (by decide) ?_ hsegs hstream
    intro m hm
    obtain ⟨text, htext, rfl⟩ := List.mem_map.mp hm
    exact hwhole.free text htext
  obtain ⟨rest, hrest⟩ := hprefix
  obtain ⟨got, later, htexts, rfl, -⟩ := List.map_eq_append_iff.mp hrest.symm
  rw [map_cstring] at hmsg
  rw [hmsg]
  refine ⟨hstream, ?_⟩
  rw [htexts]
  exact List.prefix_append got later

/-- With nothing underway, the receiver has got all. -/
theorem Pipe.delivered (h : Pipe t u flight) (hwhole : Whole t.trace)
    (hsent : t.chat.mTransmitBuffer.getData = []) (hflight : flight = [])
    (hread : u.chat.mReceiveBuffer.getData = []) :
    messages u.trace = texts t.trace := by
  obtain ⟨hstream, rest, hrest⟩ := h.stream hwhole
  rw [hsent, hflight, hread, List.append_nil, List.append_nil, List.append_nil,
    ← hrest, List.map_append] at hstream
  have hnil : rest = [] := by
    have hlen := congrArg List.length hstream
    cases rest with
    | nil => rfl
    | cons m rest =>
        simp [frame, Framing.frame] at hlen
  rw [← hrest, hnil, List.append_nil]

/-- **A link is faithful.** What the receiver has got is a first part of what
the sender has sent. -/
theorem Link.faithful (h : Link t u flight) (hwhole : Whole t.trace) :
    messages u.trace <+: texts t.trace := (h.pipe.stream hwhole).2

/-- **A link delivers.** With nothing underway, the receiver has got all. -/
theorem Link.delivered (h : Link t u flight) (hwhole : Whole t.trace)
    (hsent : t.chat.mTransmitBuffer.getData = []) (hflight : flight = [])
    (hread : u.chat.mReceiveBuffer.getData = []) :
    messages u.trace = texts t.trace :=
  h.pipe.delivered hwhole hsent hflight hread

/-! ## Room for a text -/

/-- Half of the capacity of a transmit buffer. -/
def spareLimit : ℕ := DEFAULT_MAXIMUM_BUFFER_SIZE / 2

/-- At most a quarter of it is waiting to be sent. -/
def SocketChatImpl.Uncongested (s : SocketChatImpl) : Prop :=
  s.mTransmitBuffer.getSize ≤ DEFAULT_MAXIMUM_BUFFER_SIZE / 4

instance (s : SocketChatImpl) : Decidable s.Uncongested :=
  inferInstanceAs (Decidable (_ ≤ _))

/-- A buffer that is less than half full has room for what is shorter than a
third of the other half: there is space behind the data or before it, or the
block can still be doubled. -/
theorem hasRoom_of_spare {b : SimpleBuffer} (h : b.Valid)
    (hcap : b.mMaxGrowSize = DEFAULT_MAXIMUM_BUFFER_SIZE) {n : ℕ}
    (hspare : b.getSize + 3 * n ≤ spareLimit) : b.HasRoom n := by
  have hsize := h.getSize_eq
  have hstart := h.start_le
  have hend := h.end_le
  have hlimit : spareLimit = 268435456 := by decide
  have hmaximum : DEFAULT_MAXIMUM_BUFFER_SIZE = 536870912 := by decide
  unfold SimpleBuffer.HasRoom
  omega

namespace SocketChatImpl

variable {s : SocketChatImpl}

/-- **With room to spare `sendText` queues the whole text.** -/
theorem sendText_of_spare (h : s.mTransmitBuffer.Valid)
    (hcap : s.mTransmitBuffer.mMaxGrowSize = DEFAULT_MAXIMUM_BUFFER_SIZE)
    {text : CString}
    (hspare : s.mTransmitBuffer.getSize + 3 * (text.val.length + 2) ≤
      spareLimit) :
    (s.sendText (some text)).2 = [.queued text true true] := by
  have hlimit : spareLimit = 268435456 := by decide
  have hlen : toU32 (textOf (some text)).val.length = text.val.length :=
    toU32_of_lt (show text.val.length < 4294967296 by omega)
  have hroom : s.mTransmitBuffer.HasRoom text.val.length :=
    hasRoom_of_spare h hcap (by omega)
  have hfits : text.val.length < 4294967296 := by omega
  obtain ⟨-, hvalid, hdata, hcap', hext⟩ :=
    SimpleBuffer.addBuffer_of_hasRoom h hfits (Nat.le_refl text.val.length)
      hroom
  have hsize := congrArg List.length hdata
  rw [List.length_append, List.take_length, SimpleBuffer.length_getData,
    SimpleBuffer.length_getData] at hsize
  have hdelim := hasRoom_of_spare hvalid (hcap'.trans hcap) (n := 2) (by omega)
  rw [SimpleBuffer.hasRoom_iff, hext, hcap'] at hdelim
  refine sendText_succeeds h (some text) (by rw [hlen]; exact hroom) ?_
  rw [hlen]
  exact hdelim

/-! ## Polls that send nothing -/

/-- There is no callback, or it calls nothing on the connection. -/
def Quiet (callback : Option Callback) : Prop :=
  ∀ f, callback = some f → ∀ past, f past = []

theorem quiet_none : Quiet none := fun _ h => by cases h

theorem quiet_listener : Quiet (some fun _ => []) := by
  intro f hf past
  rw [← Option.some.inj hf]

end SocketChatImpl

def Event.isQueued : Event → Bool
  | .queued _ _ _ => true
  | _ => false

/-- Nothing is given to `sendText`. -/
def Silent (es : List Event) : Prop := ∀ e ∈ es, e.isQueued = false

theorem Silent.append {es es' : List Event} (h : Silent es) (h' : Silent es') :
    Silent (es ++ es') := fun e he =>
  (List.mem_append.mp he).elim (h e) (h' e)

theorem Silent.texts_eq {es : List Event} (h : Silent es) : texts es = [] := by
  rw [texts, List.flatMap_eq_nil_iff]
  intro e he
  have hkind := h e he
  cases e <;> first | rfl | cases hkind

theorem Silent.placed_eq {es : List Event} (h : Silent es) :
    placed es = [] := by
  rw [placed, List.flatMap_eq_nil_iff]
  intro e he
  have hkind := h e he
  cases e <;> first | rfl | cases hkind

theorem Silent.noneFailed {es : List Event} (h : Silent es) :
    NoneFailed es := by
  intro e he
  have hkind := h e he
  cases e <;> first | rfl | cases hkind

namespace SocketChatImpl

variable {s : SocketChatImpl}

theorem receiveLoop_silent (s : SocketChatImpl) (answers : List Received) :
    Silent (s.receiveLoop answers).2 := by
  intro e he
  have hkind := s.receiveLoop_events answers e he
  cases e <;> first | rfl | cases hkind

theorem transmitLoop_silent (s : SocketChatImpl) (answers : List Sent) :
    Silent (s.transmitLoop answers).2 := by
  intro e he
  have hkind := s.transmitLoop_events answers e he
  cases e <;> first | rfl | cases hkind

theorem finishClosing_silent (s : SocketChatImpl) :
    Silent s.finishClosing.2 := by
  unfold finishClosing
  split
  · intro e he
    rcases List.mem_pair.mp he with rfl | rfl <;> rfl
  · exact fun e he => by cases he

theorem dispatchLoop_silent {callback : Callback}
    (hquiet : ∀ past, callback past = []) (fuel : ℕ) :
    ∀ {s : SocketChatImpl} (past : List CString), s.mReceiveBuffer.Valid →
    Silent (s.dispatchLoop callback past fuel).2 := by
  induction fuel with
  | zero => exact fun _ _ e he => by cases he
  | succ fuel ih =>
      intro s past h
      rw [dispatchLoop]
      rcases dispatchPass_spec h callback past with
        ⟨hnone, -⟩ | ⟨seg, b, hb, -, -, hsome⟩
      · rw [hnone]
        exact fun e he => by cases he
      · rw [hsome, hquiet]
        refine Silent.append (fun e he => ?_) (ih _ hb)
        rw [List.mem_singleton.mp he]
        rfl

theorem dispatch_silent (h : s.mReceiveBuffer.Valid)
    {callback : Option Callback} (hquiet : Quiet callback) :
    Silent (s.dispatch callback).2 := by
  cases callback with
  | none => exact fun e he => by cases he
  | some f => exact dispatchLoop_silent (hquiet f rfl) _ [] h

/-- **A poll whose callback calls nothing** gives nothing to `sendText`. -/
theorem poll_silent (h : s.mReceiveBuffer.Valid) {callback : Option Callback}
    (hquiet : Quiet callback) (timeout : ℤ) (io : Answers) :
    Silent (s.poll callback timeout io).2 := by
  have hreceive := s.receiveLoop_silent io.recvs
  rcases poll_cases s callback timeout io with
    ⟨-, heq⟩ | ⟨-, -, heq⟩ | ⟨-, -, heq⟩ | ⟨t, es, -, hread, -, -, heq⟩ |
    ⟨t, es, u, es', hlive, hread, hopen, hsend, hopen', heq⟩
  · rw [heq]
    exact fun e he => by cases he
  · rw [heq]
    intro e he
    dsimp only at he
    split at he
    · rw [List.mem_singleton.mp he]
      rfl
    · cases he
  · rw [heq]
    exact hreceive
  · rw [heq]
    rw [hread] at hreceive
    exact hreceive.append (t.transmitLoop_silent io.sends)
  · have htransmit := t.transmitLoop_silent io.sends
    obtain ⟨hlive', hemits⟩ := loops_emit h hlive hread hopen hsend
    have hvalid := activity_valid hemits h
    rw [← u.finishClosing_receiveBuffer] at hvalid
    rw [hread] at hreceive
    rw [hsend] at htransmit
    rw [heq]
    exact hreceive.append (htransmit.append
      (u.finishClosing_silent.append (dispatch_silent hvalid hquiet)))

/-! ## Polls that the transport does not fail -/

theorem not_fails (h : s.mReceiveBuffer.Valid)
    (hwords : Words s.mTransmitBuffer) (hlive : s.Live)
    (callback : Option Callback) (timeout : ℤ) (io : Answers)
    (hbroken : broken (s.poll callback timeout io).2 = false) :
    s.transportFails io = false := by
  by_contra hyes
  rw [Bool.not_eq_false] at hyes
  obtain ⟨-, htrue, -⟩ := poll_of_fails h hwords hlive callback timeout io hyes
  rw [hbroken] at htrue
  exact absurd htrue (by decide)

theorem dispatchLoop_ready {callback : Callback}
    (hquiet : ∀ past, callback past = []) (fuel : ℕ) :
    ∀ {s : SocketChatImpl} (past : List CString), s.mReceiveBuffer.Valid →
    (s.dispatchLoop callback past fuel).1.mReadyState = s.mReadyState := by
  induction fuel with
  | zero => exact fun _ _ => rfl
  | succ fuel ih =>
      intro s past h
      rw [dispatchLoop]
      rcases dispatchPass_spec h callback past with
        ⟨hnone, -⟩ | ⟨seg, b, hb, -, -, hsome⟩
      · rw [hnone]
      · rw [hsome, hquiet]
        exact ih _ hb

/-- A poll that the transport does not fail leaves an open connection open if
its callback does not close it. -/
theorem poll_open (h : s.mReceiveBuffer.Valid)
    (hwords : Words s.mTransmitBuffer) (hopen : s.mReadyState = .OPEN)
    {callback : Callback} (hquiet : ∀ past, callback past = []) (timeout : ℤ)
    (io : Answers)
    (hbroken : broken (s.poll (some callback) timeout io).2 = false) :
    (s.poll (some callback) timeout io).1.mReadyState = .OPEN := by
  by_cases hsocket : s.mSocket = none
  · have hpoll : s.poll (some callback) timeout io = (s, []) := by
      simp [poll, hsocket]
    rw [hpoll]
    exact hopen
  have hlive : s.Live := ⟨hsocket, by simp [hopen]⟩
  have hfails := not_fails h hwords hlive (some callback) timeout io hbroken
  obtain ⟨u, es, hemits, -, hready, -, -, -, heq⟩ :=
    poll_of_not_fails h hwords hlive (some callback) timeout io hfails
  have hstay : u.finishClosing = (u, []) := by
    rw [finishClosing, if_neg]
    rintro ⟨-, hclosing⟩
    rw [hready, hopen] at hclosing
    cases hclosing
  rw [heq, hstay]
  exact (dispatchLoop_ready hquiet _ [] (activity_valid hemits h)).trans
    (hready.trans hopen)

end SocketChatImpl

/-! ## What keeps a trace whole -/

theorem whole_nil : Whole [] where
  free _ htext := by cases htext
  short _ htext := by cases htext
  queued _ he := by cases he

variable {tr es : List Event}

theorem Whole.silent (h : Whole tr) (hes : Silent es) : Whole (tr ++ es) where
  free := by
    rw [texts_append, hes.texts_eq, List.append_nil]
    exact h.free
  short := by
    rw [texts_append, hes.texts_eq, List.append_nil]
    exact h.short
  queued e he := (List.mem_append.mp he).elim (h.queued e) (hes.noneFailed e)

theorem Whole.queue (h : Whole tr) {text : CString} (hfree : Free text.val)
    (hshort : text.val.length < shortLimit) :
    Whole (tr ++ [.queued text true true]) := by
  have htexts : texts (tr ++ [.queued text true true]) = texts tr ++ [text] :=
    texts_append ..
  refine ⟨fun u hu => ?_, fun u hu => ?_, fun e he => ?_⟩
  · rw [htexts] at hu
    rcases List.mem_append.mp hu with hu | hu
    · exact h.free u hu
    · rw [List.mem_singleton.mp hu]
      exact hfree
  · rw [htexts] at hu
    rcases List.mem_append.mp hu with hu | hu
    · exact h.short u hu
    · rw [List.mem_singleton.mp hu]
      exact hshort
  · rcases List.mem_append.mp he with he | he
    · exact h.queued e he
    · rw [List.mem_singleton.mp he]
      rfl

namespace SocketChatImpl

theorem close_silent (s : SocketChatImpl) : Silent s.close.2 := by
  unfold close
  split
  · exact fun e he => by cases he
  · intro e he
    rw [List.mem_singleton.mp he]
    rfl

end SocketChatImpl

section Sessions

variable {socket : Option ℕ} {t : Session}

/-- What a session that is whole so far has in its transmit buffer. -/
theorem Whole.outbound (h : Whole t.trace)
    (ht : (session socket).Reachable t) :
    t.chat.mTransmitBuffer.Valid ∧
    t.chat.mTransmitBuffer.mMaxGrowSize = DEFAULT_MAXIMUM_BUFFER_SIZE ∧
    placed t.trace = accepted t.trace ++ t.chat.mTransmitBuffer.getData :=
  session_outbound ht (session_intact ht h.short)

/-- **A text that finds room to spare is queued whole.** -/
theorem Whole.sendText (h : Whole t.trace)
    (ht : (session socket).Reachable t) {text : CString}
    (hfree : Free text.val)
    (hspare : t.chat.mTransmitBuffer.getSize + 3 * (text.val.length + 2) ≤
      spareLimit) :
    (t.chat.sendText (some text)).2 = [.queued text true true] ∧
    Whole (t.call (.sendText (some text))).trace := by
  obtain ⟨hvalid, hcap, -⟩ := h.outbound ht
  have hqueued := SocketChatImpl.sendText_of_spare hvalid hcap hspare
  have hlimit : spareLimit = 268435456 := by decide
  refine ⟨hqueued, ?_⟩
  show Whole (t.trace ++ (t.chat.sendText (some text)).2)
  rw [hqueued]
  refine h.queue hfree ?_
  unfold shortLimit
  omega

/-- A quiet poll does not lengthen the transmit buffer. -/
theorem Whole.poll_getSize (h : Whole t.trace)
    (ht : (session socket).Reachable t) {callback : Option Callback}
    (hquiet : SocketChatImpl.Quiet callback) (timeout : ℤ) (io : Answers) :
    (t.chat.poll callback timeout io).1.mTransmitBuffer.getSize ≤
      t.chat.mTransmitBuffer.getSize := by
  have hsilent := SocketChatImpl.poll_silent (session_inbound ht).1 hquiet
    timeout io
  have ht' : (session socket).Reachable
      (t.call (.poll callback timeout io)) := ht.step rfl
  obtain ⟨-, -, hplaced⟩ := h.outbound ht
  obtain ⟨-, -, hplaced'⟩ := Whole.outbound (h.silent hsilent) ht'
  have hsame : placed (t.trace ++ (t.chat.poll callback timeout io).2) =
      placed t.trace := by
    rw [placed_append, hsilent.placed_eq, List.append_nil]
  have hlen := congrArg List.length
    (hplaced'.symm.trans (hsame.trans hplaced))
  have haccepted : accepted (t.call (.poll callback timeout io)).trace =
      accepted t.trace ++ accepted (t.chat.poll callback timeout io).2 :=
    accepted_append ..
  rw [haccepted] at hlen
  simp only [List.length_append, SimpleBuffer.length_getData] at hlen
  show (t.call (.poll callback timeout io)).chat.mTransmitBuffer.getSize ≤ _
  omega

end Sessions

end Socketchat.Chat
