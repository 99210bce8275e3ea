import Socketchat.Shared.Integrity

/-!
# Polls over shared memory are polls

The parts between the accesses add up: once a side has returned from `poll`,
what it has done is `SocketChatImpl.poll` with the answers it has got, whatever
the other process did meanwhile. Inside a `poll` the loops go on as they would
have gone on after these answers (`Receiving`, `Transmitting`).
-/

namespace Socketchat.Shared

open Foundation Buffer Chat Spsc Sockets SocketChatImpl

/-- With these answers the receive loop gets from `t₀` to `t`, and then it goes
on. -/
def Receiving (t₀ : Session) (recvs : List Received) (t : Session) : Prop :=
  ∃ es, t.trace = t₀.trace ++ es ∧ ∀ more,
    t₀.chat.receiveLoop (recvs ++ more) =
      ((t.chat.receiveLoop more).1, es ++ (t.chat.receiveLoop more).2)

/-- With these answers the receive loop that begins in `t₀` ends in `t`. -/
def HasReceived (t₀ : Session) (recvs : List Received) (t : Session) : Prop :=
  ∃ es, t.trace = t₀.trace ++ es ∧ t₀.chat.receiveLoop recvs = (t.chat, es)

/-- With these answers the transmit loop gets from `t₁` to `t`, and then it
goes on. -/
def Transmitting (t₁ : Session) (sends : List Sent) (t : Session) : Prop :=
  ∃ es, t.trace = t₁.trace ++ es ∧ ∀ more,
    t₁.chat.transmitLoop (sends ++ more) =
      ((t.chat.transmitLoop more).1, es ++ (t.chat.transmitLoop more).2)

/-- With these answers the transmit loop that begins in `t₁` ends in `t`. -/
def HasSent (t₁ : Session) (sends : List Sent) (t : Session) : Prop :=
  ∃ es, t.trace = t₁.trace ++ es ∧ t₁.chat.transmitLoop sends = (t.chat, es)

section Loops

variable {t₀ t₁ t : Session} {recvs : List Received} {sends : List Sent}

theorem Receiving.refl (t : Session) : Receiving t [] t :=
  ⟨[], (List.append_nil _).symm, fun _ => rfl⟩

theorem Transmitting.refl (t : Session) : Transmitting t [] t :=
  ⟨[], (List.append_nil _).symm, fun _ => rfl⟩

/-- A pass after which the receive loop goes on. -/
theorem Receiving.pass (h : Receiving t₀ recvs t) {answer : Received}
    {s : SocketChatImpl} {es : List Event}
    (hpass : t.chat.receivePass answer = (true, s, es)) :
    Receiving t₀ (recvs ++ [answer]) ⟨s, t.trace ++ es⟩ := by
  obtain ⟨es₀, htrace, hloop⟩ := h
  refine ⟨es₀ ++ es, ?_, fun more => ?_⟩
  · show t.trace ++ es = _
    rw [htrace, List.append_assoc]
  · rw [List.append_assoc, hloop, List.singleton_append, receiveLoop, hpass,
      List.append_assoc]
    rfl

/-- A pass with which it ends. -/
theorem Receiving.last (h : Receiving t₀ recvs t) {answer : Received}
    {s : SocketChatImpl} {es : List Event}
    (hpass : t.chat.receivePass answer = (false, s, es)) :
    HasReceived t₀ (recvs ++ [answer]) ⟨s, t.trace ++ es⟩ := by
  obtain ⟨es₀, htrace, hloop⟩ := h
  refine ⟨es₀ ++ es, ?_, ?_⟩
  · show t.trace ++ es = _
    rw [htrace, List.append_assoc]
  · rw [hloop, receiveLoop, hpass]
    rfl

/-- It also ends where there is no room to read into, whatever else there
is. -/
theorem Receiving.full (h : Receiving t₀ recvs t) {b : SimpleBuffer}
    (hconf : t.chat.mReceiveBuffer.confirmCapacity DEFAULT_MAX_READ_SIZE =
      (none, b)) (more : List Received) :
    HasReceived t₀ (recvs ++ more)
      ⟨{ t.chat with mReceiveBuffer := b }, t.trace⟩ := by
  obtain ⟨es₀, htrace, hloop⟩ := h
  have hend : t.chat.receiveLoop more =
      ({ t.chat with mReceiveBuffer := b }, []) := by
    have hpass : ∀ answer, t.chat.receivePass answer =
        (false, { t.chat with mReceiveBuffer := b }, []) := by
      intro answer
      rw [receivePass, hconf]
    cases more with
    | nil => rw [receiveLoop, hpass]
    | cons answer more =>
        rw [receiveLoop, hpass]
        rfl
  refine ⟨es₀, htrace, ?_⟩
  rw [hloop, hend, List.append_nil]

theorem Transmitting.pass (h : Transmitting t₁ sends t) {answer : Sent}
    {s : SocketChatImpl} {es : List Event}
    (hpass : t.chat.transmitPass answer = (true, s, es)) :
    Transmitting t₁ (sends ++ [answer]) ⟨s, t.trace ++ es⟩ := by
  obtain ⟨es₁, htrace, hloop⟩ := h
  refine ⟨es₁ ++ es, ?_, fun more => ?_⟩
  · show t.trace ++ es = _
    rw [htrace, List.append_assoc]
  · rw [List.append_assoc, hloop, List.singleton_append, transmitLoop, hpass,
      List.append_assoc]
    rfl

theorem Transmitting.last (h : Transmitting t₁ sends t) {answer : Sent}
    {s : SocketChatImpl} {es : List Event}
    (hpass : t.chat.transmitPass answer = (false, s, es)) :
    HasSent t₁ (sends ++ [answer]) ⟨s, t.trace ++ es⟩ := by
  obtain ⟨es₁, htrace, hloop⟩ := h
  refine ⟨es₁ ++ es, ?_, ?_⟩
  · show t.trace ++ es = _
    rw [htrace, List.append_assoc]
  · rw [hloop, transmitLoop, hpass]
    rfl

/-- The transmit loop ends where nothing is pending. -/
theorem Transmitting.done (h : Transmitting t₁ sends t)
    (hsize : t.chat.mTransmitBuffer.getSize = 0) :
    HasSent t₁ sends t := by
  obtain ⟨es₁, htrace, hloop⟩ := h
  have hend : t.chat.transmitLoop [] = (t.chat, []) := by
    rw [transmitLoop, transmitPass, if_pos hsize]
  refine ⟨es₁, htrace, ?_⟩
  have hall := hloop []
  rw [hend, List.append_nil, List.append_nil] at hall
  exact hall

/-- Where the answers run out the loops go on with would-block. -/
theorem Receiving.waits (h : Receiving t₀ recvs t) {s : SocketChatImpl}
    {es : List Event}
    (hpass : t.chat.receivePass (.refused (.error true false)) =
      (false, s, es)) : HasReceived t₀ recvs ⟨s, t.trace ++ es⟩ := by
  obtain ⟨es₀, htrace, hloop⟩ := h
  have hall := hloop []
  rw [List.append_nil, receiveLoop, hpass] at hall
  refine ⟨es₀ ++ es, ?_, hall⟩
  show t.trace ++ es = _
  rw [htrace, List.append_assoc]

theorem Transmitting.waits (h : Transmitting t₁ sends t) {s : SocketChatImpl}
    {es : List Event}
    (hpass : t.chat.transmitPass (.refused (.error true false)) =
      (false, s, es)) : HasSent t₁ sends ⟨s, t.trace ++ es⟩ := by
  obtain ⟨es₁, htrace, hloop⟩ := h
  have hall := hloop []
  rw [List.append_nil, transmitLoop, hpass] at hall
  refine ⟨es₁ ++ es, ?_, hall⟩
  show t.trace ++ es = _
  rw [htrace, List.append_assoc]

end Loops

/-! ## Where a poll is -/

/-- A side that is not in a `poll` has only made whole calls; one that is in a
`poll` has got there from such a state with some answers. -/
def Endpoint.Polling (socket : ℕ) (e : Endpoint) : Prop :=
  match e.stage with
  | .idle => (Chat.session (some socket)).Reachable e.session
  | .receiving _ => ∃ t₀ recvs, (Chat.session (some socket)).Reachable t₀ ∧
      t₀.chat.Live ∧ Receiving t₀ recvs e.session ∧
      e.session.chat.mReadyState ≠ .CLOSED
  | .sending _ => ∃ t₀ recvs t₁ sends,
      (Chat.session (some socket)).Reachable t₀ ∧ t₀.chat.Live ∧
      HasReceived t₀ recvs t₁ ∧ t₁.chat.mReadyState ≠ .CLOSED ∧
      Transmitting t₁ sends e.session ∧ e.session.chat.mReadyState ≠ .CLOSED

/-! ## The ready state inside the loops -/

theorem receivePass_ready {s s' : SocketChatImpl} {answer : Received}
    {es : List Event} (h : s.receivePass answer = (true, s', es)) :
    s'.mReadyState = s.mReadyState := by
  unfold receivePass at h
  split at h
  · cases h
  · cases answer with
    | refused r =>
        dsimp only at h
        split at h <;> cases h
    | bytes x xs =>
        cases h
        rfl

theorem transmitPass_ready {s s' : SocketChatImpl} {answer : Sent}
    {es : List Event} (h : s.transmitPass answer = (true, s', es)) :
    s'.mReadyState = s.mReadyState := by
  unfold transmitPass at h
  split at h
  · cases h
  · cases answer with
    | refused r =>
        dsimp only at h
        split at h <;> cases h
    | room k =>
        cases h
        rfl

section Parts

variable {socket : ℕ} {t₀ t₁ t : Session} {recvs : List Received}
  {sends : List Sent} (ht₀ : (session (some socket)).Reachable t₀)

include ht₀

/-- What one `poll` has led to. -/
theorem reachable_of_poll (callback : Option Callback) (io : Answers)
    (es : List Event) (hpoll : t₀.chat.poll callback 0 io = (t.chat, es))
    (htrace : t.trace = t₀.trace ++ es) :
    (session (some socket)).Reachable t := by
  have hcall : t₀.call (.poll callback 0 io) = t := by
    show (⟨(t₀.chat.poll callback 0 io).1,
      t₀.trace ++ (t₀.chat.poll callback 0 io).2⟩ : Session) = t
    rw [hpoll, ← htrace]
  rw [← hcall]
  exact ht₀.step rfl

variable (hlive : t₀.chat.Live)

include hlive

omit ht₀ in
/-- **What has run to its end is the whole `poll`.** -/
theorem finish_eq (hreceived : HasReceived t₀ recvs t₁)
    (hopen₁ : t₁.chat.mReadyState ≠ .CLOSED) (hsent : HasSent t₁ sends t)
    (hopen : t.chat.mReadyState ≠ .CLOSED) (callback : Option Callback)
    (timeout : ℤ) : Endpoint.finish t callback =
      ⟨t₀.call (.poll callback timeout ⟨recvs, sends⟩), .idle⟩ := by
  obtain ⟨es₁, htrace₁, hloop₁⟩ := hreceived
  obtain ⟨es₂, htrace₂, hloop₂⟩ := hsent
  have hsocket : ¬ t₀.chat.mSocket.isNone = true :=
    fun h => hlive.socket (Option.isNone_iff_eq_none.mp h)
  have hpoll : t₀.chat.poll callback timeout ⟨recvs, sends⟩ =
      ((t.chat.finishClosing.1.dispatch callback).1,
        es₁ ++ (es₂ ++ (t.chat.finishClosing.2 ++
          (t.chat.finishClosing.1.dispatch callback).2))) := by
    simp only [SocketChatImpl.poll, if_neg hsocket, if_neg hlive.notClosed,
      hloop₁, if_neg hopen₁, hloop₂, if_neg hopen]
    cases callback <;> rfl
  rw [Session.call, SocketChatImpl.exec, hpoll, Endpoint.finish, htrace₂,
    htrace₁, List.append_assoc, List.append_assoc]

theorem finish_polling (hreceived : HasReceived t₀ recvs t₁)
    (hopen₁ : t₁.chat.mReadyState ≠ .CLOSED) (hsent : HasSent t₁ sends t)
    (hopen : t.chat.mReadyState ≠ .CLOSED) (callback : Option Callback) :
    (Endpoint.finish t callback).Polling socket := by
  rw [finish_eq hlive hreceived hopen₁ hsent hopen callback 0]
  exact System.Reachable.step ht₀ rfl

/-- The transmit loop has closed the socket. -/
theorem sent_closed_polling (hreceived : HasReceived t₀ recvs t₁)
    (hopen₁ : t₁.chat.mReadyState ≠ .CLOSED) (hsent : HasSent t₁ sends t)
    (hclosed : t.chat.mReadyState = .CLOSED) :
    Endpoint.Polling socket ⟨t, .idle⟩ := by
  obtain ⟨es₁, htrace₁, hloop₁⟩ := hreceived
  obtain ⟨es₂, htrace₂, hloop₂⟩ := hsent
  have hsocket : ¬ t₀.chat.mSocket.isNone = true :=
    fun h => hlive.socket (Option.isNone_iff_eq_none.mp h)
  refine reachable_of_poll ht₀ none ⟨recvs, sends⟩ (es₁ ++ es₂) ?_ ?_
  · simp only [SocketChatImpl.poll, if_neg hsocket, if_neg hlive.notClosed,
      hloop₁, if_neg hopen₁, hloop₂, if_pos hclosed]
  · rw [htrace₂, htrace₁, List.append_assoc]

/-- The receive loop has closed the socket. -/
theorem received_closed_polling (hreceived : HasReceived t₀ recvs t)
    (hclosed : t.chat.mReadyState = .CLOSED) :
    Endpoint.Polling socket ⟨t, .idle⟩ := by
  obtain ⟨es, htrace, hloop⟩ := hreceived
  have hsocket : ¬ t₀.chat.mSocket.isNone = true :=
    fun h => hlive.socket (Option.isNone_iff_eq_none.mp h)
  refine reachable_of_poll ht₀ none ⟨recvs, []⟩ es ?_ htrace
  simp only [SocketChatImpl.poll, if_neg hsocket, if_neg hlive.notClosed,
    hloop, if_pos hclosed]

theorem transmit_polling (hreceived : HasReceived t₀ recvs t₁)
    (hopen₁ : t₁.chat.mReadyState ≠ .CLOSED) (h : Transmitting t₁ sends t)
    (hopen : t.chat.mReadyState ≠ .CLOSED) (callback : Option Callback) :
    (Endpoint.transmit t callback).Polling socket := by
  unfold Endpoint.transmit
  by_cases hsize : t.chat.mTransmitBuffer.getSize = 0
  · rw [if_pos hsize]
    exact finish_polling ht₀ hlive hreceived hopen₁ (h.done hsize) hopen callback
  · rw [if_neg hsize]
    exact ⟨t₀, recvs, t₁, sends, ht₀, hlive, hreceived, hopen₁, h, hopen⟩

theorem receive_polling (h : Receiving t₀ recvs t)
    (hopen : t.chat.mReadyState ≠ .CLOSED) (callback : Option Callback) :
    (Endpoint.receive t callback).Polling socket := by
  unfold Endpoint.receive
  split
  · rename_i b hconf
    exact transmit_polling ht₀ hlive (h.full hconf []) hopen (.refl _) hopen
      callback
  · exact ⟨t₀, recvs, ht₀, hlive, h, hopen⟩

theorem received_polling (h : Receiving t₀ recvs t)
    (hopen : t.chat.mReadyState ≠ .CLOSED) (callback : Option Callback)
    (answer : Received) :
    (Endpoint.received t callback answer).Polling socket := by
  unfold Endpoint.received
  rcases hpass : t.chat.receivePass answer with ⟨go, s, es⟩
  dsimp only
  cases go with
  | true =>
      have hopen' : s.mReadyState ≠ .CLOSED := by
        rw [receivePass_ready hpass]
        exact hopen
      rw [if_pos rfl]
      exact receive_polling ht₀ hlive (h.pass hpass) hopen' callback
  | false =>
      rw [if_neg Bool.false_ne_true]
      by_cases hclosed : s.mReadyState = .CLOSED
      · rw [if_pos hclosed]
        exact received_closed_polling ht₀ hlive (h.last hpass) hclosed
      · rw [if_neg hclosed]
        exact transmit_polling ht₀ hlive (h.last hpass) hclosed (.refl _)
          hclosed callback

theorem sent_polling (hreceived : HasReceived t₀ recvs t₁)
    (hopen₁ : t₁.chat.mReadyState ≠ .CLOSED) (h : Transmitting t₁ sends t)
    (hopen : t.chat.mReadyState ≠ .CLOSED) (callback : Option Callback)
    (answer : Sent) : (Endpoint.sent t callback answer).Polling socket := by
  unfold Endpoint.sent
  rcases hpass : t.chat.transmitPass answer with ⟨go, s, es⟩
  dsimp only
  cases go with
  | true =>
      have hopen' : s.mReadyState ≠ .CLOSED := by
        rw [transmitPass_ready hpass]
        exact hopen
      rw [if_pos rfl]
      exact transmit_polling ht₀ hlive hreceived hopen₁ (h.pass hpass) hopen'
        callback
  | false =>
      rw [if_neg Bool.false_ne_true]
      by_cases hclosed : s.mReadyState = .CLOSED
      · rw [if_pos hclosed]
        exact sent_closed_polling ht₀ hlive hreceived hopen₁ (h.last hpass)
          hclosed
      · rw [if_neg hclosed]
        exact finish_polling ht₀ hlive hreceived hopen₁ (h.last hpass) hclosed
          callback

end Parts

/-- The call of `poll`. -/
theorem poll_polling {socket : ℕ} {t : Session}
    (ht : (session (some socket)).Reachable t) (callback : Option Callback)
    (timeout : ℤ) : (Endpoint.poll t callback timeout).Polling socket := by
  have hsocket : ¬ t.chat.mSocket.isNone = true := by
    rw [session_socket ht]
    exact Bool.false_ne_true
  unfold Endpoint.poll
  rw [if_neg hsocket]
  by_cases hclosed : t.chat.mReadyState = .CLOSED
  · rw [if_pos hclosed]
    have hpoll : t.chat.poll callback timeout ⟨[], []⟩ =
        (t.chat, if timeout > 0 then [.nullSelect timeout] else []) := by
      simp only [SocketChatImpl.poll, if_neg hsocket, if_pos hclosed]
    have hcall : t.call (.poll callback timeout ⟨[], []⟩) = ⟨t.chat,
        t.trace ++ if timeout > 0 then [.nullSelect timeout] else []⟩ := by
      show (⟨(t.chat.poll callback timeout ⟨[], []⟩).1,
        t.trace ++ (t.chat.poll callback timeout ⟨[], []⟩).2⟩ : Session) = _
      rw [hpoll]
    show (session (some socket)).Reachable _
    rw [← hcall]
    exact ht.step rfl
  · rw [if_neg hclosed]
    have hlive : t.chat.Live :=
      ⟨fun h => hsocket (Option.isNone_iff_eq_none.mpr h), hclosed⟩
    exact receive_polling ht hlive (.refl t) hclosed callback

/-! ## Every run -/

namespace SharedChat

variable {n n' : SharedChat} {i : Side}

theorem polling_enter (h : ∀ j, (n.ends j).Polling j.socket) {e : Endpoint}
    (he : e.Polling i.socket) : ∀ j, ((n.enter i e).ends j).Polling j.socket := by
  refine both i ?_ ?_
  · rw [enter_self]
    exact he
  · rw [enter_peer]
    exact h i.peer

end SharedChat

theorem sharedChat_polling : sharedChat.Invariant
    fun n => ∀ i, (n.ends i).Polling i.socket where
  init := by
    rintro n ⟨files, -, -, rfl⟩ i
    exact .of_init rfl
  step := by
    rintro n ⟨i, move⟩ n' - h hstep
    have hi := h i
    unfold Endpoint.Polling at hi
    cases SharedChat.next_goes hstep with
    | sendText str hstage =>
        rw [hstage] at hi
        have hcall : (session (some i.socket)).Reachable _ :=
          System.Reachable.step hi (k := .sendText str) rfl
        exact SharedChat.polling_enter h hcall
    | close hstage =>
        rw [hstage] at hi
        have hcall : (session (some i.socket)).Reachable _ :=
          System.Reachable.step hi (k := .close) rfl
        exact SharedChat.polling_enter h hcall
    | poll callback timeout hstage =>
        rw [hstage] at hi
        exact SharedChat.polling_enter h (poll_polling hi callback timeout)
    | read => exact h
    | write => exact h
    | received hstage hring hlast =>
        rw [hstage] at hi
        obtain ⟨t₀, recvs, ht₀, hlive, hreceiving, hopen⟩ := hi
        exact SharedChat.polling_enter (n := n.setRing i.peer _) h
          (received_polling ht₀ hlive hreceiving hopen _ _)
    | sent hstage hring hlast =>
        rw [hstage] at hi
        obtain ⟨t₀, recvs, t₁, sends, ht₀, hlive, hreceived, hopen₁, hsending,
          hopen⟩ := hi
        exact SharedChat.polling_enter (n := n.setRing i _) h
          (sent_polling ht₀ hlive hreceived hopen₁ hsending hopen _ _)

/-- Outside of every call a side is a session. -/
theorem session_of_idle {e : Endpoint} {socket : ℕ}
    (h : e.Polling socket) (hidle : e.stage = .idle) :
    (session (some socket)).Reachable e.session := by
  unfold Endpoint.Polling at h
  rw [hidle] at h
  exact h

/-- **Main result.** A side that is not in a `poll` has done what a sequence of
whole calls does, each `poll` with the answers it got: however the accesses of
the two processes interleave, no call is torn. -/
theorem shared_memory_polls_whole {n : SharedChat}
    (hn : sharedChat.Reachable n) {i : Side}
    (hidle : (n.ends i).stage = .idle) :
    (session (some i.socket)).Reachable (n.ends i).session := by
  exact session_of_idle (sharedChat_polling.holds hn i) hidle

/-- The server has polled while the client was in the middle of a `read`. -/
theorem shared_memory_polls_whole_torn : ∃ n, sharedChat.Reachable n ∧
    (n.ends .A).session.trace.length = 3 ∧
    (session (some 0)).Reachable (n.ends .A).session := by
  have hshape : (SharedChat.after ((.B, .poll none 0) :: (.B, .access) ::
      (.A, .sendText none) :: (.A, .poll none 0) ::
        accesses .A 7)).map (fun n =>
      (n.ends .A).stage.isIdle &&
        (n.ends .A).session.trace.length == 3) = some true := by
    decide +kernel
  obtain ⟨n, hn, hstate⟩ := Option.map_eq_some_iff.mp hshape
  rw [Bool.and_eq_true, beq_iff_eq] at hstate
  have hs := SharedChat.after_reachable hn
  exact ⟨n, hs, hstate.2,
    shared_memory_polls_whole hs (Stage.eq_idle hstate.1)⟩

end Socketchat.Shared
