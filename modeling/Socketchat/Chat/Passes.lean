import Socketchat.Chat.Polled

/-!
# How much one poll does

A pass that goes on has received or sent something, and then one byte more is
in the receive buffer, or one byte fewer in the transmit buffer. A message
passed on takes its two delimiter bytes out of the receive buffer. So what a
`poll` does is bounded by what the buffers hold and may hold.
-/

namespace Socketchat.Chat

open Foundation Buffer

/-- A `receive` that returned bytes. -/
def Event.isReceived : Event → Bool
  | .received _ => true
  | _ => false

/-- A `send` that accepted bytes. -/
def Event.isSent : Event → Bool
  | .sent _ => true
  | _ => false

/-- An event of another kind does not occur. -/
theorem countP_eq_zero_of_kind {p kind : Event → Bool} {trace : List Event}
    (h : ∀ e ∈ trace, kind e = true)
    (hother : ∀ e, kind e = true → p e = false) : trace.countP p = 0 := by
  rw [List.countP_eq_zero]
  intro e he
  simp [hother e (h e he)]

namespace SocketChatImpl

variable {s : SocketChatImpl}

/-! ## The receive loop -/

/-- A pass of the receive loop goes on where bytes have been received. -/
theorem receivePass_counts (h : s.mReceiveBuffer.Valid) (answer : Received) :
    (s.receivePass answer).2.1.mReceiveBuffer.Valid ∧
    (s.receivePass answer).2.1.mReceiveBuffer.mMaxGrowSize =
      s.mReceiveBuffer.mMaxGrowSize ∧
    (s.receivePass answer).2.2.countP Event.isReceived =
      (s.receivePass answer).1.toNat ∧
    s.mReceiveBuffer.getSize + (s.receivePass answer).1.toNat ≤
      (s.receivePass answer).2.1.mReceiveBuffer.getSize := by
  rcases SimpleBuffer.confirmCapacity_spec h
      (c := DEFAULT_MAX_READ_SIZE) (by decide) with
    ⟨b, hconf, hvalid, hdata, hcap, hspace, -⟩ | ⟨hconf, -⟩
  · have hsame : b.getSize = s.mReceiveBuffer.getSize := by
      rw [← SimpleBuffer.length_getData, hdata, SimpleBuffer.length_getData]
    cases answer with
    | refused r =>
        simp only [receivePass, hconf]
        cases r.transient with
        | true => exact ⟨hvalid, hcap, rfl, Nat.le_of_eq hsame.symm⟩
        | false => exact ⟨hvalid, hcap, rfl, Nat.le_of_eq hsame.symm⟩
    | bytes x xs =>
        have hmax : 0 < DEFAULT_MAX_READ_SIZE := by decide
        have hone : 1 ≤ ((x :: xs).take DEFAULT_MAX_READ_SIZE).length := by
          rw [List.length_take, List.length_cons]
          omega
        have hfit : ((x :: xs).take DEFAULT_MAX_READ_SIZE).length ≤
            b.mMaxLen - b.mEndLoc := by
          rw [List.length_take]
          omega
        obtain ⟨-, hvalid', hdata', hcap'⟩ :=
          SimpleBuffer.store_commit_spec hvalid hfit
        have hlen := congrArg List.length hdata'
        rw [List.length_append, SimpleBuffer.length_getData,
          SimpleBuffer.length_getData] at hlen
        simp only [receivePass, hconf]
        refine ⟨hvalid', hcap'.trans hcap, rfl, ?_⟩
        rw [hlen, hsame]
        exact Nat.add_le_add_left hone _
  · have hfull : s.receivePass answer = (false, s, []) := by
      simp only [receivePass, hconf]
    rw [hfull]
    exact ⟨h, rfl, rfl, Nat.le_refl _⟩

theorem receiveLoop_counts (answers : List Received) :
    ∀ {s : SocketChatImpl}, s.mReceiveBuffer.Valid →
    (s.receiveLoop answers).2.countP Event.isReceived +
      s.mReceiveBuffer.getSize ≤ s.mReceiveBuffer.mMaxGrowSize := by
  -- a last pass receives within the cap, too
  have hlast : ∀ {s : SocketChatImpl}, s.mReceiveBuffer.Valid →
      ∀ answer, (s.receivePass answer).2.2.countP Event.isReceived +
        s.mReceiveBuffer.getSize ≤ s.mReceiveBuffer.mMaxGrowSize := by
    intro s h answer
    obtain ⟨hvalid, hcap, hcount, hgrows⟩ := receivePass_counts h answer
    have hsize := hvalid.getSize_le
    have hmax := hvalid.max_le
    omega
  induction answers with
  | nil => exact fun h => hlast h _
  | cons answer answers ih =>
      intro s h
      rw [receiveLoop]
      cases hgo : (s.receivePass answer).1 with
      | false => exact hlast h answer
      | true =>
          obtain ⟨hvalid, hcap, hcount, hgrows⟩ := receivePass_counts h answer
          have hrest := ih hvalid
          simp only [if_true, List.countP_append]
          omega

theorem receiveLoop_sends_nothing (s : SocketChatImpl)
    (answers : List Received) :
    (s.receiveLoop answers).2.countP Event.isSent = 0 :=
  countP_eq_zero_of_kind (s.receiveLoop_events answers)
    (fun e he => by cases e <;> trivial)

/-! ## The transmit loop -/

/-- A pass of the transmit loop goes on where bytes have been accepted. -/
theorem transmitPass_counts (h : Words s.mTransmitBuffer) (answer : Sent) :
    Words (s.transmitPass answer).2.1.mTransmitBuffer ∧
    (s.transmitPass answer).2.2.countP Event.isSent =
      (s.transmitPass answer).1.toNat ∧
    (s.transmitPass answer).2.1.mTransmitBuffer.getSize +
      (s.transmitPass answer).1.toNat ≤ s.mTransmitBuffer.getSize := by
  by_cases hsize : s.mTransmitBuffer.getSize = 0
  · rw [transmitPass_done hsize]
    exact ⟨h, rfl, Nat.le_refl _⟩
  · cases answer with
    | refused r =>
        rw [transmitPass_refused hsize]
        cases r.transient with
        | true => exact ⟨h, rfl, Nat.le_refl _⟩
        | false => exact ⟨h, rfl, Nat.le_refl _⟩
    | room k =>
        obtain ⟨b, bytes, hwords, hleft, -, hpass⟩ :=
          transmitPass_room h hsize k
        rw [hpass]
        refine ⟨hwords, rfl, ?_⟩
        rw [Bool.toNat_true]
        dsimp only
        omega

theorem transmitLoop_counts (answers : List Sent) :
    ∀ {s : SocketChatImpl}, Words s.mTransmitBuffer →
    (s.transmitLoop answers).2.countP Event.isSent ≤
      s.mTransmitBuffer.getSize := by
  have hlast : ∀ {s : SocketChatImpl}, Words s.mTransmitBuffer →
      ∀ answer, (s.transmitPass answer).2.2.countP Event.isSent ≤
        s.mTransmitBuffer.getSize := by
    intro s h answer
    obtain ⟨-, hcount, hless⟩ := transmitPass_counts h answer
    omega
  induction answers with
  | nil => exact fun h => hlast h _
  | cons answer answers ih =>
      intro s h
      rw [transmitLoop]
      cases hgo : (s.transmitPass answer).1 with
      | false => exact hlast h answer
      | true =>
          obtain ⟨hwords, hcount, hless⟩ := transmitPass_counts h answer
          rw [hgo, Bool.toNat_true] at hcount hless
          have hrest := ih hwords
          simp only [if_true, List.countP_append]
          omega

theorem transmitLoop_receives_nothing (s : SocketChatImpl)
    (answers : List Sent) :
    (s.transmitLoop answers).2.countP Event.isReceived = 0 :=
  countP_eq_zero_of_kind (s.transmitLoop_events answers)
    (fun e he => by cases e <;> trivial)

/-! ## The end of a poll -/

theorem finishClosing_counts (s : SocketChatImpl) :
    s.finishClosing.2.countP Event.isReceived = 0 ∧
    s.finishClosing.2.countP Event.isSent = 0 := by
  unfold finishClosing
  split
  · exact ⟨rfl, rfl⟩
  · exact ⟨rfl, rfl⟩

theorem dispatch_counts (h : s.mReceiveBuffer.Valid)
    (callback : Option Callback) :
    (s.dispatch callback).2.countP Event.isReceived = 0 ∧
    (s.dispatch callback).2.countP Event.isSent = 0 := by
  have hevents := dispatch_events h callback
  constructor
  · exact countP_eq_zero_of_kind hevents (fun e he => by cases e <;> trivial)
  · exact countP_eq_zero_of_kind hevents (fun e he => by cases e <;> trivial)

/-- A message leaves the receive buffer with its delimiter. -/
theorem deliveries_le {t : SocketChatImpl} {events : List Event}
    (h : activity.Emits s events t) :
    2 * (messages events).length + t.mReceiveBuffer.getSize ≤
      s.mReceiveBuffer.getSize + (received events).length := by
  have hstep : ∀ (u : SocketChatImpl) (es : List Event) (v : SocketChatImpl)
      (tr : List Event), activity.step u es v →
      2 * (messages tr).length + u.mReceiveBuffer.getData.length ≤
        s.mReceiveBuffer.getSize + (received tr).length →
      2 * (messages (tr ++ es)).length + v.mReceiveBuffer.getData.length ≤
        s.mReceiveBuffer.getSize + (received (tr ++ es)).length := by
    intro u es v tr hact hu
    rw [messages_append, received_append, List.length_append,
      List.length_append]
    cases hact with
    | move b _ hdata =>
        dsimp only
        rw [hdata]
        exact hu
    | receive b bytes _ _ hdata =>
        have hbytes : received [.received bytes] = bytes := List.append_nil _
        dsimp only
        rw [hdata, hbytes, List.length_append]
        show 2 * ((messages tr).length + 0) + _ ≤ _
        omega
    | deliver b seg _ _ hcut =>
        rw [hcut, List.length_append, List.length_cons, List.length_cons] at hu
        -- one message more, and its two delimiter bytes fewer
        show 2 * ((messages tr).length + 1) + b.getData.length ≤
          _ + ((received tr).length + 0)
        omega
    | _ => exact hu
  have hall := System.Emits.preserves (I := fun u tr =>
    2 * (messages tr).length + u.mReceiveBuffer.getData.length ≤
      s.mReceiveBuffer.getSize + (received tr).length) hstep h []
  rw [List.nil_append] at hall
  simp only [SimpleBuffer.length_getData] at hall
  exact hall (Nat.le_of_eq (Nat.zero_add _))

/-! ## The whole poll -/

/-- **What a poll does is bounded**: it receives no more often than the receive
buffer may still grow, and sends no more often than bytes are pending. -/
theorem poll_counts (h : s.mReceiveBuffer.Valid)
    (hwords : Words s.mTransmitBuffer) (callback : Option Callback)
    (timeout : ℤ) (io : Answers) :
    (s.poll callback timeout io).2.countP Event.isReceived +
      s.mReceiveBuffer.getSize ≤ s.mReceiveBuffer.mMaxGrowSize ∧
    (s.poll callback timeout io).2.countP Event.isSent ≤
      s.mTransmitBuffer.getSize := by
  have hfits : s.mReceiveBuffer.getSize ≤ s.mReceiveBuffer.mMaxGrowSize :=
    Nat.le_trans h.getSize_le h.max_le
  have hreceived := receiveLoop_counts io.recvs h
  have hsent₀ := s.receiveLoop_sends_nothing io.recvs
  have htx := (receiveLoop_spec io.recvs h).2.2.2.2
  rcases poll_cases s callback timeout io with
    ⟨-, heq⟩ | ⟨-, -, heq⟩ | ⟨-, -, heq⟩ |
    ⟨t, es, -, hread, -, -, heq⟩ |
    ⟨t, es, u, es', hlive, hread, hopen, hsend, hopen', heq⟩
  · rw [heq]
    exact ⟨(Nat.zero_add _).symm ▸ hfits, Nat.zero_le _⟩
  · rw [heq]
    dsimp only
    split
    · exact ⟨(Nat.zero_add _).symm ▸ hfits, Nat.zero_le _⟩
    · exact ⟨(Nat.zero_add _).symm ▸ hfits, Nat.zero_le _⟩
  · -- the receive loop has closed the socket
    rw [heq, hsent₀]
    exact ⟨hreceived, Nat.zero_le _⟩
  · rw [hread] at hreceived hsent₀ htx
    have hsent := transmitLoop_counts io.sends (s := t) (htx.symm ▸ hwords)
    have hreceived₀ := t.transmitLoop_receives_nothing io.sends
    rw [show t.mTransmitBuffer = s.mTransmitBuffer from htx] at hsent
    rw [heq]
    simp only [List.countP_append]
    dsimp only at hreceived hsent₀
    omega
  · -- closing and dispatching neither receive nor send
    have hloops := (loops_emit h hlive hread hopen hsend).2
    have hvalid : u.finishClosing.1.mReceiveBuffer.Valid := by
      rw [finishClosing_receiveBuffer]
      exact activity_valid hloops h
    obtain ⟨hreceived₁, hsent₁⟩ := u.finishClosing_counts
    obtain ⟨hreceived₂, hsent₂⟩ := dispatch_counts hvalid callback
    rw [hread] at hreceived hsent₀ htx
    have hsent := transmitLoop_counts io.sends (s := t) (htx.symm ▸ hwords)
    have hreceived₀ := t.transmitLoop_receives_nothing io.sends
    rw [show t.mTransmitBuffer = s.mTransmitBuffer from htx] at hsent
    rw [hsend] at hsent hreceived₀
    rw [heq]
    simp only [List.countP_append]
    dsimp only at hreceived hsent₀ hsent hreceived₀
    omega

end SocketChatImpl

end Socketchat.Chat
