import Socketchat.Buffer.Refinement
import Socketchat.Chat.Streams

/-!
# What the transport does to a poll

The answers of the transport decide, before anything is dispatched, which
bytes a `poll` reads (`incoming`) and whether it ends on a failure: the
receive loop reaches an answer that is a close or an error (`incoming` again),
or the transmit loop does before everything pending has been accepted
(`sendFails`).
-/

namespace Socketchat.Chat

open Foundation Buffer

/-- The answers that make `poll` close the socket at once. -/
def Event.breaks : Event → Bool
  | .receiveRefused r => !r.transient
  | .sendRefused r => !r.transient
  | _ => false

/-- The transport has reported a close or an error. -/
def broken (trace : List Event) : Bool := trace.any Event.breaks

@[simp] theorem broken_append (tr tr' : List Event) :
    broken (tr ++ tr') = (broken tr || broken tr') :=
  List.any_append

/-- The bytes these answers hand to a buffer with room for them, and whether a
close or an error is then reported. -/
def incoming (b : SimpleBuffer) : List Received → List UInt8 × Bool
  | [] => ([], false)
  | answer :: answers =>
      if b.HasRoom DEFAULT_MAX_READ_SIZE then
        match answer with
        | .refused r => ([], !r.transient)
        | .bytes x xs =>
            let bytes := (x :: xs).take DEFAULT_MAX_READ_SIZE
            let rest := incoming (b.exec (.fill DEFAULT_MAX_READ_SIZE bytes)).2
              answers
            (bytes ++ rest.1, rest.2)
      else
        ([], false)

/-- A close or an error is reported before `pending` bytes have been
accepted. -/
def sendFails : ℕ → List Sent → Bool
  | 0, _ => false
  | _ + 1, [] => false
  | _ + 1, .refused r :: _ => !r.transient
  | pending + 1, .room k :: answers => sendFails (pending - k) answers

namespace SocketChatImpl

variable {s : SocketChatImpl}

/-! ## Receiving -/

theorem receivePass_full (h : s.mReceiveBuffer.Valid)
    (hno : ¬ s.mReceiveBuffer.HasRoom DEFAULT_MAX_READ_SIZE)
    (answer : Received) : s.receivePass answer = (false, s, []) := by
  rcases SimpleBuffer.confirmCapacity_spec h
      (c := DEFAULT_MAX_READ_SIZE) (by decide) with
    ⟨b, -, -, -, -, -, hroom⟩ | ⟨hconf, -⟩
  · exact absurd hroom hno
  · simp only [receivePass, hconf]

/-- A refusal, once there is room: the data may have moved, and the socket is
closed unless the refusal is transient. -/
theorem receivePass_refused (h : s.mReceiveBuffer.Valid)
    (hroom : s.mReceiveBuffer.HasRoom DEFAULT_MAX_READ_SIZE) (r : Refusal) :
    ∃ b : SimpleBuffer, b.getData = s.mReceiveBuffer.getData ∧
      s.receivePass (.refused r) =
        (false, { s with
            mReceiveBuffer := b
            mReadyState := if r.transient then s.mReadyState else .CLOSED },
          .receiveRefused r ::
            if r.transient then [] else [.closeSocket, .ready .CLOSED]) := by
  rcases SimpleBuffer.confirmCapacity_spec h
      (c := DEFAULT_MAX_READ_SIZE) (by decide) with
    ⟨b, hconf, -, hdata, -, -, -⟩ | ⟨-, hzero⟩
  · refine ⟨b, hdata, ?_⟩
    simp only [receivePass, hconf]
    cases r.transient <;> rfl
  · exact absurd (hzero hroom) (by decide)

theorem receivePass_bytes (h : s.mReceiveBuffer.Valid)
    (hroom : s.mReceiveBuffer.HasRoom DEFAULT_MAX_READ_SIZE) (x : UInt8)
    (xs : List UInt8) :
    let bytes := (x :: xs).take DEFAULT_MAX_READ_SIZE
    let b := (s.mReceiveBuffer.exec (.fill DEFAULT_MAX_READ_SIZE bytes)).2
    b.Valid ∧ b.getData = s.mReceiveBuffer.getData ++ bytes ∧
    s.receivePass (.bytes x xs) =
      (true, { s with mReceiveBuffer := b }, [.received bytes]) := by
  intro bytes b
  rcases SimpleBuffer.confirmCapacity_spec h
      (c := DEFAULT_MAX_READ_SIZE) (by decide) with
    ⟨b', hconf, hvalid, hdata, -, hspace, -⟩ | ⟨-, hzero⟩
  · have hlen : bytes.length ≤ b'.mMaxLen - b'.mEndLoc := by
      rw [List.length_take]
      omega
    obtain ⟨-, hvalid', hdata', -⟩ :=
      SimpleBuffer.store_commit_spec hvalid hlen
    have hb : b = ((b'.store b'.mEndLoc bytes).addBuffer none
        bytes.length).2 := by
      simp only [b, SimpleBuffer.exec, hconf]
    rw [hb]
    refine ⟨hvalid', hdata'.trans (by rw [hdata]), ?_⟩
    simp only [receivePass, hconf, bytes]
  · exact absurd (hzero hroom) (by decide)

/-- **The receive loop** reads the incoming bytes, and closes the socket
exactly when they end in a close or an error. -/
theorem receiveLoop_spec (answers : List Received) :
    ∀ {s : SocketChatImpl}, s.mReceiveBuffer.Valid →
    (s.receiveLoop answers).1.mReadyState =
      (if (incoming s.mReceiveBuffer answers).2 then .CLOSED
        else s.mReadyState) ∧
    broken (s.receiveLoop answers).2 =
      (incoming s.mReceiveBuffer answers).2 ∧
    received (s.receiveLoop answers).2 =
      (incoming s.mReceiveBuffer answers).1 ∧
    (s.receiveLoop answers).1.mReceiveBuffer.getData =
      s.mReceiveBuffer.getData ++ (incoming s.mReceiveBuffer answers).1 ∧
    (s.receiveLoop answers).1.mTransmitBuffer = s.mTransmitBuffer := by
  induction answers with
  | nil =>
      intro s h
      rw [receiveLoop, incoming]
      by_cases hroom : s.mReceiveBuffer.HasRoom DEFAULT_MAX_READ_SIZE
      · obtain ⟨b, hdata, heq⟩ :=
          receivePass_refused h hroom (.error true false)
        rw [heq]
        exact ⟨rfl, rfl, rfl, hdata.trans (List.append_nil _).symm, rfl⟩
      · rw [receivePass_full h hroom]
        exact ⟨rfl, rfl, rfl, (List.append_nil _).symm, rfl⟩
  | cons answer answers ih =>
      intro s h
      by_cases hroom : s.mReceiveBuffer.HasRoom DEFAULT_MAX_READ_SIZE
      · cases answer with
        | refused r =>
            obtain ⟨b, hdata, heq⟩ := receivePass_refused h hroom r
            rw [receiveLoop, incoming, if_pos hroom, heq]
            refine ⟨?_, ?_, ?_, hdata.trans (List.append_nil _).symm, rfl⟩
            · cases r.transient <;> rfl
            · cases hr : r.transient <;> simp [broken, Event.breaks, hr]
            · cases r.transient <;> rfl
        | bytes x xs =>
            obtain ⟨hvalid, hdata, heq⟩ := receivePass_bytes h hroom x xs
            obtain ⟨hready, hbroken, hrec, hrest, htx⟩ :=
              ih (s := { s with mReceiveBuffer := _ }) hvalid
            rw [receiveLoop, incoming, if_pos hroom, heq]
            refine ⟨hready, ?_, ?_, ?_, htx⟩
            · simp only [if_true, broken_append, hbroken]
              simp [broken, Event.breaks]
            · simp only [if_true, received_append, hrec]
              simp [received, Event.bytesIn]
            · simp only [if_true, hrest, hdata, List.append_assoc]
      · have hnone : incoming s.mReceiveBuffer (answer :: answers) =
            ([], false) := by
          cases answer <;> rw [incoming, if_neg hroom]
        rw [receiveLoop, hnone, receivePass_full h hroom]
        exact ⟨rfl, rfl, rfl, (List.append_nil _).symm, rfl⟩

/-! ## Transmitting -/

/-- The offsets are 32-bit words, whatever has been written where. -/
structure Words (b : SimpleBuffer) : Prop where
  start_lt : b.mStartLoc < 4294967296
  end_lt : b.mEndLoc < 4294967296

theorem Words.consume {b : SimpleBuffer} (h : Words b) (n : ℕ) :
    Words (b.consume n) := by
  have hzero : 0 < 4294967296 := by decide
  simp only [SimpleBuffer.consume]
  generalize (if n > sub32 b.mEndLoc b.mStartLoc then
    sub32 b.mEndLoc b.mStartLoc else n) = len
  by_cases hall : add32 b.mStartLoc len = b.mEndLoc
  · rw [if_pos hall]
    exact ⟨hzero, hzero⟩
  · rw [if_neg hall]
    exact ⟨add32_lt .., h.end_lt⟩

theorem Words.makeRoom {b : SimpleBuffer} (h : Words b) (n : ℕ) :
    Words (b.makeRoom n) := by
  have hmoved : ∀ b' : SimpleBuffer, b'.mStartLoc = 0 →
      b'.mEndLoc = b.getSize → Words b' := by
    intro b' hstart hend
    refine ⟨?_, ?_⟩
    · rw [hstart]
      decide
    · rw [hend]
      exact sub32_lt ..
  unfold SimpleBuffer.makeRoom SimpleBuffer.growBuffer
  simp only
  split_ifs
  · exact hmoved _ rfl rfl
  · exact h
  · exact hmoved _ rfl rfl
  · exact h

theorem Words.addBuffer {b : SimpleBuffer} (h : Words b)
    (data : Option (List UInt8)) (n : ℕ) : Words (b.addBuffer data n).2 := by
  have hroom := h.makeRoom n
  simp only [SimpleBuffer.addBuffer]
  split
  · cases data with
    | none => exact ⟨hroom.start_lt, add32_lt ..⟩
    | some bytes => exact ⟨hroom.start_lt, add32_lt ..⟩
  · exact hroom

theorem getSize_consume {b : SimpleBuffer} (h : Words b) {n : ℕ}
    (hn : n ≤ b.getSize) : (b.consume n).getSize = b.getSize - n := by
  have hshrink := sub32_add32 h.start_lt hn
  have hnot : ¬ n > sub32 b.mEndLoc b.mStartLoc := Nat.not_lt.mpr hn
  simp only [SimpleBuffer.consume, if_neg hnot]
  by_cases hall : add32 b.mStartLoc n = b.mEndLoc
  · rw [hall, sub32_self h.end_lt] at hshrink
    rw [if_pos hall]
    exact sub32_zero_zero.trans hshrink
  · rw [if_neg hall]
    exact hshrink

theorem transmitPass_done (h : s.mTransmitBuffer.getSize = 0)
    (answer : Sent) : s.transmitPass answer = (false, s, []) := by
  rw [transmitPass, if_pos h]

theorem transmitPass_refused (h : ¬ s.mTransmitBuffer.getSize = 0)
    (r : Refusal) :
    s.transmitPass (.refused r) =
      (false, { s with
          mReadyState := if r.transient then s.mReadyState else .CLOSED },
        .sendRefused r ::
          if r.transient then [] else [.closeSocket, .ready .CLOSED]) := by
  rw [transmitPass, if_neg h]
  cases hr : r.transient <;> simp [hr, disconnect]

/-- The transport accepts some bytes: as many fewer are pending. -/
theorem transmitPass_room (hwords : Words s.mTransmitBuffer)
    (h : ¬ s.mTransmitBuffer.getSize = 0) (k : ℕ) :
    ∃ (b : SimpleBuffer) (bytes : List UInt8), Words b ∧
      b.getSize = s.mTransmitBuffer.getSize - (k + 1) ∧
      b.overrun = s.mTransmitBuffer.overrun ∧
      s.transmitPass (.room k) =
        (true, { s with mTransmitBuffer := b }, [.sent bytes]) := by
  let ret := min (k + 1) s.mTransmitBuffer.getData.length
  have hret : ret = min (k + 1) s.mTransmitBuffer.getSize := by
    rw [← SimpleBuffer.length_getData]
  refine ⟨s.mTransmitBuffer.consume ret, s.mTransmitBuffer.getData.take ret,
    hwords.consume _, ?_, consume_overrun .., ?_⟩
  · rw [getSize_consume hwords (by omega)]
    omega
  · rw [transmitPass, if_neg h]

/-- **The transmit loop** closes the socket exactly when the transport fails
before everything pending has been accepted. -/
theorem transmitLoop_spec (answers : List Sent) :
    ∀ {s : SocketChatImpl}, Words s.mTransmitBuffer →
    (s.transmitLoop answers).1.mReadyState =
      (if sendFails s.mTransmitBuffer.getSize answers then .CLOSED
        else s.mReadyState) ∧
    broken (s.transmitLoop answers).2 =
      sendFails s.mTransmitBuffer.getSize answers ∧
    (s.transmitLoop answers).1.mReceiveBuffer = s.mReceiveBuffer ∧
    (s.transmitLoop answers).1.mTransmitBuffer.overrun =
      s.mTransmitBuffer.overrun := by
  induction answers with
  | nil =>
      intro s _
      rw [transmitLoop]
      cases hsize : s.mTransmitBuffer.getSize with
      | zero =>
          rw [transmitPass_done hsize]
          exact ⟨rfl, rfl, rfl, rfl⟩
      | succ pending =>
          rw [transmitPass_refused (by omega)]
          exact ⟨rfl, rfl, rfl, rfl⟩
  | cons answer answers ih =>
      intro s h
      rw [transmitLoop]
      cases hsize : s.mTransmitBuffer.getSize with
      | zero =>
          rw [transmitPass_done hsize]
          exact ⟨rfl, rfl, rfl, rfl⟩
      | succ pending =>
          have hne : ¬ s.mTransmitBuffer.getSize = 0 := by omega
          cases answer with
          | refused r =>
              rw [transmitPass_refused hne, sendFails]
              refine ⟨?_, ?_, rfl, rfl⟩
              · cases r.transient <;> rfl
              · cases hr : r.transient <;> simp [broken, Event.breaks, hr]
          | room k =>
              obtain ⟨b, bytes, hwords, hleft, hover, heq⟩ :=
                transmitPass_room h hne k
              obtain ⟨hready, hbroken, hrx, hover'⟩ :=
                ih (s := { s with mTransmitBuffer := b }) hwords
              have hpending : b.getSize = pending - k := by omega
              rw [hpending] at hready hbroken
              rw [heq, sendFails]
              exact ⟨hready, hbroken, hrx, hover'.trans hover⟩

/-! ## The outcome of a poll -/

/-- The transport reports a close or an error in a `poll` with these answers. -/
def transportFails (s : SocketChatImpl) (io : Answers) : Bool :=
  (incoming s.mReceiveBuffer io.recvs).2 ||
    sendFails s.mTransmitBuffer.getSize io.sends

/-- A `poll` that the transport fails stops there: the bytes read stay in the
receive buffer. -/
theorem poll_of_fails (h : s.mReceiveBuffer.Valid)
    (hwords : Words s.mTransmitBuffer) (hlive : s.Live)
    (callback : Option Callback) (timeout : ℤ) (io : Answers)
    (hfails : s.transportFails io = true) :
    (s.poll callback timeout io).1.mReadyState = .CLOSED ∧
    broken (s.poll callback timeout io).2 = true ∧
    (s.poll callback timeout io).1.mReceiveBuffer.getData =
      s.mReceiveBuffer.getData ++ (incoming s.mReceiveBuffer io.recvs).1 := by
  obtain ⟨hready, hbroken, -, hdata, htx⟩ := receiveLoop_spec io.recvs h
  rcases poll_cases s callback timeout io with
    ⟨hsocket, -⟩ | ⟨-, hclosed, -⟩ | ⟨-, hread, heq⟩ |
    ⟨t, es, -, hread, hopen, hsend, heq⟩ |
    ⟨t, es, u, es', -, hread, hopen, hsend, hopen', -⟩
  · exact absurd hsocket hlive.socket
  · exact absurd hclosed hlive.notClosed
  · have hin : (incoming s.mReceiveBuffer io.recvs).2 = true := by
      by_contra hno
      rw [hready, if_neg hno] at hread
      exact hlive.notClosed hread
    rw [heq, hbroken]
    exact ⟨hread, hin, hdata⟩
  · rw [hread] at hdata htx
    have htwords : Words t.mTransmitBuffer := htx ▸ hwords
    obtain ⟨hready', hbroken', hrx, -⟩ := transmitLoop_spec io.sends htwords
    have hout : sendFails t.mTransmitBuffer.getSize io.sends = true := by
      by_contra hno
      rw [hready', if_neg hno] at hsend
      exact hopen hsend
    rw [heq]
    refine ⟨hsend, ?_, ?_⟩
    · rw [broken_append, hbroken', hout, Bool.or_true]
    · rw [hrx]
      exact hdata
  · -- neither loop has closed the socket, so nothing has failed
    rw [hread] at hready htx
    have htwords : Words t.mTransmitBuffer := htx ▸ hwords
    obtain ⟨hready', -, -, -⟩ := transmitLoop_spec io.sends htwords
    rw [hsend] at hready'
    have hin : (incoming s.mReceiveBuffer io.recvs).2 = false := by
      by_contra hyes
      rw [Bool.not_eq_false] at hyes
      rw [if_pos hyes] at hready
      exact hopen hready
    have hout : sendFails s.mTransmitBuffer.getSize io.sends = false := by
      by_contra hyes
      rw [Bool.not_eq_false, ← htx] at hyes
      rw [if_pos hyes] at hready'
      exact hopen' hready'
    rw [transportFails, hin, hout] at hfails
    exact absurd hfails (by decide)

/-- A `poll` that the transport does not fail reads the incoming bytes, sends
what it can, finishes a requested close and dispatches. -/
theorem poll_of_not_fails (h : s.mReceiveBuffer.Valid)
    (hwords : Words s.mTransmitBuffer) (hlive : s.Live)
    (callback : Option Callback) (timeout : ℤ) (io : Answers)
    (hfails : s.transportFails io = false) :
    ∃ (u : SocketChatImpl) (es : List Event), activity.Emits s es u ∧
      u.Live ∧ u.mReadyState = s.mReadyState ∧
      u.mTransmitBuffer.overrun = s.mTransmitBuffer.overrun ∧
      broken es = false ∧
      u.mReceiveBuffer.getData =
        s.mReceiveBuffer.getData ++ (incoming s.mReceiveBuffer io.recvs).1 ∧
      s.poll callback timeout io =
        ((u.finishClosing.1.dispatch callback).1,
          es ++ (u.finishClosing.2 ++
            (u.finishClosing.1.dispatch callback).2)) := by
  rw [transportFails, Bool.or_eq_false_iff] at hfails
  obtain ⟨hin, hout⟩ := hfails
  obtain ⟨hready, hbroken, -, hdata, htx⟩ := receiveLoop_spec io.recvs h
  rw [hin] at hready hbroken
  have hkeep : (s.receiveLoop io.recvs).1.mReadyState = s.mReadyState := hready
  have htwords : Words (s.receiveLoop io.recvs).1.mTransmitBuffer := by
    rw [htx]
    exact hwords
  obtain ⟨hready', hbroken', hrx, hover⟩ := transmitLoop_spec io.sends htwords
  rw [htx, hout] at hready' hbroken'
  have hkeep' : ((s.receiveLoop io.recvs).1.transmitLoop
      io.sends).1.mReadyState = s.mReadyState := hready'.trans hkeep
  rcases poll_cases s callback timeout io with
    ⟨hsocket, -⟩ | ⟨-, hclosed, -⟩ | ⟨-, hread, -⟩ |
    ⟨t, es, -, hread, -, hsend, -⟩ |
    ⟨t, es, u, es', -, hread, hopen, hsend, hopen', heq⟩
  · exact absurd hsocket hlive.socket
  · exact absurd hclosed hlive.notClosed
  · exact absurd (hkeep.symm.trans hread) hlive.notClosed
  · rw [hread] at hkeep'
    exact absurd (hkeep'.symm.trans hsend) hlive.notClosed
  · obtain ⟨-, hemits⟩ := loops_emit h hlive hread hopen hsend
    rw [hread] at hbroken hkeep' hdata hover htx hrx hbroken'
    simp only [hsend] at hkeep' hover hrx hbroken'
    refine ⟨u, es ++ es', hemits,
      ⟨activity_socket hemits ▸ hlive.socket, hopen'⟩, hkeep',
      hover.trans (congrArg _ htx), ?_, ?_, ?_⟩
    · rw [broken_append, hbroken, hbroken', Bool.or_false]
    · rw [hrx]
      exact hdata
    · rw [heq, List.append_assoc]

end SocketChatImpl

/-- The offsets of the transmit buffer are words throughout a session. -/
theorem session_words {socket : Option ℕ} {t : Session}
    (ht : (session socket).Reachable t) :
    SocketChatImpl.Words t.chat.mTransmitBuffer := by
  have hzero : 0 < 4294967296 := by decide
  refine (session_invariant
    (I := fun s _ => SocketChatImpl.Words s.mTransmitBuffer)
    ⟨hzero, hzero⟩ ?_ ht).2
  intro s es t tr hact h
  cases hact with
  | send n _ _ => exact h.consume n
  | queue str => exact (h.addBuffer _ _).addBuffer _ _
  | _ => exact h

end Socketchat.Chat
