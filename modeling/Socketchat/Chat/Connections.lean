import Socketchat.Chat.Link
import Socketchat.Chat.Loops
import Socketchat.Chat.SocketChatObject

/-!
# Connections that share a heap

Any number of connections on one heap, as a server has them. Whatever the peers
send and however the transport answers, as long as no text is so long that the
32-bit arithmetic wraps: nothing is read or written outside a block, no block is
used after it has been freed, and none is lost. A `memcpy` whose ranges overlap
is read as a `memmove`.
-/

namespace Socketchat.Chat

open Foundation Buffer HeapM

/-- No text is so long that the growth arithmetic wraps. -/
def Short (es : List Event) : Prop :=
  ∀ text ∈ texts es, text.val.length < shortLimit

theorem short_append {es es' : List Event} :
    Short (es ++ es') ↔ Short es ∧ Short es' := by
  unfold Short
  rw [texts_append]
  exact List.forall_mem_append

namespace SocketChatImpl

/-- Both buffers are well-formed. -/
structure Ready (s : SocketChatImpl) : Prop where
  receive : s.mReceiveBuffer.Valid
  transmit : s.mTransmitBuffer.Valid

variable {s t : SocketChatImpl} {p q : Option ℕ} {es : List Event}

theorem Ready.act (h : s.Ready) (hact : Act s es t) (hshort : Short es) :
    t.Ready := by
  cases hact with
  | move b hb _ => exact ⟨hb, h.transmit⟩
  | receive b bytes _ hb _ => exact ⟨hb, h.transmit⟩
  | deliver b seg hb _ _ => exact ⟨hb, h.transmit⟩
  | send n _ _ =>
      exact ⟨h.receive, (SimpleBuffer.consume_spec h.transmit n).1⟩
  | queue str =>
      have hintact := sendText_intact h.transmit
        (hshort _ (List.mem_singleton.mpr rfl))
      exact ⟨h.receive, (sendText_spec h.transmit str hintact).1⟩
  | _ => exact ⟨h.receive, h.transmit⟩

theorem Ready.emits (h : s.Ready) (hemits : activity.Emits s es t)
    (hshort : Short es) : t.Ready := by
  refine System.Emits.preserves (I := fun u tr => Short tr → u.Ready) ?_ hemits
    [] (fun _ => h) hshort
  intro u es v tr hact hu hall
  obtain ⟨hbefore, hstep⟩ := short_append.mp hall
  exact (hu hbefore).act hact hstep

/-! ## The passes and the loops -/

/-- How both loops end when the transport refuses. -/
theorem refused_code (s : SocketChatImpl) (p q : Option ℕ) (r : Refusal)
    (event : Event) :
    Triple (s.blocks p q)
      (if r.transient then pure (false, s.handle p q, [event])
      else pure (false, (s.handle p q).disconnect.1,
        event :: (s.handle p q).disconnect.2))
      (passes (if r.transient then (false, s, [event])
        else (false, s.disconnect.1, event :: s.disconnect.2))) := by
  by_cases hwait : r.transient = true
  · rw [if_pos hwait, if_pos hwait]
    exact ret_passes false s p q _
  · rw [if_neg hwait, if_neg hwait]
    exact ret_passes false s.disconnect.1 p q _

theorem receivePass_code (h : s.mReceiveBuffer.Valid) (answer : Received) :
    Triple (s.blocks p q) ((s.handle p q).receivePass answer)
      (passes (s.receivePass answer)) := by
  have hroom := SimpleBuffer.makeRoom_intact h
    (show DEFAULT_MAX_READ_SIZE < 2147483648 by decide)
  refine SimpleBuffer.bind_beside (h.sound.confirmCapacity_code hroom)
    fun p' => ?_
  -- there is room for a whole read, or the buffer has reached its cap
  rcases SimpleBuffer.confirmCapacity_spec h
      (c := DEFAULT_MAX_READ_SIZE) (by decide) with
    ⟨b, hconf, hvalid, -, -, hspace, -⟩ | ⟨hconf, -⟩
  · rw [hconf]
    let s' := { s with mReceiveBuffer := b }
    cases answer with
    | refused r =>
        have hpass : s.receivePass (.refused r) =
            if r.transient then (false, s', [.receiveRefused r])
            else (false, s'.disconnect.1,
              .receiveRefused r :: s'.disconnect.2) := by
          simp only [receivePass, hconf, s']
        rw [hpass]
        exact refused_code s' p' q r (.receiveRefused r)
    | bytes x xs =>
        let bytes := (x :: xs).take DEFAULT_MAX_READ_SIZE
        let b₁ := b.store b.mEndLoc bytes
        let b₂ := (b₁.addBuffer none bytes.length).2
        have hlen : bytes.length ≤ b.mMaxLen - b.mEndLoc := by
          rw [List.length_take]
          omega
        have hfits : b.block.Fits b.mEndLoc bytes.length := by
          have hend := hvalid.end_le
          have hsize := hvalid.size_eq
          unfold Block.Fits
          omega
        have hstored : b₁.Sound := (hvalid.sound.store_at_end hlen).1
        have hintact : b₂.overrun = false :=
          (SimpleBuffer.store_commit_spec hvalid hlen).2.1.intact
        have hpass : s.receivePass (.bytes x xs) =
            (true, { s with mReceiveBuffer := b₂ }, [.received bytes]) := by
          simp only [receivePass, hconf, b₂, b₁, bytes]
        rw [hpass]
        refine ((Triple.write hfits).frame _).bind fun _ => ?_
        refine SimpleBuffer.bind_beside (hstored.addBuffer_code none hintact)
          fun p'' => ?_
        exact ret_passes true { s with mReceiveBuffer := b₂ } p'' q _
  · have hpass : s.receivePass answer = (false, s, []) := by
      simp only [receivePass, hconf]
    rw [hconf, hpass]
    exact ret_passes false s p' q []

theorem receiveLoop_code (answers : List Received) :
    ∀ {s : SocketChatImpl} {p q : Option ℕ}, s.mReceiveBuffer.Valid → s.Live →
    Triple (s.blocks p q) ((s.handle p q).receiveLoop answers)
      (returns (s.receiveLoop answers)) := by
  induction answers with
  | nil =>
      intro s p q h _
      exact bind_passes (receivePass_code h _) fun p' q' =>
        ret_returns _ p' q' _
  | cons answer answers ih =>
      intro s p q h hlive
      obtain ⟨hpass, hnext⟩ := receivePass_emits h hlive answer
      have hvalid := activity_valid hpass h
      refine bind_passes (receivePass_code h answer) fun p' q' => ?_
      rw [receiveLoop]
      dsimp only
      by_cases hgo : (s.receivePass answer).1 = true
      · rw [if_pos hgo, if_pos hgo]
        exact returns_append (ih hvalid (hnext hgo)) _
      · rw [if_neg hgo, if_neg hgo]
        exact ret_returns _ p' q' _

theorem transmitPass_code (h : s.mTransmitBuffer.Valid) (answer : Sent) :
    Triple (s.blocks p q) ((s.handle p q).transmitPass answer)
      (passes (s.transmitPass answer)) := by
  show Triple _ (if s.mTransmitBuffer.getSize = 0 then _ else _) _
  by_cases hsize : s.mTransmitBuffer.getSize = 0
  · rw [if_pos hsize, transmitPass_done hsize]
    exact ret_passes false s p q []
  · rw [if_neg hsize, blocks, mul_comm]
    refine (h.sound.getData_code.frame _).bind fun buffer => ?_
    rw [mul_assoc, mul_comm (owns q _)]
    refine Triple.fact fun hbuffer => ?_
    subst hbuffer
    cases answer with
    | refused r =>
        have hpass : s.transmitPass (.refused r) =
            if r.transient then (false, s, [.sendRefused r])
            else (false, s.disconnect.1, .sendRefused r :: s.disconnect.2) := by
          simp only [transmitPass, if_neg hsize]
        rw [hpass]
        exact refused_code s p q r (.sendRefused r)
    | room k =>
        let ret := min (k + 1) s.mTransmitBuffer.getData.length
        let t := { s with mTransmitBuffer := s.mTransmitBuffer.consume ret }
        have hpass : s.transmitPass (.room k) =
            (true, t, [.sent (s.mTransmitBuffer.getData.take ret)]) := by
          simp only [transmitPass, if_neg hsize, t, ret]
        have hret := ret_passes true t p q
          [.sent (s.mTransmitBuffer.getData.take ret)]
        rw [blocks, SimpleBuffer.consume_mBuffer, handle,
          ← SimpleBuffer.consume_handle] at hret
        rw [hpass]
        exact hret

theorem transmitPass_valid (h : s.mTransmitBuffer.Valid) (answer : Sent) :
    (s.transmitPass answer).2.1.mTransmitBuffer.Valid := by
  unfold transmitPass
  by_cases hsize : s.mTransmitBuffer.getSize = 0
  · rw [if_pos hsize]
    exact h
  · rw [if_neg hsize]
    cases answer with
    | refused r =>
        dsimp only
        split
        · exact h
        · exact h
    | room k => exact (SimpleBuffer.consume_spec h _).1

theorem transmitLoop_code (answers : List Sent) :
    ∀ {s : SocketChatImpl} {p q : Option ℕ}, s.mTransmitBuffer.Valid →
    Triple (s.blocks p q) ((s.handle p q).transmitLoop answers)
      (returns (s.transmitLoop answers)) := by
  induction answers with
  | nil =>
      intro s p q h
      exact bind_passes (transmitPass_code h _) fun p' q' =>
        ret_returns _ p' q' _
  | cons answer answers ih =>
      intro s p q h
      refine bind_passes (transmitPass_code h answer) fun p' q' => ?_
      rw [transmitLoop]
      dsimp only
      by_cases hgo : (s.transmitPass answer).1 = true
      · rw [if_pos hgo, if_pos hgo]
        exact returns_append (ih (transmitPass_valid h answer)) _
      · rw [if_neg hgo, if_neg hgo]
        exact ret_returns _ p' q' _

/-! ## The callback and the messages -/

theorem sendText_code (h : s.mTransmitBuffer.Valid) {str : Option CString}
    (hlen : (textOf str).val.length < shortLimit) :
    Triple (s.blocks p q) ((s.handle p q).sendText str)
      (returns (s.sendText str)) := by
  let r₁ := s.mTransmitBuffer.addBuffer (str.map (·.val))
    (toU32 (textOf str).val.length)
  let r₂ := r₁.2.addBuffer (some [13, 10]) 2
  have ho₂ : r₂.2.overrun = false := sendText_intact h hlen
  have ho₁ : r₁.2.overrun = false :=
    SimpleBuffer.makeRoom_overrun 2 (SimpleBuffer.addBuffer_overrun _ _ ho₂)
  have hvalid₁ : r₁.2.Valid := by
    have hsame : r₁ = s.mTransmitBuffer.addBuffer (some (textOf str).val)
        (toU32 (textOf str).val.length) := sendText_addBuffer h str
    rw [hsame] at ho₁ ⊢
    exact (SimpleBuffer.addBuffer_spec h (toU32_lt _) (toU32_le _) ho₁).1
  rw [blocks, mul_comm]
  refine SimpleBuffer.bind_beside (h.sound.addBuffer_code _ ho₁) fun q' => ?_
  refine SimpleBuffer.bind_beside (hvalid₁.sound.addBuffer_code _ ho₂)
    fun q'' => ?_
  rw [mul_comm]
  exact ret_returns (s.sendText str).1 p q'' _

theorem close_code (s : SocketChatImpl) (p q : Option ℕ) :
    Triple (s.blocks p q) (pure (s.handle p q).close) (returns s.close) := by
  by_cases hclosed : s.mReadyState = .CLOSING ∨ s.mReadyState = .CLOSED
  · have hclose : s.close = (s, []) := if_pos hclosed
    have hcode : (s.handle p q).close = (s.handle p q, []) := if_pos hclosed
    rw [hclose, hcode]
    exact ret_returns s p q []
  · have hclose : s.close =
        ({ s with mReadyState := .CLOSING }, [.ready .CLOSING]) :=
      if_neg hclosed
    have hcode : (s.handle p q).close =
        (handle { s with mReadyState := .CLOSING } p q, [.ready .CLOSING]) :=
      if_neg hclosed
    rw [hclose, hcode]
    exact ret_returns { s with mReadyState := .CLOSING } p q _

theorem react_code (calls : List Call) :
    ∀ {s : SocketChatImpl} {p q : Option ℕ}, s.mTransmitBuffer.Valid →
    Short (s.react calls).2 →
    Triple (s.blocks p q) ((s.handle p q).react calls)
      (returns (s.react calls)) := by
  induction calls with
  | nil => exact fun _ _ => ret_returns _ _ _ []
  | cons call calls ih =>
      intro s p q h hshort
      cases call with
      | sendText str =>
          have hsplit : Short ((s.sendText str).2 ++
            ((s.sendText str).1.react calls).2) := hshort
          obtain ⟨hfirst, hrest⟩ := short_append.mp hsplit
          have hlen := hfirst _ (List.mem_singleton.mpr rfl)
          have hvalid := (sendText_spec h str (sendText_intact h hlen)).1
          exact bind_returns (sendText_code h hlen) fun p' q' =>
            returns_append (ih hvalid hrest) _
      | close =>
          have hsplit : Short (s.close.2 ++ (s.close.1.react calls).2) := hshort
          have hvalid : s.close.1.mTransmitBuffer.Valid := by
            unfold close
            split
            · exact h
            · exact h
          exact bind_returns (close_code s p q) fun p' q' =>
            returns_append (ih hvalid (short_append.mp hsplit).2) _

/-- What a pass of the dispatch loop finds. -/
def finds (s : SocketChatImpl) (p q : Option ℕ) :
    Option (CString × SocketChatImpl × List Event) →
    Option (CString × SocketChatObject × List Event) → Assertion (Block UInt8)
  | none, none => s.blocks p q
  | some r, some a => passes r a
  | _, _ => 0

theorem dispatchPass_code (h : s.Ready) (callback : Callback)
    (past : List CString)
    (hshort : ∀ r ∈ s.dispatchPass callback past, Short r.2.2) :
    Triple (s.blocks p q) ((s.handle p q).dispatchPass callback past)
      (finds s p q (s.dispatchPass callback past)) := by
  refine (h.receive.sound.getData_code.frame _).bind fun data => ?_
  rw [mul_assoc]
  refine Triple.fact fun hdata => ?_
  subst hdata
  by_cases hlen : s.mReceiveBuffer.getData.length < 2
  · have hpass : s.dispatchPass callback past = none := by
      simp only [dispatchPass, if_pos hlen]
    rw [if_pos hlen, hpass]
    exact Triple.pure (Q := finds s p q none) none
  rw [if_neg hlen]
  cases hend : messageEnd s.mReceiveBuffer.getData with
  | none =>
      have hpass : s.dispatchPass callback past = none := by
        simp only [dispatchPass, if_neg hlen, hend]
      rw [hpass]
      exact Triple.pure (Q := finds s p q none) none
  | some i =>
      let b := s.mReceiveBuffer.store (s.mReceiveBuffer.mStartLoc + i) [0]
      let message := cstring b.getData
      let r := react { s with mReceiveBuffer := b }
        (callback (past ++ [message]))
      let t := { r.1 with
        mReceiveBuffer := r.1.mReceiveBuffer.consume (i + 2) }
      have hpass : s.dispatchPass callback past =
          some (message, t, .delivered message :: r.2) := by
        simp only [dispatchPass, if_neg hlen, hend, t, r, message, b]
      obtain ⟨-, -, hi⟩ := messageEnd_eq_some hend
      have hvalid : b.Valid := (store_data h.receive (by omega)).1
      have hfits : s.mReceiveBuffer.block.Fits
          (s.mReceiveBuffer.mStartLoc + i) [(0 : UInt8)].length := by
        have hsize := h.receive.getSize_eq
        have hblock := h.receive.size_eq
        have hstop := h.receive.end_le
        rw [SimpleBuffer.length_getData] at hi
        simp only [Block.Fits, List.length_singleton]
        omega
      have hreact : Short r.2 := hshort _ (by rw [hpass]; rfl)
      rw [hpass]
      refine ((Triple.write hfits).frame _).bind fun _ => ?_
      refine (hvalid.sound.getData_code.frame _).bind fun data => ?_
      rw [mul_assoc]
      refine Triple.fact fun hdata => ?_
      subst hdata
      refine bind_returns (react_code _ (s := { s with mReceiveBuffer := b })
        h.transmit hreact) fun p' q' => ?_
      have hret := passes_handle message t p' q' (.delivered message :: r.2)
      rw [blocks, SimpleBuffer.consume_mBuffer, handle,
        ← SimpleBuffer.consume_handle] at hret
      exact (Triple.pure (Q := finds s p q
        (some (message, t, .delivered message :: r.2))) _).pre
          (le_of_eq hret.symm)

theorem dispatchLoop_code (callback : Callback) (fuel : ℕ) :
    ∀ {s : SocketChatImpl} {p q : Option ℕ} (past : List CString), s.Ready →
    Short (s.dispatchLoop callback past fuel).2 →
    Triple (s.blocks p q) ((s.handle p q).dispatchLoop callback past fuel)
      (returns (s.dispatchLoop callback past fuel)) := by
  induction fuel with
  | zero => exact fun _ _ _ => ret_returns _ _ _ []
  | succ fuel ih =>
      intro s p q past h hshort
      rw [dispatchLoop] at hshort ⊢
      rcases dispatchPass_spec h.receive callback past with
        ⟨hnone, -⟩ | ⟨seg, b, hb, hfree, hcut, hsome⟩
      · have hcode := dispatchPass_code (p := p) (q := q) h callback past
          (by simp [hnone])
        rw [hnone] at hcode ⊢
        refine hcode.bind fun a => ?_
        -- the code finds a message exactly where the model does
        cases a with
        | none => exact ret_returns s p q []
        | some a => exact Triple.zero
      · rw [hsome] at hshort ⊢
        obtain ⟨hfirst, hrest⟩ := short_append.mp hshort
        have hdeliver := (Act.deliver b seg hb hfree hcut).emits
        have hready := h.emits (hdeliver.trans (react_emits _ _)) hfirst
        have hcode := dispatchPass_code (p := p) (q := q) h callback past
          (by simpa [hsome] using hfirst)
        rw [hsome] at hcode
        refine hcode.bind fun a => ?_
        cases a with
        | none => exact Triple.zero
        | some a =>
            refine triple_of_passes (a := a) (f := fun a => do
              let r ← SocketChatObject.dispatchLoop a.2.1 callback
                (past ++ [a.1]) fuel
              pure (r.1, a.2.2 ++ r.2)) fun p' q' => ?_
            exact returns_append (ih _ hready hrest) _

/-! ## `poll` -/

theorem finishClosing_code (s : SocketChatImpl) (p q : Option ℕ) :
    (s.handle p q).finishClosing =
      (s.finishClosing.1.handle p q, s.finishClosing.2) := by
  unfold finishClosing
  by_cases h : s.mTransmitBuffer.getSize = 0 ∧ s.mReadyState = .CLOSING
  · rw [if_pos h]
    exact if_pos h
  · rw [if_neg h]
    exact if_neg h

theorem finishClosing_blocks (s : SocketChatImpl) (p q : Option ℕ) :
    s.finishClosing.1.blocks p q = s.blocks p q := by
  unfold finishClosing
  split
  · rfl
  · rfl

theorem dispatch_code (h : s.Ready) (callback : Option Callback)
    (hshort : Short (s.dispatch callback).2) :
    Triple (s.blocks p q) ((s.handle p q).dispatch callback)
      (returns (s.dispatch callback)) := by
  cases callback with
  | none => exact ret_returns s p q []
  | some callback => exact dispatchLoop_code callback _ [] h hshort

/-- A `poll` of a connection that is not closed. -/
theorem live_code (h : s.Ready) (hlive : s.Live) (callback : Option Callback)
    (timeout : ℤ) (io : Answers)
    (hshort : Short (s.poll callback timeout io).2) :
    Triple (s.blocks p q) ((s.handle p q).poll callback timeout io)
      (returns (s.poll callback timeout io)) := by
  have hsocket : ¬ s.mSocket.isNone = true := by simpa using hlive.socket
  let r₁ := s.receiveLoop io.recvs
  let r₂ := r₁.1.transmitLoop io.sends
  have hpoll : s.poll callback timeout io =
      if r₁.1.mReadyState = .CLOSED then r₁
      else if r₂.1.mReadyState = .CLOSED then (r₂.1, r₁.2 ++ r₂.2)
      else ((r₂.1.finishClosing.1.dispatch callback).1,
        r₁.2 ++ (r₂.2 ++ (r₂.1.finishClosing.2 ++
          (r₂.1.finishClosing.1.dispatch callback).2))) := by
    simp only [poll, if_neg hsocket, if_neg hlive.notClosed]
    cases callback <;> rfl
  have hcode : (s.handle p q).poll callback timeout io = _ :=
    (if_neg hsocket).trans (if_neg hlive.notClosed)
  rw [hpoll] at hshort ⊢
  rw [hcode]
  refine bind_returns (receiveLoop_code io.recvs h.receive hlive)
    fun p₁ q₁ => ?_
  show Triple _ (if r₁.1.mReadyState = .CLOSED then _ else _) _
  by_cases hread : r₁.1.mReadyState = .CLOSED
  · rw [if_pos hread, if_pos hread]
    exact ret_returns r₁.1 p₁ q₁ _
  rw [if_neg hread] at hshort ⊢
  rw [if_neg hread]
  have hshort₁ : Short r₁.2 := by
    split at hshort
    · exact (short_append.mp hshort).1
    · exact (short_append.mp hshort).1
  have hready₁ : r₁.1.Ready :=
    h.emits (receiveLoop_emits io.recvs h.receive hlive) hshort₁
  refine bind_returns (transmitLoop_code io.sends hready₁.transmit)
    fun p₂ q₂ => ?_
  show Triple _ (if r₂.1.mReadyState = .CLOSED then _ else _) _
  by_cases hsend : r₂.1.mReadyState = .CLOSED
  · rw [if_pos hsend, if_pos hsend]
    exact ret_returns r₂.1 p₂ q₂ _
  rw [if_neg hsend] at hshort ⊢
  rw [if_neg hsend]
  -- what each part emits is short, since all of it is
  have hparts := (short_append.mp hshort).2
  have hlater := (short_append.mp hparts).2
  obtain ⟨hfinish, hdispatch⟩ := short_append.mp hlater
  have hreceived := receiveLoop_emits io.recvs h.receive hlive
  have hlive₁ : r₁.1.Live := ⟨activity_socket hreceived ▸ hlive.socket, hread⟩
  have hsent := transmitLoop_emits io.sends hlive₁
  have hlive₂ : r₂.1.Live := ⟨activity_socket hsent ▸ hlive₁.socket, hsend⟩
  have hready₃ : r₂.1.finishClosing.1.Ready :=
    (hready₁.emits hsent (short_append.mp hparts).1).emits
      (finishClosing_emits hlive₂) hfinish
  rw [finishClosing_code, ← finishClosing_blocks]
  exact bind_returns (dispatch_code hready₃ callback hdispatch)
    fun p₄ q₄ => ret_returns _ p₄ q₄ _

theorem poll_code (h : s.Ready) (callback : Option Callback) (timeout : ℤ)
    (io : Answers) (hshort : Short (s.poll callback timeout io).2) :
    Triple (s.blocks p q) ((s.handle p q).poll callback timeout io)
      (returns (s.poll callback timeout io)) := by
  by_cases hsocket : s.mSocket.isNone = true
  · have hpoll : s.poll callback timeout io = (s, []) := if_pos hsocket
    have hcode : (s.handle p q).poll callback timeout io =
        pure (s.handle p q, []) := if_pos hsocket
    rw [hpoll, hcode]
    exact ret_returns s p q []
  by_cases hclosed : s.mReadyState = .CLOSED
  · have hpoll : s.poll callback timeout io = (s, _) :=
      (if_neg hsocket).trans (if_pos hclosed)
    have hcode : (s.handle p q).poll callback timeout io =
        pure (s.handle p q, _) := (if_neg hsocket).trans (if_pos hclosed)
    rw [hpoll, hcode]
    exact ret_returns s p q _
  · exact live_code h ⟨by simpa using hsocket, hclosed⟩ callback timeout io
      hshort

theorem exec_code (h : s.Ready) (call : ApiCall)
    (hshort : Short (s.exec call).2) :
    Triple (s.blocks p q) ((s.handle p q).exec call)
      (returns (s.exec call)) := by
  cases call with
  | poll callback timeout io => exact poll_code h callback timeout io hshort
  | sendText str =>
      exact sendText_code h.transmit (hshort _ (List.mem_singleton.mpr rfl))
  | close => exact close_code s p q

/-! ## The connection as an object -/

theorem construct_code (socket : Option ℕ) :
    Triple 1 (SocketChatObject.construct socket) (construct socket).holds := by
  refine (SimpleBuffer.create_code _ _).bind fun u =>
    SimpleBuffer.triple_of_handle fun q hu => ?_
  have hreceive := (SimpleBuffer.create_code DEFAULT_RECEIVE_BUFFER_SIZE
    DEFAULT_MAXIMUM_BUFFER_SIZE).frame
      (owns q (construct socket).mTransmitBuffer.mBuffer)
  rw [one_mul] at hreceive
  refine hreceive.bind fun v => SimpleBuffer.triple_beside fun p hv => ?_
  subst hu hv
  exact (Triple.pure _).pre
    (le_of_eq (holds_handle (construct socket) p q).symm)

theorem release_code (s : SocketChatImpl) (p q : Option ℕ) :
    Triple (s.blocks p q) (s.handle p q).release fun _ => 1 := by
  refine (Triple.free.frame _).bind fun _ => ?_
  rw [one_mul]
  exact Triple.free

/-- The blocks of both buffers. -/
def occupies (s : SocketChatImpl) : ℕ :=
  s.mReceiveBuffer.blocks + s.mTransmitBuffer.blocks

theorem holds_le_occupies (s : SocketChatImpl) (c : SocketChatObject) :
    s.holds c ≤ .block ^ s.occupies := by
  intro w hw
  obtain ⟨-, hblocks⟩ := Assertion.fact_mul.mp hw
  rw [occupies, pow_add]
  exact mul_le_mul' (owns_le_block _ _) (owns_le_block _ _) w hblocks

end SocketChatImpl

/-- A call that queues only short texts, on whatever connection. -/
def Modest (call : ApiCall) : Prop :=
  ∀ s : SocketChatImpl, s.Ready → Short (s.exec call).2

theorem short_of_silent {es : List Event} (h : Silent es) : Short es := by
  intro text htext
  rw [h.texts_eq] at htext
  cases htext

theorem modest_sendText {str : Option CString}
    (hstr : (SocketChatImpl.textOf str).val.length < shortLimit) :
    Modest (.sendText str) :=
  fun _ _ _ htext => List.mem_singleton.mp htext ▸ hstr

theorem modest_poll {callback : Option Callback}
    (hquiet : SocketChatImpl.Quiet callback) (timeout : ℤ) (io : Answers) :
    Modest (.poll callback timeout io) := fun _ h =>
  short_of_silent (SocketChatImpl.poll_silent h.receive hquiet timeout io)

theorem modest_close : Modest .close :=
  fun s _ => short_of_silent s.close_silent

/-- Connections; one is constructed around a socket. -/
def connections : ObjectSpec SocketChatImpl (Option ℕ) ApiCall (List Event) where
  create := SocketChatImpl.construct
  call s k := (s.exec k).swap
  Creates _ := True
  Safe s k := Short (s.exec k).2

def connectionsCode : ObjectCode (Block UInt8) SocketChatObject (Option ℕ)
    ApiCall (List Event) where
  create := SocketChatObject.construct
  call c k := do
    let (c, es) ← c.exec k
    pure (es, c)
  release := SocketChatObject.release

open SocketChatImpl in
/-- The code implements the connections, and loses nothing. -/
theorem connections_implemented : Implements connectionsCode connections Ready
    holds occupies (fun _ => 0) where
  valid_create socket _ := ⟨(construct_valid socket).1, (construct_valid socket).2⟩
  valid_call _ k h hshort := h.emits (exec_emits h.receive k) hshort
  create socket _ := construct_code socket
  call _ _ k h hshort := triple_of_object fun _ _ hc => hc ▸
    (exec_code h k hshort).bind fun _ => Triple.fact fun hes =>
      Triple.ret hes (by rw [pow_zero, mul_one]; rfl)
  release s _ := triple_of_object fun p q hc => hc ▸ release_code s p q
  blocks := holds_le_occupies

theorem SocketChatImpl.occupies_le (s : SocketChatImpl) : s.occupies ≤ 2 := by
  have hone (b : SimpleBuffer) : b.blocks ≤ 1 := by
    unfold SimpleBuffer.blocks
    cases b.mBuffer with
    | none => exact Nat.zero_le 1
    | some m => exact le_refl 1
  exact Nat.add_le_add (hone s.mReceiveBuffer) (hone s.mTransmitBuffer)

/-- At the end of a program every connection is where it was created, with the
fields it has alone. -/
theorem connections_outcome {ks : List (Command (Option ℕ) ApiCall)}
    (hsafe : Along connections.after connections.SafeCommand [] ks) :
    ∃ cs heap, (connectionsCode.run [] ks).run Heap.empty =
      some ((connections.answers [] ks, cs), heap) ∧
    (∀ (i : ℕ) (s : SocketChatImpl),
      (ks.foldl connections.after [])[i]? = some (some s) →
      ∃ p q, cs[i]? = some (some (s.handle p q))) ∧
    heap.live ≤
      2 * (ks.foldl connections.after []).countP Option.isSome := by
  obtain ⟨cs, heap, hrun, hheap, -⟩ := connections_implemented.ends hsafe
  rw [Command.lost_nothing, pow_zero, mul_one] at hheap
  refine ⟨cs, heap, hrun, fun i s hget => ?_, ?_⟩
  · rcases pool_some hget cs with ⟨c, F, hcs, hpool, -⟩ | hzero
    · rw [hpool] at hheap
      obtain ⟨u, v, -, -, hholds, -⟩ := hheap
      have hhandle := (Assertion.fact_mul.mp hholds).1
      exact ⟨_, _, hcs.trans (by rw [← hhandle])⟩
    · rw [hzero] at hheap
      exact False.elim hheap
  · rw [Assertion.live_eq (connections_implemented.pool_blocks _ cs _ hheap)]
    exact Implements.occupied_le SocketChatImpl.occupies_le _

/-- **Connections do not disturb each other.** Whatever is called on them, one
after the other, whatever their peers send and their callbacks answer, as long
as the texts are short: every access is inside a live block, and each connection
does what it does alone. At any time the heap has at most two blocks for each
connection that has not been released, and no others. -/
theorem connections_share_a_heap {ks : List (Command (Option ℕ) ApiCall)}
    (hsafe : Along connections.after connections.SafeCommand [] ks) :
    ∃ cs heap, (connectionsCode.run [] ks).run Heap.empty =
      some ((connections.answers [] ks, cs), heap) ∧
    heap.live ≤
      2 * (ks.foldl connections.after []).countP Option.isSome := by
  obtain ⟨cs, heap, hrun, -, hlive⟩ := connections_outcome hsafe
  exact ⟨cs, heap, hrun, hlive⟩

instance (es : List Event) : Decidable (Short es) :=
  inferInstanceAs (Decidable (∀ text ∈ texts es, _))

instance (socket : Option ℕ) : Decidable (connections.Creates socket) :=
  inferInstanceAs (Decidable True)

instance (s : SocketChatImpl) (k : ApiCall) : Decidable (connections.Safe s k) :=
  inferInstanceAs (Decidable (Short (s.exec k).2))

/-- A connection says `hi`; another one answers each message with `ok`; the
peer of the first one hangs up. -/
def visitors : List (Command (Option ℕ) ApiCall) :=
  [.create (some 0), .create (some 1),
    .call 0 (.sendText (some ⟨[104, 105], by decide⟩)),
    .call 1 (.poll (some fun _ => [.sendText (some ⟨[111, 107], by decide⟩)]) 0
      ⟨[.bytes 97 [13, 10, 98]], []⟩),
    .call 0 (.poll none 0 ⟨[], [.room 1, .refused (.error false false)]⟩),
    .release 0,
    .call 1 (.poll none 0 ⟨[], [.room 8]⟩),
    .release 1]

theorem connections_share_a_heap_visitors :
    ∃ rs cs heap, (connectionsCode.run [] visitors).run Heap.empty =
      some ((rs, cs), heap) ∧
    accepted (rs[4]?.join.getD []) = [104, 105] ∧
    accepted (rs[6]?.join.getD []) = [111, 107, 13, 10] ∧ heap.live = 0 := by
  obtain ⟨cs, heap, hrun, hlive⟩ := connections_share_a_heap
    (show Along connections.after connections.SafeCommand [] visitors by
      decide +kernel)
  exact ⟨_, cs, heap, hrun, by decide +kernel, by decide +kernel,
    Nat.le_zero.mp hlive⟩

end Socketchat.Chat
