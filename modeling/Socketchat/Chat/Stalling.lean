import Socketchat.Buffer.Doubling
import Socketchat.Chat.Passes

/-!
# When a connection stops reading

The receive loop begins with a request for room and ends, without a word, if
there is none. The receive buffer doubles up to its cap, so what decides
whether the next `poll` reads is how many bytes this one leaves behind, and
how many it has dispatched since the block became as long as it can.
-/

namespace Socketchat.Chat

open Foundation Buffer

/-- `close` is called. -/
def Call.isClose : Call → Bool
  | .sendText _ => false
  | .close => true

/-- A call of `receive`. -/
def Event.asksForData : Event → Bool
  | .received _ | .receiveRefused _ => true
  | _ => false

/-- The callback closes the connection over one of these messages, having been
passed those in `past` before. -/
def Callback.closes (callback : Callback) (past : List CString) :
    List CString → Bool
  | [] => false
  | message :: messages =>
      (callback (past ++ [message])).any Call.isClose ||
        callback.closes (past ++ [message]) messages

namespace SocketChatImpl

variable {s : SocketChatImpl}

/-! ## The receive loop -/

theorem receivePass_refilled
    (h : s.mReceiveBuffer.Doubled DEFAULT_MAX_READ_SIZE) (answer : Received) :
    SimpleBuffer.Refilled DEFAULT_MAX_READ_SIZE s.mReceiveBuffer
      (s.receivePass answer).2.1.mReceiveBuffer := by
  by_cases hroom : s.mReceiveBuffer.HasRoom DEFAULT_MAX_READ_SIZE
  · cases answer with
    | bytes x xs =>
        obtain ⟨-, -, heq⟩ := receivePass_bytes h.valid hroom x xs
        rw [heq]
        exact h.fill (List.length_take_le ..)
    | refused r =>
        have hconf := h.confirmCapacity
        rcases SimpleBuffer.confirmCapacity_spec h.valid
            (c := DEFAULT_MAX_READ_SIZE) (by decide) with
          ⟨b, heq, -⟩ | ⟨-, hzero⟩
        · rw [heq] at hconf
          simp only [receivePass, heq]
          cases r.transient <;> exact hconf
        · exact absurd (hzero hroom) (by decide)
  · rw [receivePass_full h.valid hroom]
    exact h.refl

theorem receiveLoop_refilled (answers : List Received) :
    ∀ {s : SocketChatImpl},
    s.mReceiveBuffer.Doubled DEFAULT_MAX_READ_SIZE →
    SimpleBuffer.Refilled DEFAULT_MAX_READ_SIZE s.mReceiveBuffer
      (s.receiveLoop answers).1.mReceiveBuffer := by
  induction answers with
  | nil => exact fun h => receivePass_refilled h _
  | cons answer answers ih =>
      intro s h
      have hpass := receivePass_refilled h answer
      rw [receiveLoop]
      by_cases hgo : (s.receivePass answer).1 = true
      · rw [if_pos hgo]
        exact hpass.trans (ih hpass.doubled)
      · rw [if_neg hgo]
        exact hpass

/-! ## The dispatch -/

theorem close_not_open (s : SocketChatImpl) :
    s.close.1.mReadyState ≠ .OPEN := by
  unfold close
  split
  · rename_i h
    rcases h with h | h <;> rw [h] <;> decide
  · exact ReadyState.noConfusion

theorem close_receiveBuffer (s : SocketChatImpl) :
    s.close.1.mReceiveBuffer = s.mReceiveBuffer := by
  unfold close
  split <;> rfl

/-- The calls of a callback leave the connection open unless one is `close`. -/
theorem react_open_iff (calls : List Call) :
    ∀ {s : SocketChatImpl}, (react s calls).1.mReadyState = .OPEN ↔
      s.mReadyState = .OPEN ∧ calls.any Call.isClose = false := by
  induction calls with
  | nil => simp [react]
  | cons call calls ih =>
      intro s
      cases call with
      | sendText str =>
          show (react (s.sendText str).1 calls).1.mReadyState = .OPEN ↔ _
          rw [ih]
          simp [Call.isClose, sendText]
      | close =>
          show (react s.close.1 calls).1.mReadyState = .OPEN ↔ _
          rw [ih]
          simp [Call.isClose, close_not_open]

theorem dispatchPass_trimmed (h : s.mReceiveBuffer.Valid) {callback : Callback}
    {past : List CString} {message : CString} {t : SocketChatImpl}
    {events : List Event}
    (hpass : s.dispatchPass callback past = some (message, t, events)) :
    s.mReceiveBuffer.Trimmed t.mReceiveBuffer := by
  simp only [dispatchPass] at hpass
  split at hpass
  · cases hpass
  · split at hpass
    · cases hpass
    · rename_i i hend
      obtain ⟨-, -, hlen⟩ := messageEnd_eq_some hend
      obtain ⟨hvalid, -⟩ := store_data h (x := 0) (i := i) (by omega)
      have hcut := SimpleBuffer.Trimmed.consume hvalid (i + 2)
      rw [react_setReceive] at hpass
      cases hpass
      exact ⟨hcut.max_eq, hcut.cap_eq, hcut.offsets⟩

/-- **The dispatch** leaves what is behind the last delimiter, consumes the
rest, and leaves the connection open unless the callback closes it. -/
theorem dispatchLoop_spec (callback : Callback) (fuel : ℕ) :
    ∀ {s : SocketChatImpl} (past : List CString), s.mReceiveBuffer.Valid →
    s.mReceiveBuffer.getData.length ≤ fuel →
    let r := (s.dispatchLoop callback past fuel).1
    r.mReceiveBuffer.Valid ∧ s.mReceiveBuffer.Trimmed r.mReceiveBuffer ∧
    r.mReceiveBuffer.getData = (unframe s.mReceiveBuffer.getData).2 ∧
    (r.mReadyState = .OPEN ↔ s.mReadyState = .OPEN ∧
      callback.closes past
        ((unframe s.mReceiveBuffer.getData).1.map cstring) = false) := by
  induction fuel with
  | zero =>
      intro s past h hfuel r
      have hfree : Free s.mReceiveBuffer.getData :=
        Framing.Free.of_length_lt_two (by omega)
      have hcut : unframe s.mReceiveBuffer.getData =
          ([], s.mReceiveBuffer.getData) := Framing.unframe_of_free hfree
      rw [hcut]
      exact ⟨h, .refl _, rfl, by simp [r, dispatchLoop, Callback.closes]⟩
  | succ fuel ih =>
      intro s past h hfuel r
      rcases dispatchPass_spec h callback past with
        ⟨hnone, hfree⟩ | ⟨seg, b, hb, hfree, hcut, hsome⟩
      · have hcut : unframe s.mReceiveBuffer.getData =
            ([], s.mReceiveBuffer.getData) := Framing.unframe_of_free hfree
        have hr : r = s := by simp only [r, dispatchLoop, hnone]
        rw [hcut, hr]
        exact ⟨h, .refl _, rfl, by simp [Callback.closes]⟩
      · have hkeep := react_receiveBuffer s b
          (callback (past ++ [cstring seg]))
        have htrim := dispatchPass_trimmed h hsome
        have hlen := congrArg List.length hcut
        simp only [List.length_append, List.length_cons] at hlen
        obtain ⟨hvalid, htrim', hdata, hready⟩ :=
          ih (past ++ [cstring seg])
            (show SimpleBuffer.Valid _ from hkeep.symm ▸ hb)
            (by rw [hkeep]; omega)
        have hr : r = ((react { s with mReceiveBuffer := b }
            (callback (past ++ [cstring seg]))).1.dispatchLoop callback
              (past ++ [cstring seg]) fuel).1 := by
          simp only [r, dispatchLoop, hsome]
        have hmore : unframe s.mReceiveBuffer.getData =
            (seg :: (unframe b.getData).1, (unframe b.getData).2) := by
          rw [hcut]
          exact Framing.unframe_append (by decide) hfree b.getData
        rw [hkeep] at hdata hready
        rw [hr, hmore]
        refine ⟨hvalid, htrim.trans htrim' hvalid, hdata, ?_⟩
        rw [hready, react_open_iff, List.map_cons, Callback.closes,
          Bool.or_eq_false_iff, and_assoc]

theorem dispatchBinary_spec (h : s.mReceiveBuffer.Valid)
    (callback : Callback) :
    let r := (s.dispatchBinary callback).1
    r.mReceiveBuffer.Valid ∧ s.mReceiveBuffer.Trimmed r.mReceiveBuffer ∧
    r.mReceiveBuffer.getData = (unframe s.mReceiveBuffer.getData).2 ∧
    (r.mReadyState = .OPEN ↔ s.mReadyState = .OPEN ∧
      callback.closes []
        ((unframe s.mReceiveBuffer.getData).1.map cstring) = false) :=
  dispatchLoop_spec callback _ [] h (by rw [SimpleBuffer.length_getData])

theorem dispatch_doubled (h : s.mReceiveBuffer.Doubled DEFAULT_MAX_READ_SIZE)
    (callback : Option Callback) :
    (s.dispatch callback).1.mReceiveBuffer.Doubled DEFAULT_MAX_READ_SIZE ∧
    (s.dispatch callback).1.mReceiveBuffer.mMaxGrowSize =
      s.mReceiveBuffer.mMaxGrowSize := by
  cases callback with
  | none => exact ⟨h, rfl⟩
  | some callback =>
      obtain ⟨hvalid, htrim, -⟩ := dispatchBinary_spec h.valid callback
      exact ⟨h.trimmed htrim hvalid, htrim.cap_eq⟩

/-- **Room after the dispatch**: there was enough, or the messages dispatched,
with the bytes reserved in front of them, are longer than one read. -/
theorem dispatchBinary_room_iff
    (h : s.mReceiveBuffer.Doubled DEFAULT_MAX_READ_SIZE)
    (callback : Callback) :
    let data := s.mReceiveBuffer.getData
    let lost := s.mReceiveBuffer.reserved DEFAULT_MAX_READ_SIZE
    ((s.dispatchBinary callback).1.mReceiveBuffer.confirmCapacity
        DEFAULT_MAX_READ_SIZE).1.isSome ↔
      lost + data.length + DEFAULT_MAX_READ_SIZE ≤
          s.mReceiveBuffer.mMaxGrowSize ∨
        DEFAULT_MAX_READ_SIZE < lost +
          (data.length - (unframe data).2.length) := by
  obtain ⟨hvalid, htrim, hrest, -⟩ := dispatchBinary_spec h.valid callback
  have hdoubled := h.trimmed htrim hvalid
  have hroom := h.hasRoom_trimmed_iff htrim hvalid
  rw [← hdoubled.confirmCapacity_isSome_iff (by decide),
    ← SimpleBuffer.length_getData, ← SimpleBuffer.length_getData,
    hrest] at hroom
  exact hroom

/-! ## The whole poll -/

theorem finishClosing_of_open (h : s.mReadyState = .OPEN) :
    s.finishClosing = (s, []) := by
  have hnot : ¬ (s.mTransmitBuffer.getSize = 0 ∧ s.mReadyState = .CLOSING) := by
    simp [h]
  rw [finishClosing, if_neg hnot]

theorem finishClosing_open_iff :
    s.finishClosing.1.mReadyState = .OPEN ↔ s.mReadyState = .OPEN := by
  constructor
  · intro h
    unfold finishClosing at h
    split at h
    · cases h
    · exact h
  · intro h
    rw [finishClosing_of_open h]
    exact h

theorem eq_of_ite_closed {fails : Bool} {state state' : ReadyState}
    (h : state' = if fails then .CLOSED else state)
    (hopen : state' ≠ .CLOSED) : state' = state := by
  cases fails with
  | true => exact absurd h hopen
  | false => exact h

/-- A `poll` refills the receive buffer, and then closes the connection or
gets as far as dispatching. -/
theorem poll_refills (hsocket : s.mSocket ≠ none)
    (hwords : Words s.mTransmitBuffer)
    (h : s.mReceiveBuffer.Doubled DEFAULT_MAX_READ_SIZE)
    (callback : Option Callback) (timeout : ℤ) (io : Answers) :
    ((s.mReadyState = .CLOSED ∨ s.transportFails io = true) ∧
      (s.poll callback timeout io).1.mReadyState = .CLOSED ∧
      SimpleBuffer.Refilled DEFAULT_MAX_READ_SIZE s.mReceiveBuffer
        (s.poll callback timeout io).1.mReceiveBuffer) ∨
    ∃ u : SocketChatImpl, s.transportFails io = false ∧
      u.mReadyState = s.mReadyState ∧
      SimpleBuffer.Refilled DEFAULT_MAX_READ_SIZE s.mReceiveBuffer
        u.mReceiveBuffer ∧
      u.mReceiveBuffer.getData = s.mReceiveBuffer.getData ++
        (incoming s.mReceiveBuffer io.recvs).1 ∧
      (s.poll callback timeout io).1 =
        (u.finishClosing.1.dispatch callback).1 := by
  obtain ⟨hready, -, -, hdata, htx⟩ := receiveLoop_spec io.recvs h.valid
  have hfill := receiveLoop_refilled io.recvs h
  obtain ⟨hready', -, hrx, -⟩ := transmitLoop_spec io.sends
    (s := (s.receiveLoop io.recvs).1) (htx.symm ▸ hwords)
  rcases poll_cases s callback timeout io with
    ⟨hnone, -⟩ | ⟨-, hclosed, heq⟩ | ⟨hlive, hread, heq⟩ |
    ⟨t, es, hlive, hread, hopen, hsend, heq⟩ |
    ⟨t, es, u, es', hlive, hread, hopen, hsend, hopen', heq⟩
  · exact absurd hnone hsocket
  · rw [heq]
    exact Or.inl ⟨Or.inl hclosed, hclosed, h.refl⟩
  · have hfails := (transportFails_iff h.valid hwords hlive.notClosed io).mpr
      (Or.inl hread)
    rw [heq]
    exact Or.inl ⟨Or.inr hfails, hread, hfill⟩
  · rw [hread] at hfill hrx
    have hfails := (transportFails_iff h.valid hwords hlive.notClosed io).mpr
      (Or.inr (by rw [hread]; exact hsend))
    refine Or.inl ⟨Or.inr hfails, ?_, ?_⟩
    · rw [heq]
      exact hsend
    · rw [heq]
      show SimpleBuffer.Refilled _ _ (t.transmitLoop io.sends).1.mReceiveBuffer
      rw [hrx]
      exact hfill
  · have hiff := transportFails_iff h.valid hwords hlive.notClosed io
    rw [hread, hsend] at hiff
    have hfails : s.transportFails io = false := by
      rw [← Bool.not_eq_true, hiff]
      exact fun hor => hor.elim hopen hopen'
    rw [hread] at hfill hrx hready hready' hdata
    rw [hsend] at hrx hready'
    have hsame : u.mReadyState = s.mReadyState :=
      (eq_of_ite_closed hready' hopen').trans (eq_of_ite_closed hready hopen)
    have hkeep : u.mReceiveBuffer = t.mReceiveBuffer := hrx
    refine Or.inr ⟨u, hfails, hsame, ?_, ?_, by rw [heq]⟩
    · rw [hkeep]
      exact hfill
    · rw [hkeep]
      exact hdata

theorem complete_of_open (hsocket : s.mSocket ≠ none)
    (hopen : s.mReadyState = .OPEN) {io : Answers}
    (hruns : s.transportFails io = false) :
    s.complete io = (unframe (s.mReceiveBuffer.getData ++
      (incoming s.mReceiveBuffer io.recvs).1)).1.map cstring := by
  have hnot : ¬ (s.mSocket.isNone ∨ s.mReadyState = .CLOSED ∨
      s.transportFails io) := by
    rw [Option.isNone_iff_eq_none, hopen, hruns]
    simp [hsocket]
  rw [complete, if_neg hnot]

/-- No call makes the receive buffer anything but a doubled one. -/
theorem exec_doubled (hsocket : s.mSocket ≠ none)
    (hwords : Words s.mTransmitBuffer)
    (h : s.mReceiveBuffer.Doubled DEFAULT_MAX_READ_SIZE) (call : ApiCall) :
    (s.exec call).1.mReceiveBuffer.Doubled DEFAULT_MAX_READ_SIZE ∧
    (s.exec call).1.mReceiveBuffer.mMaxGrowSize =
      s.mReceiveBuffer.mMaxGrowSize := by
  cases call with
  | sendText str => exact ⟨h, rfl⟩
  | close =>
      show s.close.1.mReceiveBuffer.Doubled _ ∧
        s.close.1.mReceiveBuffer.mMaxGrowSize = _
      rw [close_receiveBuffer]
      exact ⟨h, rfl⟩
  | poll callback timeout io =>
      show (s.poll callback timeout io).1.mReceiveBuffer.Doubled _ ∧
        (s.poll callback timeout io).1.mReceiveBuffer.mMaxGrowSize = _
      rcases poll_refills hsocket hwords h callback timeout io with
        ⟨-, -, hfill⟩ | ⟨u, -, -, hfill, -, heq⟩
      · exact ⟨hfill.doubled, hfill.cap_eq⟩
      · have hrx := u.finishClosing_receiveBuffer
        obtain ⟨hdoubled, hcap⟩ := dispatch_doubled (s := u.finishClosing.1)
          (hrx.symm ▸ hfill.doubled) callback
        rw [heq]
        exact ⟨hdoubled, hcap.trans (hrx.symm ▸ hfill.cap_eq)⟩

/-- After a `poll` with a callback that leaves the connection open, the next
one can call `receive`. -/
def KeepsReading (s : SocketChatImpl) : ApiCall → Prop
  | .poll (some callback) timeout io =>
      let t := (s.poll (some callback) timeout io).1
      t.mReadyState = .OPEN →
        (t.mReceiveBuffer.confirmCapacity DEFAULT_MAX_READ_SIZE).1.isSome
  | _ => True

/-- Unless the connection is closed in it, a `poll` with a callback finds room
for one more read behind the bytes in the receive buffer and those it reads;
or the messages it dispatches, with the bytes reserved in front of them, are
longer than one read. -/
def LeavesRoom (s : SocketChatImpl) : ApiCall → Prop
  | .poll (some callback) _ io =>
      let lost := s.mReceiveBuffer.reserved DEFAULT_MAX_READ_SIZE
      let data := s.mReceiveBuffer.getData ++
        (incoming s.mReceiveBuffer io.recvs).1
      s.mReadyState = .OPEN → s.transportFails io = false →
      callback.closes [] (s.complete io) = false →
      lost + data.length + DEFAULT_MAX_READ_SIZE ≤
          DEFAULT_MAXIMUM_BUFFER_SIZE ∨
        DEFAULT_MAX_READ_SIZE < lost +
          (data.length - (unframe data).2.length)
  | _ => True

/-- **One poll.** -/
theorem poll_keepsReading_iff (hsocket : s.mSocket ≠ none)
    (hwords : Words s.mTransmitBuffer)
    (h : s.mReceiveBuffer.Doubled DEFAULT_MAX_READ_SIZE)
    (hcap : s.mReceiveBuffer.mMaxGrowSize = DEFAULT_MAXIMUM_BUFFER_SIZE)
    (call : ApiCall) : s.KeepsReading call ↔ s.LeavesRoom call := by
  match call with
  | .sendText str => exact Iff.rfl
  | .close => exact Iff.rfl
  | .poll none timeout io => exact Iff.rfl
  | .poll (some callback) timeout io =>
      rcases poll_refills hsocket hwords h (some callback) timeout io with
        ⟨hshut, hclosed, -⟩ | ⟨u, hfails, hsame, hfill, hdata, heq⟩
      · have hkeeps : s.KeepsReading (.poll (some callback) timeout io) := by
          intro hopen
          rw [hopen] at hclosed
          cases hclosed
        have hleaves : s.LeavesRoom (.poll (some callback) timeout io) := by
          intro hopen hruns
          rcases hshut with hshut | hshut
          · rw [hopen] at hshut
            cases hshut
          · rw [hruns] at hshut
            cases hshut
        exact iff_of_true hkeeps hleaves
      · have hrx := u.finishClosing_receiveBuffer
        obtain ⟨-, -, -, hready⟩ :=
          dispatchBinary_spec (s := u.finishClosing.1)
            (hrx.symm ▸ hfill.doubled.valid) callback
        rw [hrx, hdata, finishClosing_open_iff, hsame] at hready
        have hroom := dispatchBinary_room_iff (s := u.finishClosing.1)
          (hrx.symm ▸ hfill.doubled) callback
        rw [hrx, hdata, hfill.reserved_eq, hfill.cap_eq, hcap] at hroom
        constructor
        · intro hkeeps hopen _ hquiet
          rw [complete_of_open hsocket hopen hfails] at hquiet
          have hstays := hready.mpr ⟨hopen, hquiet⟩
          rw [KeepsReading, heq] at hkeeps
          exact hroom.mp (hkeeps hstays)
        · intro hleaves
          rw [KeepsReading, heq]
          intro hstays
          obtain ⟨hopen, hquiet⟩ := hready.mp hstays
          rw [← complete_of_open hsocket hopen hfails] at hquiet
          exact hroom.mpr (hleaves hopen hfails hquiet)

/-! ## A connection that has stalled -/

/-- There is no room for a read, and no complete message to make some. -/
structure Stalled (s : SocketChatImpl) : Prop where
  full : ¬ s.mReceiveBuffer.HasRoom DEFAULT_MAX_READ_SIZE
  free : Free s.mReceiveBuffer.getData

/-- A `poll` that leaves no room for the next one leaves the connection
stalled. -/
theorem stalled_of_not_keepsReading (hsocket : s.mSocket ≠ none)
    (hwords : Words s.mTransmitBuffer)
    (h : s.mReceiveBuffer.Doubled DEFAULT_MAX_READ_SIZE) {call : ApiCall}
    (hnot : ¬ s.KeepsReading call) : (s.exec call).1.Stalled := by
  match call with
  | .sendText str => exact absurd trivial hnot
  | .close => exact absurd trivial hnot
  | .poll none timeout io => exact absurd trivial hnot
  | .poll (some callback) timeout io =>
      rcases poll_refills hsocket hwords h (some callback) timeout io with
        ⟨-, hclosed, -⟩ | ⟨u, -, -, hfill, -, heq⟩
      · refine absurd (fun hopen => ?_) hnot
        rw [hopen] at hclosed
        cases hclosed
      · have hrx := u.finishClosing_receiveBuffer
        have hready : u.finishClosing.1.mReceiveBuffer.Doubled
            DEFAULT_MAX_READ_SIZE := hrx.symm ▸ hfill.doubled
        obtain ⟨-, -, hrest, -⟩ := dispatchBinary_spec hready.valid callback
        have hdoubled := (dispatch_doubled hready (some callback)).1
        have hnone : ¬ ((s.poll (some callback) timeout io).1.mReceiveBuffer
            |>.confirmCapacity DEFAULT_MAX_READ_SIZE).1.isSome :=
          fun hsome => hnot fun _ => hsome
        show (s.poll (some callback) timeout io).1.Stalled
        rw [heq] at hnone ⊢
        rw [hdoubled.confirmCapacity_isSome_iff (by decide)] at hnone
        have hfree : Free
            (unframe u.finishClosing.1.mReceiveBuffer.getData).2 :=
          Framing.unframe_snd_free _
        rw [← hrest] at hfree
        exact ⟨hnone, hfree⟩

theorem receiveLoop_full (h : s.mReceiveBuffer.Valid)
    (hfull : ¬ s.mReceiveBuffer.HasRoom DEFAULT_MAX_READ_SIZE)
    (answers : List Received) : s.receiveLoop answers = (s, []) := by
  cases answers with
  | nil => rw [receiveLoop, receivePass_full h hfull]
  | cons answer answers =>
      rw [receiveLoop, receivePass_full h hfull]
      rfl

theorem dispatch_free (h : s.mReceiveBuffer.Valid)
    (hfree : Free s.mReceiveBuffer.getData) (callback : Option Callback) :
    (s.dispatch callback).1.mReceiveBuffer = s.mReceiveBuffer := by
  cases callback with
  | none => rfl
  | some callback =>
      show (s.dispatchLoop callback [] s.mReceiveBuffer.getSize).1.mReceiveBuffer
        = _
      cases s.mReceiveBuffer.getSize with
      | zero => rfl
      | succ fuel =>
          rw [dispatchLoop]
          rcases dispatchPass_spec h callback [] with
            ⟨hnone, -⟩ | ⟨seg, b, -, -, hcut, -⟩
          · rw [hnone]
          · exact absurd ⟨seg, b.getData, by simp [hcut]⟩ hfree

/-- **A stalled connection** does not call `receive`, and stays as it is. -/
theorem exec_stalled (h : s.mReceiveBuffer.Valid)
    (hwords : Words s.mTransmitBuffer) (hstalled : s.Stalled)
    (call : ApiCall) :
    (s.exec call).1.mReceiveBuffer = s.mReceiveBuffer ∧
    (s.exec call).2.countP Event.asksForData = 0 := by
  cases call with
  | sendText str => exact ⟨rfl, rfl⟩
  | close =>
      refine ⟨s.close_receiveBuffer, ?_⟩
      show s.close.2.countP _ = 0
      unfold close
      split <;> rfl
  | poll callback timeout io =>
      show (s.poll callback timeout io).1.mReceiveBuffer = _ ∧
        (s.poll callback timeout io).2.countP _ = 0
      have hread := receiveLoop_full h hstalled.full io.recvs
      have hrx := (transmitLoop_spec io.sends hwords).2.2.1
      have hquiet : (s.transmitLoop io.sends).2.countP
          Event.asksForData = 0 :=
        countP_eq_zero_of_kind (s.transmitLoop_events io.sends)
          (fun e he => by cases e <;> trivial)
      rcases poll_cases s callback timeout io with
        ⟨-, heq⟩ | ⟨-, -, heq⟩ | ⟨-, -, heq⟩ |
        ⟨t, es, -, hread', -, -, heq⟩ |
        ⟨t, es, u, es', -, hread', -, hsend, -, heq⟩
      · rw [heq]
        exact ⟨rfl, rfl⟩
      · rw [heq]
        refine ⟨rfl, ?_⟩
        dsimp only
        split <;> rfl
      · rw [heq, hread]
        exact ⟨rfl, rfl⟩
      · obtain ⟨rfl, rfl⟩ := Prod.mk.inj (hread.symm.trans hread')
        rw [heq]
        exact ⟨hrx, hquiet⟩
      · obtain ⟨rfl, rfl⟩ := Prod.mk.inj (hread.symm.trans hread')
        rw [hsend] at hrx hquiet
        have hkeep := u.finishClosing_receiveBuffer.trans hrx
        have hvalid : u.finishClosing.1.mReceiveBuffer.Valid := hkeep.symm ▸ h
        rw [heq]
        constructor
        · rw [dispatch_free hvalid (hkeep.symm ▸ hstalled.free)]
          exact hkeep
        · have hfinish : u.finishClosing.2.countP Event.asksForData = 0 := by
            unfold finishClosing
            split <;> rfl
          have hdispatch := countP_eq_zero_of_kind (p := Event.asksForData)
            (dispatch_events hvalid callback)
            (fun e he => by cases e <;> trivial)
          simp only [List.nil_append, List.countP_append]
          rw [hquiet, hfinish, hdispatch]

/-! ## A peer that sends no delimiter -/

/-- The most that one `receive` can return, all of it the letter `A`. -/
def fullRead : Received := .bytes 65 (List.replicate 4095 65)

/-- As many full reads arrive as there is room for under the cap. -/
theorem incoming_fullReads (n : ℕ) :
    ∀ {b : SimpleBuffer}, b.Doubled DEFAULT_MAX_READ_SIZE →
    b.reserved DEFAULT_MAX_READ_SIZE = 0 →
    b.getSize + n * DEFAULT_MAX_READ_SIZE ≤ b.mMaxGrowSize →
    incoming b (List.replicate n fullRead) =
      (List.replicate (n * DEFAULT_MAX_READ_SIZE) 65, false) := by
  induction n with
  | zero =>
      intro b _ _ _
      rw [Nat.zero_mul]
      rfl
  | succ n ih =>
      intro b h hzero hle
      rw [Nat.succ_mul] at hle
      have hroom : b.HasRoom DEFAULT_MAX_READ_SIZE := by
        rw [h.hasRoom_iff]
        omega
      have hlen : (List.replicate DEFAULT_MAX_READ_SIZE
          (65 : UInt8)).length = DEFAULT_MAX_READ_SIZE := List.length_replicate
      have hbytes : ((65 : UInt8) :: List.replicate 4095 65).take
          DEFAULT_MAX_READ_SIZE = List.replicate DEFAULT_MAX_READ_SIZE 65 := by
        rw [← List.replicate_succ]
        exact List.take_of_length_le (Nat.le_of_eq hlen)
      have hfill := h.fill (Nat.le_of_eq hlen)
      have hsize := h.getSize_fill (by decide) (Nat.le_of_eq hlen) hroom
      rw [hlen] at hsize
      have hrest := ih hfill.doubled (hfill.reserved_eq.trans hzero)
        (by rw [hsize, hfill.cap_eq]; omega)
      rw [List.replicate_succ, fullRead, incoming, if_pos hroom]
      simp only [hbytes]
      rw [← fullRead, hrest, Nat.succ_mul, Nat.add_comm, List.replicate_add]

end SocketChatImpl

/-! ## Sessions -/

theorem construct_doubled (socket : Option ℕ) :
    (SocketChatImpl.construct socket).mReceiveBuffer.Doubled
      DEFAULT_MAX_READ_SIZE := by
  refine ⟨(construct_valid socket).1, ?_, 15, ?_⟩
  · show 2 * DEFAULT_MAX_READ_SIZE ≤ DEFAULT_RECEIVE_BUFFER_SIZE
    decide
  · show DEFAULT_RECEIVE_BUFFER_SIZE * 2 ^ 15 = DEFAULT_MAXIMUM_BUFFER_SIZE
    decide

theorem session_socket_ne_none {k : ℕ} {t : Session}
    (ht : (session (some k)).Reachable t) : t.chat.mSocket ≠ none := by
  rw [session_socket ht]
  exact Option.some_ne_none k

/-- The receive buffer of a session doubles up to the cap. -/
theorem session_doubled {k : ℕ} {t : Session}
    (ht : (session (some k)).Reachable t) :
    t.chat.mReceiveBuffer.Doubled DEFAULT_MAX_READ_SIZE ∧
    t.chat.mReceiveBuffer.mMaxGrowSize = DEFAULT_MAXIMUM_BUFFER_SIZE := by
  have hinv : (session (some k)).Invariant fun t =>
      t.chat.mReceiveBuffer.Doubled DEFAULT_MAX_READ_SIZE ∧
      t.chat.mReceiveBuffer.mMaxGrowSize = DEFAULT_MAXIMUM_BUFFER_SIZE := by
    constructor
    · rintro t rfl
      exact ⟨construct_doubled _, rfl⟩
    · rintro t call u ht ⟨hdoubled, hcap⟩ rfl
      obtain ⟨hd, hc⟩ := SocketChatImpl.exec_doubled
        (session_socket_ne_none ht) (session_words ht) hdoubled call
      exact ⟨hd, hc.trans hcap⟩
  exact hinv.holds ht

/-- **Once stalled, always stalled.** Whatever is called on it, a stalled
connection never calls `receive` again: it keeps what is in its receive
buffer, and does not notice that the peer closes. -/
theorem session_stalled {socket : Option ℕ} {t u : Session}
    {calls : List ApiCall} (ht : (session socket).Reachable t)
    (hstalled : t.chat.Stalled) (hrun : (session socket).Run t calls u) :
    u.chat.mReceiveBuffer = t.chat.mReceiveBuffer ∧
    u.trace.countP Event.asksForData =
      t.trace.countP Event.asksForData := by
  induction hrun with
  | nil => exact ⟨rfl, rfl⟩
  | @snoc v w calls call hrun hstep ih =>
      obtain ⟨hkeep, hcount⟩ := ih
      obtain rfl : w = v.call call := hstep
      have hv := hrun.reachable ht
      have hstill : v.chat.Stalled :=
        ⟨hkeep.symm ▸ hstalled.full, hkeep.symm ▸ hstalled.free⟩
      obtain ⟨hkeep', hquiet⟩ := SocketChatImpl.exec_stalled
        (session_inbound hv).1 (session_words hv) hstill call
      refine ⟨hkeep'.trans hkeep, ?_⟩
      show (v.trace ++ (v.chat.exec call).2).countP _ = _
      rw [List.countP_append, hquiet, hcount, Nat.add_zero]

/-- A `poll` that leaves no room for the next one is the last to call
`receive`. -/
theorem session_wedged {k : ℕ} {t u : Session} {call : ApiCall}
    {calls : List ApiCall} (ht : (session (some k)).Reachable t)
    (hnot : ¬ t.chat.KeepsReading call)
    (hrun : (session (some k)).Run (t.call call) calls u) :
    u.chat.mReceiveBuffer = (t.call call).chat.mReceiveBuffer ∧
    u.trace.countP Event.asksForData =
      (t.call call).trace.countP Event.asksForData := by
  have hstalled : (t.call call).chat.Stalled :=
    SocketChatImpl.stalled_of_not_keepsReading (session_socket_ne_none ht)
      (session_words ht) (session_doubled ht).1 hnot
  exact session_stalled (ht.step rfl) hstalled hrun

theorem closes_of_silent (past messages : List CString) :
    Callback.closes (fun _ => []) past messages = false := by
  induction messages generalizing past with
  | nil => rfl
  | cons message messages ih =>
      rw [Callback.closes, ih]
      rfl

theorem free_replicate (n : ℕ) : Free (List.replicate n 65) := by
  rw [Free, Framing.free_iff_getElem?]
  rintro i ⟨hcr, -⟩
  have hmem := List.eq_of_mem_replicate (List.mem_of_getElem? hcr)
  exact absurd hmem (by decide)

/-- A new connection reads full reads up to the cap and keeps them all. -/
theorem fullReads_leave_no_room (k : ℕ) {n : ℕ}
    (hle : n * DEFAULT_MAX_READ_SIZE ≤ DEFAULT_MAXIMUM_BUFFER_SIZE)
    (hlt : DEFAULT_MAXIMUM_BUFFER_SIZE <
      n * DEFAULT_MAX_READ_SIZE + DEFAULT_MAX_READ_SIZE) :
    ¬ (SocketChatImpl.construct (some k)).LeavesRoom
      (.poll (some fun _ => []) 0
        ⟨List.replicate n SocketChatImpl.fullRead, []⟩) := by
  intro h
  have hdata : (SocketChatImpl.construct (some k)).mReceiveBuffer.getData =
      [] := SimpleBuffer.create_getData ..
  have hzero : (SocketChatImpl.construct (some k)).mReceiveBuffer.reserved
      DEFAULT_MAX_READ_SIZE = 0 := rfl
  have hin := SocketChatImpl.incoming_fullReads n (construct_doubled (some k))
    hzero (by
      rw [← SimpleBuffer.length_getData, hdata, List.length_nil, Nat.zero_add]
      exact hle)
  have hruns : (SocketChatImpl.construct (some k)).transportFails
      ⟨List.replicate n SocketChatImpl.fullRead, []⟩ = false := by
    rw [SocketChatImpl.transportFails, hin]
    cases (SocketChatImpl.construct (some k)).mTransmitBuffer.getSize <;> rfl
  have hcut := Framing.unframe_of_free
    (free_replicate (n * DEFAULT_MAX_READ_SIZE))
  have hroom := h rfl hruns (closes_of_silent _ _)
  rw [hdata, List.nil_append, hin, hzero, unframe, hcut,
    List.length_replicate, Nat.sub_self, Nat.zero_add] at hroom
  rcases hroom with hroom | hroom
  · exact absurd hroom (Nat.not_le_of_lt hlt)
  · exact absurd hroom (Nat.not_lt_zero _)

/-- **When a connection goes on reading.** In any sequence of calls, every
`poll` with a callback that leaves the connection open leaves room for the
next one to read exactly when every such `poll` holds one read less than the
cap, counting the bytes reserved in front, or dispatches more than one read
with these. -/
theorem polls_keep_reading_iff (k : ℕ) (calls : List ApiCall) :
    Along (fun s call => (s.exec call).1) SocketChatImpl.KeepsReading
      (.construct (some k)) calls ↔
    Along (fun s call => (s.exec call).1) SocketChatImpl.LeavesRoom
      (.construct (some k)) calls := by
  have hany : Along (fun s call => (s.exec call).1)
      (fun (_ : SocketChatImpl) (_ : ApiCall) => True)
      (.construct (some k)) calls := .of_forall fun _ _ => trivial
  refine along_iff
    (I := fun s => ∃ t, (session (some k)).Reachable t ∧ t.chat = s)
    ?_ ?_ ⟨⟨.construct (some k), []⟩, .of_init rfl, rfl⟩ hany
  · rintro s call ⟨t, ht, rfl⟩ -
    obtain ⟨hdoubled, hcap⟩ := session_doubled ht
    exact SocketChatImpl.poll_keepsReading_iff (session_socket_ne_none ht)
      (session_words ht) hdoubled hcap call
  · rintro s call ⟨t, ht, rfl⟩ - -
    exact ⟨t.call call, ht.step rfl, rfl⟩

/-- The peer sends 2^29 bytes without a delimiter: the `poll` that reads the
last of them leaves the connection open and the receive buffer full. -/
theorem polls_fill_buffer :
    ¬ Along (fun s call => (s.exec call).1) SocketChatImpl.KeepsReading
      (.construct (some 0))
      [.poll (some fun _ => []) 0
        ⟨List.replicate 131072 SocketChatImpl.fullRead, []⟩] := by
  rintro ⟨hkeeps, -⟩
  have ht : (session (some 0)).Reachable ⟨.construct (some 0), []⟩ :=
    .of_init rfl
  obtain ⟨hdoubled, hcap⟩ := session_doubled ht
  rw [SocketChatImpl.poll_keepsReading_iff (session_socket_ne_none ht)
    (session_words ht) hdoubled hcap] at hkeeps
  exact fullReads_leave_no_room 0 (by decide) (by decide) hkeeps

end Socketchat.Chat
