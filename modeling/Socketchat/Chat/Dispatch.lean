import Socketchat.Chat.Activity

/-!
# Dispatching

`_dispatchBinary` overwrites the carriage return of the leftmost delimiter
with a zero, passes the start of the buffer to the callback as a string and
consumes the message. What the callback calls on the connection meanwhile
touches the ready state and the transmit buffer only, so a pass is a
`deliver` followed by those calls, and the loop leaves no delimiter behind.
-/

namespace Socketchat.Chat

open Foundation Buffer

namespace SocketChatImpl

/-! ## The scan -/

theorem messageEnd_eq_none {data : List UInt8} (h : messageEnd data = none) :
    Free data := by
  rw [Free, Framing.free_iff_getElem?]
  rintro i ⟨hcr, hlf⟩
  have hi := (List.getElem?_eq_some_iff.mp hlf).1
  have hscan := List.find?_range_eq_none.mp h i (by omega)
  simp [hcr, hlf] at hscan

theorem messageEnd_eq_some {data : List UInt8} {i : ℕ}
    (h : messageEnd data = some i) :
    data = data.take i ++ 13 :: 10 :: data.drop (i + 2) ∧ Free (data.take i) ∧
    i + 2 ≤ data.length := by
  obtain ⟨hhit, -, hbefore⟩ := List.find?_range_eq_some.mp h
  simp only [Bool.and_eq_true, beq_iff_eq] at hhit
  obtain ⟨hcr, hlf⟩ := hhit
  have hi := (List.getElem?_eq_some_iff.mp hlf).1
  refine ⟨Framing.eq_take_append_drop hcr hlf, ?_, hi⟩
  rw [Free, Framing.free_iff_getElem?]
  rintro j ⟨hj, hj'⟩
  -- a delimiter among the first `i` bytes would have been found before `i`
  have hlt : j + 1 < i := by
    have := (List.getElem?_eq_some_iff.mp hj').1
    rw [List.length_take] at this
    omega
  rw [List.getElem?_take_of_lt (by omega)] at hj hj'
  have hmiss := hbefore j (by omega)
  simp [hj, hj'] at hmiss

/-! ## The message -/

/-- Overwriting a byte of the data in place. -/
theorem store_data {b : SimpleBuffer} (h : b.Valid) {i : ℕ} {x : UInt8}
    (hi : i < b.getData.length) :
    (b.store (b.mStartLoc + i) [x]).Valid ∧
    (b.store (b.mStartLoc + i) [x]).getData =
      b.getData.take i ++ x :: b.getData.drop (i + 1) := by
  rw [SimpleBuffer.length_getData] at hi
  have hsize := h.getSize_eq
  have hend := h.end_le
  have hfit : b.block.Fits (b.mStartLoc + i) [x].length := by
    have := h.size_eq
    simp only [Block.Fits, List.length_singleton]
    omega
  have hblock := SimpleBuffer.store_block hfit
  refine ⟨⟨h.start_le, h.end_le, h.max_le, h.grow_le, ?_, ?_⟩, ?_⟩
  · rw [hblock, Block.size_copy]
    exact h.size_eq
  · rw [SimpleBuffer.store_overrun hfit]
    exact h.intact
  · show (b.store (b.mStartLoc + i) [x]).block.read b.mStartLoc b.getSize = _
    have hone : [x].length = 1 := rfl
    have hback : (b.block.copy (b.mStartLoc + i) [x]).read
        (b.mStartLoc + i) 1 = [x] := Block.read_copy_self ..
    have hbefore : (b.block.copy (b.mStartLoc + i) [x]).read b.mStartLoc i =
        b.block.read b.mStartLoc i :=
      Block.read_copy_of_disjoint b.block (Or.inl (Nat.le_refl _))
    have hafter : (b.block.copy (b.mStartLoc + i) [x]).read
        (b.mStartLoc + (i + 1)) (b.getSize - (i + 1)) =
        b.block.read (b.mStartLoc + (i + 1)) (b.getSize - (i + 1)) :=
      Block.read_copy_of_disjoint b.block (Or.inr (by rw [hone]; omega))
    have hsplit : b.getSize = i + (1 + (b.getSize - (i + 1))) := by omega
    rw [hblock, SimpleBuffer.getData, Block.read_take _ _ _ _ (by omega),
      Block.read_drop _ _ _ _ (by omega)]
    conv_lhs => rw [hsplit]
    rw [Block.read_append, Block.read_append, hbefore, hback,
      Nat.add_assoc, hafter]
    rfl

/-! ## The callback -/

variable {s : SocketChatImpl}

/-- What a callback calls neither reads nor writes the receive buffer. -/
theorem react_setReceive (s : SocketChatImpl) (b : SimpleBuffer)
    (calls : List Call) :
    react { s with mReceiveBuffer := b } calls =
      ({ (react s calls).1 with mReceiveBuffer := b }, (react s calls).2) := by
  induction calls generalizing s with
  | nil => rfl
  | cons call calls ih =>
      cases call with
      | sendText str =>
          have hsend : sendText { s with mReceiveBuffer := b } str =
              ({ (s.sendText str).1 with mReceiveBuffer := b },
                (s.sendText str).2) := rfl
          simp only [react, hsend, ih]
      | close =>
          have hclose : close { s with mReceiveBuffer := b } =
              ({ s.close.1 with mReceiveBuffer := b }, s.close.2) := by
            simp only [close]
            split <;> rfl
          simp only [react, hclose, ih]

theorem react_receiveBuffer (s : SocketChatImpl) (b : SimpleBuffer)
    (calls : List Call) :
    (react { s with mReceiveBuffer := b } calls).1.mReceiveBuffer = b := by
  rw [react_setReceive]

theorem sendText_emits (s : SocketChatImpl) (str : Option CString) :
    activity.Emits s (s.sendText str).2 (s.sendText str).1 :=
  (Act.queue str).emits

theorem close_emits (s : SocketChatImpl) :
    activity.Emits s s.close.2 s.close.1 := by
  unfold close
  by_cases h : s.mReadyState = .CLOSING ∨ s.mReadyState = .CLOSED
  · rw [if_pos h]
    exact .refl s
  · rw [if_neg h]
    rw [not_or] at h
    exact (Act.requestClose h.1 h.2).emits

theorem react_emits (s : SocketChatImpl) (calls : List Call) :
    activity.Emits s (react s calls).2 (react s calls).1 := by
  induction calls generalizing s with
  | nil => exact .refl s
  | cons call calls ih =>
      cases call with
      | sendText str => exact (sendText_emits s str).trans (ih _)
      | close => exact (close_emits s).trans (ih _)

/-! ## The loop -/

/-- **One pass.** Either no delimiter is in the buffer, or the leftmost
message is delivered, the callback's calls are made, and the message and its
delimiter are gone. -/
theorem dispatchPass_spec (h : s.mReceiveBuffer.Valid) (callback : Callback)
    (past : List CString) :
    (s.dispatchPass callback past = none ∧ Free s.mReceiveBuffer.getData) ∨
    ∃ (seg : List UInt8) (b : SimpleBuffer), b.Valid ∧ Free seg ∧
      s.mReceiveBuffer.getData = seg ++ 13 :: 10 :: b.getData ∧
      s.dispatchPass callback past = some (cstring seg,
        (react { s with mReceiveBuffer := b }
          (callback (past ++ [cstring seg]))).1,
        .delivered (cstring seg) ::
          (react { s with mReceiveBuffer := b }
            (callback (past ++ [cstring seg]))).2) := by
  by_cases hshort : s.mReceiveBuffer.getData.length < 2
  · refine Or.inl ⟨?_, Framing.Free.of_length_lt_two hshort⟩
    simp only [dispatchPass, if_pos hshort]
  cases hend : messageEnd s.mReceiveBuffer.getData with
  | none =>
      refine Or.inl ⟨?_, messageEnd_eq_none hend⟩
      simp only [dispatchPass, if_neg hshort, hend]
  | some i =>
      obtain ⟨hcut, hfree, hlen⟩ := messageEnd_eq_some hend
      obtain ⟨hvalid, hdata⟩ := store_data h (x := 0) (i := i) (by omega)
      obtain ⟨hvalid', hrest, -⟩ := SimpleBuffer.consume_spec hvalid (i + 2)
      refine Or.inr ⟨s.mReceiveBuffer.getData.take i, _, hvalid', hfree, ?_, ?_⟩
      · have hfront : (s.mReceiveBuffer.getData.take i).length = i := by
          rw [List.length_take]
          omega
        have hskip : i + 2 - i = 2 := by omega
        rw [hrest, hdata, List.drop_append, hfront, hskip,
          List.drop_eq_nil_of_le (by omega), List.nil_append,
          List.drop_succ_cons, List.drop_drop]
        exact hcut
      · have hmessage : cstring (s.mReceiveBuffer.store
            (s.mReceiveBuffer.mStartLoc + i) [0]).getData =
            cstring (s.mReceiveBuffer.getData.take i) := by
          rw [hdata, cstring_terminated]
        simp only [dispatchPass, if_neg hshort, hend, hmessage,
          react_setReceive]

theorem dispatchLoop_emits (callback : Callback) (fuel : ℕ) :
    ∀ {s : SocketChatImpl} (past : List CString), s.mReceiveBuffer.Valid →
    activity.Emits s (s.dispatchLoop callback past fuel).2
      (s.dispatchLoop callback past fuel).1 := by
  induction fuel with
  | zero => exact fun _ _ => .refl _
  | succ fuel ih =>
      intro s past h
      rw [dispatchLoop]
      rcases dispatchPass_spec h callback past with
        ⟨hnone, -⟩ | ⟨seg, b, hb, hfree, hcut, hsome⟩
      · rw [hnone]
        exact .refl s
      · rw [hsome]
        have hdeliver := (Act.deliver b seg hb hfree hcut).emits
        have hreact := react_emits { s with mReceiveBuffer := b }
          (callback (past ++ [cstring seg]))
        have hpass := hdeliver.trans hreact
        exact hpass.trans (ih _ (activity_valid hpass h))

/-- The loop ends because no message is left. -/
theorem dispatchLoop_free (callback : Callback) (fuel : ℕ) :
    ∀ {s : SocketChatImpl} (past : List CString), s.mReceiveBuffer.Valid →
    s.mReceiveBuffer.getData.length ≤ fuel →
    Free (s.dispatchLoop callback past fuel).1.mReceiveBuffer.getData := by
  induction fuel with
  | zero =>
      intro s past _ hfuel
      show Free s.mReceiveBuffer.getData
      exact Framing.Free.of_length_lt_two (by omega)
  | succ fuel ih =>
      intro s past h hfuel
      rw [dispatchLoop]
      rcases dispatchPass_spec h callback past with
        ⟨hnone, hfree⟩ | ⟨seg, b, hb, hfree, hcut, hsome⟩
      · rw [hnone]
        exact hfree
      · rw [hsome]
        have hkeep := react_receiveBuffer s b
            (callback (past ++ [cstring seg]))
        refine ih _ (by rw [hkeep]; exact hb) ?_
        have hlen := congrArg List.length hcut
        simp only [List.length_append, List.length_cons] at hlen
        rw [hkeep]
        omega

theorem dispatchBinary_emits (h : s.mReceiveBuffer.Valid)
    (callback : Callback) :
    activity.Emits s (s.dispatchBinary callback).2
      (s.dispatchBinary callback).1 :=
  dispatchLoop_emits callback _ [] h

theorem dispatchBinary_free (h : s.mReceiveBuffer.Valid)
    (callback : Callback) :
    Free (s.dispatchBinary callback).1.mReceiveBuffer.getData :=
  dispatchLoop_free callback _ [] h (by rw [SimpleBuffer.length_getData])

end SocketChatImpl

end Socketchat.Chat
