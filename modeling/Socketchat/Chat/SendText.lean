import Socketchat.Buffer.Extent
import Socketchat.Chat.Streams

/-!
# `sendText` is two appends

The text and its delimiter are appended one after the other, and neither result
is looked at. So a text that finds no room may be followed by a delimiter that
does, a text that does may lack its delimiter, and the length of the text is
taken modulo `2^32`. `SendsWhole` says, from the extent of the transmit buffer
and the length of the text, when none of this happens.
-/

namespace Socketchat.Chat

open Foundation Buffer

/-- No copy leaves its block, and the pending bytes are what they were or have
grown by exactly the text and its delimiter. -/
def AllOrNothing (s : SocketChatImpl) (str : Option CString) : Prop :=
  let b := (s.sendText str).1.mTransmitBuffer
  b.overrun = false ∧
    (b.getData = s.mTransmitBuffer.getData ++
        ((SocketChatImpl.textOf str).val ++ [13, 10]) ∨
      b.getData = s.mTransmitBuffer.getData)

/-- For a text of length `len`: both appends find room and the length fits in
32 bits; or neither finds any, the first leaving the data in its block; or the
length is zero modulo `2^32` and there is no room for the delimiter. -/
def SendsWhole (e : Extent) (cap len : ℕ) : Prop :=
  let n := toU32 len
  (len < 4294967296 ∧ e.HasRoom cap n ∧ (e.append n).HasRoom cap 2) ∨
  (¬ e.HasRoom cap n ∧ e.stop - e.start ≤ (e.refuse cap n).len ∧
    ¬ (e.refuse cap n).HasRoom cap 2) ∨
  (n = 0 ∧ ¬ e.HasRoom cap 2)

instance (e : Extent) (cap len : ℕ) : Decidable (SendsWhole e cap len) :=
  inferInstanceAs (Decidable (_ ∨ _))

namespace SocketChatImpl

variable {s : SocketChatImpl}

/-- The delimiter, appended to any buffer: it is there in full or not at all,
as there is room. -/
theorem addBuffer_delimiter {b : SimpleBuffer} (h : b.Valid) :
    (b.addBuffer (some [13, 10]) 2).2.overrun = false ∧
    (b.addBuffer (some [13, 10]) 2).2.getData =
      b.getData ++
        if b.extent.HasRoom b.mMaxGrowSize 2 then [13, 10] else [] := by
  have hlen : 2 ≤ ([13, 10] : List UInt8).length := Nat.le_refl 2
  have hintact := SimpleBuffer.addBuffer_intact h (by decide) hlen
  obtain ⟨-, hiff, hdata, -⟩ :=
    SimpleBuffer.addBuffer_spec h (by decide) hlen hintact
  rw [SimpleBuffer.hasRoom_iff] at hiff
  refine ⟨hintact, ?_⟩
  rw [hdata]
  by_cases hroom : b.extent.HasRoom b.mMaxGrowSize 2
  · rw [if_pos (hiff.mpr hroom), if_pos hroom]
    rfl
  · rw [if_neg (fun htrue => hroom (hiff.mp htrue)), if_neg hroom,
      List.append_nil]

theorem sendText_transmitBuffer (h : s.mTransmitBuffer.Valid)
    (str : Option CString) :
    (s.sendText str).1.mTransmitBuffer =
      ((s.mTransmitBuffer.addBuffer (some (textOf str).val)
        (toU32 (textOf str).val.length)).2.addBuffer (some [13, 10]) 2).2 := by
  rw [← sendText_addBuffer h]
  rfl

/-- If the text finds room, its first `len mod 2^32` bytes are appended, and
the delimiter after them if there is still room. -/
theorem sendText_of_room (h : s.mTransmitBuffer.Valid) (str : Option CString)
    (hroom : s.mTransmitBuffer.HasRoom (toU32 (textOf str).val.length)) :
    let n := toU32 (textOf str).val.length
    let b := (s.sendText str).1.mTransmitBuffer
    let e := s.mTransmitBuffer.extent
    let cap := s.mTransmitBuffer.mMaxGrowSize
    b.overrun = false ∧
    b.getData = s.mTransmitBuffer.getData ++ ((textOf str).val.take n ++
      if (e.append n).HasRoom cap 2 then [13, 10] else []) := by
  intro n b e cap
  obtain ⟨-, hvalid, hdata, hcap, hext⟩ := SimpleBuffer.addBuffer_of_hasRoom h
    (toU32_lt _) (toU32_le _) hroom
  obtain ⟨hintact, hdata'⟩ := addBuffer_delimiter hvalid
  have hb := sendText_transmitBuffer h str
  rw [hext, hcap, hdata, List.append_assoc] at hdata'
  refine ⟨(congrArg SimpleBuffer.overrun hb).trans hintact, ?_⟩
  exact (congrArg SimpleBuffer.getData hb).trans hdata'

/-- If both find room, both appends return true. -/
theorem sendText_succeeds (h : s.mTransmitBuffer.Valid)
    (str : Option CString)
    (hroom : s.mTransmitBuffer.HasRoom (toU32 (textOf str).val.length))
    (hdelim : (s.mTransmitBuffer.extent.append
      (toU32 (textOf str).val.length)).HasRoom s.mTransmitBuffer.mMaxGrowSize
      2) :
    (s.sendText str).2 = [.queued (textOf str) true true] := by
  obtain ⟨hok, hvalid, -, hcap, hext⟩ := SimpleBuffer.addBuffer_of_hasRoom h
    (toU32_lt _) (toU32_le _) hroom
  rw [← hext, ← hcap, ← SimpleBuffer.hasRoom_iff] at hdelim
  have hlen : 2 ≤ ([13, 10] : List UInt8).length := Nat.le_refl 2
  obtain ⟨hok', -⟩ :=
    SimpleBuffer.addBuffer_of_hasRoom hvalid (by decide) hlen hdelim
  show [Event.queued _ _ _] = _
  rw [sendText_addBuffer h, hok, hok']

/-- If the text finds no room, the delimiter is appended if there is room for
it, unless a copy has left its block. -/
theorem sendText_of_no_room (h : s.mTransmitBuffer.Valid)
    (str : Option CString)
    (hno : ¬ s.mTransmitBuffer.HasRoom (toU32 (textOf str).val.length)) :
    let n := toU32 (textOf str).val.length
    let b := (s.sendText str).1.mTransmitBuffer
    let cap := s.mTransmitBuffer.mMaxGrowSize
    let e := s.mTransmitBuffer.extent.refuse cap n
    (e.len < s.mTransmitBuffer.getSize ∧ b.overrun = true) ∨
    (s.mTransmitBuffer.getSize ≤ e.len ∧ b.overrun = false ∧
      b.getData = s.mTransmitBuffer.getData ++
        if e.HasRoom cap 2 then [13, 10] else []) := by
  intro n b cap e
  have hb := sendText_transmitBuffer h str
  rcases SimpleBuffer.addBuffer_of_no_hasRoom h (textOf str).val (toU32_lt _)
      hno with ⟨hshort, hover⟩ | ⟨hfits, b', hadd, hvalid, hdata, hcap, hext⟩
  · refine Or.inl ⟨hshort, ?_⟩
    by_contra hfalse
    rw [Bool.not_eq_true] at hfalse
    rw [show b.overrun = _ from congrArg SimpleBuffer.overrun hb] at hfalse
    have hfirst := SimpleBuffer.makeRoom_overrun _
      (SimpleBuffer.addBuffer_overrun _ _ hfalse)
    rw [hover] at hfirst
    exact absurd hfirst (by decide)
  · obtain ⟨hintact, hdata'⟩ := addBuffer_delimiter hvalid
    rw [hext, hcap, hdata] at hdata'
    rw [hadd] at hb
    refine Or.inr ⟨hfits, (congrArg SimpleBuffer.overrun hb).trans hintact, ?_⟩
    exact (congrArg SimpleBuffer.getData hb).trans hdata'

/-! ### What the narrowed length leaves of a text -/

theorem take_toU32_eq_self {text : List UInt8} :
    text.take (toU32 text.length) = text ↔ text.length < 4294967296 := by
  have hle := toU32_le text.length
  rw [List.take_eq_self_iff, ← toU32_eq_self_iff]
  omega

theorem take_toU32_eq_nil {text : List UInt8} :
    text.take (toU32 text.length) = [] ↔ toU32 text.length = 0 := by
  have hle := toU32_le text.length
  rw [← List.length_eq_zero_iff, List.length_take]
  omega

theorem take_ne_append_delimiter (text : List UInt8) (n : ℕ) :
    text.take n ≠ text ++ [13, 10] := by
  intro heq
  have hlen := congrArg List.length heq
  rw [List.length_take, List.length_append] at hlen
  simp only [List.length_cons, List.length_nil] at hlen
  omega

/-- A text that finds room must not be cut if the delimiter does too, and must
leave nothing if the delimiter does not. -/
theorem allOrNothing_of_room (h : s.mTransmitBuffer.Valid)
    (str : Option CString)
    (hroom : s.mTransmitBuffer.HasRoom (toU32 (textOf str).val.length)) :
    let n := toU32 (textOf str).val.length
    AllOrNothing s str ↔
      if (s.mTransmitBuffer.extent.append n).HasRoom
          s.mTransmitBuffer.mMaxGrowSize 2
      then (textOf str).val.length < 4294967296 else n = 0 := by
  intro n
  obtain ⟨hintact, hdata⟩ := sendText_of_room h str hroom
  simp only [AllOrNothing]
  rw [hintact, hdata, List.append_right_inj, List.append_right_eq_self]
  by_cases hdelim : (s.mTransmitBuffer.extent.append n).HasRoom
      s.mTransmitBuffer.mMaxGrowSize 2
  · rw [if_pos hdelim, if_pos hdelim, List.append_left_inj, take_toU32_eq_self]
    constructor
    · rintro ⟨-, hlen | hnil⟩
      · exact hlen
      · simp at hnil
    · intro hlen
      exact ⟨rfl, Or.inl hlen⟩
  · rw [if_neg hdelim, if_neg hdelim, List.append_nil, take_toU32_eq_nil]
    constructor
    · rintro ⟨-, heq | h0⟩
      · exact absurd heq (take_ne_append_delimiter _ _)
      · exact h0
    · intro h0
      exact ⟨rfl, Or.inr h0⟩

/-- A text that finds none must leave the data in its block and no room for the
delimiter. -/
theorem allOrNothing_of_no_room (h : s.mTransmitBuffer.Valid)
    (str : Option CString)
    (hno : ¬ s.mTransmitBuffer.HasRoom (toU32 (textOf str).val.length)) :
    let cap := s.mTransmitBuffer.mMaxGrowSize
    let e := s.mTransmitBuffer.extent.refuse cap
      (toU32 (textOf str).val.length)
    AllOrNothing s str ↔
      s.mTransmitBuffer.getSize ≤ e.len ∧ ¬ e.HasRoom cap 2 := by
  intro cap e
  simp only [AllOrNothing]
  rcases sendText_of_no_room h str hno with
    ⟨hshort, hover⟩ | ⟨hfits, hintact, hdata⟩
  · -- the copy leaves its block
    rw [hover]
    exact iff_of_false (fun hfalse => absurd hfalse.1 (by decide))
      fun hfits => absurd hfits.1 (Nat.not_le.mpr hshort)
  · rw [hintact, hdata, List.append_right_inj, List.append_right_eq_self]
    by_cases hdelim : e.HasRoom cap 2
    · -- the delimiter without its text, which is not empty
      have htext : (textOf str).val ≠ [] := by
        intro hnil
        refine hno (Or.inl ?_)
        rw [hnil]
        exact (toU32_le 0).trans (Nat.zero_le _)
      rw [if_pos hdelim]
      refine iff_of_false ?_ fun hnone => hnone.2 hdelim
      rintro ⟨-, heq | hnil⟩
      · exact htext (List.self_eq_append_left.mp heq)
      · simp at hnil
    · rw [if_neg hdelim]
      exact iff_of_true ⟨rfl, Or.inr rfl⟩ ⟨hfits, hdelim⟩

/-- For a well-formed transmit buffer, `SendsWhole` is exact. -/
theorem allOrNothing_iff (h : s.mTransmitBuffer.Valid)
    (str : Option CString) :
    AllOrNothing s str ↔
      SendsWhole s.mTransmitBuffer.extent s.mTransmitBuffer.mMaxGrowSize
        (textOf str).val.length := by
  simp only [SendsWhole]
  rw [show s.mTransmitBuffer.extent.stop - s.mTransmitBuffer.extent.start =
    s.mTransmitBuffer.getSize from h.getSize_eq.symm]
  by_cases hroom : s.mTransmitBuffer.HasRoom (toU32 (textOf str).val.length)
  · refine (allOrNothing_of_room h str hroom).trans ?_
    rw [SimpleBuffer.hasRoom_iff] at hroom
    generalize toU32 (textOf str).val.length = n at hroom ⊢
    -- an empty append leaves the extent, and so the room for the delimiter
    have hzero : n = 0 → s.mTransmitBuffer.extent.append n =
        s.mTransmitBuffer.extent := by
      rintro rfl
      exact Extent.append_zero _
    by_cases hdelim : (s.mTransmitBuffer.extent.append n).HasRoom
        s.mTransmitBuffer.mMaxGrowSize 2
    · rw [if_pos hdelim]
      constructor
      · intro hlen
        exact Or.inl ⟨hlen, hroom, hdelim⟩
      · rintro (⟨hlen, -, -⟩ | ⟨hno, -, -⟩ | ⟨h0, hno⟩)
        · exact hlen
        · exact absurd hroom hno
        · exact absurd (hzero h0 ▸ hdelim) hno
    · rw [if_neg hdelim]
      constructor
      · intro h0
        exact Or.inr (Or.inr ⟨h0, hzero h0 ▸ hdelim⟩)
      · rintro (⟨-, -, hyes⟩ | ⟨hno, -, -⟩ | ⟨h0, -⟩)
        · exact absurd hyes hdelim
        · exact absurd hroom hno
        · exact h0
  · refine (allOrNothing_of_no_room h str hroom).trans ?_
    have hne : toU32 (textOf str).val.length ≠ 0 := fun h0 =>
      hroom (Or.inl (h0 ▸ Nat.zero_le _))
    rw [SimpleBuffer.hasRoom_iff] at hroom
    constructor
    · rintro ⟨hfits, hdelim⟩
      exact Or.inr (Or.inl ⟨hroom, hfits, hdelim⟩)
    · rintro (⟨-, hyes, -⟩ | ⟨-, hfits, hdelim⟩ | ⟨h0, -⟩)
      · exact absurd hyes hroom
      · exact ⟨hfits, hdelim⟩
      · exact absurd h0 hne

end SocketChatImpl

/-- **When `sendText` is all-or-nothing.** In every session in which no copy
has left its block so far, a `sendText` queues the text and its delimiter or
nothing exactly if `SendsWhole` says so of the transmit buffer's extent and the
length of the text. -/
theorem sendText_allOrNothing_iff {socket : Option ℕ} {t : Session}
    (ht : (session socket).Reachable t)
    (ho : t.chat.mTransmitBuffer.overrun = false) (str : Option CString) :
    AllOrNothing t.chat str ↔
      SendsWhole t.chat.mTransmitBuffer.extent DEFAULT_MAXIMUM_BUFFER_SIZE
        (SocketChatImpl.textOf str).val.length := by
  obtain ⟨hvalid, hcap, -⟩ := session_outbound ht ho
  rw [← hcap]
  exact SocketChatImpl.allOrNothing_iff hvalid str

/-- Two bytes on a new connection. -/
theorem sendText_allOrNothing_iff_short :
    AllOrNothing (.construct (some 0)) (some ⟨[104, 105], by decide⟩) := by
  have ht : (session (some 0)).Reachable ⟨.construct (some 0), []⟩ :=
    .of_init rfl
  refine (sendText_allOrNothing_iff ht rfl _).mpr (Or.inl ?_)
  decide +kernel

/-- `2^29` bytes on a new connection: there is no room for the text and there
is for the delimiter, so an empty message is queued. -/
theorem sendText_queues_lone_delimiter :
    (session (some 0)).Reachable ⟨.construct (some 0), []⟩ ∧
    ¬ AllOrNothing (.construct (some 0)) (some (letters 536870912)) := by
  refine ⟨.of_init rfl, ?_⟩
  have hvalid := (construct_valid (some 0)).2
  have hext : (SocketChatImpl.construct (some 0)).mTransmitBuffer.extent =
      ⟨0, 0, 16384⟩ := rfl
  have hcap : (SocketChatImpl.construct
      (some 0)).mTransmitBuffer.mMaxGrowSize = 536870912 := rfl
  have hlen := length_letters 536870912
  generalize letters 536870912 = text at hlen
  have htext : (SocketChatImpl.textOf (some text)).val.length = 536870912 :=
    hlen
  rw [SocketChatImpl.allOrNothing_iff hvalid, hext, hcap, htext]
  decide +kernel

end Socketchat.Chat
