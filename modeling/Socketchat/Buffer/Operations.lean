import Socketchat.Buffer.Growth

/-!
# The operations on a well-formed buffer

One lemma for each operation `SocketChat` uses, in terms of the content
`getData`. Callers cite these and never unfold the buffer.
-/

namespace Socketchat.Buffer.SimpleBuffer

open Foundation

variable {b : SimpleBuffer}

/-! ## `addBuffer` -/

/-- `addBuffer` with data, once room has been made. -/
theorem addBuffer_of_room {bytes : List UInt8} {n : ℕ}
    (h : (b.makeRoom n).Valid)
    (hroom : n ≤ (b.makeRoom n).mMaxLen - (b.makeRoom n).mEndLoc)
    (hlen : n ≤ bytes.length) :
    (b.addBuffer (some bytes) n).1 = true ∧
    (b.addBuffer (some bytes) n).2.Valid ∧
    (b.addBuffer (some bytes) n).2.getData =
      (b.makeRoom n).getData ++ bytes.take n ∧
    (b.addBuffer (some bytes) n).2.mMaxGrowSize =
      (b.makeRoom n).mMaxGrowSize := by
  have htake : (bytes.take n).length = n := by
    rw [List.length_take]
    omega
  obtain ⟨hvalid, hdata, hread⟩ :=
    store_at_end h (show (bytes.take n).length ≤ _ by
      rw [htake]
      exact hroom)
  rw [htake] at hread
  obtain ⟨hvalid', hdata'⟩ := advance_spec hvalid (m := n) hroom
  have hadd : b.addBuffer (some bytes) n =
      (true, ((b.makeRoom n).store (b.makeRoom n).mEndLoc
        (bytes.take n)).advance n) := by
    simp only [addBuffer]
    rw [h.available_eq, if_pos hroom]
  rw [hadd]
  refine ⟨rfl, hvalid', ?_, rfl⟩
  rw [hdata', hdata, store_mEndLoc, hread]

theorem addBuffer_of_no_room {data : Option (List UInt8)} {n : ℕ}
    (h : (b.makeRoom n).Valid)
    (hroom : ¬ n ≤ (b.makeRoom n).mMaxLen - (b.makeRoom n).mEndLoc) :
    b.addBuffer data n = (false, b.makeRoom n) := by
  simp only [addBuffer]
  rw [h.available_eq, if_neg hroom]

theorem addBuffer_overrun (data : Option (List UInt8)) (n : ℕ)
    (h : (b.addBuffer data n).2.overrun = false) :
    (b.makeRoom n).overrun = false := by
  simp only [addBuffer] at h
  split at h
  · cases data with
    | none => exact h
    | some bytes =>
        simp only [advance_overrun, store, Bool.or_eq_false_iff] at h
        exact h.1
  · exact h

/-- **`addBuffer`.** It returns true exactly when there is room, and then the
content has grown by exactly the bytes given. -/
theorem addBuffer_spec (h : b.Valid) {bytes : List UInt8} {n : ℕ}
    (hn : n < 4294967296) (hlen : n ≤ bytes.length)
    (ho : (b.addBuffer (some bytes) n).2.overrun = false) :
    (b.addBuffer (some bytes) n).2.Valid ∧
    ((b.addBuffer (some bytes) n).1 = true ↔ b.HasRoom n) ∧
    (b.addBuffer (some bytes) n).2.getData =
      (if (b.addBuffer (some bytes) n).1 then b.getData ++ bytes.take n
        else b.getData) ∧
    (b.addBuffer (some bytes) n).2.mMaxGrowSize = b.mMaxGrowSize := by
  obtain ⟨hvalid, hdata, hcap, hiff⟩ :=
    makeRoom_spec h hn (addBuffer_overrun _ _ ho)
  by_cases hroom : n ≤ (b.makeRoom n).mMaxLen - (b.makeRoom n).mEndLoc
  · obtain ⟨hok, hvalid', hdata', hcap'⟩ :=
      addBuffer_of_room hvalid hroom hlen
    rw [hdata] at hdata'
    refine ⟨hvalid', iff_of_true hok (hiff.mp hroom), ?_, hcap'.trans hcap⟩
    rw [if_pos hok]
    exact hdata'
  · rw [addBuffer_of_no_room hvalid hroom]
    refine ⟨hvalid, ?_, ?_, hcap⟩
    · rw [← hiff]
      simpa using hroom
    · simpa using hdata

/-- A request below `2^31` leaves every copy in its block. -/
theorem addBuffer_intact (h : b.Valid) {bytes : List UInt8} {n : ℕ}
    (hn : n < 2147483648) (hlen : n ≤ bytes.length) :
    (b.addBuffer (some bytes) n).2.overrun = false := by
  obtain ⟨hvalid, -, -, -⟩ :=
    makeRoom_spec h (by omega) (makeRoom_intact h hn)
  by_cases hroom : n ≤ (b.makeRoom n).mMaxLen - (b.makeRoom n).mEndLoc
  · exact (addBuffer_of_room hvalid hroom hlen).2.1.intact
  · rw [addBuffer_of_no_room hvalid hroom]
    exact hvalid.intact

/-- A refused `addBuffer` changes nothing at all. -/
theorem addBuffer_refused (h : b.Valid) {data : Option (List UInt8)} {n : ℕ}
    (hn : n < 2147483648) (hno : ¬ b.HasRoom n) :
    b.addBuffer data n = (false, b) := by
  have hself := makeRoom_eq_self h hn hno
  obtain ⟨hvalid, -, -, hiff⟩ :=
    makeRoom_spec h (by omega) (makeRoom_intact h hn)
  rw [addBuffer_of_no_room hvalid (fun hle => hno (hiff.mp hle)), hself]

/-- The commit: bytes already in place behind the data become data. -/
theorem Sound.commit (h : b.Sound) {m : ℕ} (hm : m ≤ b.mMaxLen - b.mEndLoc) :
    b.addBuffer none m = (true, b.advance m) := by
  have hroom : b.makeRoom m = b := by
    have hnot : ¬ b.mMaxLen - b.mEndLoc < m := by omega
    simp only [makeRoom, h.available_eq, gt_iff_lt, if_neg hnot]
  simp only [addBuffer, hroom]
  rw [h.available_eq, if_pos hm]

theorem commit_spec (h : b.Valid) {m : ℕ} (hm : m ≤ b.mMaxLen - b.mEndLoc) :
    (b.addBuffer none m).1 = true ∧
    (b.addBuffer none m).2.Valid ∧
    (b.addBuffer none m).2.getData =
      b.getData ++ b.block.read b.mEndLoc m ∧
    (b.addBuffer none m).2.mMaxGrowSize = b.mMaxGrowSize := by
  obtain ⟨hvalid, hdata⟩ := advance_spec h hm
  rw [h.sound.commit hm]
  exact ⟨rfl, hvalid, hdata, rfl⟩

/-! ## `confirmCapacity` -/

/-- **`confirmCapacity`.** A non-null address is the append position of a
buffer with the same content and with that much space behind it; a null one
leaves the buffer as it was. -/
theorem confirmCapacity_spec (h : b.Valid) {c : ℕ} (hc : c < 2147483648) :
    (∃ b', b.confirmCapacity c = (some b'.mEndLoc, b') ∧ b'.Valid ∧
      b'.getData = b.getData ∧ b'.mMaxGrowSize = b.mMaxGrowSize ∧
      c ≤ b'.mMaxLen - b'.mEndLoc ∧ b.HasRoom c) ∨
    (b.confirmCapacity c = (none, b) ∧ (b.HasRoom c → c = 0)) := by
  obtain ⟨hvalid, hdata, hcap, hiff⟩ :=
    makeRoom_spec h (by omega) (makeRoom_intact h hc)
  by_cases hroom : c ≤ (b.makeRoom c).mMaxLen - (b.makeRoom c).mEndLoc
  · have hconf : b.confirmCapacity c =
        ((b.makeRoom c).mBuffer.map fun _ => (b.makeRoom c).mEndLoc,
          b.makeRoom c) := by
      simp only [confirmCapacity]
      rw [hvalid.available_eq, if_pos hroom]
    cases hbuf : (b.makeRoom c).mBuffer with
    | some m =>
        refine Or.inl ⟨b.makeRoom c, ?_, hvalid, hdata, hcap, hroom,
          hiff.mp hroom⟩
        rw [hconf, hbuf]
        rfl
    | none =>
        -- a null block has no cells, so there was nothing to confirm
        have hmax : (b.makeRoom c).mMaxLen = 0 := by
          rw [← hvalid.size_eq]
          simp [block, hbuf]
        have hself : b.makeRoom c = b := by
          have hzero : c = 0 := by omega
          have hnot : ¬ b.mMaxLen - b.mEndLoc < c := by omega
          simp only [makeRoom, h.available_eq, gt_iff_lt, if_neg hnot]
        refine Or.inr ⟨?_, fun _ => by omega⟩
        rw [hconf, hbuf, hself]
        rfl
  · have hno : ¬ b.HasRoom c := fun hr => hroom (hiff.mpr hr)
    refine Or.inr ⟨?_, fun hr => absurd hr hno⟩
    simp only [confirmCapacity]
    rw [hvalid.available_eq, if_neg hroom, makeRoom_eq_self h hc hno]

/-- The two-step append: write `xs` at the confirmed address, then commit. -/
theorem Sound.store_commit (h : b.Sound) {xs : List UInt8}
    (hfit : xs.length ≤ b.mMaxLen - b.mEndLoc) :
    ((b.store b.mEndLoc xs).addBuffer none xs.length).1 = true ∧
    ((b.store b.mEndLoc xs).addBuffer none xs.length).2.Sound ∧
    ((b.store b.mEndLoc xs).addBuffer none xs.length).2.getData =
      b.getData ++ xs := by
  obtain ⟨hsound, hdata, -, hread⟩ := h.store_at_end hfit
  obtain ⟨hsound', -, hdata'⟩ := hsound.advance (m := xs.length) hfit
  rw [hsound.commit (m := xs.length) hfit]
  refine ⟨rfl, hsound', ?_⟩
  rw [hdata', hdata, store_mEndLoc, hread]

theorem store_commit_spec (h : b.Valid) {xs : List UInt8}
    (hfit : xs.length ≤ b.mMaxLen - b.mEndLoc) :
    ((b.store b.mEndLoc xs).addBuffer none xs.length).1 = true ∧
    ((b.store b.mEndLoc xs).addBuffer none xs.length).2.Valid ∧
    ((b.store b.mEndLoc xs).addBuffer none xs.length).2.getData =
      b.getData ++ xs ∧
    ((b.store b.mEndLoc xs).addBuffer none xs.length).2.mMaxGrowSize =
      b.mMaxGrowSize := by
  obtain ⟨hvalid, -, -⟩ := store_at_end h hfit
  obtain ⟨hok, hvalid', -, hcap⟩ := commit_spec hvalid (m := xs.length) hfit
  exact ⟨hok, hvalid', (h.sound.store_commit hfit).2.2, hcap⟩

/-! ## `consume` and `clear` -/

theorem Sound.clear (h : b.Sound) : b.clear.Sound ∧ b.clear.getData = [] := by
  refine ⟨⟨Nat.le_refl _, Nat.zero_le _, h.max_lt, h.max_le_block, h.intact⟩, ?_⟩
  simp [getData, getSize, SimpleBuffer.clear]

theorem clear_spec (h : b.Valid) :
    b.clear.Valid ∧ b.clear.getData = [] ∧
    b.clear.mMaxGrowSize = b.mMaxGrowSize := by
  obtain ⟨hsound, hdata⟩ := h.sound.clear
  exact ⟨hsound.valid h.max_le h.grow_le h.size_eq, hdata, rfl⟩

/-- `consume` moves the offsets only. -/
theorem consume_eq (b : SimpleBuffer) (k : ℕ) :
    b.consume k = { b with
      mStartLoc := (b.consume k).mStartLoc
      mEndLoc := (b.consume k).mEndLoc } := by
  simp only [consume]
  split_ifs <;> rfl

@[simp] theorem consume_mMaxLen (b : SimpleBuffer) (k : ℕ) :
    (b.consume k).mMaxLen = b.mMaxLen := by
  rw [consume_eq]

@[simp] theorem consume_mMaxGrowSize (b : SimpleBuffer) (k : ℕ) :
    (b.consume k).mMaxGrowSize = b.mMaxGrowSize := by
  rw [consume_eq]

@[simp] theorem consume_mDefaultSize (b : SimpleBuffer) (k : ℕ) :
    (b.consume k).mDefaultSize = b.mDefaultSize := by
  rw [consume_eq]

@[simp] theorem consume_block (b : SimpleBuffer) (k : ℕ) :
    (b.consume k).block = b.block := by
  rw [consume_eq]
  rfl

theorem consume_clamped (h : b.Sound) {k : ℕ}
    (hall : b.mEndLoc - b.mStartLoc ≤ k) : b.consume k = b.clear := by
  have hstart := h.start_le
  have hend := h.end_le
  have hmax := h.max_lt
  have hactive : sub32 b.mEndLoc b.mStartLoc = b.mEndLoc - b.mStartLoc :=
    h.getSize_eq
  have hlen : (if k > b.mEndLoc - b.mStartLoc then b.mEndLoc - b.mStartLoc
      else k) = b.mEndLoc - b.mStartLoc := by
    split <;> omega
  have hadd : add32 b.mStartLoc (b.mEndLoc - b.mStartLoc) = b.mEndLoc := by
    rw [add32_of_lt (by omega)]
    omega
  simp only [consume, hactive, hlen, hadd, if_true]
  rfl

theorem consume_advances (h : b.Sound) {k : ℕ}
    (hless : k < b.mEndLoc - b.mStartLoc) :
    b.consume k = { b with mStartLoc := b.mStartLoc + k } := by
  have hend := h.end_le
  have hmax := h.max_lt
  have hactive : sub32 b.mEndLoc b.mStartLoc = b.mEndLoc - b.mStartLoc :=
    h.getSize_eq
  have hlen : ¬ k > b.mEndLoc - b.mStartLoc := by omega
  have hadd : add32 b.mStartLoc k = b.mStartLoc + k :=
    add32_of_lt (by omega)
  have hne : ¬ b.mStartLoc + k = b.mEndLoc := by omega
  simp only [consume, hactive, if_neg hlen, hadd, if_neg hne]

theorem Sound.consume (h : b.Sound) (k : ℕ) :
    (b.consume k).Sound ∧ (b.consume k).getData = b.getData.drop k := by
  have hsize := h.getSize_eq
  have hstart := h.start_le
  have hend := h.end_le
  have hmax := h.max_lt
  by_cases hall : b.mEndLoc - b.mStartLoc ≤ k
  · obtain ⟨hsound, hdata⟩ := h.clear
    rw [consume_clamped h hall]
    refine ⟨hsound, ?_⟩
    rw [hdata, List.drop_eq_nil_of_le (by rw [length_getData]; omega)]
  · rw [consume_advances h (Nat.lt_of_not_le hall)]
    refine ⟨⟨?_, hend, hmax, h.max_le_block, h.intact⟩, ?_⟩
    · show b.mStartLoc + k ≤ b.mEndLoc
      omega
    · have hlen : sub32 b.mEndLoc (b.mStartLoc + k) = b.getSize - k := by
        rw [sub32_of_le (by omega) (by omega), hsize]
        omega
      show b.block.read (b.mStartLoc + k)
        (sub32 b.mEndLoc (b.mStartLoc + k)) = _
      rw [hlen, getData, Block.read_drop _ _ _ _ (by omega)]

/-- **`consume`** drops the first `k` bytes (all of them if there are fewer)
and touches nothing else. -/
theorem consume_spec (h : b.Valid) (k : ℕ) :
    (b.consume k).Valid ∧ (b.consume k).getData = b.getData.drop k ∧
    (b.consume k).mMaxGrowSize = b.mMaxGrowSize := by
  obtain ⟨hsound, hdata⟩ := h.sound.consume k
  refine ⟨hsound.valid ?_ ?_ ?_, hdata, consume_mMaxGrowSize b k⟩
  · rw [consume_mMaxLen, consume_mMaxGrowSize]
    exact h.max_le
  · rw [consume_mMaxGrowSize]
    exact h.grow_le
  · rw [consume_block, consume_mMaxLen]
    exact h.size_eq

end Socketchat.Buffer.SimpleBuffer
