import Socketchat.Spsc.Invariant

/-!
# The ring is a lossless FIFO

What the invariant says in the terms of the memory alone: the indices, the
sizes the two sides compute, the cells they copy, and the bytes in between.
-/

namespace Socketchat.Spsc

open Foundation

/-- What holds of a ring of `cap` bytes at every moment. -/
structure Lossless (cap : ℕ) (s : State) : Prop where
  readIndex_le : s.readIndex ≤ cap
  writeIndex_le : s.writeIndex ≤ cap
  /-- `size()` counts the bytes accepted and not yet returned. -/
  size_eq : s.size + s.returned.length = s.accepted.length
  /-- Never full, and empty only when everything has been returned. -/
  size_lt : s.size < cap
  empty_iff : s.size = 0 ↔ s.returned = s.accepted
  apart : ¬ (s.readIndex = 0 ∧ s.writeIndex = cap) ∧
    ¬ (s.readIndex = cap ∧ s.writeIndex = 0)
  /-- The size inside `write` is the one at its second load, -/
  write_size : ∀ data writeIndex,
    s.writing = .sizingRead data writeIndex →
      s.writer.calcSize s.readIndex writeIndex + s.returned.length =
        s.accepted.length
  /-- and inside `read` the one at its first load. -/
  read_size : ∀ maxLen writeIndex seen,
    s.reading = .sizingRead maxLen writeIndex seen →
      s.reader.calcSize s.readIndex writeIndex + s.returned.length = seen ∧
        seen ≤ s.accepted.length
  write_fits : ∀ seg ∈ s.writing.segs, s.memory.base.Fits seg.1 seg.2
  read_fits : ∀ seg ∈ s.reading.segs, s.memory.base.Fits seg.1 seg.2
  write_apart : ∀ cell,
    InSegs s.writing.segs cell ∨ InSegs s.writeSegs cell →
      ¬ s.Unread cell ∧ ¬ InSegs s.reading.segs cell
  fifo : s.accepted = s.returned ++ s.unread

section Cells

variable {cap : ℕ} {s : State}

/-- The `i`-th unread byte is byte `returned.length + i`. -/
theorem Inv.unread_index (hinv : Inv cap s) (i : ℕ) :
    (s.readIndex + i) % s.memory.base.size =
      (s.returned.length + i) % cap := by
  rw [hinv.attached.base, hinv.readIndex_eq, ← Nat.mod_add_mod, ringIndex_mod,
    Nat.mod_add_mod]

/-- Bytes being read are among the unread ones. -/
theorem Inv.read_cell (hinv : Inv cap s) {cell : ℕ}
    (h : InSegs s.reading.segs cell) :
    ∃ j, s.returned.length ≤ j ∧ j < s.accepted.length ∧ cell = j % cap := by
  obtain ⟨seg, hseg, i, hi, rfl⟩ := h
  have hreading := hinv.reading
  cases hstep : s.reading with
  | copying dest segs next =>
      rw [hstep] at hseg hreading
      obtain ⟨n, hn, hcover, -⟩ := hreading
      obtain ⟨j, hj, hcell⟩ := hcover.element hseg hi
      exact ⟨_, by omega, by omega, hcell⟩
  | _ =>
      rw [hstep] at hseg
      exact absurd hseg (List.not_mem_nil)

theorem Inv.writing_inside (hinv : Inv cap s) :
    ∀ seg ∈ s.writing.segs, seg.1 + seg.2 ≤ cap := by
  have hwriting := hinv.writing
  cases hstep : s.writing with
  | copying data scan segs next =>
      rw [hstep] at hwriting
      obtain ⟨done, -, -, hcover, -⟩ := hwriting
      exact hcover.inside
  | _ => exact fun seg hseg => absurd hseg List.not_mem_nil

theorem Inv.reading_inside (hinv : Inv cap s) :
    ∀ seg ∈ s.reading.segs, seg.1 + seg.2 ≤ cap := by
  have hreading := hinv.reading
  cases hstep : s.reading with
  | copying dest segs next =>
      rw [hstep] at hreading
      obtain ⟨n, -, hcover, -⟩ := hreading
      exact hcover.inside
  | _ => exact fun seg hseg => absurd hseg List.not_mem_nil

variable (hpos : 0 < cap) (hcap : cap < 4294967296) (hinv : Inv cap s)

include hpos hcap hinv

theorem Inv.size_eq : s.size = s.accepted.length - s.returned.length := by
  unfold State.size
  rw [hinv.attached.reader, hinv.readIndex_eq, hinv.writeIndex_eq]
  exact SPSC.calcSize_ringIndex ⟨true, cap, false⟩ hpos hcap hinv.window.le
    (hinv.window.lt hpos)

theorem Inv.unread_eq : s.unread = s.accepted.drop s.returned.length := by
  have hsize := hinv.size_eq hpos hcap
  apply List.ext_getElem
  · rw [State.unread, List.length_map, List.length_range, List.length_drop,
      hsize]
  · intro i _ hi
    have hholds := hinv.window.holds i hi
    simp only [State.unread, List.getElem_map, List.getElem_range]
    rw [hinv.unread_index]
    exact hholds

/-- Unread bytes have numbers from the reader's up to the writer's. -/
theorem Inv.unread_cell {cell : ℕ} (h : s.Unread cell) :
    ∃ j, s.returned.length ≤ j ∧ j < s.accepted.length ∧ cell = j % cap := by
  obtain ⟨i, hi, rfl⟩ := h
  rw [hinv.size_eq hpos hcap] at hi
  exact ⟨s.returned.length + i, Nat.le_add_right .., by omega,
    hinv.unread_index i⟩

/-- Bytes being written have numbers from the writer's on, less than a full
turn ahead of the reader's. -/
theorem Inv.write_cell {cell : ℕ}
    (h : InSegs s.writing.segs cell ∨ InSegs s.writeSegs cell) :
    ∃ j, s.accepted.length ≤ j ∧ j < s.returned.length + cap ∧
      cell = j % cap := by
  have hwriting := hinv.writing
  unfold State.writeSegs at h
  cases hstep : s.writing with
  | copying data scan segs next =>
      rw [hstep] at h hwriting
      obtain ⟨done, hdata, hfree, hcover, -⟩ := hwriting
      have hsplit := congrArg List.length hdata
      rw [List.length_append] at hsplit
      rcases h with ⟨seg, hseg, i, hi, rfl⟩ | ⟨seg, hseg, i, hi, rfl⟩
      · obtain ⟨j, hj, hcell⟩ := hcover.element hseg hi
        exact ⟨_, by omega, by omega, hcell⟩
      · have hle := hinv.window.le
        dsimp only at hseg
        rw [hinv.attached.writer, hinv.writeIndex_eq] at hseg
        have hwhole : Covers cap s.accepted.length _ data.length :=
          SPSC.segments_covers ⟨true, cap, true⟩ hpos hcap
            (show data.length ≤ cap by omega)
        obtain ⟨j, hj, hcell⟩ := hwhole.element hseg hi
        exact ⟨_, by omega, by omega, hcell⟩
  | _ =>
      rw [hstep] at h
      rcases h with ⟨seg, hseg, -⟩ | ⟨seg, hseg, -⟩
      · exact absurd hseg (List.not_mem_nil)
      · exact absurd hseg (List.not_mem_nil)

/-- The cells `write` copies into hold no unread byte and are not being
read. -/
theorem Inv.write_apart {cell : ℕ}
    (h : InSegs s.writing.segs cell ∨ InSegs s.writeSegs cell) :
    ¬ s.Unread cell ∧ ¬ InSegs s.reading.segs cell := by
  have hle := hinv.window.le
  obtain ⟨j, hj, hjlt, rfl⟩ := hinv.write_cell hpos hcap h
  have hother : ∀ i, s.returned.length ≤ i → i < s.accepted.length →
      j % cap ≠ i % cap := fun i hi hilt =>
    (mod_ne_of_window hi (by omega) (by omega)).symm
  constructor
  · intro hunread
    obtain ⟨i, hi, hilt, heq⟩ := hinv.unread_cell hpos hcap hunread
    exact hother i hi hilt heq
  · intro hread
    obtain ⟨i, hi, hilt, heq⟩ := hinv.read_cell hread
    exact hother i hi hilt heq

/-! ### Sizes -/

/-- With the indices at the two ends, `size()` would be the whole ring. -/
theorem Inv.apart : ¬ (s.readIndex = 0 ∧ s.writeIndex = cap) ∧
    ¬ (s.readIndex = cap ∧ s.writeIndex = 0) := by
  have hle := hinv.window.le
  have hlt := hinv.window.lt hpos
  have hsize := hinv.size_eq hpos hcap
  have hmCap : s.reader.mCapacity = cap := by rw [hinv.attached.reader]
  unfold State.size SPSC.calcSize at hsize
  rw [hmCap] at hsize
  constructor
  · rintro ⟨hr, hw⟩
    rw [hr, hw, if_pos (Nat.zero_le _), sub32_zero hcap] at hsize
    omega
  · rintro ⟨hr, hw⟩
    rw [hinv.writeIndex_eq] at hw
    have haccepted : s.accepted.length = 0 := ringIndex_eq_zero hw
    have hreturned : s.returned.length = 0 := by omega
    rw [hinv.readIndex_eq, hreturned, ringIndex_zero] at hr
    omega

theorem Inv.write_size {data : List UInt8} {writeIndex : ℕ}
    (hstep : s.writing = .sizingRead data writeIndex) :
    s.writer.calcSize s.readIndex writeIndex + s.returned.length =
      s.accepted.length := by
  have hle := hinv.window.le
  have hwriting := hinv.writing
  rw [hstep] at hwriting
  have hload : writeIndex = s.writeIndex := hwriting
  rw [hload, hinv.readIndex_eq, hinv.writeIndex_eq, hinv.attached.writer,
    SPSC.calcSize_ringIndex ⟨true, cap, true⟩ hpos hcap hle
      (hinv.window.lt hpos)]
  exact Nat.sub_add_cancel hle

theorem Inv.read_size {maxLen writeIndex seen : ℕ}
    (hstep : s.reading = .sizingRead maxLen writeIndex seen) :
    s.reader.calcSize s.readIndex writeIndex + s.returned.length = seen ∧
      seen ≤ s.accepted.length := by
  have hlt := hinv.window.lt hpos
  have hreading := hinv.reading
  rw [hstep] at hreading
  obtain ⟨hload, hseen, hold⟩ := hreading
  rw [hload, hinv.readIndex_eq, hinv.attached.reader,
    SPSC.calcSize_ringIndex ⟨true, cap, false⟩ hpos hcap hseen
      (show seen < s.returned.length + cap by omega)]
  exact ⟨Nat.sub_add_cancel hseen, hold⟩

end Cells

/-- **The shared-memory ring is a lossless FIFO**, for every interleaving of
one writer's and one reader's steps. -/
theorem spsc_lossless {maxLen : ℕ} (h32 : HEADER_SIZE < maxLen)
    (hu : maxLen < 4294967296) {s : State} (hs : (spsc maxLen).Reachable s) :
    Lossless (maxLen - HEADER_SIZE) s := by
  have hpos : 0 < maxLen - HEADER_SIZE := Nat.sub_pos_of_lt h32
  have hcap : maxLen - HEADER_SIZE < 4294967296 :=
    Nat.lt_of_le_of_lt (Nat.sub_le ..) hu
  have hinv : Inv (maxLen - HEADER_SIZE) s := Inv.of_reachable h32 hu hs
  generalize maxLen - HEADER_SIZE = cap at hpos hcap hinv ⊢
  have hle := hinv.window.le
  have hlt := hinv.window.lt hpos
  have hsize := hinv.size_eq hpos hcap
  refine
    { readIndex_le := hinv.readIndex_eq ▸ ringIndex_le hpos _
      writeIndex_le := hinv.writeIndex_eq ▸ ringIndex_le hpos _
      size_eq := by omega
      size_lt := by omega
      empty_iff := ?_
      apart := hinv.apart hpos hcap
      write_size := fun _ _ => hinv.write_size hpos hcap
      read_size := fun _ _ _ => hinv.read_size hpos hcap
      write_fits := ?_
      read_fits := ?_
      write_apart := fun _ => hinv.write_apart hpos hcap
      fifo := by
        rw [hinv.unread_eq hpos hcap]
        exact hinv.window.eq_append }
  · constructor
    · intro hempty
      exact hinv.window.inOrder.eq_of_length (by omega)
    · intro heq
      rw [hsize, heq, Nat.sub_self]
  · intro seg hseg
    show seg.1 + seg.2 ≤ s.memory.base.size
    rw [hinv.attached.base]
    exact hinv.writing_inside seg hseg
  · intro seg hseg
    show seg.1 + seg.2 ≤ s.memory.base.size
    rw [hinv.attached.base]
    exact hinv.reading_inside seg hseg

/-- A ring of eight bytes with a `write` of three bytes behind it. -/
theorem spsc_lossless_written : ∃ s, (spsc 40).Reachable s ∧
    s.accepted = [1, 2, 3] ∧ s.size = 3 ∧ Lossless (40 - HEADER_SIZE) s := by
  have h₀ : (spsc 40).Reachable _ :=
    .of_init ⟨⟨⟨0, 0, 0, 0, 0⟩, ⟨8, fun _ => 0⟩⟩, true, rfl, rfl⟩
  have h₁ := h₀.step (show (spsc 40).step _ (.write [1, 2, 3]) _ from
    ⟨rfl, by decide, rfl⟩)
  have h₂ := h₁.step (show (spsc 40).step _ .writerStep _ from rfl)
  have h₃ := h₂.step (show (spsc 40).step _ .writerStep _ from by
    with_unfolding_all rfl)
  have h₄ := h₃.step (show (spsc 40).step _ .writerStep _ from by
    with_unfolding_all rfl)
  have h₅ := h₄.step (show (spsc 40).step _ .writerStep _ from by
    with_unfolding_all rfl)
  have h₆ := h₅.step (show (spsc 40).step _ .writerStep _ from by
    with_unfolding_all rfl)
  exact ⟨_, h₆, by with_unfolding_all rfl, by with_unfolding_all rfl,
    spsc_lossless (by decide) (by decide) h₆⟩

end Socketchat.Spsc
