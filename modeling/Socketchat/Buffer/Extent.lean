import Socketchat.Buffer.Operations

/-!
# The extent of a buffer

Whether a request succeeds depends on two offsets and a length only. `append`
is the extent after a request that found room, `refuse` the one after a request
that did not: unchanged, unless the sum `growBuffer` computes has wrapped and
passed for a small one, when the buffer is cut to it.
-/

namespace Socketchat.Buffer

open Foundation

/-- Where the data starts and stops, and how long the block is. -/
structure Extent where
  start : ℕ
  stop : ℕ
  len : ℕ

namespace Extent

/-- `n` bytes can be appended under a cap: behind the data, by moving the data
to the front, or by growing. -/
def HasRoom (e : Extent) (cap n : ℕ) : Prop :=
  n ≤ e.len - e.stop ∨ n < e.start ∨
    (2 * e.len ≤ cap ∧ (n ≤ 2 * e.len - e.stop ∨ 2 * e.len + n ≤ cap))

instance (e : Extent) (cap n : ℕ) : Decidable (e.HasRoom cap n) :=
  inferInstanceAs (Decidable (_ ∨ _))

/-- After `n` bytes for which there was room. -/
def append (e : Extent) (n : ℕ) : Extent :=
  if n ≤ e.len - e.stop then
    ⟨e.start, e.stop + n, e.len⟩
  else if n < e.start then
    ⟨0, e.stop - e.start + n, e.len⟩
  else if n ≤ 2 * e.len - e.stop then
    ⟨0, e.stop - e.start + n, 2 * e.len⟩
  else
    ⟨0, e.stop - e.start + n, 2 * e.len + n⟩

/-- The sum of the doubled length and the request wraps to one under the cap. -/
def Wraps (e : Extent) (cap n : ℕ) : Prop :=
  4294967296 ≤ 2 * e.len + n ∧ 2 * e.len + n - 4294967296 ≤ cap

instance (e : Extent) (cap n : ℕ) : Decidable (e.Wraps cap n) :=
  inferInstanceAs (Decidable (_ ∧ _))

/-- After `n` bytes for which there was no room. -/
def refuse (e : Extent) (cap n : ℕ) : Extent :=
  if e.Wraps cap n then
    ⟨0, e.stop - e.start, 2 * e.len + n - 4294967296⟩
  else
    e

@[simp] theorem append_zero (e : Extent) : e.append 0 = e := by
  simp [append]

end Extent

namespace SimpleBuffer

def extent (b : SimpleBuffer) : Extent := ⟨b.mStartLoc, b.mEndLoc, b.mMaxLen⟩

variable {b : SimpleBuffer}

theorem hasRoom_iff (n : ℕ) :
    b.HasRoom n ↔ b.extent.HasRoom b.mMaxGrowSize n :=
  Iff.rfl

/-- A request that finds room never makes a copy leave its block. -/
theorem makeRoom_of_room (h : b.Valid) {n : ℕ} (hroom : b.HasRoom n) :
    (b.makeRoom n).overrun = false ∧
    (b.makeRoom n).mStartLoc = (b.extent.append n).start ∧
    (b.makeRoom n).mEndLoc + n = (b.extent.append n).stop ∧
    (b.makeRoom n).mMaxLen = (b.extent.append n).len := by
  have hsize := h.getSize_eq
  have hstart := h.start_le
  have hend := h.end_le
  have hmax := h.max_le
  have hgrow := h.grow_le
  unfold HasRoom at hroom
  rcases makeRoom_cases h n with ⟨hfits, heq⟩ | ⟨hfits, hfront, heq⟩ |
      ⟨hfits, hfront, hcap, heq⟩ | ⟨hfits, hfront, hcap, heq⟩
  · rw [heq]
    simp [Extent.append, extent, hfits, h.intact]
  · have hnot : ¬ n ≤ b.mMaxLen - b.mEndLoc := by omega
    rw [heq]
    simp [Extent.append, extent, hnot, hfront, hsize, (compact_spec h).1.intact]
  · have hnot : ¬ n ≤ b.mMaxLen - b.mEndLoc := by omega
    have hnot' : ¬ n < b.mStartLoc := by omega
    by_cases hdouble : n ≤ 2 * b.mMaxLen - b.mEndLoc
    · have happend : b.extent.append n =
          ⟨0, b.mEndLoc - b.mStartLoc + n, 2 * b.mMaxLen⟩ := by
        simp [Extent.append, extent, hnot, hnot', hdouble]
      have hvalid := (reallocate_spec h (n := 2 * b.mMaxLen) (by omega)
        (by omega)).1
      rw [heq, grownLen_of_le h hdouble, happend]
      exact ⟨hvalid.intact, rfl, congrArg (· + n) hsize, rfl⟩
    · have happend : b.extent.append n =
          ⟨0, b.mEndLoc - b.mStartLoc + n, 2 * b.mMaxLen + n⟩ := by
        simp [Extent.append, extent, hnot, hnot', hdouble]
      have hvalid := (reallocate_spec h (n := 2 * b.mMaxLen + n) (by omega)
        (by omega)).1
      rw [heq, grownLen_of_gt h (by omega), toU32_of_lt (by omega), happend]
      exact ⟨hvalid.intact, rfl, congrArg (· + n) hsize, rfl⟩
  · -- growing was refused, although there was room
    exfalso
    by_cases hdouble : n ≤ 2 * b.mMaxLen - b.mEndLoc
    · rw [grownLen_of_le h hdouble] at hcap
      omega
    · rw [grownLen_of_gt h (by omega), toU32_of_lt (by omega)] at hcap
      omega

/-- **An append that finds room.** -/
theorem addBuffer_of_hasRoom (h : b.Valid) {bytes : List UInt8} {n : ℕ}
    (hn : n < 4294967296) (hlen : n ≤ bytes.length) (hroom : b.HasRoom n) :
    (b.addBuffer (some bytes) n).1 = true ∧
    (b.addBuffer (some bytes) n).2.Valid ∧
    (b.addBuffer (some bytes) n).2.getData = b.getData ++ bytes.take n ∧
    (b.addBuffer (some bytes) n).2.mMaxGrowSize = b.mMaxGrowSize ∧
    (b.addBuffer (some bytes) n).2.extent = b.extent.append n := by
  obtain ⟨ho, hstart, hstop, hmax⟩ := makeRoom_of_room h hroom
  obtain ⟨hvalid, hdata, hcap, hiff⟩ := makeRoom_spec h hn ho
  have hspace := hiff.mpr hroom
  obtain ⟨hok, hvalid', hdata', hcap'⟩ := addBuffer_of_room hvalid hspace hlen
  refine ⟨hok, hvalid', hdata'.trans (by rw [hdata]), hcap'.trans hcap, ?_⟩
  have hend := hvalid.end_le
  have hgrow := hvalid.grow_le
  have hmaxle := hvalid.max_le
  have hadd : (b.addBuffer (some bytes) n).2 =
      ((b.makeRoom n).store (b.makeRoom n).mEndLoc (bytes.take n)).advance
        n := by
    simp only [addBuffer]
    rw [hvalid.available_eq, if_pos hspace]
  have hstop' : add32 (b.makeRoom n).mEndLoc n = (b.extent.append n).stop := by
    rw [add32_of_lt (by omega), hstop]
  rw [hadd]
  show Extent.mk (b.makeRoom n).mStartLoc (add32 (b.makeRoom n).mEndLoc n)
    (b.makeRoom n).mMaxLen = _
  rw [hstart, hstop', hmax]

/-- What `makeRoom` does to a request that finds no room. -/
theorem makeRoom_of_no_room (h : b.Valid) {n : ℕ} (hn : n < 4294967296)
    (hno : ¬ b.HasRoom n) :
    b.makeRoom n =
      if b.extent.Wraps b.mMaxGrowSize n then
        b.reallocate (2 * b.mMaxLen + n - 4294967296)
      else
        b := by
  have hend := h.end_le
  have hmax := h.max_le
  have hgrow := h.grow_le
  unfold HasRoom at hno
  have hgrown : b.grownLen n = toU32 (2 * b.mMaxLen + n) ∨
      (b.grownLen n = 2 * b.mMaxLen ∧ n ≤ 2 * b.mMaxLen - b.mEndLoc) := by
    by_cases hdouble : n ≤ 2 * b.mMaxLen - b.mEndLoc
    · exact Or.inr ⟨grownLen_of_le h hdouble, hdouble⟩
    · exact Or.inl (grownLen_of_gt h (by omega))
  rcases makeRoom_cases h n with ⟨hfits, -⟩ | ⟨-, hfront, -⟩ |
      ⟨hfits, hfront, hcap, heq⟩ | ⟨hfits, hfront, hcap, heq⟩
  · exact absurd (Or.inl hfits) hno
  · exact absurd (Or.inr (Or.inl hfront)) hno
  · by_cases hlt : 2 * b.mMaxLen + n < 4294967296
    · exfalso
      rw [toU32_of_lt hlt] at hgrown
      omega
    · rw [toU32_of_ge (by omega) (by omega)] at hgrown
      have hlen : b.grownLen n = 2 * b.mMaxLen + n - 4294967296 := by omega
      have hwraps : b.extent.Wraps b.mMaxGrowSize n := by
        constructor
        · show 4294967296 ≤ 2 * b.mMaxLen + n
          omega
        · show 2 * b.mMaxLen + n - 4294967296 ≤ b.mMaxGrowSize
          omega
      rw [heq, if_pos hwraps, hlen]
  · have hwraps : ¬ b.extent.Wraps b.mMaxGrowSize n := by
      rintro ⟨hge, hle⟩
      have hge' : 4294967296 ≤ 2 * b.mMaxLen + n := hge
      have hle' : 2 * b.mMaxLen + n - 4294967296 ≤ b.mMaxGrowSize := hle
      rw [toU32_of_ge hge' (by omega)] at hgrown
      omega
    rw [heq, if_neg hwraps]

/-- **An append that finds no room** is refused and leaves the extent `refuse`
says, unless that block is too short for the data: then the copy leaves it. -/
theorem addBuffer_of_no_hasRoom (h : b.Valid) (bytes : List UInt8) {n : ℕ}
    (hn : n < 4294967296) (hno : ¬ b.HasRoom n) :
    let e := b.extent.refuse b.mMaxGrowSize n
    (e.len < b.getSize ∧ (b.addBuffer (some bytes) n).2.overrun = true) ∨
    (b.getSize ≤ e.len ∧ ∃ b' : SimpleBuffer,
      b.addBuffer (some bytes) n = (false, b') ∧ b'.Valid ∧
      b'.getData = b.getData ∧ b'.mMaxGrowSize = b.mMaxGrowSize ∧
      b'.extent = e) := by
  intro e
  have hroom := makeRoom_of_no_room h hn hno
  by_cases hwraps : b.extent.Wraps b.mMaxGrowSize n
  · rw [if_pos hwraps] at hroom
    have he : e = ⟨0, b.mEndLoc - b.mStartLoc,
        2 * b.mMaxLen + n - 4294967296⟩ := by
      simp only [e, Extent.refuse, if_pos hwraps]
      rfl
    by_cases hfit : b.getSize ≤ 2 * b.mMaxLen + n - 4294967296
    · obtain ⟨hvalid, hdata⟩ := reallocate_spec h hfit hwraps.2
      rw [← hroom] at hvalid hdata
      have hnot : ¬ n ≤ (b.makeRoom n).mMaxLen - (b.makeRoom n).mEndLoc := by
        have hspec := makeRoom_spec h hn hvalid.intact
        exact fun hle => hno (hspec.2.2.2.mp hle)
      refine Or.inr ⟨by rw [he]; exact hfit, b.makeRoom n,
        addBuffer_of_no_room hvalid hnot, hvalid, hdata, ?_, ?_⟩
      · rw [hroom, reallocate_mMaxGrowSize]
      · rw [hroom, he, ← h.getSize_eq]
        rfl
    · refine Or.inl ⟨by rw [he]; exact Nat.lt_of_not_le hfit, ?_⟩
      by_contra hfalse
      rw [Bool.not_eq_true] at hfalse
      have ho := addBuffer_overrun _ _ hfalse
      rw [hroom] at ho
      simp only [reallocate, Bool.or_eq_false_iff, decide_eq_false_iff_not] at ho
      omega
  · rw [if_neg hwraps] at hroom
    have he : e = b.extent := by
      simp only [e, Extent.refuse, if_neg hwraps]
    have hvalid : (b.makeRoom n).Valid := by
      rw [hroom]
      exact h
    have hnot : ¬ n ≤ (b.makeRoom n).mMaxLen - (b.makeRoom n).mEndLoc := by
      rw [hroom]
      exact fun hle => hno (Or.inl hle)
    have hadd : b.addBuffer (some bytes) n = (false, b.makeRoom n) :=
      addBuffer_of_no_room hvalid hnot
    rw [hroom] at hadd
    refine Or.inr ⟨?_, b, hadd, h, rfl, rfl, he.symm⟩
    rw [he]
    exact h.getSize_le

end SimpleBuffer

end Socketchat.Buffer
