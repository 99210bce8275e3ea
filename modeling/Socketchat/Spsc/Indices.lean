import Socketchat.Spsc.Spsc

/-!
# The index arithmetic of `SPSC`

`calcSize`, `segments` and `nextIndex` at indices that have advanced by some
number of bytes. The capacity is any positive 32-bit value, so
`writeIndex + mCapacity` may wrap.
-/

namespace Socketchat.Spsc

open Foundation

namespace SPSC

variable (s : SPSC) {T n : ℕ}

section Capacity

variable (hpos : 0 < s.mCapacity) (hcap : s.mCapacity < 4294967296)

include hpos hcap

/-- **`calcSize` is the number of unread bytes.** -/
theorem calcSize_ringIndex {R W : ℕ} (hle : R ≤ W)
    (hlt : W < R + s.mCapacity) :
    s.calcSize (ringIndex s.mCapacity R) (ringIndex s.mCapacity W) = W - R := by
  have hR := ringIndex_le hpos R
  have hW := ringIndex_le hpos W
  have hdist := ringIndex_distance hpos hle hlt
  unfold calcSize
  by_cases h : ringIndex s.mCapacity R ≤ ringIndex s.mCapacity W
  · rw [if_pos h] at hdist
    rw [if_pos h, sub32_of_le h (by omega), hdist]
  · rw [if_neg h] at hdist
    rw [if_neg h, sub32_add32_of_le (by omega) (by omega) (by omega), hdist]

theorem sub32_ringIndex (T : ℕ) :
    sub32 s.mCapacity (ringIndex s.mCapacity T) =
      s.mCapacity - ringIndex s.mCapacity T :=
  sub32_of_le (ringIndex_le hpos T) hcap

/-- **The `memcpy` calls cover the bytes that follow**, one after the other and
inside the ring. -/
theorem segments_covers (hn : n ≤ s.mCapacity) :
    Covers s.mCapacity T (s.segments (ringIndex s.mCapacity T) n) n := by
  have hT := ringIndex_le hpos T
  unfold segments
  rw [sub32_ringIndex s hpos hcap]
  by_cases hfits : n ≤ s.mCapacity - ringIndex s.mCapacity T
  · rw [if_pos hfits]
    refine ⟨⟨by omega, fun hne => ?_⟩, Nat.le_refl n, Nat.sub_self n⟩
    exact ringIndex_of_lt (by omega)
  · have htop := ringIndex_top hpos T
    rw [if_neg hfits, sub32_of_le (by omega) (by omega)]
    dsimp only
    rw [if_pos (show n - (s.mCapacity - ringIndex s.mCapacity T) ≠ 0 by omega)]
    by_cases hroom : s.mCapacity - ringIndex s.mCapacity T = 0
    · -- the index rests at the top: everything starts from the bottom
      rw [if_neg (by omega), hroom, Nat.sub_zero]
      rw [hroom, Nat.add_zero] at htop
      exact ⟨⟨by omega, fun _ => htop.symm⟩, Nat.le_refl n, Nat.sub_self n⟩
    · rw [if_pos hroom]
      refine ⟨⟨by omega, fun _ => ringIndex_of_lt (by omega)⟩, by omega, ?_⟩
      exact ⟨⟨by omega, fun _ => htop.symm⟩, Nat.le_refl _, Nat.sub_self _⟩

theorem nextIndex_ringIndex (hn : n ≤ s.mCapacity) :
    s.nextIndex (ringIndex s.mCapacity T) n = ringIndex s.mCapacity (T + n) := by
  have hT := ringIndex_le hpos T
  unfold nextIndex
  rw [sub32_ringIndex s hpos hcap, ringIndex_add hpos hn]
  by_cases hfits : n ≤ s.mCapacity - ringIndex s.mCapacity T
  · rw [if_pos hfits, if_pos hfits, add32_of_lt (by omega)]
  · rw [if_neg hfits, if_neg hfits, sub32_of_le (by omega) (by omega)]

end Capacity

/-- What `write` takes leaves two bytes free. -/
theorem writeLen_le (hcap : s.mCapacity < 4294967296) {size dataLen : ℕ}
    (hsize : size ≤ s.mCapacity) (h : s.writeLen size dataLen = some n) :
    size + n ≤ s.mCapacity - 2 ∧ n ≤ dataLen := by
  unfold writeLen capacity at h
  rw [sub32_of_le hsize hcap] at h
  by_cases hfull : s.mCapacity - size ≤ 1
  · simp [hfull] at h
  · have hsome : (if s.mCapacity - size - 1 - 1 < dataLen
        then s.mCapacity - size - 1 - 1 else dataLen) = n := by
      simpa [hfull, show s.mCapacity - size - 1 ≠ 0 by omega] using h
    rcases Nat.lt_or_ge (s.mCapacity - size - 1 - 1) dataLen with hlt | hge
    · rw [if_pos hlt] at hsome
      omega
    · rw [if_neg (by omega)] at hsome
      omega

/-- The `memcpy` calls copy `len` bytes. -/
theorem segments_sum (index : ℕ) {len : ℕ}
    (hlen : len < 4294967296) :
    ((s.segments index len).map (·.2)).sum = len := by
  unfold segments
  dsimp only
  generalize sub32 s.mCapacity index = availTop
  by_cases hfits : len ≤ availTop
  · rw [if_pos hfits]
    rfl
  · rw [if_neg hfits, sub32_of_le (by omega) hlen]
    by_cases htop : availTop = 0
    · rw [htop, if_neg (fun h => h rfl), if_pos (by omega)]
      rfl
    · rw [if_pos htop, if_pos (by omega)]
      show availTop + (len - availTop + 0) = len
      omega

end SPSC

end Socketchat.Spsc
