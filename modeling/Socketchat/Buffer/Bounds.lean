import Socketchat.Buffer.Extent

/-!
# Growing without wrapping

Any 32-bit request on any buffer. `GrowsSafely` says, of the offsets, the
length and the request, when the length `growBuffer` asks for is no smaller
than the one the buffer has, whatever wraps on the way (`grownLen_ge_iff`);
`NoWrap` says that nothing wraps. A request that grows safely keeps a buffer
sound and its content what it was (`Sound.makeRoom`).
-/

namespace Socketchat.Buffer

open Foundation

namespace Extent

/-- A request for `n` bytes needs no growth; or doubling suffices and does not
wrap; or the doubled length and the request are added, and the sum does not
wrap, or wraps to no less than the length. The request is added to a doubled
length that has not wrapped if that leaves too little space, and to one that
has if the data does not end behind it, or if it does and the space the wrapped
subtraction shows is too little. -/
def GrowsSafely (e : Extent) (n : ℕ) : Prop :=
  n ≤ e.len - e.stop ∨ n < e.start ∨
  (e.len < 2147483648 ∧ n ≤ 2 * e.len - e.stop) ∨
  ((e.len < 2147483648 ∨ e.stop + 4294967296 ≤ 2 * e.len ∨
      2 * e.len - e.stop < n) ∧
    (2 * e.len + n < 4294967296 ∨
      (4294967296 ≤ e.len + n ∧ 2 * e.len + n < 8589934592)))

instance (e : Extent) (n : ℕ) : Decidable (e.GrowsSafely n) :=
  inferInstanceAs (Decidable (_ ∨ _))

/-- A request for `n` bytes needs no growth, or none of the sums wraps. -/
def NoWrap (e : Extent) (n : ℕ) : Prop :=
  n ≤ e.len - e.stop ∨ n < e.start ∨
  (2 * e.len < 4294967296 ∧
    (n ≤ 2 * e.len - e.stop ∨ 2 * e.len + n < 4294967296))

instance (e : Extent) (n : ℕ) : Decidable (e.NoWrap n) :=
  inferInstanceAs (Decidable (_ ∨ _))

theorem NoWrap.growsSafely {e : Extent} {n : ℕ} (h : e.NoWrap n) :
    e.GrowsSafely n := by
  unfold NoWrap at h
  unfold GrowsSafely
  omega

end Extent

namespace SimpleBuffer

variable {b : SimpleBuffer}

theorem grownLen_lt (n : ℕ) : b.grownLen n < 4294967296 := by
  unfold grownLen
  simp only
  split
  · exact add32_lt ..
  · exact mul32_lt ..

/-- **The growth sum**: where growth is needed, the length asked for is no
smaller than the length there is exactly when the request grows safely. -/
theorem Sound.grownLen_ge_iff (h : b.Sound) {n : ℕ} (hn : n < 4294967296)
    (hfits : b.mMaxLen - b.mEndLoc < n) (hfront : b.mStartLoc ≤ n) :
    b.mMaxLen ≤ b.grownLen n ↔ b.extent.GrowsSafely n := by
  have hend := h.end_le
  have hmax := h.max_lt
  show _ ↔ n ≤ b.mMaxLen - b.mEndLoc ∨ n < b.mStartLoc ∨
    (b.mMaxLen < 2147483648 ∧ n ≤ 2 * b.mMaxLen - b.mEndLoc) ∨
    ((b.mMaxLen < 2147483648 ∨ b.mEndLoc + 4294967296 ≤ 2 * b.mMaxLen ∨
        2 * b.mMaxLen - b.mEndLoc < n) ∧
      (2 * b.mMaxLen + n < 4294967296 ∨
        (4294967296 ≤ b.mMaxLen + n ∧ 2 * b.mMaxLen + n < 8589934592)))
  unfold grownLen mul32 sub32 add32 toU32
  simp only
  split <;> omega

/-- What every operation keeps: the buffer is sound, no shorter than it was, of
the length of its block and within its cap if it was, and its cap and default
size are what they were. -/
structure Kept (b b' : SimpleBuffer) : Prop where
  sound : b'.Sound
  mMaxLen_le : b.mMaxLen ≤ b'.mMaxLen
  whole : b.block.size = b.mMaxLen → b'.block.size = b'.mMaxLen
  capped : b.mMaxLen ≤ b.mMaxGrowSize → b'.mMaxLen ≤ b.mMaxGrowSize
  mMaxGrowSize_eq : b'.mMaxGrowSize = b.mMaxGrowSize
  mDefaultSize_eq : b'.mDefaultSize = b.mDefaultSize

theorem Sound.kept (h : b.Sound) : Kept b b :=
  ⟨h, Nat.le_refl _, id, id, rfl, rfl⟩

/-- Operations that leave the length and the block size alone. -/
theorem Sound.kept_of_eq {b' : SimpleBuffer} (h : b'.Sound)
    (hmax : b'.mMaxLen = b.mMaxLen) (hsize : b'.block.size = b.block.size)
    (hcap : b'.mMaxGrowSize = b.mMaxGrowSize)
    (hdefault : b'.mDefaultSize = b.mDefaultSize) : Kept b b' :=
  ⟨h, Nat.le_of_eq hmax.symm, fun hwhole => by rw [hsize, hwhole, hmax],
    fun hle => hmax ▸ hle, hcap, hdefault⟩

theorem Kept.trans {b b' b'' : SimpleBuffer} (h : Kept b b')
    (h' : Kept b' b'') : Kept b b'' where
  sound := h'.sound
  mMaxLen_le := h.mMaxLen_le.trans h'.mMaxLen_le
  whole hwhole := h'.whole (h.whole hwhole)
  capped hle := by
    have hle' := h.capped hle
    rw [← h.mMaxGrowSize_eq] at hle' ⊢
    exact h'.capped hle'
  mMaxGrowSize_eq := h'.mMaxGrowSize_eq.trans h.mMaxGrowSize_eq
  mDefaultSize_eq := h'.mDefaultSize_eq.trans h.mDefaultSize_eq

/-- **A request that grows safely** keeps the buffer and its content. -/
theorem Sound.makeRoom (h : b.Sound) {n : ℕ} (hn : n < 4294967296)
    (hsafe : b.extent.GrowsSafely n) :
    Kept b (b.makeRoom n) ∧ (b.makeRoom n).getData = b.getData := by
  rcases h.makeRoom_cases n with ⟨-, heq⟩ | ⟨-, -, heq⟩ |
      ⟨hfits, hfront, hcap, heq⟩ | ⟨-, -, -, heq⟩
  · rw [heq]
    exact ⟨h.kept, rfl⟩
  · obtain ⟨hsound, hdata, hsize⟩ := h.compact
    rw [heq]
    exact ⟨hsound.kept_of_eq rfl hsize rfl rfl, hdata⟩
  · have hge := (h.grownLen_ge_iff hn hfits hfront).mpr hsafe
    obtain ⟨hsound, hdata⟩ :=
      h.reallocate (h.getSize_le.trans hge) (grownLen_lt n)
    rw [heq]
    exact ⟨⟨hsound, hge, fun _ => rfl, fun _ => hcap, rfl, rfl⟩, hdata⟩
  · rw [heq]
    exact ⟨h.kept, rfl⟩

/-- A request that does not grow safely lowers `mMaxLen`. -/
theorem Sound.makeRoom_lowers (h : b.Sound) (hle : b.mMaxLen ≤ b.mMaxGrowSize)
    {n : ℕ} (hn : n < 4294967296) (hnot : ¬ b.extent.GrowsSafely n) :
    (b.makeRoom n).mMaxLen < b.mMaxLen := by
  rcases h.makeRoom_cases n with ⟨hfits, -⟩ | ⟨-, hfront, -⟩ |
      ⟨hfits, hfront, -, heq⟩ | ⟨hfits, hfront, hcap, -⟩
  · exact absurd (Or.inl hfits) hnot
  · exact absurd (Or.inr (Or.inl hfront)) hnot
  · have hlt := mt (h.grownLen_ge_iff hn hfits hfront).mp hnot
    rw [heq]
    exact Nat.lt_of_not_le hlt
  · -- what is below the length is below the cap, so it is not refused
    have hlt := mt (h.grownLen_ge_iff hn hfits hfront).mp hnot
    omega

/-- Where nothing wraps, there is space for the request afterwards exactly when
there was room for it. -/
theorem Sound.makeRoom_room_iff (h : b.Sound) {n : ℕ}
    (hno : b.extent.NoWrap n) :
    n ≤ (b.makeRoom n).mMaxLen - (b.makeRoom n).mEndLoc ↔ b.HasRoom n := by
  have hsize := h.getSize_eq
  have hstart := h.start_le
  have hend := h.end_le
  have hmax := h.max_lt
  have hgrown : b.mMaxLen - b.mEndLoc < n → b.mStartLoc ≤ n →
      (n ≤ 2 * b.mMaxLen - b.mEndLoc ∧ b.grownLen n = 2 * b.mMaxLen) ∨
      (2 * b.mMaxLen - b.mEndLoc < n ∧ b.grownLen n = 2 * b.mMaxLen + n) := by
    intro hfits hfront
    have hno : n ≤ b.mMaxLen - b.mEndLoc ∨ n < b.mStartLoc ∨
      (2 * b.mMaxLen < 4294967296 ∧
        (n ≤ 2 * b.mMaxLen - b.mEndLoc ∨
          2 * b.mMaxLen + n < 4294967296)) := hno
    unfold grownLen mul32 sub32 add32 toU32
    simp only
    split <;> omega
  unfold HasRoom
  rcases h.makeRoom_cases n with ⟨hfits, heq⟩ | ⟨hfits, hfront, heq⟩ |
      ⟨hfits, hfront, hcap, heq⟩ | ⟨hfits, hfront, hcap, heq⟩
  · rw [heq]
    exact iff_of_true hfits (Or.inl hfits)
  · have hspace : n ≤ b.mMaxLen - b.getSize := by omega
    rw [heq]
    exact iff_of_true hspace (Or.inr (Or.inl hfront))
  · have hgrown := hgrown hfits hfront
    rw [heq]
    show n ≤ b.grownLen n - b.getSize ↔ _
    omega
  · have hgrown := hgrown hfits hfront
    rw [heq]
    omega

/-! ## The operations -/

theorem Sound.append (h : b.Sound) {data : Option (List UInt8)} {n : ℕ}
    (hdata : ∀ bytes ∈ data, bytes.length = n)
    (hroom : n ≤ b.mMaxLen - b.mEndLoc) :
    let b' := (data.elim b fun bytes =>
      b.store b.mEndLoc (bytes.take n)).advance n
    Kept b b' ∧ b'.mEndLoc = b.mEndLoc + n ∧ b'.mStartLoc = b.mStartLoc ∧
    ∀ bytes ∈ data, b'.getData = b.getData ++ bytes := by
  cases data with
  | none =>
      obtain ⟨hsound, hend, -⟩ := h.advance hroom
      exact ⟨hsound.kept_of_eq rfl rfl rfl rfl, hend, rfl,
        fun _ hno => absurd hno (by simp)⟩
  | some bytes =>
      have htake : bytes.take n = bytes :=
        List.take_of_length_le (Nat.le_of_eq (hdata bytes rfl))
      have hfit : bytes.length ≤ b.mMaxLen - b.mEndLoc := by
        rw [hdata bytes rfl]
        exact hroom
      obtain ⟨hstored, hkeep, hsize, hread⟩ := h.store_at_end hfit
      obtain ⟨hsound, hend, happend⟩ := hstored.advance (m := n) hroom
      intro b'
      have hb' : b' = (b.store b.mEndLoc bytes).advance n := by
        simp only [b', Option.elim_some, htake]
      rw [hb']
      refine ⟨hsound.kept_of_eq rfl hsize rfl rfl, hend, rfl, ?_⟩
      intro bytes' hbytes'
      obtain rfl : bytes = bytes' := Option.some.inj hbytes'
      rw [hdata bytes rfl, store_mEndLoc] at *
      rw [happend, hkeep, hread]

/-- **`addBuffer`** of a request that grows safely. -/
theorem Sound.addBuffer (h : b.Sound) {data : Option (List UInt8)} {n : ℕ}
    (hdata : ∀ bytes ∈ data, bytes.length = n) (hn : n < 4294967296)
    (hsafe : b.extent.GrowsSafely n) :
    Kept b (b.addBuffer data n).2 ∧
    ((b.addBuffer data n).1 = true ↔
      n ≤ (b.makeRoom n).mMaxLen - (b.makeRoom n).mEndLoc) ∧
    ((b.addBuffer data n).1 = true →
      (b.addBuffer data n).2.mStartLoc + b.getSize + n =
        (b.addBuffer data n).2.mEndLoc ∧
      ∀ bytes ∈ data, (b.addBuffer data n).2.getData = b.getData ++ bytes) ∧
    ((b.addBuffer data n).1 = false →
      (b.addBuffer data n).2.getData = b.getData) := by
  obtain ⟨hkept, hkeep⟩ := h.makeRoom hn hsafe
  have hsize : (b.makeRoom n).getSize = b.getSize := by
    rw [← length_getData, ← length_getData, hkeep]
  by_cases hroom : n ≤ (b.makeRoom n).mMaxLen - (b.makeRoom n).mEndLoc
  · obtain ⟨hkept', hend, hstart, happend⟩ := hkept.sound.append hdata hroom
    have hadd : b.addBuffer data n = (true,
        (data.elim (b.makeRoom n) fun bytes =>
          (b.makeRoom n).store (b.makeRoom n).mEndLoc
            (bytes.take n)).advance n) := by
      simp only [SimpleBuffer.addBuffer]
      rw [hkept.sound.available_eq, if_pos hroom]
      cases data <;> rfl
    rw [hadd]
    refine ⟨hkept.trans hkept', iff_of_true rfl hroom, fun _ => ⟨?_, ?_⟩,
      fun hfalse => absurd hfalse (by simp)⟩
    · have hdiff := hkept.sound.getSize_eq
      have hle := hkept.sound.start_le
      rw [hend, hstart]
      omega
    · intro bytes hbytes
      rw [happend bytes hbytes, hkeep]
  · have hadd : b.addBuffer data n = (false, b.makeRoom n) := by
      simp only [SimpleBuffer.addBuffer]
      rw [hkept.sound.available_eq, if_neg hroom]
    rw [hadd]
    exact ⟨hkept, iff_of_false (by simp) hroom,
      fun hfalse => absurd hfalse (by simp), fun _ => hkeep⟩

/-- **`confirmCapacity`** of a request that grows safely. -/
theorem Sound.confirmCapacity (h : b.Sound) {n : ℕ} (hn : n < 4294967296)
    (hsafe : b.extent.GrowsSafely n) :
    (b.confirmCapacity n).2 = b.makeRoom n ∧
    (b.confirmCapacity n).1 =
      if n ≤ (b.makeRoom n).mMaxLen - (b.makeRoom n).mEndLoc then
        (b.makeRoom n).mBuffer.map fun _ => (b.makeRoom n).mEndLoc
      else
        none := by
  obtain ⟨hkept, -⟩ := h.makeRoom hn hsafe
  simp only [SimpleBuffer.confirmCapacity]
  rw [hkept.sound.available_eq]
  split
  · exact ⟨rfl, rfl⟩
  · exact ⟨rfl, rfl⟩

theorem Sound.clear_kept (h : b.Sound) : Kept b b.clear :=
  h.clear.1.kept_of_eq rfl rfl rfl rfl

theorem Sound.consume_kept (h : b.Sound) (k : ℕ) : Kept b (b.consume k) :=
  (h.consume k).1.kept_of_eq (b.consume_mMaxLen k)
    (congrArg Block.size (b.consume_block k)) (b.consume_mMaxGrowSize k)
    (b.consume_mDefaultSize k)

end SimpleBuffer

end Socketchat.Buffer
