import Socketchat.Buffer.Refinement

/-!
# A buffer that is filled by the same request

A buffer that only ever grows for requests of `c` bytes, `c` small beside its
length, doubles until it is as long as the cap. From then on room is made in
front of the data only, when more than `c` bytes have been consumed there:
those consumed before that are lost to it (`reserved`), and whether a request
succeeds is a matter of one sum (`Doubled.hasRoom_iff`).
-/

namespace Socketchat.Buffer.SimpleBuffer

open Foundation

variable {b b' b'' : SimpleBuffer} {c : ℕ}

/-- Some number of doublings makes the block as long as the cap. -/
structure Doubled (c : ℕ) (b : SimpleBuffer) : Prop where
  valid : b.Valid
  room_le : 2 * c ≤ b.mMaxLen
  doubling : ∃ i, b.mMaxLen * 2 ^ i = b.mMaxGrowSize

/-- The bytes in front of the data that requests for `c` bytes cannot get
back. -/
def reserved (c : ℕ) (b : SimpleBuffer) : ℕ :=
  if b.mMaxLen = b.mMaxGrowSize ∧ b.mStartLoc ≤ c then b.mStartLoc else 0

/-- From `b` to `b'`, room has been made for requests of `c` bytes and bytes
have been appended: no more bytes in front of the data are lost to them. -/
structure Refilled (c : ℕ) (b b' : SimpleBuffer) : Prop where
  doubled : b'.Doubled c
  reserved_eq : b'.reserved c = b.reserved c
  cap_eq : b'.mMaxGrowSize = b.mMaxGrowSize

theorem Refilled.trans (h : Refilled c b b') (h' : Refilled c b' b'') :
    Refilled c b b'' :=
  ⟨h'.doubled, h'.reserved_eq.trans h.reserved_eq, h'.cap_eq.trans h.cap_eq⟩

namespace Doubled

theorem refl (h : b.Doubled c) : Refilled c b b := ⟨h, rfl, rfl⟩

theorem of_eq (h : b.Doubled c) (hvalid : b'.Valid)
    (hmax : b'.mMaxLen = b.mMaxLen)
    (hcap : b'.mMaxGrowSize = b.mMaxGrowSize) : b'.Doubled c := by
  refine ⟨hvalid, hmax ▸ h.room_le, ?_⟩
  rw [hmax, hcap]
  exact h.doubling

/-- The block is as long as the cap, or may be doubled. -/
theorem full_or (h : b.Doubled c) :
    b.mMaxLen = b.mMaxGrowSize ∨ 2 * b.mMaxLen ≤ b.mMaxGrowSize := by
  obtain ⟨i, hi⟩ := h.doubling
  cases i with
  | zero => exact Or.inl (by rw [← hi, pow_zero, Nat.mul_one])
  | succ i =>
      have hpos : 1 ≤ 2 ^ i := Nat.one_le_two_pow
      have hle : b.mMaxLen * 2 * 1 ≤ b.mMaxLen * 2 * 2 ^ i :=
        Nat.mul_le_mul_left _ hpos
      rw [Nat.pow_succ, Nat.mul_comm (2 ^ i), ← Nat.mul_assoc] at hi
      exact Or.inr (by omega)

/-- **Room for a request.** -/
theorem hasRoom_iff (h : b.Doubled c) :
    b.HasRoom c ↔ b.reserved c + b.getSize + c ≤ b.mMaxGrowSize := by
  have hsize := h.valid.getSize_eq
  have hstart := h.valid.start_le
  have hend := h.valid.end_le
  have hmax := h.valid.max_le
  have hroom := h.room_le
  have hfull := h.full_or
  unfold HasRoom reserved
  by_cases hcase : b.mMaxLen = b.mMaxGrowSize ∧ b.mStartLoc ≤ c
  · rw [if_pos hcase]
    omega
  · rw [if_neg hcase]
    omega

/-! ## Filling -/

theorem makeRoom (h : b.Doubled c) : Refilled c b (b.makeRoom c) := by
  have hend := h.valid.end_le
  have hgrow := h.valid.grow_le
  have hmax := h.valid.max_le
  have hroom := h.room_le
  obtain ⟨hvalid, -, hcap, -⟩ :=
    makeRoom_spec h.valid (n := c) (by omega)
      (makeRoom_intact h.valid (by omega))
  rcases makeRoom_cases h.valid c with ⟨-, heq⟩ | ⟨-, hfront, heq⟩ |
      ⟨hfits, hfront, hle, heq⟩ | ⟨-, -, -, heq⟩
  · rw [heq]
    exact h.refl
  · rw [heq] at hvalid hcap ⊢
    have hnot : ¬ (b.mMaxLen = b.mMaxGrowSize ∧ b.mStartLoc ≤ c) := by omega
    refine ⟨h.of_eq hvalid rfl rfl, ?_, hcap⟩
    rw [reserved, reserved, if_neg hnot, compact_mStartLoc, ite_self]
  · rw [grownLen_of_le h.valid (by omega)] at heq hle
    rw [heq] at hvalid hcap ⊢
    have hnot : ¬ (b.mMaxLen = b.mMaxGrowSize ∧ b.mStartLoc ≤ c) := by omega
    refine ⟨⟨hvalid, ?_, ?_⟩, ?_, hcap⟩
    · rw [reallocate_mMaxLen]
      omega
    · -- one doubling fewer is left
      obtain ⟨i, hi⟩ := h.doubling
      cases i with
      | zero =>
          rw [pow_zero, Nat.mul_one] at hi
          omega
      | succ i =>
          refine ⟨i, ?_⟩
          rw [reallocate_mMaxLen, reallocate_mMaxGrowSize, ← hi,
            Nat.pow_succ, Nat.mul_comm (2 ^ i), ← Nat.mul_assoc,
            Nat.mul_comm 2]
    · rw [reserved, reserved, if_neg hnot, reallocate_mStartLoc, ite_self]
  · rw [heq]
    exact h.refl

theorem confirmCapacity (h : b.Doubled c) :
    Refilled c b (b.confirmCapacity c).2 := by
  have hsnd : (b.confirmCapacity c).2 = b.makeRoom c := by
    simp only [SimpleBuffer.confirmCapacity]
    split <;> rfl
  rw [hsnd]
  exact h.makeRoom

theorem confirmCapacity_isSome_iff (h : b.Doubled c) (hc : 0 < c) :
    (b.confirmCapacity c).1.isSome ↔ b.HasRoom c := by
  have hgrow := h.valid.grow_le
  have hmax := h.valid.max_le
  have hroom := h.room_le
  rcases confirmCapacity_spec h.valid (c := c) (by omega) with
    ⟨b', hconf, -, -, -, -, hyes⟩ | ⟨hconf, hzero⟩
  · rw [hconf]
    exact iff_of_true rfl hyes
  · rw [hconf]
    refine iff_of_false (by simp) fun hyes => ?_
    have := hzero hyes
    omega

/-- The two-step append of no more than was confirmed. -/
theorem fill (h : b.Doubled c) {bytes : List UInt8} (hlen : bytes.length ≤ c) :
    Refilled c b (b.exec (.fill c bytes)).2 := by
  have hgrow := h.valid.grow_le
  have hmax := h.valid.max_le
  have hroom := h.room_le
  have hconfirmed := h.confirmCapacity
  rcases confirmCapacity_spec h.valid (c := c) (by omega) with
    ⟨b', hconf, hvalid, -, -, hspace, -⟩ | ⟨hconf, -⟩
  · rw [hconf] at hconfirmed
    have hfit : bytes.length ≤ b'.mMaxLen - b'.mEndLoc := by omega
    obtain ⟨hvalid', -, -⟩ := store_at_end hvalid hfit
    have hcommit := hvalid'.sound.commit (m := bytes.length) hfit
    have hexec : (b.exec (.fill c bytes)).2 =
        (b'.store b'.mEndLoc bytes).advance bytes.length := by
      simp only [exec, hconf, hcommit]
    rw [hexec]
    exact ⟨hconfirmed.doubled.of_eq (advance_spec hvalid' hfit).1 rfl rfl,
      hconfirmed.reserved_eq, hconfirmed.cap_eq⟩
  · have hexec : (b.exec (.fill c bytes)).2 = b := by
      simp only [exec, hconf]
    rw [hexec]
    exact h.refl

theorem getSize_fill (h : b.Doubled c) (hc : 0 < c) {bytes : List UInt8}
    (hlen : bytes.length ≤ c) (hroom : b.HasRoom c) :
    (b.exec (.fill c bytes)).2.getSize = b.getSize + bytes.length := by
  have hgrow := h.valid.grow_le
  have hmax := h.valid.max_le
  have hle := h.room_le
  rcases confirmCapacity_spec h.valid (c := c) (by omega) with
    ⟨b', hconf, hvalid, hdata, -, hspace, -⟩ | ⟨-, hzero⟩
  · have hfit : bytes.length ≤ b'.mMaxLen - b'.mEndLoc := by omega
    obtain ⟨-, -, hdata', -⟩ := store_commit_spec hvalid hfit
    rw [hdata] at hdata'
    simp only [exec, hconf]
    rw [← length_getData, hdata', List.length_append, length_getData]
  · have := hzero hroom
    omega

end Doubled

/-! ## Consuming -/

/-- Nothing but consuming has happened from `b` to `b'`, as far as the
offsets show. -/
structure Trimmed (b b' : SimpleBuffer) : Prop where
  max_eq : b'.mMaxLen = b.mMaxLen
  cap_eq : b'.mMaxGrowSize = b.mMaxGrowSize
  offsets : (b'.mEndLoc = b.mEndLoc ∧ b.mStartLoc ≤ b'.mStartLoc) ∨
    (b'.mStartLoc = 0 ∧ b'.mEndLoc = 0)

theorem Trimmed.refl (b : SimpleBuffer) : b.Trimmed b :=
  ⟨rfl, rfl, Or.inl ⟨rfl, Nat.le_refl _⟩⟩

theorem Trimmed.trans (h : b.Trimmed b') (h' : b'.Trimmed b'')
    (hvalid : b''.Valid) : b.Trimmed b'' := by
  have hstart := hvalid.start_le
  refine ⟨h'.max_eq.trans h.max_eq, h'.cap_eq.trans h.cap_eq, ?_⟩
  rcases h.offsets with ⟨hend, hle⟩ | ⟨hzero, hend⟩
  · rcases h'.offsets with ⟨hend', hle'⟩ | hboth
    · exact Or.inl ⟨hend'.trans hend, Nat.le_trans hle hle'⟩
    · exact Or.inr hboth
  · rcases h'.offsets with ⟨hend', -⟩ | hboth
    · exact Or.inr ⟨by omega, by omega⟩
    · exact Or.inr hboth

theorem Trimmed.consume (h : b.Valid) (k : ℕ) : b.Trimmed (b.consume k) := by
  refine ⟨consume_mMaxLen b k, consume_mMaxGrowSize b k, ?_⟩
  by_cases hall : b.mEndLoc - b.mStartLoc ≤ k
  · rw [consume_clamped h.sound hall]
    exact Or.inr ⟨rfl, rfl⟩
  · rw [consume_advances h.sound (Nat.lt_of_not_le hall)]
    exact Or.inl ⟨rfl, Nat.le_add_right _ _⟩

theorem Doubled.trimmed (h : b.Doubled c) (ht : b.Trimmed b')
    (hvalid : b'.Valid) : b'.Doubled c :=
  h.of_eq hvalid ht.max_eq ht.cap_eq

/-- **Room after consuming.** There was room before, or more than `c` bytes in
front of what is left have come free since the block is as long as the cap. -/
theorem Doubled.hasRoom_trimmed_iff (h : b.Doubled c) (ht : b.Trimmed b')
    (hvalid : b'.Valid) :
    b'.HasRoom c ↔
      b.reserved c + b.getSize + c ≤ b.mMaxGrowSize ∨
      c < b.reserved c + (b.getSize - b'.getSize) := by
  have hsize := h.valid.getSize_eq
  have hstart := h.valid.start_le
  have hend := h.valid.end_le
  have hmax := h.valid.max_le
  have hroom := h.room_le
  have hsize' := hvalid.getSize_eq
  have hstart' := hvalid.start_le
  have hmax' := ht.max_eq
  have hcap' := ht.cap_eq
  have hfull := h.full_or
  unfold HasRoom reserved
  by_cases hcase : b.mMaxLen = b.mMaxGrowSize ∧ b.mStartLoc ≤ c
  · rw [if_pos hcase]
    rcases ht.offsets with ⟨hsame, hle⟩ | ⟨hzero, hempty⟩
    · omega
    · omega
  · rw [if_neg hcase]
    rcases ht.offsets with ⟨hsame, hle⟩ | ⟨hzero, hempty⟩
    · omega
    · omega

end Socketchat.Buffer.SimpleBuffer
