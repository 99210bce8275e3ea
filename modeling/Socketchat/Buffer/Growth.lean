import Socketchat.Buffer.SimpleBuffer
import Mathlib.Tactic

/-!
# What growing a buffer does

`makeRoom` has four outcomes (`makeRoom_cases`): nothing to do, the data moved
to the front, a new block, or a refusal. In all of them the content stays, as
long as no copy leaves its block; and afterwards there is space for the
request exactly when there was room for it (`makeRoom_spec`). Requests below
`2^31` cannot make the growth arithmetic wrap.
-/

namespace Socketchat.Buffer.SimpleBuffer

open Foundation

variable {b : SimpleBuffer}

/-! ## Writing into the block -/

theorem store_block {off : ℕ} {xs : List UInt8}
    (h : b.block.Fits off xs.length) :
    (b.store off xs).block = b.block.copy off xs := by
  cases hbuf : b.mBuffer with
  | none =>
      have hnil : xs = [] := by
        simp only [block, hbuf, Option.getD_none, Block.Fits,
          Block.size_fresh] at h
        exact List.eq_nil_of_length_eq_zero (by omega)
      simp [store, block, hbuf, hnil]
  | some m => simp [store, block, hbuf]

theorem block_congr {b' : SimpleBuffer} (h : b.mBuffer = b'.mBuffer) :
    b.block = b'.block := by
  unfold block
  rw [h]

theorem store_overrun {off : ℕ} {xs : List UInt8}
    (h : b.block.Fits off xs.length) :
    (b.store off xs).overrun = b.overrun := by
  simp [store, h]

/-- A write into the space behind the data leaves the data alone. -/
theorem Sound.store_at_end (h : b.Sound) {xs : List UInt8}
    (hfit : xs.length ≤ b.mMaxLen - b.mEndLoc) :
    (b.store b.mEndLoc xs).Sound ∧
    (b.store b.mEndLoc xs).getData = b.getData ∧
    (b.store b.mEndLoc xs).block.size = b.block.size ∧
    (b.store b.mEndLoc xs).block.read b.mEndLoc xs.length = xs := by
  have hin : b.block.Fits b.mEndLoc xs.length := by
    have := h.max_le_block
    have := h.end_le
    unfold Block.Fits
    omega
  have hblock := store_block hin
  have hstart := h.start_le
  have hsize : (b.store b.mEndLoc xs).block.size = b.block.size := by
    rw [hblock, Block.size_copy]
  refine ⟨⟨h.start_le, h.end_le, h.max_lt, ?_, ?_⟩, ?_, hsize, ?_⟩
  · rw [hsize]
    exact h.max_le_block
  · rw [store_overrun hin]
    exact h.intact
  · show (b.store b.mEndLoc xs).block.read b.mStartLoc b.getSize = _
    rw [hblock, getData, h.getSize_eq]
    exact Block.read_copy_of_disjoint _ (Or.inl (by omega))
  · rw [hblock, Block.read_copy_self]

theorem store_at_end (h : b.Valid) {xs : List UInt8}
    (hfit : xs.length ≤ b.mMaxLen - b.mEndLoc) :
    (b.store b.mEndLoc xs).Valid ∧
    (b.store b.mEndLoc xs).getData = b.getData ∧
    (b.store b.mEndLoc xs).block.read b.mEndLoc xs.length = xs := by
  obtain ⟨hsound, hdata, hsize, hread⟩ := h.sound.store_at_end hfit
  exact ⟨hsound.valid h.max_le h.grow_le (hsize.trans h.size_eq), hdata, hread⟩

/-- Advancing `mEndLoc` takes the next bytes of the block into the data. -/
theorem Sound.advance (h : b.Sound) {m : ℕ} (hm : m ≤ b.mMaxLen - b.mEndLoc) :
    (b.advance m).Sound ∧
    (b.advance m).mEndLoc = b.mEndLoc + m ∧
    (b.advance m).getData = b.getData ++ b.block.read b.mEndLoc m := by
  have hsize := h.getSize_eq
  have hstart := h.start_le
  have hend := h.end_le
  have hmax := h.max_lt
  have hadd : (b.advance m).mEndLoc = b.mEndLoc + m :=
    add32_of_lt (by omega)
  refine ⟨⟨?_, ?_, hmax, h.max_le_block, h.intact⟩, hadd, ?_⟩
  · rw [hadd, advance_mStartLoc]
    omega
  · rw [hadd, advance_mMaxLen]
    omega
  · have hlen : (b.advance m).getSize = b.getSize + m := by
      rw [getSize, hadd, advance_mStartLoc, sub32_of_le (by omega) (by omega),
        hsize]
      omega
    have hbehind : b.mStartLoc + b.getSize = b.mEndLoc := by omega
    have hblock : (b.advance m).block = b.block := block_congr rfl
    rw [getData, hlen, hblock, advance_mStartLoc, Block.read_append, hbehind]
    rfl

theorem advance_spec (h : b.Valid) {m : ℕ} (hm : m ≤ b.mMaxLen - b.mEndLoc) :
    (b.advance m).Valid ∧
    (b.advance m).getData = b.getData ++ b.block.read b.mEndLoc m := by
  obtain ⟨hsound, -, hdata⟩ := h.sound.advance hm
  exact ⟨hsound.valid h.max_le h.grow_le h.size_eq, hdata⟩

/-! ## Moving the data -/

theorem Sound.compact (h : b.Sound) :
    b.compact.Sound ∧ b.compact.getData = b.getData ∧
    b.compact.block.size = b.block.size := by
  have hle := h.getSize_le
  have hblk := h.max_le_block
  have hmax := h.max_lt
  have hin : b.block.Fits 0
      (b.block.read b.mStartLoc b.getSize).length := by
    simp only [Block.Fits, Block.length_read]
    omega
  have hblock : b.compact.block = b.block.copy 0
      (b.block.read b.mStartLoc b.getSize) := by
    have hbuf : b.compact.mBuffer =
        (b.store 0 (b.block.read b.mStartLoc b.getSize)).mBuffer := rfl
    rw [block_congr hbuf, store_block hin]
  have hsize : b.compact.block.size = b.block.size := by
    rw [hblock, Block.size_copy]
  refine ⟨⟨Nat.zero_le _, hle, hmax, hsize ▸ hblk, ?_⟩, ?_, hsize⟩
  · show (b.store 0 (b.block.read b.mStartLoc b.getSize)).overrun = false
    rw [store_overrun hin]
    exact h.intact
  · have hlen : b.compact.getSize = b.getSize := by
      show sub32 b.getSize 0 = b.getSize
      exact sub32_zero (by omega)
    have hself := Block.read_copy_self b.block 0
      (b.block.read b.mStartLoc b.getSize)
    rw [Block.length_read] at hself
    show b.compact.block.read 0 b.compact.getSize = _
    rw [hlen, hblock, hself]
    rfl

theorem compact_spec (h : b.Valid) :
    b.compact.Valid ∧ b.compact.getData = b.getData := by
  obtain ⟨hsound, hdata, hsize⟩ := h.sound.compact
  exact ⟨hsound.valid h.max_le h.grow_le (hsize.trans h.size_eq), hdata⟩

theorem Sound.reallocate (h : b.Sound) {n : ℕ} (hn : b.getSize ≤ n)
    (hlt : n < 4294967296) :
    (b.reallocate n).Sound ∧ (b.reallocate n).getData = b.getData := by
  refine ⟨⟨Nat.zero_le _, hn, hlt, Nat.le_refl n, ?_⟩, ?_⟩
  · have hfits : ¬ n < b.getSize := Nat.not_lt.mpr hn
    simp [SimpleBuffer.reallocate, hfits, h.intact]
  · have hlen : (b.reallocate n).getSize = b.getSize := by
      show sub32 b.getSize 0 = b.getSize
      exact sub32_zero (by omega)
    have hself := Block.read_copy_self (Block.fresh n) 0
      (b.block.read b.mStartLoc b.getSize)
    rw [Block.length_read] at hself
    show (b.reallocate n).block.read 0 (b.reallocate n).getSize = _
    rw [hlen]
    exact hself

theorem reallocate_spec (h : b.Valid) {n : ℕ} (hn : b.getSize ≤ n)
    (hcap : n ≤ b.mMaxGrowSize) :
    (b.reallocate n).Valid ∧ (b.reallocate n).getData = b.getData := by
  have hgrow := h.grow_le
  obtain ⟨hsound, hdata⟩ := h.sound.reallocate hn (by omega)
  exact ⟨hsound.valid hcap hgrow rfl, hdata⟩

/-! ## The growth rule -/

theorem grownLen_of_le (h : b.Valid) {n : ℕ}
    (hn : n ≤ 2 * b.mMaxLen - b.mEndLoc) : b.grownLen n = 2 * b.mMaxLen := by
  obtain ⟨-, h₂, h₃, h₄, -, -⟩ := h
  have hdouble : mul32 b.mMaxLen 2 = 2 * b.mMaxLen := by
    rw [mul32_of_lt (by omega), Nat.mul_comm]
  have hsub : sub32 (2 * b.mMaxLen) b.mEndLoc = 2 * b.mMaxLen - b.mEndLoc :=
    sub32_of_le (by omega) (by omega)
  have hnot : ¬ 2 * b.mMaxLen - b.mEndLoc < n := by omega
  simp only [grownLen, hdouble, hsub, if_neg hnot]

theorem grownLen_of_gt (h : b.Valid) {n : ℕ}
    (hn : 2 * b.mMaxLen - b.mEndLoc < n) :
    b.grownLen n = toU32 (2 * b.mMaxLen + n) := by
  obtain ⟨-, h₂, h₃, h₄, -, -⟩ := h
  have hdouble : mul32 b.mMaxLen 2 = 2 * b.mMaxLen := by
    rw [mul32_of_lt (by omega), Nat.mul_comm]
  have hsub : sub32 (2 * b.mMaxLen) b.mEndLoc = 2 * b.mMaxLen - b.mEndLoc :=
    sub32_of_le (by omega) (by omega)
  simp only [grownLen, hdouble, hsub, if_pos hn, add32]

/-- The four outcomes of `makeRoom`. -/
theorem Sound.makeRoom_cases (h : b.Sound) (n : ℕ) :
    (n ≤ b.mMaxLen - b.mEndLoc ∧ b.makeRoom n = b) ∨
    (b.mMaxLen - b.mEndLoc < n ∧ n < b.mStartLoc ∧ b.makeRoom n = b.compact) ∨
    (b.mMaxLen - b.mEndLoc < n ∧ b.mStartLoc ≤ n ∧
      b.grownLen n ≤ b.mMaxGrowSize ∧
      b.makeRoom n = b.reallocate (b.grownLen n)) ∨
    (b.mMaxLen - b.mEndLoc < n ∧ b.mStartLoc ≤ n ∧
      b.mMaxGrowSize < b.grownLen n ∧ b.makeRoom n = b) := by
  unfold SimpleBuffer.makeRoom
  rw [h.available_eq]
  by_cases hroom : b.mMaxLen - b.mEndLoc < n
  · simp only [gt_iff_lt, if_pos hroom, growBuffer]
    by_cases hfront : n < b.mStartLoc
    · exact Or.inr (Or.inl ⟨hroom, hfront, by rw [if_pos hfront]⟩)
    · rw [if_neg hfront]
      have hfront := Nat.le_of_not_lt hfront
      by_cases hcap : b.mMaxGrowSize < b.grownLen n
      · exact Or.inr (Or.inr (Or.inr ⟨hroom, hfront, hcap,
          by rw [if_pos hcap]⟩))
      · exact Or.inr (Or.inr (Or.inl ⟨hroom, hfront,
          Nat.le_of_not_lt hcap, by rw [if_neg hcap]⟩))
  · simp only [gt_iff_lt, if_neg hroom]
    exact Or.inl ⟨Nat.le_of_not_lt hroom, trivial⟩

theorem makeRoom_cases (h : b.Valid) (n : ℕ) :
    (n ≤ b.mMaxLen - b.mEndLoc ∧ b.makeRoom n = b) ∨
    (b.mMaxLen - b.mEndLoc < n ∧ n < b.mStartLoc ∧ b.makeRoom n = b.compact) ∨
    (b.mMaxLen - b.mEndLoc < n ∧ b.mStartLoc ≤ n ∧
      b.grownLen n ≤ b.mMaxGrowSize ∧
      b.makeRoom n = b.reallocate (b.grownLen n)) ∨
    (b.mMaxLen - b.mEndLoc < n ∧ b.mStartLoc ≤ n ∧
      b.mMaxGrowSize < b.grownLen n ∧ b.makeRoom n = b) :=
  h.sound.makeRoom_cases n

/-- **What `makeRoom` guarantees.** Unless a copy leaves its block, the
buffer stays well-formed with the same content and cap, and the space behind
the data suffices exactly when there was room. -/
theorem makeRoom_spec (h : b.Valid) {n : ℕ} (hn : n < 4294967296)
    (ho : (b.makeRoom n).overrun = false) :
    (b.makeRoom n).Valid ∧
    (b.makeRoom n).getData = b.getData ∧
    (b.makeRoom n).mMaxGrowSize = b.mMaxGrowSize ∧
    (n ≤ (b.makeRoom n).mMaxLen - (b.makeRoom n).mEndLoc ↔ b.HasRoom n) := by
  have hsize := h.getSize_eq
  have hstart := h.start_le
  have hend := h.end_le
  have hmax := h.max_le
  have hgrow := h.grow_le
  unfold HasRoom
  rcases makeRoom_cases h n with ⟨hroom, heq⟩ | ⟨hroom, hfront, heq⟩ |
      ⟨hroom, hfront, hcap, heq⟩ | ⟨hroom, hfront, hcap, heq⟩
  · rw [heq]
    exact ⟨h, rfl, rfl, iff_of_true hroom (Or.inl hroom)⟩
  · obtain ⟨hvalid, hdata⟩ := compact_spec h
    have hspace : n ≤ b.mMaxLen - b.getSize := by omega
    rw [heq]
    exact ⟨hvalid, hdata, rfl, iff_of_true hspace (Or.inr (Or.inl hfront))⟩
  · have hlen : b.getSize ≤ b.grownLen n := by
      rw [heq] at ho
      simpa [reallocate, h.intact] using ho
    obtain ⟨hvalid, hdata⟩ := reallocate_spec h hlen hcap
    rw [heq]
    refine ⟨hvalid, hdata, rfl, ?_⟩
    show n ≤ b.grownLen n - b.getSize ↔ _
    by_cases hdouble : n ≤ 2 * b.mMaxLen - b.mEndLoc
    · rw [grownLen_of_le h hdouble] at hcap ⊢
      omega
    · have hgt := Nat.lt_of_not_le hdouble
      -- the sum may wrap; then the block asked for is shorter than the request
      by_cases hwrap : 2 * b.mMaxLen + n < 4294967296
      · rw [grownLen_of_gt h hgt, toU32_of_lt hwrap] at hcap ⊢
        omega
      · rw [grownLen_of_gt h hgt, toU32_of_ge (by omega) (by omega)] at hcap ⊢
        omega
  · have hnot : ¬ (2 * b.mMaxLen ≤ b.mMaxGrowSize ∧
        (n ≤ 2 * b.mMaxLen - b.mEndLoc ∨
          2 * b.mMaxLen + n ≤ b.mMaxGrowSize)) := by
      rintro ⟨hdouble, hle | hle⟩
      · rw [grownLen_of_le h hle] at hcap
        omega
      · by_cases hle' : n ≤ 2 * b.mMaxLen - b.mEndLoc
        · rw [grownLen_of_le h hle'] at hcap
          omega
        · rw [grownLen_of_gt h (Nat.lt_of_not_le hle'),
            toU32_of_lt (by omega)] at hcap
          omega
    rw [heq]
    refine ⟨h, rfl, rfl, ?_⟩
    omega

/-- A request below `2^31` cannot wrap the growth arithmetic, so every copy
stays in its block. -/
theorem makeRoom_intact (h : b.Valid) {n : ℕ} (hn : n < 2147483648) :
    (b.makeRoom n).overrun = false := by
  have hsize := h.getSize_eq
  have hend := h.end_le
  have hmax := h.max_le
  have hgrow := h.grow_le
  rcases makeRoom_cases h n with ⟨_, heq⟩ | ⟨_, _, heq⟩ |
      ⟨_, _, _, heq⟩ | ⟨_, _, _, heq⟩
  · rw [heq]
    exact h.intact
  · rw [heq]
    exact (compact_spec h).1.intact
  · have hlen : ¬ b.grownLen n < b.getSize := by
      by_cases hdouble : n ≤ 2 * b.mMaxLen - b.mEndLoc
      · rw [grownLen_of_le h hdouble]
        omega
      · rw [grownLen_of_gt h (Nat.lt_of_not_le hdouble),
          toU32_of_lt (by omega)]
        omega
    rw [heq]
    simp [reallocate, h.intact, hlen]
  · rw [heq]
    exact h.intact

/-- A refused request changes nothing. -/
theorem makeRoom_eq_self (h : b.Valid) {n : ℕ} (hn : n < 2147483648)
    (hno : ¬ b.HasRoom n) : b.makeRoom n = b := by
  unfold HasRoom at hno
  have hend := h.end_le
  have hmax := h.max_le
  have hgrow := h.grow_le
  rcases makeRoom_cases h n with ⟨_, heq⟩ | ⟨_, hfront, _⟩ |
      ⟨_, _, hcap, _⟩ | ⟨_, _, _, heq⟩
  · exact heq
  · exact absurd (Or.inr (Or.inl hfront)) hno
  · exfalso
    by_cases hdouble : n ≤ 2 * b.mMaxLen - b.mEndLoc
    · rw [grownLen_of_le h hdouble] at hcap
      omega
    · rw [grownLen_of_gt h (Nat.lt_of_not_le hdouble),
        toU32_of_lt (by omega)] at hcap
      omega
  · exact heq

/-- `overrun` is never reset. -/
theorem makeRoom_overrun (n : ℕ) (h : (b.makeRoom n).overrun = false) :
    b.overrun = false := by
  have hgrown : b.overrun = true → (b.makeRoom n).overrun = true := by
    intro hb
    simp only [makeRoom, growBuffer]
    by_cases hroom : n > sub32 b.mMaxLen b.mEndLoc
    · rw [if_pos hroom]
      split_ifs
      · simp [compact, store, hb]
      · exact hb
      · simp [reallocate, hb]
    · rw [if_neg hroom]
      exact hb
  cases hb : b.overrun with
  | false => rfl
  | true => exact absurd (hgrown hb) (by simp [h])

end Socketchat.Buffer.SimpleBuffer
