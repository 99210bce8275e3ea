import Socketchat.Buffer.Calls
import Socketchat.Buffer.Refinement

/-!
# `shrinkBuffer`

`shrinkBuffer` sets the offsets and the length as if the data were at the front
of a new block, and keeps the old block. So the data afterwards is what lies at
the front of the old one. A sound buffer is a queue of its content, and buffers
of one shape and one content cannot be told apart; so where that data is what it
was, the queue is too.
-/

namespace Socketchat.Buffer

open Foundation

namespace SimpleBuffer

variable {b : SimpleBuffer}

theorem shrinkBuffer_fst (b : SimpleBuffer) :
    b.shrinkBuffer.1 = max b.mDefaultSize b.getSize := by
  simp only [shrinkBuffer]
  split <;> omega

@[simp] theorem shrinkBuffer_block (b : SimpleBuffer) :
    b.shrinkBuffer.2.block = b.block := rfl

theorem shrinkBuffer_mMaxLen (b : SimpleBuffer) :
    b.shrinkBuffer.2.mMaxLen = max b.mDefaultSize b.getSize :=
  shrinkBuffer_fst b

/-- The content is what lies at the front of the old block. -/
theorem shrinkBuffer_getData (b : SimpleBuffer) :
    b.shrinkBuffer.2.getData = b.block.read 0 b.getSize := by
  have hsize : b.shrinkBuffer.2.getSize = b.getSize := sub32_zero (sub32_lt ..)
  rw [getData, hsize]
  rfl

/-- A buffer whose block is already of the length asked for is sound
afterwards, whatever its offsets were. -/
theorem shrinkBuffer_sound (hdefault : b.mDefaultSize < 4294967296)
    (hintact : b.overrun = false)
    (hsize : b.block.size = max b.mDefaultSize b.getSize) :
    b.shrinkBuffer.2.Sound := by
  have hlen := shrinkBuffer_mMaxLen b
  have hword : b.getSize < 4294967296 := sub32_lt ..
  have hend : b.shrinkBuffer.2.mEndLoc = b.getSize := rfl
  refine ⟨Nat.zero_le _, ?_, ?_, ?_, hintact⟩
  · omega
  · omega
  · rw [shrinkBuffer_block]
    omega

end SimpleBuffer

/-! ## A sound buffer is a queue -/

/-- What makes the outcome of an operation on a sound buffer defined: a new
block holds the data copied to it, no more is written than was confirmed, and
no more is consumed than is there. -/
def Op.Safe (b : SimpleBuffer) : Op → Prop
  | .add data => b.getSize ≤ (b.makeRoom data.length).mMaxLen
  | .fill c bytes =>
      b.getSize ≤ (b.makeRoom c).mMaxLen ∧ bytes.length ≤ c
  | .consume k => k ≤ b.getSize
  | .clear => True

/-- The buffer after an operation. -/
def SimpleBuffer.after (b : SimpleBuffer) (op : Op) : SimpleBuffer :=
  (b.exec op).2

/-- What a client sees: after each operation, whether it was refused and what
`getData` shows. -/
def SimpleBuffer.answers (b : SimpleBuffer) : List Op → List (Bool × List UInt8)
  | [] => []
  | op :: ops =>
      ((b.exec op).1, (b.after op).getData) :: (b.after op).answers ops

theorem Op.Safe.drop_le {b : SimpleBuffer} {op : Op} (hop : op.Safe b) {k : ℕ}
    (hk : op.abs b = .drop k) : k ≤ b.getSize := by
  cases op with
  | consume j =>
      have hj : j = k := by simpa [Op.abs, SimpleBuffer.exec] using hk
      exact hj ▸ hop
  | add data =>
      simp only [Op.abs] at hk
      split at hk <;> simp at hk
  | fill c bytes =>
      simp only [Op.abs] at hk
      split at hk <;> simp at hk
  | clear => simp [Op.abs, SimpleBuffer.exec] at hk

namespace SimpleBuffer

variable {b : SimpleBuffer}

theorem Sound.makeRoom_holds (h : b.Sound) {n : ℕ}
    (hholds : b.getSize ≤ (b.makeRoom n).mMaxLen) :
    (b.makeRoom n).Sound ∧ (b.makeRoom n).getData = b.getData := by
  rcases h.makeRoom_cases n with ⟨-, heq⟩ | ⟨-, -, heq⟩ |
      ⟨-, -, -, heq⟩ | ⟨-, -, -, heq⟩
  · rw [heq]
    exact ⟨h, rfl⟩
  · rw [heq]
    exact ⟨h.compact.1, h.compact.2.1⟩
  · rw [heq] at hholds ⊢
    exact h.reallocate hholds (grownLen_lt n)
  · rw [heq]
    exact ⟨h, rfl⟩

theorem Sound.add (h : b.Sound) {data : List UInt8}
    (hholds : b.getSize ≤ (b.makeRoom data.length).mMaxLen) :
    (b.addBuffer (some data) data.length).2.Sound ∧
    (b.addBuffer (some data) data.length).2.getData =
      if (b.addBuffer (some data) data.length).1 then b.getData ++ data
      else b.getData := by
  obtain ⟨hsound, hkeep⟩ := h.makeRoom_holds hholds
  by_cases hroom : data.length ≤ (b.makeRoom data.length).mMaxLen -
      (b.makeRoom data.length).mEndLoc
  · have hlen : ∀ bytes ∈ some data, bytes.length = data.length := by simp
    obtain ⟨hkept, -, -, happend⟩ := hsound.append hlen hroom
    have hadd : b.addBuffer (some data) data.length = (true,
        ((b.makeRoom data.length).store (b.makeRoom data.length).mEndLoc
          (data.take data.length)).advance data.length) := by
      simp only [SimpleBuffer.addBuffer]
      rw [hsound.available_eq, if_pos hroom]
    rw [hadd]
    refine ⟨hkept.sound, (happend data rfl).trans ?_⟩
    rw [hkeep, if_pos rfl]
  · have hadd : b.addBuffer (some data) data.length =
        (false, b.makeRoom data.length) := by
      simp only [SimpleBuffer.addBuffer]
      rw [hsound.available_eq, if_neg hroom]
    rw [hadd]
    exact ⟨hsound, hkeep⟩

/-- The step lemma for sound buffers. -/
theorem Sound.exec (h : b.Sound) {op : Op} (hop : op.Safe b) :
    (b.after op).Sound ∧ (b.after op).getData = (op.abs b).apply b.getData := by
  unfold after
  cases op with
  | add data =>
      obtain ⟨hsound, hdata⟩ := h.add hop
      refine ⟨hsound, ?_⟩
      show (b.addBuffer (some data) data.length).2.getData = _
      rw [hdata]
      cases hadd : (b.addBuffer (some data) data.length).1 with
      | true => simp [Op.abs, SimpleBuffer.exec, hadd, FifoOp.apply]
      | false => simp [Op.abs, SimpleBuffer.exec, hadd, FifoOp.apply]
  | fill c bytes =>
      obtain ⟨hholds, hlen⟩ := hop
      obtain ⟨hsound, hkeep⟩ := h.makeRoom_holds hholds
      by_cases hroom : c ≤ (b.makeRoom c).mMaxLen - (b.makeRoom c).mEndLoc
      · have hconf : b.confirmCapacity c =
            ((b.makeRoom c).mBuffer.map fun _ => (b.makeRoom c).mEndLoc,
              b.makeRoom c) := by
          simp only [SimpleBuffer.confirmCapacity]
          rw [hsound.available_eq, if_pos hroom]
        cases hbuf : (b.makeRoom c).mBuffer with
        | none =>
            have hexec : b.exec (.fill c bytes) = (true, b.makeRoom c) := by
              simp only [SimpleBuffer.exec, hconf, hbuf, Option.map_none]
            simp only [Op.abs, hexec]
            exact ⟨hsound, hkeep⟩
        | some m =>
            obtain ⟨hok, hsound', hdata⟩ :=
              hsound.store_commit (hlen.trans hroom)
            have hexec : b.exec (.fill c bytes) =
                (false, (((b.makeRoom c).store (b.makeRoom c).mEndLoc
                  bytes).addBuffer none bytes.length).2) := by
              simp only [SimpleBuffer.exec, hconf, hbuf, Option.map_some, hok,
                Bool.not_true]
            simp only [Op.abs, hexec]
            exact ⟨hsound', hdata.trans (by rw [hkeep]; rfl)⟩
      · have hexec : b.exec (.fill c bytes) = (true, b.makeRoom c) := by
          simp only [SimpleBuffer.exec, SimpleBuffer.confirmCapacity]
          rw [hsound.available_eq, if_neg hroom]
        simp only [Op.abs, hexec]
        exact ⟨hsound, hkeep⟩
  | consume k => exact h.consume k
  | clear => exact h.clear

/-- **A sound buffer is a queue** of its content: a run of its clients is a run
of the queue, operation by operation. -/
theorem Sound.run_fifo : ∀ {ops : List Op} {b : SimpleBuffer}, b.Sound →
    Along after (fun b op => op.Safe b) b ops →
    ∃ qops, List.Forall₂ (fun op q => ∃ u, q = Op.abs u op) ops qops ∧
      (fifo UInt8).Run b.getData qops (ops.foldl after b).getData
  | [], b, _, _ => ⟨[], .nil, .nil _⟩
  | op :: ops, b, h, hsafe => by
      obtain ⟨hop, hrest⟩ := hsafe
      obtain ⟨hsound, hdata⟩ := h.exec hop
      obtain ⟨qops, hqops, hrun⟩ := hsound.run_fifo hrest
      have hstep : (fifo UInt8).step b.getData (op.abs b)
          (b.after op).getData := by
        refine ⟨hdata, fun k hk => ?_⟩
        rw [length_getData]
        exact hop.drop_le hk
      refine ⟨op.abs b :: qops, .cons ⟨b, rfl⟩ hqops, ?_⟩
      rw [List.foldl_cons]
      exact ((System.Run.nil b.getData).snoc hstep).trans hrun

end SimpleBuffer

/-! ## Buffers of one shape -/

/-- Two buffers with the same offsets, length and cap, which are null
together. -/
structure SameShape (b u : SimpleBuffer) : Prop where
  extent_eq : u.extent = b.extent
  mMaxGrowSize_eq : u.mMaxGrowSize = b.mMaxGrowSize
  null_iff : u.mBuffer = none ↔ b.mBuffer = none

namespace SameShape

variable {b u : SimpleBuffer}

theorem mStartLoc_eq (h : SameShape b u) : u.mStartLoc = b.mStartLoc :=
  congrArg Extent.start h.extent_eq

theorem mEndLoc_eq (h : SameShape b u) : u.mEndLoc = b.mEndLoc :=
  congrArg Extent.stop h.extent_eq

theorem mMaxLen_eq (h : SameShape b u) : u.mMaxLen = b.mMaxLen :=
  congrArg Extent.len h.extent_eq

theorem getSize_eq (h : SameShape b u) : u.getSize = b.getSize := by
  rw [SimpleBuffer.getSize, SimpleBuffer.getSize, h.mEndLoc_eq, h.mStartLoc_eq]

theorem grownLen_eq (h : SameShape b u) (n : ℕ) :
    u.grownLen n = b.grownLen n := by
  simp only [SimpleBuffer.grownLen, h.mMaxLen_eq, h.mEndLoc_eq]

theorem store (h : SameShape b u) (off : ℕ) (xs : List UInt8) :
    SameShape (b.store off xs) (u.store off xs) where
  extent_eq := h.extent_eq
  mMaxGrowSize_eq := h.mMaxGrowSize_eq
  null_iff := by simpa [SimpleBuffer.store] using h.null_iff

theorem advance (h : SameShape b u) (n : ℕ) :
    SameShape (b.advance n) (u.advance n) where
  extent_eq := by
    simp only [SimpleBuffer.extent, SimpleBuffer.advance, h.mStartLoc_eq,
      h.mEndLoc_eq, h.mMaxLen_eq]
  mMaxGrowSize_eq := h.mMaxGrowSize_eq
  null_iff := h.null_iff

theorem compact (h : SameShape b u) : SameShape b.compact u.compact where
  extent_eq := by
    simp only [SimpleBuffer.extent, SimpleBuffer.compact_mStartLoc,
      SimpleBuffer.compact_mEndLoc, SimpleBuffer.compact_mMaxLen, h.getSize_eq,
      h.mMaxLen_eq]
  mMaxGrowSize_eq := h.mMaxGrowSize_eq
  null_iff := by
    simpa [SimpleBuffer.compact, SimpleBuffer.store] using h.null_iff

theorem reallocate (h : SameShape b u) (n : ℕ) :
    SameShape (b.reallocate n) (u.reallocate n) where
  extent_eq := by
    simp only [SimpleBuffer.extent, SimpleBuffer.reallocate_mStartLoc,
      SimpleBuffer.reallocate_mEndLoc, SimpleBuffer.reallocate_mMaxLen,
      h.getSize_eq]
  mMaxGrowSize_eq := h.mMaxGrowSize_eq
  null_iff := iff_of_false (by simp [SimpleBuffer.reallocate])
    (by simp [SimpleBuffer.reallocate])

theorem makeRoom (h : SameShape b u) (n : ℕ) :
    SameShape (b.makeRoom n) (u.makeRoom n) := by
  simp only [SimpleBuffer.makeRoom, SimpleBuffer.growBuffer, h.mMaxLen_eq,
    h.mEndLoc_eq, h.mStartLoc_eq, h.mMaxGrowSize_eq, h.grownLen_eq]
  split_ifs
  · exact h.compact
  · exact h
  · exact h.reallocate _
  · exact h

theorem consume (h : SameShape b u) (k : ℕ) :
    SameShape (b.consume k) (u.consume k) := by
  simp only [SimpleBuffer.consume, h.mEndLoc_eq, h.mStartLoc_eq]
  generalize (if k > sub32 b.mEndLoc b.mStartLoc then
    sub32 b.mEndLoc b.mStartLoc else k) = m
  split_ifs
  · exact ⟨by simp [SimpleBuffer.extent, h.mMaxLen_eq], h.mMaxGrowSize_eq,
      h.null_iff⟩
  · exact ⟨by simp [SimpleBuffer.extent, h.mMaxLen_eq], h.mMaxGrowSize_eq,
      h.null_iff⟩

theorem addBuffer (h : SameShape b u) (data : Option (List UInt8)) (n : ℕ) :
    (u.addBuffer data n).1 = (b.addBuffer data n).1 ∧
    SameShape (b.addBuffer data n).2 (u.addBuffer data n).2 := by
  have hroom := h.makeRoom n
  simp only [SimpleBuffer.addBuffer, hroom.mMaxLen_eq, hroom.mEndLoc_eq]
  split_ifs
  · cases data with
    | none => exact ⟨rfl, hroom.advance n⟩
    | some bytes => exact ⟨rfl, (hroom.store _ _).advance n⟩
  · exact ⟨rfl, hroom⟩

theorem confirmCapacity (h : SameShape b u) (n : ℕ) :
    (u.confirmCapacity n).1 = (b.confirmCapacity n).1 ∧
    SameShape (b.confirmCapacity n).2 (u.confirmCapacity n).2 := by
  have hroom := h.makeRoom n
  simp only [SimpleBuffer.confirmCapacity, hroom.mMaxLen_eq, hroom.mEndLoc_eq]
  split_ifs
  · refine ⟨?_, hroom⟩
    have hnull := hroom.null_iff
    cases hu : (u.makeRoom n).mBuffer with
    | none => rw [hnull.mp hu]
    | some m =>
        cases hb : (b.makeRoom n).mBuffer with
        | none =>
            rw [hnull.mpr hb] at hu
            cases hu
        | some m' => rfl
  · exact ⟨rfl, hroom⟩

/-- Buffers of one shape accept and refuse the same, and stay of one shape. -/
theorem exec (h : SameShape b u) (op : Op) :
    (u.exec op).1 = (b.exec op).1 ∧ SameShape (b.after op) (u.after op) := by
  unfold SimpleBuffer.after
  cases op with
  | add data =>
      obtain ⟨hok, hafter⟩ := h.addBuffer (some data) data.length
      exact ⟨congrArg (!·) hok, hafter⟩
  | fill c bytes =>
      obtain ⟨haddr, hconf⟩ := h.confirmCapacity c
      simp only [SimpleBuffer.exec]
      rw [show u.confirmCapacity c =
        ((b.confirmCapacity c).1, (u.confirmCapacity c).2) from
        Prod.ext haddr rfl]
      rcases hb : b.confirmCapacity c with ⟨addr, b'⟩
      rw [hb] at hconf
      cases addr with
      | none => exact ⟨rfl, hconf⟩
      | some off =>
          obtain ⟨hok, hafter⟩ :=
            (hconf.store off bytes).addBuffer none bytes.length
          exact ⟨congrArg (!·) hok, hafter⟩
  | consume k => exact ⟨rfl, h.consume k⟩
  | clear =>
      exact ⟨rfl, by simp [SimpleBuffer.exec, SimpleBuffer.clear,
        SimpleBuffer.extent, h.mMaxLen_eq], h.mMaxGrowSize_eq, h.null_iff⟩

theorem safe (h : SameShape b u) {op : Op} (hop : op.Safe b) : op.Safe u := by
  cases op with
  | add data =>
      show u.getSize ≤ (u.makeRoom data.length).mMaxLen
      rw [h.getSize_eq, (h.makeRoom data.length).mMaxLen_eq]
      exact hop
  | fill c bytes =>
      refine ⟨?_, hop.2⟩
      rw [h.getSize_eq, (h.makeRoom c).mMaxLen_eq]
      exact hop.1
  | consume k =>
      show k ≤ u.getSize
      rw [h.getSize_eq]
      exact hop
  | clear => trivial

theorem abs_eq (h : SameShape b u) (op : Op) : op.abs u = op.abs b := by
  unfold Op.abs
  rw [(h.exec op).1]

/-- Sound buffers of one shape and one content give the same answers. -/
theorem answers_eq : ∀ {ops : List Op} {b u : SimpleBuffer}, SameShape b u →
    b.Sound → u.Sound → u.getData = b.getData →
    Along SimpleBuffer.after (fun b op => op.Safe b) b ops →
    u.answers ops = b.answers ops
  | [], _, _, _, _, _, _, _ => rfl
  | op :: ops, b, u, h, hb, hu, hdata, hsafe => by
      obtain ⟨hop, hrest⟩ := hsafe
      obtain ⟨hflag, hafter⟩ := h.exec op
      obtain ⟨hb', hbdata⟩ := hb.exec hop
      obtain ⟨hu', hudata⟩ := hu.exec (h.safe hop)
      have hsame : (u.after op).getData = (b.after op).getData := by
        rw [hudata, hbdata, h.abs_eq, hdata]
      simp only [SimpleBuffer.answers, hflag, hsame]
      rw [answers_eq hafter hb' hu' hsame hrest]

end SameShape

/-! ## What `shrinkBuffer` preserves -/

/-- The returned length is the larger of the default size and the size, and the
block is of that length; the content is what it was; and later operations act
on a queue of that content, with the answers any sound buffer of that content
and of the new shape gives. -/
structure ShrinkPreserves (b : SimpleBuffer) : Prop where
  returned : b.shrinkBuffer.1 = max b.mDefaultSize b.getSize
  size_eq : b.shrinkBuffer.2.block.size = max b.mDefaultSize b.getSize
  getData_eq : b.shrinkBuffer.2.getData = b.getData
  queue : ∀ ops,
    Along SimpleBuffer.after (fun b op => op.Safe b) b.shrinkBuffer.2 ops →
    ∃ qops, List.Forall₂ (fun op q => ∃ u, q = Op.abs u op) ops qops ∧
      (fifo UInt8).Run b.getData qops
        (ops.foldl SimpleBuffer.after b.shrinkBuffer.2).getData
  answers_eq : ∀ u ops, u.Sound → SameShape b.shrinkBuffer.2 u →
    u.getData = b.getData →
    Along SimpleBuffer.after (fun b op => op.Safe b) b.shrinkBuffer.2 ops →
    u.answers ops = b.shrinkBuffer.2.answers ops

open SimpleBuffer in
/-- **`shrinkBuffer`** preserves the queue of exactly those buffers whose block
already has the length it returns, and whose data is what lies at the front of
that block. -/
theorem shrinkBuffer_preserves_iff {b : SimpleBuffer}
    (hdefault : b.mDefaultSize < 4294967296) (hintact : b.overrun = false) :
    ShrinkPreserves b ↔
      b.block.size = max b.mDefaultSize b.getSize ∧
        b.block.read 0 b.getSize = b.getData := by
  constructor
  · intro h
    refine ⟨h.size_eq, ?_⟩
    rw [← shrinkBuffer_getData]
    exact h.getData_eq
  · rintro ⟨hsize, hfront⟩
    have hdata : b.shrinkBuffer.2.getData = b.getData := by
      rw [shrinkBuffer_getData, hfront]
    have hsound := shrinkBuffer_sound hdefault hintact hsize
    refine ⟨shrinkBuffer_fst b, hsize, hdata, ?_, ?_⟩
    · intro ops hops
      rw [← hdata]
      exact hsound.run_fifo hops
    · intro u ops hu hshape hsame hops
      exact hshape.answers_eq hsound hu (hsame.trans hdata.symm) hops

open SimpleBuffer in
/-- Four bytes in a buffer of four, none of them consumed. -/
theorem shrinkBuffer_preserves_iff_full :
    ShrinkPreserves
      ((create 4 8).call (.addBuffer (some [97, 98, 99, 100]) 4)) :=
  (shrinkBuffer_preserves_iff (by decide +kernel) (by decide +kernel)).mpr
    (by decide +kernel)

open SimpleBuffer in
/-- `abcd` in a buffer of four, and `ab` consumed: after the call the data is
`ab`. -/
theorem shrinkBuffer_loses :
    let b := ((create 4 8).call (.addBuffer (some [97, 98, 99, 100]) 4)).call
      (.consume 2)
    b.getData = [99, 100] ∧ b.shrinkBuffer.2.getData = [97, 98] ∧
      ¬ ShrinkPreserves b := by
  intro b
  have hbefore : b.getData = [99, 100] := by decide +kernel
  have hafter : b.shrinkBuffer.2.getData = [97, 98] := by decide +kernel
  refine ⟨hbefore, hafter, fun h => ?_⟩
  have hsame := h.getData_eq
  rw [hbefore, hafter] at hsame
  exact absurd hsame (by decide)

end Socketchat.Buffer
