import Socketchat.Buffer.Cap
import Socketchat.Foundation.Objects

/-!
# `SimpleBufferImpl` on the heap

The class once more, with `mBuffer` a pointer to a block of a heap that other
objects use as well: what is allocated and freed, and when. A read or a write
outside the block, or through a pointer to a block that has been freed, has no
outcome.
-/

namespace Socketchat.Buffer

open Foundation HeapM

/-- The fields; `mBuffer` is `none` for a null pointer. -/
structure SimpleBufferImpl where
  mBuffer : Option ℕ
  mStartLoc : ℕ
  mEndLoc : ℕ
  mMaxLen : ℕ
  mMaxGrowSize : ℕ
  mDefaultSize : ℕ

abbrev Memory (α : Type) := HeapM (Block UInt8) α

namespace SimpleBufferImpl

variable (u : SimpleBufferImpl)

def reset (defaultSize : ℕ) : Memory SimpleBufferImpl := do
  free u.mBuffer
  let u := { u with
    mBuffer := none
    mStartLoc := 0
    mEndLoc := 0
    mDefaultSize := defaultSize
    mMaxLen := defaultSize }
  if u.mMaxLen ≠ 0 then
    let mBuffer ← malloc (Block.fresh defaultSize)
    pure { u with mBuffer := some mBuffer }
  else
    pure u

def create (defaultLen maxGrowSize : ℕ) : Memory SimpleBufferImpl :=
  reset
    { mBuffer := none
      mStartLoc := 0
      mEndLoc := 0
      mMaxLen := 0
      mMaxGrowSize := if defaultLen > maxGrowSize then defaultLen else maxGrowSize
      mDefaultSize := 1024 }
    defaultLen

def release : Memory Unit := free u.mBuffer

def getSize : ℕ := sub32 u.mEndLoc u.mStartLoc

def getMaxBufferSize : ℕ := u.mMaxLen

def getData : Memory (List UInt8) := read u.mBuffer u.mStartLoc u.getSize

def clear : SimpleBufferImpl := { u with mStartLoc := 0, mEndLoc := 0 }

/-- `if (size) memcpy(dst, &mBuffer[mStartLoc], size)`. -/
def keep (dst : Option ℕ) (size : ℕ) : Memory Unit :=
  if size ≠ 0 then do
    let data ← read u.mBuffer u.mStartLoc size
    write dst 0 data
  else
    pure ()

def growBuffer (dataLen : ℕ) : Memory (Bool × SimpleBufferImpl) :=
  let emptySize := u.mStartLoc
  if dataLen < emptySize then do
    let keepSize := u.getSize
    u.keep u.mBuffer keepSize
    pure (true, { u with mStartLoc := 0, mEndLoc := keepSize })
  else
    let newMaxLen := mul32 u.mMaxLen 2
    let available := sub32 newMaxLen u.mEndLoc
    let newMaxLen :=
      if available < dataLen then add32 newMaxLen dataLen else newMaxLen
    if newMaxLen > u.mMaxGrowSize then
      pure (false, u)
    else do
      let newBuffer ← malloc (Block.fresh newMaxLen)
      let bufferSize := u.getSize
      u.keep (some newBuffer) bufferSize
      free u.mBuffer
      pure (true, { u with
        mMaxLen := newMaxLen
        mBuffer := some newBuffer
        mStartLoc := 0
        mEndLoc := bufferSize })

/-- How `addBuffer` and `confirmCapacity` both begin. -/
def makeRoom (dataLen : ℕ) : Memory SimpleBufferImpl :=
  let available := sub32 u.mMaxLen u.mEndLoc
  if dataLen > available then do
    let (_, u) ← u.growBuffer dataLen
    pure u
  else
    pure u

def addBuffer (data : Option (List UInt8)) (dataLen : ℕ) :
    Memory (Bool × SimpleBufferImpl) := do
  let u ← u.makeRoom dataLen
  let available := sub32 u.mMaxLen u.mEndLoc
  if dataLen ≤ available then
    match data with
    | some bytes => write u.mBuffer u.mEndLoc (bytes.take dataLen)
    | none => pure ()
    pure (true, { u with mEndLoc := add32 u.mEndLoc dataLen })
  else
    pure (false, u)

def consume (removeLen : ℕ) : SimpleBufferImpl :=
  let activeBufferSize := sub32 u.mEndLoc u.mStartLoc
  let removeLen :=
    if removeLen > activeBufferSize then activeBufferSize else removeLen
  let start := add32 u.mStartLoc removeLen
  if start = u.mEndLoc then
    { u with mStartLoc := 0, mEndLoc := 0 }
  else
    { u with mStartLoc := start }

/-- The returned address, as an offset into the block. -/
def confirmCapacity (capacity : ℕ) : Memory (Option ℕ × SimpleBufferImpl) := do
  let u ← u.makeRoom capacity
  let available := sub32 u.mMaxLen u.mEndLoc
  if capacity ≤ available then
    pure (u.mBuffer.map fun _ => u.mEndLoc, u)
  else
    pure (none, u)

/-- `mBuffer` is not assigned. -/
def shrinkBuffer : Memory (ℕ × SimpleBufferImpl) := do
  let currentSize := u.getSize
  let newSize := u.mDefaultSize
  let newSize := if currentSize > newSize then currentSize else newSize
  let newBuffer ← malloc (Block.fresh newSize)
  u.keep (some newBuffer) currentSize
  pure (newSize, { u with
    mStartLoc := 0
    mEndLoc := currentSize
    mMaxLen := newSize })

end SimpleBufferImpl

/-! ## The one and the other -/

namespace SimpleBuffer

/-- The object with the fields of `b`, and its block at `ptr`. -/
def handle (b : SimpleBuffer) (ptr : Option ℕ) : SimpleBufferImpl where
  mBuffer := ptr
  mStartLoc := b.mStartLoc
  mEndLoc := b.mEndLoc
  mMaxLen := b.mMaxLen
  mMaxGrowSize := b.mMaxGrowSize
  mDefaultSize := b.mDefaultSize

/-- `u` is `b`, and has its block. -/
def holds (b : SimpleBuffer) (u : SimpleBufferImpl) :
    Assertion (Block UInt8) :=
  .fact (u = b.handle u.mBuffer) * owns u.mBuffer b.mBuffer

variable {b : SimpleBuffer} {ptr : Option ℕ} {n : ℕ}

theorem holds_handle (b : SimpleBuffer) (ptr : Option ℕ) :
    b.holds (b.handle ptr) = owns ptr b.mBuffer := by
  have hself : b.handle ptr = b.handle (b.handle ptr).mBuffer := rfl
  rw [holds, Assertion.fact_true hself, one_mul]
  rfl

/-- It is enough to look at the handle. -/
theorem triple_of_handle {α : Type} {u : SimpleBufferImpl} {m : Memory α}
    {Q : α → Assertion (Block UInt8)}
    (h : ∀ ptr, u = b.handle ptr → Triple (owns ptr b.mBuffer) m Q) :
    Triple (b.holds u) m Q :=
  Triple.fact fun hu => h u.mBuffer hu

/-- The same beside other blocks. -/
theorem triple_beside {α : Type} {u : SimpleBufferImpl} {m : Memory α}
    {Q : α → Assertion (Block UInt8)} {F : Assertion (Block UInt8)}
    (h : ∀ ptr, u = b.handle ptr → Triple (owns ptr b.mBuffer * F) m Q) :
    Triple (b.holds u * F) m Q := by
  rw [holds, mul_assoc]
  exact Triple.fact fun hu => h u.mBuffer hu

/-- The rest of a program, after a call that returns `x` beside other blocks. -/
theorem bind_beside {α γ : Type} {P F : Assertion (Block UInt8)} {x : α}
    {m : Memory (α × SimpleBufferImpl)} {f : α × SimpleBufferImpl → Memory γ}
    {R : γ → Assertion (Block UInt8)}
    (hm : Triple P m fun r => .fact (r.1 = x) * b.holds r.2)
    (hf : ∀ ptr, Triple (owns ptr b.mBuffer * F) (f (x, b.handle ptr)) R) :
    Triple (P * F) (m >>= f) R := by
  refine (hm.frame F).bind fun r => ?_
  obtain ⟨y, u⟩ := r
  rw [mul_assoc]
  refine Triple.fact fun hy => triple_beside fun ptr hu => ?_
  dsimp only at hy hu
  subst hy hu
  exact hf ptr

/-! ## Where the data is read -/

theorem Sound.fits (h : b.Sound) : b.block.Fits b.mStartLoc b.getSize := by
  have hsize := h.getSize_eq
  have hstart := h.start_le
  have hend := h.end_le
  have hblock := h.max_le_block
  unfold Block.Fits
  omega

theorem Sound.getData_code (h : b.Sound) :
    Triple (owns ptr b.mBuffer) (b.handle ptr).getData fun data =>
      .fact (data = b.getData) * owns ptr b.mBuffer :=
  Triple.read h.fits

/-- The data is copied to another block, which is large enough. -/
theorem Sound.keep_new (h : b.Sound) {q : ℕ} {m : Block UInt8}
    (hfits : b.getSize ≤ m.size) :
    Triple (owns ptr b.mBuffer * .pts q m)
      ((b.handle ptr).keep (some q) b.getSize) fun _ =>
        owns ptr b.mBuffer *
          .pts q (m.copy 0 (b.block.read b.mStartLoc b.getSize)) := by
  unfold SimpleBufferImpl.keep
  by_cases hzero : b.getSize = 0
  · rw [if_neg (not_not.mpr hzero), hzero, Block.read_zero, Block.copy_nil]
    exact Triple.pure (Q := fun _ => _) ()
  · rw [if_pos hzero]
    refine ((Triple.read h.fits).frame (.pts q m)).bind fun xs => ?_
    rw [mul_assoc, mul_comm (owns _ _)]
    refine Triple.fact fun hxs => ?_
    subst hxs
    have hroom : (pointee (some m)).Fits 0
        (b.block.read b.mStartLoc b.getSize).length := by
      show 0 + _ ≤ m.size
      rw [Nat.zero_add, Block.length_read]
      exact hfits
    have hwrite : Triple (owns (some q) (some m)) (write (some q) 0 _) _ :=
      Triple.write hroom
    exact (hwrite.frame (owns ptr b.mBuffer)).post fun _ =>
      le_of_eq (mul_comm ..)

/-- The data is copied to the front of its own block. -/
theorem Sound.keep_self (h : b.Sound) :
    Triple (owns ptr b.mBuffer) ((b.handle ptr).keep ptr b.getSize) fun _ =>
      owns ptr b.compact.mBuffer := by
  unfold SimpleBufferImpl.keep
  by_cases hzero : b.getSize = 0
  · have hsame : b.compact.mBuffer = b.mBuffer := by
      show b.mBuffer.map (·.copy 0 (b.block.read b.mStartLoc b.getSize)) = _
      rw [hzero, Block.read_zero]
      simp
    rw [if_neg (not_not.mpr hzero), hsame]
    exact Triple.pure (Q := fun _ => _) ()
  · rw [if_pos hzero]
    refine (Triple.read h.fits).bind fun xs => Triple.fact fun hxs => ?_
    subst hxs
    refine Triple.write ?_
    have hsize := h.getSize_le
    have hblock := h.max_le_block
    show 0 + _ ≤ b.block.size
    rw [Nat.zero_add, Block.length_read]
    omega

/-! ## The operations -/

theorem ret_holds {R : Type} (b : SimpleBuffer) (ptr : Option ℕ) (r : R) :
    Triple (owns ptr b.mBuffer) (pure (r, b.handle ptr)) fun a =>
      .fact (a.1 = r) * b.holds a.2 :=
  Triple.ret rfl (holds_handle b ptr).symm

/-- `growBuffer` does what it says, unless a copy would leave its block. -/
theorem Sound.growBuffer_code (h : b.Sound)
    (hintact : (b.growBuffer n).2.overrun = false) :
    Triple (owns ptr b.mBuffer) ((b.handle ptr).growBuffer n) fun r =>
      .fact (r.1 = (b.growBuffer n).1) * (b.growBuffer n).2.holds r.2 := by
  by_cases hfront : n < b.mStartLoc
  · have hgrow : b.growBuffer n = (true, b.compact) := if_pos hfront
    have hcode : (b.handle ptr).growBuffer n =
        (b.handle ptr).keep ptr b.getSize >>= fun _ =>
          pure (true, b.compact.handle ptr) := if_pos hfront
    rw [hgrow, hcode]
    exact h.keep_self.bind fun _ => ret_holds b.compact ptr true
  · by_cases hcap : b.grownLen n > b.mMaxGrowSize
    · have hgrow : b.growBuffer n = (false, b) :=
        (if_neg hfront).trans (if_pos hcap)
      have hcode : (b.handle ptr).growBuffer n = pure (false, b.handle ptr) :=
        (if_neg hfront).trans (if_pos hcap)
      rw [hgrow, hcode]
      exact ret_holds b ptr false
    · have hgrow : b.growBuffer n = (true, b.reallocate (b.grownLen n)) :=
        (if_neg hfront).trans (if_neg hcap)
      have hcode : (b.handle ptr).growBuffer n =
          malloc (Block.fresh (b.grownLen n)) >>= fun newBuffer =>
            (b.handle ptr).keep (some newBuffer) b.getSize >>= fun _ =>
              free ptr >>= fun _ =>
                pure (true, (b.reallocate (b.grownLen n)).handle
                  (some newBuffer)) :=
        (if_neg hfront).trans (if_neg hcap)
      rw [hgrow] at hintact
      have hfits : b.getSize ≤ b.grownLen n := by
        have hboth := (Bool.or_eq_false_iff.mp hintact).2
        exact Nat.le_of_not_lt (of_decide_eq_false hboth)
      rw [hgrow, hcode]
      have halloc := (Triple.malloc (Block.fresh (b.grownLen n))).frame
        (owns ptr b.mBuffer)
      rw [one_mul] at halloc
      refine halloc.bind fun q => ?_
      rw [mul_comm]
      refine (h.keep_new hfits).bind fun _ => ?_
      refine (Triple.free.frame _).bind fun _ => ?_
      rw [one_mul]
      exact ret_holds (b.reallocate (b.grownLen n)) (some q) true

/-- Room is made as `makeRoom` says. -/
theorem Sound.makeRoom_code (h : b.Sound)
    (hintact : (b.makeRoom n).overrun = false) :
    Triple (owns ptr b.mBuffer) ((b.handle ptr).makeRoom n)
      (b.makeRoom n).holds := by
  by_cases hfull : n > sub32 b.mMaxLen b.mEndLoc
  · have hroom : b.makeRoom n = (b.growBuffer n).2 := if_pos hfull
    have hcode : (b.handle ptr).makeRoom n =
        (b.handle ptr).growBuffer n >>= fun r => pure r.2 := if_pos hfull
    rw [hroom] at hintact ⊢
    rw [hcode]
    exact (h.growBuffer_code hintact).bind fun r =>
      Triple.fact fun _ => Triple.pure r.2
  · have hroom : b.makeRoom n = b := if_neg hfull
    have hcode : (b.handle ptr).makeRoom n = pure (b.handle ptr) :=
      if_neg hfull
    rw [hroom, hcode]
    exact (Triple.pure _).pre (le_of_eq (holds_handle b ptr).symm)

theorem Sound.addBuffer_code (h : b.Sound) (data : Option (List UInt8))
    (hintact : (b.addBuffer data n).2.overrun = false) :
    Triple (owns ptr b.mBuffer) ((b.handle ptr).addBuffer data n) fun r =>
      .fact (r.1 = (b.addBuffer data n).1) *
        (b.addBuffer data n).2.holds r.2 := by
  refine (h.makeRoom_code (addBuffer_overrun data n hintact)).bind
    fun u => triple_of_handle fun ptr hu => ?_
  subst hu
  show Triple _ (if n ≤ sub32 (b.makeRoom n).mMaxLen (b.makeRoom n).mEndLoc
    then _ else _) _
  by_cases hroom : n ≤ sub32 (b.makeRoom n).mMaxLen (b.makeRoom n).mEndLoc
  · cases data with
    | none =>
        have hadd : b.addBuffer none n = (true, (b.makeRoom n).advance n) :=
          if_pos hroom
        rw [if_pos hroom, hadd]
        exact ret_holds ((b.makeRoom n).advance n) ptr true
    | some bytes =>
        have hadd : b.addBuffer (some bytes) n = (true,
            ((b.makeRoom n).store (b.makeRoom n).mEndLoc
              (bytes.take n)).advance n) := if_pos hroom
        rw [hadd] at hintact
        have hfits : (b.makeRoom n).block.Fits (b.makeRoom n).mEndLoc
            (bytes.take n).length := by
          simpa using (Bool.or_eq_false_iff.mp hintact).2
        rw [if_pos hroom, hadd]
        have hret := ret_holds (((b.makeRoom n).store (b.makeRoom n).mEndLoc
          (bytes.take n)).advance n) ptr true
        exact (Triple.write hfits).bind fun _ => hret
  · have hadd : b.addBuffer data n = (false, b.makeRoom n) := if_neg hroom
    rw [if_neg hroom, hadd]
    exact ret_holds (b.makeRoom n) ptr false

theorem Sound.confirmCapacity_code (h : b.Sound)
    (hintact : (b.makeRoom n).overrun = false) :
    Triple (owns ptr b.mBuffer) ((b.handle ptr).confirmCapacity n) fun r =>
      .fact (r.1 = (b.confirmCapacity n).1) *
        (b.confirmCapacity n).2.holds r.2 := by
  refine (h.makeRoom_code hintact).bind
    fun u => triple_of_handle fun ptr hu => ?_
  subst hu
  show Triple _ (if n ≤ sub32 (b.makeRoom n).mMaxLen (b.makeRoom n).mEndLoc
    then _ else _) _
  by_cases hroom : n ≤ sub32 (b.makeRoom n).mMaxLen (b.makeRoom n).mEndLoc
  · have hconf : b.confirmCapacity n =
        ((b.makeRoom n).mBuffer.map fun _ => (b.makeRoom n).mEndLoc,
          b.makeRoom n) := if_pos hroom
    rw [if_pos hroom, hconf]
    have hret := ret_holds (b.makeRoom n) ptr
      (ptr.map fun _ => (b.makeRoom n).mEndLoc)
    -- the one pointer is null where the other one is
    cases hbuf : (b.makeRoom n).mBuffer with
    | none =>
        rw [hbuf] at hret
        cases ptr with
        | none => exact hret
        | some p => exact Triple.zero
    | some m =>
        rw [hbuf] at hret
        cases ptr with
        | none => exact Triple.zero
        | some p => exact hret
  · have hconf : b.confirmCapacity n = (none, b.makeRoom n) := if_neg hroom
    rw [if_neg hroom, hconf]
    exact ret_holds (b.makeRoom n) ptr none

/-- The block that is allocated is nobody's afterwards. -/
theorem Sound.shrinkBuffer_code (h : b.Sound) :
    Triple (owns ptr b.mBuffer) (b.handle ptr).shrinkBuffer fun r =>
      .fact (r.1 = b.shrinkBuffer.1) *
        (b.shrinkBuffer.2.holds r.2 * .block) := by
  have hfits : b.getSize ≤ b.shrinkBuffer.1 := by
    rw [shrinkBuffer_fst]
    exact Nat.le_max_right ..
  have halloc := (Triple.malloc (Block.fresh b.shrinkBuffer.1)).frame
    (owns ptr b.mBuffer)
  rw [one_mul] at halloc
  refine halloc.bind fun q => ?_
  rw [mul_comm]
  refine (h.keep_new hfits).bind fun _ => ?_
  have hret := (ret_holds b.shrinkBuffer.2 ptr b.shrinkBuffer.1).frame .block
  exact hret.conseq (mul_le_mul' (le_refl _) Assertion.pts_le_block)
    fun _ => le_of_eq (mul_assoc ..)

theorem reset_code (b : SimpleBuffer) (n : ℕ) :
    Triple (owns ptr b.mBuffer) ((b.handle ptr).reset n)
      (b.reset n).holds := by
  refine Triple.free.bind fun _ => ?_
  show Triple 1 (if n ≠ 0 then _ else _) _
  by_cases hzero : n ≠ 0
  · rw [if_pos hzero]
    have hreset : (b.reset n).mBuffer = some (Block.fresh n) := if_pos hzero
    refine (Triple.malloc _).bind fun q => (Triple.pure _).pre (le_of_eq ?_)
    have hheld := holds_handle (b.reset n) (some q)
    rw [hreset] at hheld
    exact hheld.symm
  · rw [if_neg hzero]
    have hreset : (b.reset n).mBuffer = none := if_neg hzero
    refine (Triple.pure _).pre (le_of_eq ?_)
    have hheld := holds_handle (b.reset n) none
    rw [hreset] at hheld
    exact hheld.symm

end SimpleBuffer

end Socketchat.Buffer
