import Socketchat.Foundation.Block
import Socketchat.Foundation.Word32

/-!
# `SimpleBuffer`: the growable byte buffer

The state follows the class: a block, two offsets into it, its length and the
growth cap. All arithmetic is the code's `uint32_t` arithmetic. `memcpy` copies
as `memmove` does and `malloc` succeeds; a copy that leaves its block has no
defined outcome, so it is recorded in `overrun`, which nothing ever resets.
-/

namespace Socketchat.Buffer

open Foundation

/-- The fields of `SimpleBufferImpl`; `mBuffer` is `none` for a null pointer. -/
structure SimpleBuffer where
  mBuffer : Option (Block UInt8)
  mStartLoc : ℕ
  mEndLoc : ℕ
  mMaxLen : ℕ
  mMaxGrowSize : ℕ
  mDefaultSize : ℕ
  /-- Some copy so far has written outside its block. -/
  overrun : Bool

namespace SimpleBuffer

/-- The block `mBuffer` points to; a null pointer has no cells. -/
def block (b : SimpleBuffer) : Block UInt8 := b.mBuffer.getD (Block.fresh 0)

/-- `reset` does not retain the previous data. -/
def reset (b : SimpleBuffer) (defaultSize : ℕ) : SimpleBuffer :=
  { b with
    mBuffer := if defaultSize ≠ 0 then some (Block.fresh defaultSize) else none
    mStartLoc := 0
    mEndLoc := 0
    mDefaultSize := defaultSize
    mMaxLen := defaultSize }

def create (defaultLen maxGrowSize : ℕ) : SimpleBuffer :=
  reset
    { mBuffer := none
      mStartLoc := 0
      mEndLoc := 0
      mMaxLen := 0
      mMaxGrowSize := if defaultLen > maxGrowSize then defaultLen else maxGrowSize
      mDefaultSize := 1024
      overrun := false }
    defaultLen

def getSize (b : SimpleBuffer) : ℕ := sub32 b.mEndLoc b.mStartLoc

def getMaxBufferSize (b : SimpleBuffer) : ℕ := b.mMaxLen

def getMaxGrowSize (b : SimpleBuffer) : ℕ := b.mMaxGrowSize

/-- The bytes seen through `getData`: `getSize` of them from `mStartLoc` on. -/
def getData (b : SimpleBuffer) : List UInt8 := b.block.read b.mStartLoc b.getSize

def clear (b : SimpleBuffer) : SimpleBuffer :=
  { b with mStartLoc := 0, mEndLoc := 0 }

/-- `memcpy(&mBuffer[off], xs, n)` with `n` the length of `xs`. -/
def store (b : SimpleBuffer) (off : ℕ) (xs : List UInt8) : SimpleBuffer :=
  { b with
    mBuffer := b.mBuffer.map (·.copy off xs)
    overrun := b.overrun || !decide (b.block.Fits off xs.length) }

/-- `mEndLoc += n`. -/
def advance (b : SimpleBuffer) (n : ℕ) : SimpleBuffer :=
  { b with mEndLoc := add32 b.mEndLoc n }

/-- The first branch of `growBuffer`: move the kept bytes to the front. -/
def compact (b : SimpleBuffer) : SimpleBuffer :=
  let keepSize := b.getSize
  { b.store 0 (b.block.read b.mStartLoc keepSize) with
    mStartLoc := 0, mEndLoc := keepSize }

/-- The second branch of `growBuffer`, once `newMaxLen` is accepted. -/
def reallocate (b : SimpleBuffer) (newMaxLen : ℕ) : SimpleBuffer :=
  let bufferSize := b.getSize
  { b with
    mMaxLen := newMaxLen
    mBuffer := some ((Block.fresh newMaxLen).copy 0
      (b.block.read b.mStartLoc bufferSize))
    overrun := b.overrun || decide (newMaxLen < bufferSize)
    mStartLoc := 0
    mEndLoc := bufferSize }

/-- The length `growBuffer` asks for: twice the old one, and the request on
top if that does not make it fit. -/
def grownLen (b : SimpleBuffer) (dataLen : ℕ) : ℕ :=
  let newMaxLen := mul32 b.mMaxLen 2
  let available := sub32 newMaxLen b.mEndLoc
  if available < dataLen then add32 newMaxLen dataLen else newMaxLen

def growBuffer (b : SimpleBuffer) (dataLen : ℕ) : Bool × SimpleBuffer :=
  let emptySize := b.mStartLoc
  if dataLen < emptySize then
    (true, b.compact)
  else if b.grownLen dataLen > b.mMaxGrowSize then
    (false, b)
  else
    (true, b.reallocate (b.grownLen dataLen))

/-- How `addBuffer` and `confirmCapacity` both begin: grow if the space behind
`mEndLoc` is too small. -/
def makeRoom (b : SimpleBuffer) (dataLen : ℕ) : SimpleBuffer :=
  let available := sub32 b.mMaxLen b.mEndLoc
  if dataLen > available then (b.growBuffer dataLen).2 else b

/-- `data` is `none` for a null pointer: the bytes are in place already. -/
def addBuffer (b : SimpleBuffer) (data : Option (List UInt8)) (dataLen : ℕ) :
    Bool × SimpleBuffer :=
  let b := b.makeRoom dataLen
  let available := sub32 b.mMaxLen b.mEndLoc
  if dataLen ≤ available then
    let b := match data with
      | some bytes => b.store b.mEndLoc (bytes.take dataLen)
      | none => b
    (true, b.advance dataLen)
  else
    (false, b)

/-- The assertion `removeLen <= activeBufferSize` precedes the clamp. -/
def consume (b : SimpleBuffer) (removeLen : ℕ) : SimpleBuffer :=
  let activeBufferSize := sub32 b.mEndLoc b.mStartLoc
  let removeLen :=
    if removeLen > activeBufferSize then activeBufferSize else removeLen
  let start := add32 b.mStartLoc removeLen
  if start = b.mEndLoc then
    { b with mStartLoc := 0, mEndLoc := 0 }
  else
    { b with mStartLoc := start }

/-- The returned address, as an offset into the block, or `none` for null. -/
def confirmCapacity (b : SimpleBuffer) (capacity : ℕ) :
    Option ℕ × SimpleBuffer :=
  let b := b.makeRoom capacity
  let available := sub32 b.mMaxLen b.mEndLoc
  if capacity ≤ available then
    (b.mBuffer.map fun _ => b.mEndLoc, b)
  else
    (none, b)

/-- The returned length. The data is copied to a new block, but `mBuffer` is
not assigned: the new block is lost and the old one kept. -/
def shrinkBuffer (b : SimpleBuffer) : ℕ × SimpleBuffer :=
  let currentSize := b.getSize
  let newSize := b.mDefaultSize
  let newSize := if currentSize > newSize then currentSize else newSize
  let _newBuffer := (Block.fresh newSize).copy 0
    (b.block.read b.mStartLoc currentSize)
  (newSize, { b with
    mStartLoc := 0
    mEndLoc := currentSize
    mMaxLen := newSize })

/-! ## The fields after each update -/

section Fields

variable (b : SimpleBuffer) (off n : ℕ) (xs : List UInt8)

@[simp] theorem store_mStartLoc : (b.store off xs).mStartLoc = b.mStartLoc := rfl
@[simp] theorem store_mEndLoc : (b.store off xs).mEndLoc = b.mEndLoc := rfl
@[simp] theorem store_mMaxLen : (b.store off xs).mMaxLen = b.mMaxLen := rfl
@[simp] theorem store_mMaxGrowSize :
    (b.store off xs).mMaxGrowSize = b.mMaxGrowSize := rfl

@[simp] theorem advance_mStartLoc : (b.advance n).mStartLoc = b.mStartLoc := rfl
@[simp] theorem advance_mMaxLen : (b.advance n).mMaxLen = b.mMaxLen := rfl
@[simp] theorem advance_mMaxGrowSize :
    (b.advance n).mMaxGrowSize = b.mMaxGrowSize := rfl
@[simp] theorem advance_overrun : (b.advance n).overrun = b.overrun := rfl

@[simp] theorem compact_mStartLoc : b.compact.mStartLoc = 0 := rfl
@[simp] theorem compact_mEndLoc : b.compact.mEndLoc = b.getSize := rfl
@[simp] theorem compact_mMaxLen : b.compact.mMaxLen = b.mMaxLen := rfl
@[simp] theorem compact_mMaxGrowSize :
    b.compact.mMaxGrowSize = b.mMaxGrowSize := rfl

@[simp] theorem reallocate_mStartLoc : (b.reallocate n).mStartLoc = 0 := rfl
@[simp] theorem reallocate_mEndLoc : (b.reallocate n).mEndLoc = b.getSize := rfl
@[simp] theorem reallocate_mMaxLen : (b.reallocate n).mMaxLen = n := rfl
@[simp] theorem reallocate_mMaxGrowSize :
    (b.reallocate n).mMaxGrowSize = b.mMaxGrowSize := rfl

end Fields

/-! ## Well-formed buffers -/

/-- The offsets are ordered, the block is as long as `mMaxLen` says, the cap
is respected and small enough for doubling not to wrap, and no copy has left
its block. -/
structure Valid (b : SimpleBuffer) : Prop where
  start_le : b.mStartLoc ≤ b.mEndLoc
  end_le : b.mEndLoc ≤ b.mMaxLen
  max_le : b.mMaxLen ≤ b.mMaxGrowSize
  grow_le : b.mMaxGrowSize ≤ 536870912
  size_eq : b.block.size = b.mMaxLen
  intact : b.overrun = false

/-- What the operations need of a buffer, whatever its cap: the offsets are
ordered, `mMaxLen` is a word and no more than the block has, and no copy has
left its block. -/
structure Sound (b : SimpleBuffer) : Prop where
  start_le : b.mStartLoc ≤ b.mEndLoc
  end_le : b.mEndLoc ≤ b.mMaxLen
  max_lt : b.mMaxLen < 4294967296
  max_le_block : b.mMaxLen ≤ b.block.size
  intact : b.overrun = false

/-- `n` bytes can be appended: behind the data, by moving the data to the
front, or by growing within the cap. -/
def HasRoom (b : SimpleBuffer) (n : ℕ) : Prop :=
  n ≤ b.mMaxLen - b.mEndLoc ∨ n < b.mStartLoc ∨
    (2 * b.mMaxLen ≤ b.mMaxGrowSize ∧
      (n ≤ 2 * b.mMaxLen - b.mEndLoc ∨ 2 * b.mMaxLen + n ≤ b.mMaxGrowSize))

instance (b : SimpleBuffer) (n : ℕ) : Decidable (b.HasRoom n) :=
  inferInstanceAs (Decidable (_ ∨ _))

variable {b : SimpleBuffer}

theorem Valid.sound (h : b.Valid) : b.Sound := by
  have hmax := h.max_le
  have hgrow := h.grow_le
  exact ⟨h.start_le, h.end_le, by omega, Nat.le_of_eq h.size_eq.symm, h.intact⟩

/-- A sound buffer of the length of its block, under a cap. -/
theorem Sound.valid (h : b.Sound) (hmax : b.mMaxLen ≤ b.mMaxGrowSize)
    (hgrow : b.mMaxGrowSize ≤ 536870912) (hsize : b.block.size = b.mMaxLen) :
    b.Valid :=
  ⟨h.start_le, h.end_le, hmax, hgrow, hsize, h.intact⟩

theorem Sound.getSize_eq (h : b.Sound) :
    b.getSize = b.mEndLoc - b.mStartLoc := by
  obtain ⟨h₁, h₂, h₃, -, -⟩ := h
  exact sub32_of_le h₁ (by omega)

theorem Sound.available_eq (h : b.Sound) :
    sub32 b.mMaxLen b.mEndLoc = b.mMaxLen - b.mEndLoc :=
  sub32_of_le h.end_le h.max_lt

theorem Sound.getSize_le (h : b.Sound) : b.getSize ≤ b.mMaxLen := by
  have := h.getSize_eq
  have := h.end_le
  omega

theorem Valid.getSize_eq (h : b.Valid) :
    b.getSize = b.mEndLoc - b.mStartLoc := h.sound.getSize_eq

theorem Valid.available_eq (h : b.Valid) :
    sub32 b.mMaxLen b.mEndLoc = b.mMaxLen - b.mEndLoc := h.sound.available_eq

@[simp] theorem length_getData (b : SimpleBuffer) :
    b.getData.length = b.getSize := by
  simp [getData]

theorem Valid.getSize_le (h : b.Valid) : b.getSize ≤ b.mMaxLen :=
  h.sound.getSize_le

theorem create_sound {d g : ℕ} (hd : d < 4294967296) :
    (create d g).Sound ∧ (create d g).block.size = d := by
  have hsize : (create d g).block.size = d := by
    by_cases h0 : d = 0
    · simp [create, reset, block, h0]
    · simp [create, reset, block, h0]
  exact ⟨⟨Nat.le_refl _, Nat.zero_le _, hd, Nat.le_of_eq hsize.symm, rfl⟩, hsize⟩

theorem create_valid {d g : ℕ} (hd : d ≤ g) (hg : g ≤ 536870912) :
    (create d g).Valid := by
  have hmax : ¬ d > g := by omega
  obtain ⟨hsound, hsize⟩ := create_sound (d := d) (g := g) (by omega)
  refine hsound.valid ?_ ?_ hsize
  · simpa [create, reset, hmax] using hd
  · simpa [create, reset, hmax] using hg

@[simp] theorem create_getData (d g : ℕ) : (create d g).getData = [] := by
  simp [getData, getSize, create, reset]

end SimpleBuffer

end Socketchat.Buffer
