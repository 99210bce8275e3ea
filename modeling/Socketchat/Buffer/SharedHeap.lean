import Socketchat.Buffer.SimpleBufferImpl

/-!
# Buffers that share a heap

Any number of buffers, created, used and released in any order, on one heap.
As long as the 32-bit arithmetic is right each of them behaves as if it were
alone: nobody reads or writes outside a block, uses one that has been freed, or
frees one twice. And `shrinkBuffer` loses a block whenever it is called. A
`memcpy` whose ranges overlap is read as a `memmove`.
-/

namespace Socketchat.Buffer

open Foundation

/-- What a client does with a buffer: it calls it, it writes to the address
`confirmCapacity` has returned, or it looks at the data. -/
inductive ClientCall where
  | call (c : AnyCall)
  | write (bytes : List UInt8)
  | getData
deriving DecidableEq

inductive Answer where
  | nothing
  | accepted (ok : Bool)
  | address (offset : Option ℕ)
  | length (n : ℕ)
  | bytes (data : List UInt8)
deriving DecidableEq

namespace SimpleBuffer

def answer (b : SimpleBuffer) : AnyCall → Answer
  | .call (.addBuffer data n) => .accepted (b.addBuffer data n).1
  | .call (.confirmCapacity n) => .address (b.confirmCapacity n).1
  | .call (.consume _) => .nothing
  | .call .clear => .nothing
  | .reset _ => .nothing
  | .shrinkBuffer => .length b.shrinkBuffer.1

def clientCall (b : SimpleBuffer) : ClientCall → Answer × SimpleBuffer
  | .call c => (b.answer c, b.anyCall c)
  | .write bytes => (.nothing, b.store b.mEndLoc bytes)
  | .getData => (.bytes b.getData, b)

/-- The arguments are `uint32_t` and the request grows safely; no more is
written than there is space for. -/
def SafeCall (b : SimpleBuffer) : ClientCall → Prop
  | .call c => c.Typed ∧ b.extent.GrowsSafely c.request
  | .write bytes => bytes.length ≤ b.mMaxLen - b.mEndLoc
  | .getData => True

/-- What every call keeps. -/
structure Settled (b : SimpleBuffer) : Prop where
  sound : b.Sound
  default_le : b.mDefaultSize ≤ b.mMaxLen

/-- The blocks a buffer has. -/
def blocks (b : SimpleBuffer) : ℕ := b.mBuffer.elim 0 fun _ => 1

end SimpleBuffer

namespace SimpleBufferImpl

def clientCall (u : SimpleBufferImpl) :
    ClientCall → Memory (Answer × SimpleBufferImpl)
  | .call (.call (.addBuffer data n)) => do
      let (ok, u) ← u.addBuffer data n
      pure (.accepted ok, u)
  | .call (.call (.confirmCapacity n)) => do
      let (address, u) ← u.confirmCapacity n
      pure (.address address, u)
  | .call (.call (.consume n)) => pure (.nothing, u.consume n)
  | .call (.call .clear) => pure (.nothing, u.clear)
  | .call (.reset n) => do
      let u ← u.reset n
      pure (.nothing, u)
  | .call .shrinkBuffer => do
      let (n, u) ← u.shrinkBuffer
      pure (.length n, u)
  | .write bytes => do
      HeapM.write u.mBuffer u.mEndLoc bytes
      pure (.nothing, u)
  | .getData => do
      let data ← u.getData
      pure (.bytes data, u)

end SimpleBufferImpl

/-- The blocks a call leaves behind. -/
def ClientCall.lost : ClientCall → ℕ
  | .call .shrinkBuffer => 1
  | _ => 0

/-- Buffers; one is created with a default size and a cap. -/
def buffers : ObjectSpec SimpleBuffer (ℕ × ℕ) ClientCall Answer where
  create size := SimpleBuffer.create size.1 size.2
  call := SimpleBuffer.clientCall
  Creates size := size.1 < 4294967296 ∧ size.2 < 4294967296
  Safe := SimpleBuffer.SafeCall

def buffersCode :
    ObjectCode (Block UInt8) SimpleBufferImpl (ℕ × ℕ) ClientCall Answer where
  create size := SimpleBufferImpl.create size.1 size.2
  call := SimpleBufferImpl.clientCall
  release := SimpleBufferImpl.release

namespace SimpleBuffer

variable {b : SimpleBuffer} {ptr : Option ℕ}

theorem create_settled {d g : ℕ} (hd : d < 4294967296) :
    (create d g).Settled :=
  ⟨(create_sound hd).1, Nat.le_refl d⟩

theorem Settled.clientCall (h : b.Settled) {k : ClientCall}
    (hsafe : b.SafeCall k) : (b.clientCall k).2.Settled := by
  cases k with
  | call c =>
      obtain ⟨hsound, hdefault⟩ :=
        h.sound.anyCall h.default_le hsafe.1 hsafe.2
      exact ⟨hsound, hdefault⟩
  | write bytes =>
      exact ⟨(h.sound.store_at_end hsafe).1, h.default_le⟩
  | getData => exact h

theorem consume_handle (b : SimpleBuffer) (ptr : Option ℕ) (n : ℕ) :
    (b.handle ptr).consume n = (b.consume n).handle ptr := by
  simp only [SimpleBufferImpl.consume, consume]
  rw [apply_ite fun b : SimpleBuffer => b.handle ptr]
  rfl

theorem consume_mBuffer (b : SimpleBuffer) (n : ℕ) :
    (b.consume n).mBuffer = b.mBuffer := by
  rw [consume_eq]

/-- **Every call** does what it says, on the block of the one buffer. -/
theorem Settled.clientCall_code (h : b.Settled) {k : ClientCall}
    (hsafe : b.SafeCall k) :
    Triple (owns ptr b.mBuffer) ((b.handle ptr).clientCall k) fun r =>
      .fact (r.1 = (b.clientCall k).1) *
        ((b.clientCall k).2.holds r.2 * .block ^ k.lost) := by
  have hafter := h.clientCall hsafe
  cases k with
  | call c =>
      obtain ⟨htyped, hgrows⟩ := hsafe
      cases c with
      | call c =>
          simp only [ClientCall.lost, pow_zero, mul_one]
          cases c with
          | addBuffer data n =>
              exact (h.sound.addBuffer_code data hafter.sound.intact).relabel
                Answer.accepted
          | confirmCapacity n =>
              have hroom := h.sound.makeRoom htyped hgrows
              exact (h.sound.confirmCapacity_code
                hroom.1.sound.intact).relabel Answer.address
          | consume n =>
              have hret := ret_holds (b.consume n) ptr Answer.nothing
              rw [consume_mBuffer, ← consume_handle] at hret
              exact hret
          | clear => exact ret_holds b.clear ptr Answer.nothing
      | reset n =>
          simp only [ClientCall.lost, pow_zero, mul_one]
          exact (reset_code b n).bind fun u => Triple.ret rfl rfl
      | shrinkBuffer =>
          simp only [ClientCall.lost, pow_one]
          exact Triple.relabel (R := fun u => b.shrinkBuffer.2.holds u * .block)
            h.sound.shrinkBuffer_code Answer.length
  | write bytes =>
      simp only [ClientCall.lost, pow_zero, mul_one]
      have hfits : b.block.Fits b.mEndLoc bytes.length := by
        have hend := h.sound.end_le
        have hblock := h.sound.max_le_block
        have hspace : bytes.length ≤ b.mMaxLen - b.mEndLoc := hsafe
        show b.mEndLoc + bytes.length ≤ b.block.size
        omega
      have hret := ret_holds (b.store b.mEndLoc bytes) ptr Answer.nothing
      exact (Triple.write hfits).bind fun _ => hret
  | getData =>
      simp only [ClientCall.lost, pow_zero, mul_one]
      refine h.sound.getData_code.bind fun data => ?_
      refine Triple.fact fun hdata => Triple.ret ?_ (holds_handle b ptr).symm
      rw [hdata]
      rfl

theorem create_code (d g : ℕ) :
    Triple 1 (SimpleBufferImpl.create d g) (create d g).holds := by
  have hreset (b : SimpleBuffer) (h : b.mBuffer = none) :
      Triple 1 ((b.handle none).reset d) (b.reset d).holds := by
    have hcode : Triple (owns none b.mBuffer) _ _ := reset_code b d
    rw [h] at hcode
    exact hcode
  exact hreset { (SimpleBuffer.create d g) with
    mBuffer := none, mMaxLen := 0, mDefaultSize := 1024 } rfl

theorem holds_le_blocks (b : SimpleBuffer) (u : SimpleBufferImpl) :
    b.holds u ≤ .block ^ b.blocks := by
  intro w hw
  obtain ⟨-, howns⟩ := Assertion.fact_mul.mp hw
  exact owns_le_block _ _ w howns

end SimpleBuffer

open SimpleBuffer in
/-- The code implements the buffers. -/
theorem buffers_implemented :
    Implements buffersCode buffers Settled holds blocks ClientCall.lost where
  valid_create _ hsize := create_settled hsize.1
  valid_call _ _ h hsafe := h.clientCall hsafe
  create size _ := create_code size.1 size.2
  call _ _ _ h hsafe := triple_of_handle fun _ hu => hu ▸ h.clientCall_code hsafe
  release _ _ := triple_of_handle fun _ hu => hu ▸ Triple.free
  blocks := holds_le_blocks

instance (size : ℕ × ℕ) : Decidable (buffers.Creates size) :=
  inferInstanceAs (Decidable (_ ∧ _))

instance (b : SimpleBuffer) : ∀ k, Decidable (buffers.Safe b k)
  | .call c => inferInstanceAs (Decidable (c.Typed ∧ _))
  | .write bytes =>
      inferInstanceAs (Decidable (bytes.length ≤ b.mMaxLen - b.mEndLoc))
  | .getData => inferInstanceAs (Decidable True)

/-- **Buffers do not disturb each other.** Whatever is done with them, one
after the other, as long as every request grows safely: every access is inside
a live block, and each buffer gives the answers it gives alone. At any time the
heap has one block for each buffer whose block is not null, and one for each
call of `shrinkBuffer` so far. -/
theorem buffers_share_a_heap {ks : List (Command (ℕ × ℕ) ClientCall)}
    (hsafe : Along buffers.after buffers.SafeCommand [] ks) :
    ∃ us heap, (buffersCode.run [] ks).run Heap.empty =
      some ((buffers.answers [] ks, us), heap) ∧
    heap.live =
      Implements.occupied SimpleBuffer.blocks (ks.foldl buffers.after []) +
        (ks.map (Command.lost ClientCall.lost)).sum :=
  buffers_implemented.outcome hsafe

/-- Two buffers of four bytes; both grow, one of them is shrunk, and both are
released. -/
def neighbours : List (Command (ℕ × ℕ) ClientCall) :=
  [.create (4, 64), .create (4, 64),
    .call 0 (.call (.call (.addBuffer (some [1, 2, 3]) 3))),
    .call 1 (.call (.call (.confirmCapacity 10))),
    .call 1 (.write [7, 8]),
    .call 0 (.call (.call (.addBuffer (some [4, 5]) 2))),
    .call 1 (.call (.call (.addBuffer none 2))),
    .call 0 .getData, .call 1 .getData,
    .call 0 (.call .shrinkBuffer), .release 1, .release 0]

/-- What the shrunk buffer has lost is all that is left. -/
theorem buffers_share_a_heap_neighbours :
    ∃ rs us heap, (buffersCode.run [] neighbours).run Heap.empty =
      some ((rs, us), heap) ∧
    rs.drop 7 = [some (.bytes [1, 2, 3, 4, 5]), some (.bytes [7, 8]),
      some (.length 5), none, none] ∧ heap.live = 1 := by
  obtain ⟨us, heap, hrun, hlive⟩ := buffers_share_a_heap
    (show Along buffers.after buffers.SafeCommand [] neighbours by
      decide +kernel)
  refine ⟨_, us, heap, hrun, by decide +kernel, ?_⟩
  rw [hlive]
  decide +kernel

end Socketchat.Buffer
