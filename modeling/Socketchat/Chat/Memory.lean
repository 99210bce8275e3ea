import Socketchat.Chat.Connections

/-!
# What connections say about their memory

`getMemoryUsage` adds the sizes of the two buffers with 32-bit arithmetic. The
sum never wraps, and what all connections say is what they have allocated.
-/

namespace Socketchat.Chat

open Foundation Buffer

/-- The sizes a connection reports: what is pending fits the transmit buffer,
which is part of the memory used, and that is at most 1 GiB. -/
structure Reported (c : SocketChatObject) : Prop where
  size_le : c.getTransmitBufferSize ≤ c.getTransmitBufferMaxSize
  max_le : c.getTransmitBufferMaxSize ≤ c.getMemoryUsage
  usage_le : c.getMemoryUsage ≤ 1073741824

namespace SocketChatImpl

variable {s : SocketChatImpl}

/-- The sum of the two sizes does not wrap. -/
theorem Ready.getMemoryUsage (h : s.Ready) (p q : Option ℕ) :
    (s.handle p q).getMemoryUsage =
      s.mReceiveBuffer.mMaxLen + s.mTransmitBuffer.mMaxLen := by
  have hreceive := h.receive.max_le.trans h.receive.grow_le
  have htransmit := h.transmit.max_le.trans h.transmit.grow_le
  show add32 s.mTransmitBuffer.mMaxLen s.mReceiveBuffer.mMaxLen = _
  rw [add32_of_lt (by omega), Nat.add_comm]

theorem Ready.reported (h : s.Ready) (p q : Option ℕ) :
    Reported (s.handle p q) where
  size_le := h.transmit.getSize_le
  max_le := by
    rw [h.getMemoryUsage]
    exact Nat.le_add_left ..
  usage_le := by
    have hreceive := h.receive.max_le.trans h.receive.grow_le
    have htransmit := h.transmit.max_le.trans h.transmit.grow_le
    rw [h.getMemoryUsage]
    omega

/-- The block of a buffer is as large as the buffer says. -/
theorem owns_le_size {b : SimpleBuffer} (h : b.Valid) (ptr : Option ℕ) :
    owns ptr b.mBuffer ≤ .weighs Block.size b.mMaxLen := by
  have hsize : b.mBuffer.elim 0 Block.size = b.mMaxLen := by
    rw [← h.size_eq, SimpleBuffer.block]
    cases b.mBuffer with
    | none => rfl
    | some m => rfl
  rw [← hsize]
  exact owns_le_weighs Block.size ptr b.mBuffer

theorem Ready.holds_weighs (h : s.Ready) (c : SocketChatObject) :
    s.holds c ≤ .weighs Block.size c.getMemoryUsage := by
  intro w hw
  obtain ⟨hc, hblocks⟩ := Assertion.fact_mul.mp hw
  rw [hc, h.getMemoryUsage]
  exact Assertion.weighs_mul w
    (mul_le_mul' (owns_le_size h.receive _) (owns_le_size h.transmit _) w
      hblocks)

theorem Ready.holds_reported (h : s.Ready) {c : SocketChatObject}
    {w : Foundation.Part (Block UInt8)} (hw : s.holds c w) : Reported c := by
  rw [(Assertion.fact_mul.mp hw).1]
  exact h.reported _ _

end SocketChatImpl

/-- **Main result.** Whatever is called on the connections, one after the
other, as long as the texts are short: what `getMemoryUsage` returns for those
that have not been released adds up to the bytes that are allocated. -/
theorem memory_usage_is_what_is_allocated
    {ks : List (Command (Option ℕ) ApiCall)}
    (hsafe : Along connections.after connections.SafeCommand [] ks) :
    ∃ cs heap, (connectionsCode.run [] ks).run Heap.empty =
      some ((connections.answers [] ks, cs), heap) ∧
    heap.weight Block.size =
      (cs.map fun c => c.elim 0 SocketChatObject.getMemoryUsage).sum ∧
    ∀ c, some c ∈ cs → Reported c := by
  obtain ⟨cs, heap, hrun, hheap, hready⟩ := connections_implemented.ends hsafe
  rw [Command.lost_nothing, pow_zero, mul_one] at hheap
  refine ⟨cs, heap, hrun, Assertion.weight_eq ?_, ?_⟩
  · exact Implements.pool_weighs (fun _ c h => h.holds_weighs c) cs hready _
      hheap
  · exact Implements.pool_all (fun _ _ _ h hw => h.holds_reported hw) cs _
      hready hheap

/-- Two connections; one of them has a text pending for which its transmit
buffer has doubled. -/
def backlog : List (Command (Option ℕ) ApiCall) :=
  [.create (some 0), .create (some 1), .call 1 (.sendText (some (letters 20000)))]

theorem memory_usage_is_what_is_allocated_backlog :
    ∃ cs heap, (connectionsCode.run [] backlog).run Heap.empty =
      some ((connections.answers [] backlog, cs), heap) ∧
    heap.weight Block.size = 81920 := by
  obtain ⟨cs, heap, hrun, hweight, -⟩ := memory_usage_is_what_is_allocated
    (show Along connections.after connections.SafeCommand [] backlog by
      decide +kernel)
  have husage : ((connectionsCode.run [] backlog).run Heap.empty).map
      (fun r => (r.1.2.map fun c =>
        c.elim 0 SocketChatObject.getMemoryUsage).sum) = some 81920 := by
    decide +kernel
  rw [hrun] at husage
  exact ⟨cs, heap, hrun, hweight.trans (Option.some.inj husage)⟩

end Socketchat.Chat
