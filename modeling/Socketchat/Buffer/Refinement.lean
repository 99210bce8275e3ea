import Socketchat.Buffer.Operations
import Socketchat.Foundation.Fifo

/-!
# `SimpleBuffer` refines a byte queue

The clients of a buffer append, fill in two steps, consume and clear. Read
through `getData`, every run of these is a run of the abstract queue: each
append goes through one of three paths (space at the end, move to the front,
new block) and the queue cannot tell which.
-/

namespace Socketchat.Buffer

open Foundation

/-- The operations `SocketChat` uses. `fill c bytes` is `confirmCapacity(c)`,
then `bytes` written at the returned address and committed by
`addBuffer(nullptr, m)`; nothing is written through a null address. -/
inductive Op where
  | add (data : List UInt8)
  | fill (c : ℕ) (bytes : List UInt8)
  | consume (k : ℕ)
  | clear

/-- The buffer after an operation, and whether it was refused: `addBuffer`
returned false, or `confirmCapacity` null. -/
def SimpleBuffer.exec (b : SimpleBuffer) : Op → Bool × SimpleBuffer
  | .add data =>
      let r := b.addBuffer (some data) data.length
      (!r.1, r.2)
  | .fill c bytes =>
      match b.confirmCapacity c with
      | (none, b') => (true, b')
      | (some addr, b') =>
          let r := (b'.store addr bytes).addBuffer none bytes.length
          (!r.1, r.2)
  | .consume k => (false, b.consume k)
  | .clear => (false, b.clear)

/-- What the callers promise: requests below `2^31` bytes, no more written
than was confirmed, no more consumed than is there. -/
def Op.Legal (b : SimpleBuffer) : Op → Prop
  | .add data => data.length < 2147483648
  | .fill c bytes => c < 2147483648 ∧ bytes.length ≤ c
  | .consume k => k ≤ b.getSize
  | .clear => True

/-- The queue operation a buffer operation stands for. -/
def Op.abs (b : SimpleBuffer) (op : Op) : FifoOp UInt8 :=
  if (b.exec op).1 then .refuse else
    match op with
    | .add data => .append data
    | .fill _ bytes => .append bytes
    | .consume k => .drop k
    | .clear => .clear

/-- A buffer made by `create` and its clients. -/
def bufferSystem (defaultSize maxGrowSize : ℕ) : System SimpleBuffer Op where
  init b := b = SimpleBuffer.create defaultSize maxGrowSize
  step b op b' := op.Legal b ∧ b' = (b.exec op).2

namespace SimpleBuffer

variable {b : SimpleBuffer}

/-- The step lemma: a legal operation keeps the buffer well-formed and does
to its content what its queue operation does. -/
theorem exec_spec (h : b.Valid) (op : Op) (hop : op.Legal b) :
    (b.exec op).2.Valid ∧
    (b.exec op).2.getData = (op.abs b).apply b.getData ∧
    ((b.exec op).1 = true → (b.exec op).2 = b) := by
  cases op with
  | add data =>
      have hlen : data.length < 2147483648 := hop
      obtain ⟨hvalid, hiff, hdata, -⟩ :=
        addBuffer_spec h (by omega) (Nat.le_refl data.length)
          (addBuffer_intact h hlen (Nat.le_refl data.length))
      refine ⟨hvalid, ?_, ?_⟩
      · show (b.addBuffer (some data) data.length).2.getData = _
        rw [hdata, List.take_length]
        cases hok : (b.addBuffer (some data) data.length).1 <;>
          simp [Op.abs, exec, hok, FifoOp.apply]
      · intro hrefused
        have hno : ¬ b.HasRoom data.length := by
          rw [← hiff]
          simpa [exec] using hrefused
        show (b.addBuffer (some data) data.length).2 = b
        rw [addBuffer_refused h hlen hno]
  | fill c bytes =>
      obtain ⟨hc, hm⟩ := hop
      rcases confirmCapacity_spec h hc with
        ⟨b', hconf, hvalid, hdata, -, hspace, -⟩ | ⟨hconf, -⟩
      · obtain ⟨hok, hvalid', hdata', -⟩ :=
          store_commit_spec hvalid (show bytes.length ≤ _ by omega)
        have hexec : b.exec (.fill c bytes) =
            (false, ((b'.store b'.mEndLoc bytes).addBuffer none
              bytes.length).2) := by
          simp only [exec, hconf, hok, Bool.not_true]
        rw [hexec]
        refine ⟨hvalid', ?_, fun hfalse => absurd hfalse (by simp)⟩
        simp only [Op.abs, hexec, hdata', hdata]
        rfl
      · have hexec : b.exec (.fill c bytes) = (true, b) := by
          simp only [exec, hconf]
        rw [hexec]
        refine ⟨h, ?_, fun _ => rfl⟩
        simp only [Op.abs, hexec]
        rfl
  | consume k =>
      obtain ⟨hvalid, hdata, -⟩ := consume_spec h k
      exact ⟨hvalid, hdata, fun hfalse => absurd hfalse (by simp [exec])⟩
  | clear =>
      obtain ⟨hvalid, hdata, -⟩ := clear_spec h
      exact ⟨hvalid, hdata, fun hfalse => absurd hfalse (by simp [exec])⟩

end SimpleBuffer

section Clients

variable {d g : ℕ} (hd : d ≤ g) (hg : g ≤ 536870912)

include hd hg

/-- Every buffer a client can see is well-formed. -/
theorem bufferSystem_valid :
    (bufferSystem d g).Invariant SimpleBuffer.Valid where
  init := by
    rintro b rfl
    exact SimpleBuffer.create_valid hd hg
  step := by
    rintro b op b' - h ⟨hop, rfl⟩
    exact (SimpleBuffer.exec_spec h op hop).1

/-- The simulation: read through `getData`, a step of the buffer is a step of
the queue. -/
theorem bufferSystem_refines :
    Refinement (bufferSystem d g) (fifo UInt8) SimpleBuffer.getData
      (fun b op => op.abs b) where
  init := by
    rintro b rfl
    exact SimpleBuffer.create_getData d g
  step := by
    rintro b op b' hb ⟨hop, rfl⟩
    have h := (bufferSystem_valid hd hg).holds hb
    refine ⟨(SimpleBuffer.exec_spec h op hop).2.1, ?_⟩
    intro k hk
    rw [SimpleBuffer.length_getData]
    cases op with
    | consume j =>
        have hj : j = k := by simpa [Op.abs, SimpleBuffer.exec] using hk
        exact hj ▸ hop
    | add data =>
        simp only [Op.abs] at hk
        split at hk <;> simp at hk
    | fill c bytes =>
        simp only [Op.abs] at hk
        split at hk <;> simp at hk
    | clear => simp [Op.abs, SimpleBuffer.exec] at hk

end Clients

/-- **The buffer is a queue.** A run of a buffer is a run of the abstract
queue through `getData`, operation by operation. After any run: a successful
`addBuffer` appends exactly its bytes; `confirmCapacity` keeps the content,
and a commit at the returned address, which is the append position, always
succeeds and appends exactly the bytes written; `consume` drops exactly the
first `k`; and a refusal leaves content, size and capacity as they were. -/
theorem simpleBuffer_refines_queue {d g : ℕ} (hd : d ≤ g)
    (hg : g ≤ 536870912) {ops : List Op} {b : SimpleBuffer}
    (hrun : (bufferSystem d g).Run (SimpleBuffer.create d g) ops b) :
    (∃ qops, List.Forall₂ (fun op q => ∃ u, q = Op.abs u op) ops qops ∧
      (fifo UInt8).Run [] qops b.getData) ∧
    (∀ data : List UInt8, data.length < 2147483648 →
      let r := b.addBuffer (some data) data.length
      (r.1 = true → r.2.getData = b.getData ++ data) ∧
      (r.1 = false → r.2.getData = b.getData ∧ r.2.getSize = b.getSize ∧
        r.2.getMaxBufferSize = b.getMaxBufferSize)) ∧
    (∀ c : ℕ, c < 2147483648 →
      let r := b.confirmCapacity c
      r.2.getData = b.getData ∧
      (r.1 = none → r.2.getSize = b.getSize ∧
        r.2.getMaxBufferSize = b.getMaxBufferSize) ∧
      (∀ addr, r.1 = some addr →
        addr = r.2.mEndLoc ∧
        ∀ bytes : List UInt8, bytes.length ≤ c →
          let w := (r.2.store addr bytes).addBuffer none bytes.length
          w.1 = true ∧ w.2.getData = b.getData ++ bytes)) ∧
    (∀ k : ℕ, k ≤ b.getSize → (b.consume k).getData = b.getData.drop k) ∧
    b.clear.getData = [] := by
  have hb : (bufferSystem d g).Reachable b := ⟨_, ops, rfl, hrun⟩
  have h : b.Valid := (bufferSystem_valid hd hg).holds hb
  refine ⟨?_, ?_, ?_, ?_, (SimpleBuffer.clear_spec h).2.1⟩
  · obtain ⟨qops, hops, hq⟩ := (bufferSystem_refines hd hg).run rfl hrun
    rw [SimpleBuffer.create_getData] at hq
    exact ⟨qops, hops, hq⟩
  · intro data hlen r
    obtain ⟨-, hdata, hrefused⟩ :=
      SimpleBuffer.exec_spec h (.add data) hlen
    have hexec : b.exec (.add data) = (!r.1, r.2) := rfl
    rw [hexec] at hdata hrefused
    constructor
    · intro hok
      simpa [Op.abs, hexec, hok, FifoOp.apply] using hdata
    · intro hno
      have hself : r.2 = b := hrefused (by simp [hno])
      rw [hself]
      exact ⟨rfl, rfl, rfl⟩
  · intro c hc r
    rcases SimpleBuffer.confirmCapacity_spec h hc with
      ⟨b', hconf, hvalid, hdata, -, hspace, -⟩ | ⟨hconf, -⟩
    · have hr : r = (some b'.mEndLoc, b') := hconf
      rw [hr]
      refine ⟨hdata, fun hnone => absurd hnone (by simp), ?_⟩
      rintro addr haddr
      obtain rfl : b'.mEndLoc = addr := by simpa using haddr
      refine ⟨rfl, fun bytes hbytes => ?_⟩
      obtain ⟨hok, -, hdata', -⟩ :=
        SimpleBuffer.store_commit_spec hvalid (show bytes.length ≤ _ by omega)
      exact ⟨hok, by rw [hdata', hdata]⟩
    · have hr : r = (none, b) := hconf
      rw [hr]
      exact ⟨rfl, fun _ => ⟨rfl, rfl⟩, fun addr haddr => absurd haddr (by simp)⟩
  · exact fun k _ => (SimpleBuffer.consume_spec h k).2.1

/-- A buffer of four bytes, capped at eight, after two appends. -/
theorem simpleBuffer_refines_queue_two_appends :
    ∃ b, (bufferSystem 4 8).Run (SimpleBuffer.create 4 8)
        [.add [1, 2, 3], .fill 2 [13, 10]] b ∧
      (∃ qops, List.Forall₂ (fun op q => ∃ u, q = Op.abs u op)
        [.add [1, 2, 3], .fill 2 [13, 10]] qops ∧
        (fifo UInt8).Run [] qops b.getData) := by
  let b₀ := SimpleBuffer.create 4 8
  let b₁ := (b₀.exec (.add [1, 2, 3])).2
  have hadd : (bufferSystem 4 8).step b₀ (.add [1, 2, 3]) b₁ :=
    ⟨show 3 < 2147483648 by decide, rfl⟩
  have hfill : (bufferSystem 4 8).step b₁ (.fill 2 [13, 10])
      (b₁.exec (.fill 2 [13, 10])).2 :=
    ⟨show 2 < 2147483648 ∧ 2 ≤ 2 by decide, rfl⟩
  have hrun := ((System.Run.nil b₀).snoc hadd).snoc hfill
  exact ⟨_, hrun,
    (simpleBuffer_refines_queue (by decide) (by decide) hrun).1⟩

end Socketchat.Buffer
