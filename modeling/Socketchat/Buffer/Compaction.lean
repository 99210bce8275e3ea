import Socketchat.Buffer.Calls

/-!
# Moving the data to the front

`growBuffer` moves the kept bytes to the front of their own block with one
`memcpy`. The two ranges overlap unless the bytes kept are no more than those
consumed before them, and the branch is guarded by the request only.
-/

namespace Socketchat.Buffer

open Foundation

/-- A `memcpy` of `len` bytes within one block. -/
structure Copy where
  dst : ℕ
  src : ℕ
  len : ℕ
deriving DecidableEq

/-- No cell is both read and written. -/
def Copy.Disjoint (c : Copy) : Prop :=
  ∀ i, ¬ ((c.src ≤ i ∧ i < c.src + c.len) ∧ (c.dst ≤ i ∧ i < c.dst + c.len))

/-- A copy to the front of the block. -/
theorem Copy.disjoint_front_iff (src len : ℕ) :
    Copy.Disjoint ⟨0, src, len⟩ ↔ len ≤ src := by
  constructor
  · intro h
    by_contra hlt
    have hread : src < src + len := by omega
    have hwritten : src < 0 + len := by omega
    exact h src ⟨⟨Nat.le_refl src, hread⟩, Nat.zero_le src, hwritten⟩
  · rintro hle i ⟨⟨hread, -⟩, -, hwritten⟩
    have hread : src ≤ i := hread
    have hwritten : i < 0 + len := hwritten
    omega

/-- A request for `n` bytes fits behind the data, or is not smaller than the
consumed bytes in front of it, or finds at least half of the bytes up to the
end of the data consumed. -/
def Extent.MovesApart (e : Extent) (n : ℕ) : Prop :=
  n ≤ e.len - e.stop ∨ e.start ≤ n ∨ e.stop ≤ 2 * e.start

instance (e : Extent) (n : ℕ) : Decidable (e.MovesApart n) :=
  inferInstanceAs (Decidable (_ ∨ _))

namespace SimpleBuffer

variable {b : SimpleBuffer}

/-- The `memcpy` in the first branch of `growBuffer`, if a request for
`dataLen` bytes gets there. -/
def compaction (b : SimpleBuffer) (dataLen : ℕ) : Option Copy :=
  let available := sub32 b.mMaxLen b.mEndLoc
  let emptySize := b.mStartLoc
  let keepSize := b.getSize
  if dataLen > available ∧ dataLen < emptySize ∧ keepSize ≠ 0 then
    some ⟨0, b.mStartLoc, keepSize⟩
  else
    none

theorem compaction_disjoint_iff (h : b.Sound) (n : ℕ) :
    (∀ c ∈ b.compaction n, c.Disjoint) ↔ b.extent.MovesApart n := by
  have hsize := h.getSize_eq
  have hstart := h.start_le
  show _ ↔ n ≤ b.mMaxLen - b.mEndLoc ∨ b.mStartLoc ≤ n ∨
    b.mEndLoc ≤ 2 * b.mStartLoc
  simp only [compaction, h.available_eq]
  split
  · rename_i hmoves
    obtain ⟨hfits, hfront, -⟩ := hmoves
    have hcopy := Copy.disjoint_front_iff b.mStartLoc b.getSize
    constructor
    · intro hall
      have hle := hcopy.mp (hall _ rfl)
      omega
    · intro happart c hc
      obtain rfl : _ = c := Option.some.inj hc
      exact hcopy.mpr (by omega)
  · rename_i hstays
    refine iff_of_true (fun c hc => absurd hc (by simp)) ?_
    omega

end SimpleBuffer

open SimpleBuffer in
/-- **Every move is between disjoint ranges** in exactly those sequences of
calls, none of which wraps, in which every request that moves the data finds at
least half of it consumed. -/
theorem compactions_disjoint_iff {d g : ℕ} (hd : d < 4294967296)
    {calls : List Call} (htyped : ∀ c ∈ calls, c.Typed)
    (hno : Along call (fun b c => b.extent.NoWrap c.request) (create d g)
      calls) :
    Along call (fun b c => ∀ copy ∈ b.compaction c.request, copy.Disjoint)
        (create d g) calls ↔
      Along call (fun b c => b.extent.MovesApart c.request) (create d g)
        calls := by
  have hsteps : Along call (fun b c => c.Typed ∧ b.extent.NoWrap c.request)
      (create d g) calls := (Along.of_forall htyped).and hno
  refine along_iff (I := Sound) ?_ ?_ (create_sound hd).1 hsteps
  · intro b c h _
    exact compaction_disjoint_iff h c.request
  · rintro b c h ⟨hc, hstep⟩ -
    exact (h.call hc hstep.growsSafely).sound

open SimpleBuffer in
/-- Three of four bytes are consumed, and one request moves the last one. -/
theorem compactions_disjoint_iff_apart :
    Along call (fun b c => ∀ copy ∈ b.compaction c.request, copy.Disjoint)
      (create 4 64)
      [.addBuffer (some [1, 2, 3, 4]) 4, .consume 3, .confirmCapacity 2] := by
  refine (compactions_disjoint_iff (by decide) ?_ (by decide +kernel)).mpr
    (by decide +kernel)
  simp [Call.Typed]

/-- The calls of a receive loop that reads `n` full buffers and would then
block. -/
def fullReads (n : ℕ) : List Call :=
  (List.replicate n
    [.confirmCapacity 4096, .addBuffer none 4096]).flatten ++
    [.confirmCapacity 4096]

open SimpleBuffer in
/-- What `poll` does to a receive buffer of `SocketChatImpl`: seven full reads,
a message of 5000 bytes, and a read of one byte. The next request moves 23673
bytes down by 5000. -/
theorem compaction_overlaps :
    let calls := fullReads 7 ++ [.consume 5000, .confirmCapacity 4096,
      .addBuffer none 1, .confirmCapacity 4096]
    let b₀ := create 16384 536870912
    (∀ c ∈ calls, c.Typed) ∧
    Along call (fun b c => b.extent.NoWrap c.request) b₀ calls ∧
    ¬ Along call (fun b c => ∀ copy ∈ b.compaction c.request, copy.Disjoint)
      b₀ calls := by
  intro calls b₀
  have htyped : ∀ c ∈ calls, c.Typed := by
    simp [calls, fullReads, Call.Typed]
  refine ⟨htyped, by decide +kernel, fun hall => ?_⟩
  let before := fullReads 7 ++ [.consume 5000, .confirmCapacity 4096,
    .addBuffer none 1]
  have hsplit : calls = before ++ [.confirmCapacity 4096] := rfl
  rw [hsplit] at hall
  have hmove : (before.foldl call b₀).compaction 4096 =
      some ⟨0, 5000, 23673⟩ := by decide +kernel
  have hdisjoint := hall.last _ hmove
  rw [Copy.disjoint_front_iff] at hdisjoint
  omega

end Socketchat.Buffer
