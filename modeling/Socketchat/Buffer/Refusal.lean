import Socketchat.Buffer.Calls

/-!
# When a request is refused

The space in front of the data counts only if the request fits into it alone,
and a longer block is asked for by doubling, with the request on top if that is
not enough. So a request can be refused although data and request together are
within the cap; `HasRoom` says when it is not.
-/

namespace Socketchat.Buffer

open Foundation

namespace SimpleBuffer

variable {b : SimpleBuffer} {n : ℕ}

theorem addBuffer_accepts_iff (h : b.Sound) (hn : n < 4294967296)
    (hno : b.extent.NoWrap n) {data : Option (List UInt8)}
    (hdata : ∀ bytes ∈ data, bytes.length = n) :
    (b.addBuffer data n).1 = true ↔ b.HasRoom n := by
  rw [(h.addBuffer hdata hn hno.growsSafely).2.1]
  exact h.makeRoom_room_iff hno

/-- The address of a null block is null, also where nothing is asked for. -/
theorem confirmCapacity_accepts_iff (h : b.Sound) (hn : n < 4294967296)
    (hno : b.extent.NoWrap n) :
    (b.confirmCapacity n).1 ≠ none ↔
      b.HasRoom n ∧ (n = 0 → b.mBuffer ≠ none) := by
  have hsafe := hno.growsSafely
  rw [(h.confirmCapacity hn hsafe).2, ← h.makeRoom_room_iff hno]
  by_cases hroom : n ≤ (b.makeRoom n).mMaxLen - (b.makeRoom n).mEndLoc
  · rw [if_pos hroom]
    by_cases hzero : n = 0
    · subst hzero
      have hidle : b.makeRoom 0 = b := by simp [SimpleBuffer.makeRoom]
      rw [hidle]
      simp
    · -- the block holds at least what was asked for
      have hblock := (h.makeRoom hn hsafe).1.sound.max_le_block
      have hbuf : (b.makeRoom n).mBuffer ≠ none := by
        intro hnone
        have hempty : (b.makeRoom n).block.size = 0 := by
          simp [block, hnone]
        omega
      refine iff_of_true ?_ ⟨hroom, fun h0 => absurd h0 hzero⟩
      simpa using hbuf
  · rw [if_neg hroom]
    exact iff_of_false (fun hne => hne rfl) fun hyes => hroom hyes.1

end SimpleBuffer

open SimpleBuffer in
/-- **When a request within the cap is accepted.** After any sequence of calls
in which nothing wraps, a request that does not wrap either and that the cap
has room for is accepted exactly if `HasRoom` says so of the offsets, the length
and the cap, and, if it asks for nothing, the block is not null. -/
theorem within_cap_accepted_iff {d g : ℕ} (hd : d < 4294967296)
    {calls : List Call} (htyped : ∀ c ∈ calls, c.Typed)
    (hno : Along call (fun b c => b.extent.NoWrap c.request) (create d g)
      calls) {b : SimpleBuffer} (hb : b = calls.foldl call (create d g))
    {n : ℕ} (hn : n < 4294967296) (hrequest : b.extent.NoWrap n) :
    (b.getSize + n ≤ b.getMaxGrowSize →
      (∀ data : Option (List UInt8), (∀ bytes ∈ data, bytes.length = n) →
        (b.addBuffer data n).1 = true) ∧
      (b.confirmCapacity n).1 ≠ none) ↔
    b.getMaxGrowSize < b.getSize + n ∨
      (b.extent.HasRoom b.getMaxGrowSize n ∧ (n = 0 → b.mBuffer ≠ none)) := by
  have hsteps : Along call (fun b c => c.Typed ∧ b.extent.NoWrap c.request)
      (create d g) calls := (Along.of_forall htyped).and hno
  have h : b.Sound := by
    rw [hb]
    refine Along.holds (I := Sound) ?_ (create_sound hd).1 hsteps
    rintro b c h ⟨hc, hstep⟩
    exact (h.call hc hstep.growsSafely).sound
  by_cases hcap : b.getMaxGrowSize < b.getSize + n
  · exact iff_of_true (fun hle => absurd hle (Nat.not_le.mpr hcap)) (Or.inl hcap)
  · have hle := Nat.le_of_not_lt hcap
    constructor
    · intro haccepts
      obtain ⟨-, hconfirm⟩ := haccepts hle
      exact Or.inr ((confirmCapacity_accepts_iff h hn hrequest).mp hconfirm)
    · rintro (hlt | hroom) -
      · exact absurd hlt hcap
      · refine ⟨fun data hdata => ?_, ?_⟩
        · exact (addBuffer_accepts_iff h hn hrequest hdata).mpr hroom.1
        · exact (confirmCapacity_accepts_iff h hn hrequest).mpr hroom

open SimpleBuffer in
/-- Five more bytes in a buffer of four with a cap of sixteen. -/
theorem within_cap_accepted_iff_grown :
    let b := (create 4 16).call (.addBuffer (some [1, 2, 3, 4]) 4)
    (∀ data : Option (List UInt8), (∀ bytes ∈ data, bytes.length = 5) →
      (b.addBuffer data 5).1 = true) ∧ (b.confirmCapacity 5).1 ≠ none := by
  intro b
  have htyped : ∀ c ∈ [Call.addBuffer (some [1, 2, 3, 4]) 4], c.Typed := by
    simp [Call.Typed]
  exact (within_cap_accepted_iff (g := 16) (by decide) htyped
    (by decide +kernel) (b := b) rfl (by decide) (by decide +kernel)).mpr
    (Or.inr ⟨by decide +kernel, fun h0 => absurd h0 (by decide)⟩)
    (by decide +kernel)

open SimpleBuffer in
/-- Five bytes fill a buffer of five with a cap of eight. A sixth one is
refused: twice five is more than the cap. -/
theorem refused_within_cap :
    let calls : List Call := [.addBuffer (some [1, 2, 3, 4, 5]) 5]
    let b := calls.foldl call (create 5 8)
    Along call (fun b c => b.extent.NoWrap c.request) (create 5 8) calls ∧
      b.extent.NoWrap 1 ∧ b.getSize + 1 ≤ b.getMaxGrowSize ∧
      (b.addBuffer (some [6]) 1).1 = false ∧
      (b.confirmCapacity 1).1 = none := by
  decide +kernel

end Socketchat.Buffer
