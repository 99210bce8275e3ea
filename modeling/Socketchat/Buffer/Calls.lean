import Socketchat.Buffer.Bounds
import Socketchat.Foundation.Transition

/-!
# Sequences of calls

Any sequence of calls with 32-bit arguments on a buffer of any size and cap.
The arithmetic is right as long as every request grows safely, and the first
one that does not lowers `mMaxLen`: the length asked for has wrapped.
-/

namespace Socketchat.Buffer

open Foundation

/-- A call on a buffer. `addBuffer` without data is the call with a null
pointer. -/
inductive Call where
  | addBuffer (data : Option (List UInt8)) (dataLen : ℕ)
  | confirmCapacity (capacity : ℕ)
  | consume (removeLen : ℕ)
  | clear
deriving DecidableEq

namespace Call

/-- The arguments are `uint32_t`, and there are as many bytes as announced. -/
def Typed : Call → Prop
  | .addBuffer data dataLen =>
      dataLen < 4294967296 ∧ ∀ bytes ∈ data, bytes.length = dataLen
  | .confirmCapacity capacity => capacity < 4294967296
  | .consume removeLen => removeLen < 4294967296
  | .clear => True

instance : ∀ c : Call, Decidable c.Typed
  | .addBuffer data dataLen =>
      inferInstanceAs (Decidable (dataLen < 4294967296 ∧
        ∀ bytes ∈ data, bytes.length = dataLen))
  | .confirmCapacity capacity =>
      inferInstanceAs (Decidable (capacity < 4294967296))
  | .consume removeLen =>
      inferInstanceAs (Decidable (removeLen < 4294967296))
  | .clear => inferInstanceAs (Decidable True)

/-- The space a call asks for. -/
def request : Call → ℕ
  | .addBuffer _ dataLen => dataLen
  | .confirmCapacity capacity => capacity
  | _ => 0

theorem Typed.request_lt {c : Call} (h : c.Typed) :
    c.request < 4294967296 := by
  cases c with
  | addBuffer => exact h.1
  | confirmCapacity => exact h
  | consume => exact Nat.zero_lt_succ _
  | clear => exact Nat.zero_lt_succ _

end Call

namespace SimpleBuffer

variable {b : SimpleBuffer} {c : Call}

/-- The buffer after a call. -/
def call (b : SimpleBuffer) : Call → SimpleBuffer
  | .addBuffer data dataLen => (b.addBuffer data dataLen).2
  | .confirmCapacity capacity => (b.confirmCapacity capacity).2
  | .consume removeLen => b.consume removeLen
  | .clear => b.clear

/-- **A call that grows safely** keeps the buffer. -/
theorem Sound.call (h : b.Sound) (htyped : c.Typed)
    (hsafe : b.extent.GrowsSafely c.request) : Kept b (b.call c) := by
  cases c with
  | addBuffer data n => exact (h.addBuffer htyped.2 htyped.1 hsafe).1
  | confirmCapacity n =>
      show Kept b (b.confirmCapacity n).2
      rw [(h.confirmCapacity htyped hsafe).1]
      exact (h.makeRoom htyped hsafe).1
  | consume k => exact h.consume_kept k
  | clear => exact h.clear_kept

theorem mMaxLen_call (b : SimpleBuffer) (c : Call) :
    (b.call c).mMaxLen = (b.makeRoom c.request).mMaxLen := by
  have hidle : b.makeRoom 0 = b := by
    simp [SimpleBuffer.makeRoom]
  cases c with
  | addBuffer data n =>
      simp only [SimpleBuffer.call, SimpleBuffer.addBuffer, Call.request]
      split
      · cases data <;> rfl
      · rfl
  | confirmCapacity n =>
      simp only [SimpleBuffer.call, SimpleBuffer.confirmCapacity, Call.request]
      split <;> rfl
  | consume k =>
      show (b.consume k).mMaxLen = (b.makeRoom 0).mMaxLen
      rw [hidle, consume_mMaxLen]
  | clear =>
      show b.mMaxLen = (b.makeRoom 0).mMaxLen
      rw [hidle]

/-- What a call must leave: the offsets in order and inside a block of `mMaxLen`
bytes, no copy outside it, a length no smaller than before, and room behind the
old data for the bytes it has accepted or promised. -/
structure CallSafe (b : SimpleBuffer) (c : Call) : Prop where
  start_le : (b.call c).mStartLoc ≤ (b.call c).mEndLoc
  end_le : (b.call c).mEndLoc ≤ (b.call c).mMaxLen
  size_eq : (b.call c).block.size = (b.call c).mMaxLen
  copies_fit : (b.call c).overrun = false
  mMaxLen_le : b.mMaxLen ≤ (b.call c).mMaxLen
  added : ∀ data n, c = .addBuffer data n → (b.addBuffer data n).1 = true →
    (b.call c).mStartLoc + b.getSize + n ≤ (b.call c).block.size
  confirmed : ∀ n addr, c = .confirmCapacity n →
    (b.confirmCapacity n).1 = some addr →
    addr = (b.call c).mStartLoc + b.getSize ∧
      addr + n ≤ (b.call c).block.size

/-- A call is safe exactly when its request grows safely. -/
theorem callSafe_iff (h : b.Sound) (hsize : b.block.size = b.mMaxLen)
    (hcap : b.mMaxLen ≤ b.mMaxGrowSize) (htyped : c.Typed) :
    CallSafe b c ↔ b.extent.GrowsSafely c.request := by
  constructor
  · intro hcall
    by_contra hnot
    have hlower := h.makeRoom_lowers hcap htyped.request_lt hnot
    have hkeep := hcall.mMaxLen_le
    rw [mMaxLen_call] at hkeep
    omega
  · intro hsafe
    have hkept := h.call htyped hsafe
    have hwhole := hkept.whole hsize
    refine ⟨hkept.sound.start_le, hkept.sound.end_le, hwhole,
      hkept.sound.intact, hkept.mMaxLen_le, ?_, ?_⟩
    · rintro data n rfl hok
      obtain ⟨hend, -⟩ := (h.addBuffer htyped.2 htyped.1 hsafe).2.2.1 hok
      rw [hwhole]
      exact hend ▸ hkept.sound.end_le
    · rintro n addr rfl hsome
      obtain ⟨hbuf, haddr⟩ := h.confirmCapacity htyped hsafe
      obtain ⟨hroom, hdata⟩ := h.makeRoom htyped hsafe
      have hlen := congrArg List.length hdata
      rw [length_getData, length_getData] at hlen
      have hdiff := hroom.sound.getSize_eq
      have hstart := hroom.sound.start_le
      have hstop := hroom.sound.end_le
      have hcall : b.call (.confirmCapacity n) = b.makeRoom n := hbuf
      rw [hsome] at haddr
      split at haddr
      · obtain ⟨m, -, hm⟩ := Option.map_eq_some_iff.mp haddr.symm
        rw [hwhole, hcall]
        omega
      · cases haddr

end SimpleBuffer

open SimpleBuffer in
/-- **The 32-bit arithmetic is safe** in exactly those sequences of calls in
which every request grows safely. -/
theorem arithmetic_safe_iff {d g : ℕ} (hd : d < 4294967296)
    {calls : List Call} (htyped : ∀ c ∈ calls, c.Typed) :
    Along call CallSafe (create d g) calls ↔
      Along call (fun b c => b.extent.GrowsSafely c.request) (create d g)
        calls := by
  obtain ⟨hsound, hsize⟩ := create_sound (d := d) (g := g) hd
  have hcap : (create d g).mMaxLen ≤ (create d g).mMaxGrowSize := by
    simp only [create, reset]
    split <;> omega
  refine along_iff
    (I := fun b => b.Sound ∧ b.block.size = b.mMaxLen ∧
      b.mMaxLen ≤ b.mMaxGrowSize)
    (R := fun _ c => c.Typed) ?_ ?_ ⟨hsound, hsize, hcap⟩
    (Along.of_forall htyped)
  · rintro b c ⟨h, hwhole, hle⟩ hc
    exact callSafe_iff h hwhole hle hc
  · rintro b c ⟨h, hwhole, hle⟩ hc hsafe
    have hkept := h.call hc hsafe
    refine ⟨hkept.sound, hkept.whole hwhole, ?_⟩
    rw [hkept.mMaxGrowSize_eq]
    exact hkept.capped hle

open SimpleBuffer in
/-- A buffer of four bytes that grows to eight, and then to twenty-six. -/
theorem arithmetic_safe_iff_grown :
    Along call CallSafe (create 4 64)
      [.addBuffer (some [1, 2, 3]) 3, .confirmCapacity 4, .consume 2,
        .addBuffer none 4, .confirmCapacity 10, .clear] := by
  refine (arithmetic_safe_iff (by decide) ?_).mpr (by decide +kernel)
  simp [Call.Typed]

open SimpleBuffer in
/-- Eight bytes in a buffer of eight, and a request of twelve less than `2^32`:
the length asked for wraps to four, and the eight bytes are copied to a block
of four. -/
theorem arithmetic_wraps :
    let calls : List Call :=
      [.addBuffer (some [1, 2, 3, 4, 5, 6, 7, 8]) 8,
        .confirmCapacity 4294967284]
    (∀ c ∈ calls, c.Typed) ∧ ¬ Along call CallSafe (create 8 8) calls ∧
      (calls.foldl call (create 8 8)).mMaxLen = 4 ∧
      (calls.foldl call (create 8 8)).overrun = true := by
  intro calls
  refine ⟨by simp [calls, Call.Typed], ?_, by decide +kernel,
    by decide +kernel⟩
  rintro ⟨-, hconfirm, -⟩
  have hfits := hconfirm.copies_fit
  have hover : (((create 8 8).call
      (.addBuffer (some [1, 2, 3, 4, 5, 6, 7, 8]) 8)).call
      (.confirmCapacity 4294967284)).overrun = true := by decide +kernel
  rw [hover] at hfits
  cases hfits

end Socketchat.Buffer
