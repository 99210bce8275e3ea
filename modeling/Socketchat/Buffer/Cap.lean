import Socketchat.Buffer.Calls
import Socketchat.Buffer.Shrink

/-!
# The growth cap

Every operation of the class, `reset` and `shrinkBuffer` included. The
constructor raises the cap to a default size above it and `growBuffer` refuses
what is above the cap; `reset` looks at the cap not at all. So the cap holds in
exactly those runs in which every `reset` respects it.
-/

namespace Socketchat.Buffer

open Foundation

/-- A call on a buffer, or one of the two that set its length. -/
inductive AnyCall where
  | call (c : Call)
  | reset (defaultSize : ℕ)
  | shrinkBuffer
deriving DecidableEq

namespace AnyCall

/-- The arguments are `uint32_t`. -/
def Typed : AnyCall → Prop
  | .call c => c.Typed
  | .reset defaultSize => defaultSize < 4294967296
  | .shrinkBuffer => True

instance : ∀ c : AnyCall, Decidable c.Typed
  | .call c => inferInstanceAs (Decidable c.Typed)
  | .reset defaultSize =>
      inferInstanceAs (Decidable (defaultSize < 4294967296))
  | .shrinkBuffer => inferInstanceAs (Decidable True)

def request : AnyCall → ℕ
  | .call c => c.request
  | _ => 0

/-- A `reset` asks for no more than the cap. -/
def FitsCap (b : SimpleBuffer) : AnyCall → Prop
  | .reset defaultSize => defaultSize ≤ b.getMaxGrowSize
  | _ => True

instance (b : SimpleBuffer) : ∀ c : AnyCall, Decidable (c.FitsCap b)
  | .reset defaultSize =>
      inferInstanceAs (Decidable (defaultSize ≤ b.getMaxGrowSize))
  | .call _ => inferInstanceAs (Decidable True)
  | .shrinkBuffer => inferInstanceAs (Decidable True)

end AnyCall

namespace SimpleBuffer

variable {b : SimpleBuffer}

/-- The buffer after a call. -/
def anyCall (b : SimpleBuffer) : AnyCall → SimpleBuffer
  | .call c => b.call c
  | .reset defaultSize => b.reset defaultSize
  | .shrinkBuffer => b.shrinkBuffer.2

theorem Sound.reset (h : b.Sound) {n : ℕ} (hn : n < 4294967296) :
    (b.reset n).Sound := by
  have hsize : (b.reset n).block.size = n := by
    by_cases h0 : n = 0
    · simp [SimpleBuffer.reset, block, h0]
    · simp [SimpleBuffer.reset, block, h0]
  exact ⟨Nat.le_refl _, Nat.zero_le _, hn, Nat.le_of_eq hsize.symm, h.intact⟩

theorem Sound.shrinkBuffer (h : b.Sound) (hd : b.mDefaultSize ≤ b.mMaxLen) :
    b.shrinkBuffer.2.Sound := by
  have hsize := h.getSize_le
  have hblock := h.max_le_block
  have hmax := h.max_lt
  have hlen := shrinkBuffer_mMaxLen b
  have hend : b.shrinkBuffer.2.mEndLoc = b.getSize := rfl
  refine ⟨Nat.zero_le _, ?_, ?_, ?_, h.intact⟩
  · omega
  · omega
  · rw [shrinkBuffer_block]
    omega

/-- **Every call** keeps a buffer sound and no shorter than its default size, as
long as its request grows safely. -/
theorem Sound.anyCall (h : b.Sound) (hd : b.mDefaultSize ≤ b.mMaxLen)
    {c : AnyCall} (htyped : c.Typed)
    (hsafe : b.extent.GrowsSafely c.request) :
    (b.anyCall c).Sound ∧
      (b.anyCall c).mDefaultSize ≤ (b.anyCall c).mMaxLen := by
  cases c with
  | call c =>
      have hkept := h.call htyped hsafe
      refine ⟨hkept.sound, ?_⟩
      show (b.call c).mDefaultSize ≤ (b.call c).mMaxLen
      rw [hkept.mDefaultSize_eq]
      exact hd.trans hkept.mMaxLen_le
  | reset n => exact ⟨h.reset htyped, Nat.le_refl n⟩
  | shrinkBuffer =>
      refine ⟨h.shrinkBuffer hd, ?_⟩
      show b.mDefaultSize ≤ b.shrinkBuffer.2.mMaxLen
      rw [shrinkBuffer_mMaxLen]
      exact Nat.le_max_left ..

/-- No call but `reset` takes a buffer over its cap. -/
theorem Sound.anyCall_capped_iff (h : b.Sound)
    (hd : b.mDefaultSize ≤ b.mMaxLen) (hcap : b.mMaxLen ≤ b.mMaxGrowSize)
    {c : AnyCall} (htyped : c.Typed)
    (hsafe : b.extent.GrowsSafely c.request) :
    (b.anyCall c).mMaxGrowSize = b.mMaxGrowSize ∧
    ((b.anyCall c).mMaxLen ≤ b.mMaxGrowSize ↔ c.FitsCap b) := by
  cases c with
  | call c =>
      have hkept := h.call htyped hsafe
      exact ⟨hkept.mMaxGrowSize_eq, iff_of_true (hkept.capped hcap) trivial⟩
  | reset n => exact ⟨rfl, Iff.rfl⟩
  | shrinkBuffer =>
      have hsize := h.getSize_le
      have hlen := shrinkBuffer_mMaxLen b
      refine ⟨rfl, iff_of_true ?_ trivial⟩
      show b.shrinkBuffer.2.mMaxLen ≤ b.mMaxGrowSize
      omega

/-- The cap invariant, for a buffer created with the cap `g`. -/
structure WithinCap (g : ℕ) (b : SimpleBuffer) : Prop where
  len_le : b.getMaxBufferSize ≤ b.getMaxGrowSize
  cap_ge : g ≤ b.getMaxGrowSize
  size_le : b.getSize ≤ b.getMaxBufferSize

end SimpleBuffer

open SimpleBuffer in
/-- **The growth cap** holds after every call of exactly those runs in which no
`reset` asks for more than the cap, as long as every request grows safely. -/
theorem growth_cap_iff {d g : ℕ} (hd : d < 4294967296) {calls : List AnyCall}
    (htyped : ∀ c ∈ calls, c.Typed)
    (hsafe : Along anyCall (fun b c => b.extent.GrowsSafely c.request)
      (create d g) calls) :
    WithinCap g (create d g) ∧
      Along anyCall (fun b c => WithinCap g (b.anyCall c)) (create d g) calls ↔
    Along anyCall (fun b c => c.FitsCap b) (create d g) calls := by
  obtain ⟨hsound, -⟩ := create_sound (d := d) (g := g) hd
  have hcreate : (create d g).mMaxLen ≤ (create d g).mMaxGrowSize ∧
      g ≤ (create d g).mMaxGrowSize := by
    simp only [create, reset]
    split <;> omega
  have hfirst : WithinCap g (create d g) :=
    ⟨hcreate.1, hcreate.2, hsound.getSize_le⟩
  rw [and_iff_right hfirst]
  -- `shrinkBuffer` goes back to the default size, so that has to fit as well
  refine along_iff
    (I := fun b => b.Sound ∧ b.mDefaultSize ≤ b.mMaxLen ∧
      b.mMaxLen ≤ b.mMaxGrowSize ∧ g ≤ b.mMaxGrowSize)
    (R := fun b c => c.Typed ∧ b.extent.GrowsSafely c.request) ?_ ?_
    ⟨hsound, Nat.le_refl d, hcreate⟩ ((Along.of_forall htyped).and hsafe)
  · rintro b c ⟨h, hdefault, hcap, hg⟩ ⟨hc, hgrows⟩
    obtain ⟨hsame, hiff⟩ := h.anyCall_capped_iff hdefault hcap hc hgrows
    rw [← hiff, ← hsame]
    constructor
    · exact fun hafter => hafter.len_le
    · intro hle
      refine ⟨hle, ?_, (h.anyCall hdefault hc hgrows).1.getSize_le⟩
      show g ≤ (b.anyCall c).mMaxGrowSize
      rw [hsame]
      exact hg
  · rintro b c ⟨h, hdefault, hcap, hg⟩ ⟨hc, hgrows⟩ hfits
    obtain ⟨hsame, hiff⟩ := h.anyCall_capped_iff hdefault hcap hc hgrows
    obtain ⟨hsound', hdefault'⟩ := h.anyCall hdefault hc hgrows
    refine ⟨hsound', hdefault', ?_, ?_⟩
    · rw [hsame]
      exact hiff.mpr hfits
    · rw [hsame]
      exact hg

open SimpleBuffer in
/-- Nine bytes in a buffer of four with a cap of thirty-two, then a `reset` to
sixteen and a shrink. -/
theorem growth_cap_iff_reset :
    Along anyCall (fun b c => WithinCap 32 (b.anyCall c)) (create 4 32)
      [.call (.addBuffer none 9), .call (.consume 3), .shrinkBuffer, .reset 16,
        .call (.confirmCapacity 8)] := by
  refine ((growth_cap_iff (by decide) ?_ (by decide +kernel)).mpr
    (by decide +kernel)).2
  simp [AnyCall.Typed, Call.Typed]

open SimpleBuffer in
/-- A buffer with a cap of eight, reset to sixteen bytes. -/
theorem reset_exceeds_cap :
    let calls : List AnyCall := [.reset 16]
    (∀ c ∈ calls, c.Typed) ∧
      Along anyCall (fun b c => b.extent.GrowsSafely c.request) (create 4 8)
        calls ∧
      (create 4 8).getMaxGrowSize = 8 ∧
      ((create 4 8).anyCall (.reset 16)).getMaxBufferSize = 16 ∧
      ¬ Along anyCall (fun b c => WithinCap 8 (b.anyCall c)) (create 4 8)
        calls := by
  intro calls
  refine ⟨by simp [calls, AnyCall.Typed], by decide +kernel, by decide +kernel,
    by decide +kernel, ?_⟩
  rintro ⟨hreset, -⟩
  exact absurd hreset.len_le (by decide +kernel)

end Socketchat.Buffer
