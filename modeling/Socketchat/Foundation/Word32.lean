import Mathlib.Data.Int.Notation
import Mathlib.Tactic.Common

/-!
# 32-bit unsigned arithmetic

Machine words are natural numbers; the operations wrap modulo `2^32` as C's
do. Each has one lemma saying when no wrap happens.
-/

namespace Socketchat.Foundation

/-- The conversion to `uint32_t`. -/
def toU32 (n : ℕ) : ℕ := n % 4294967296

def add32 (a b : ℕ) : ℕ := toU32 (a + b)

/-- `a - b`; a borrow wraps. -/
def sub32 (a b : ℕ) : ℕ := toU32 (4294967296 - b + a)

def mul32 (a b : ℕ) : ℕ := toU32 (a * b)

/-- The conversion to `int32_t`. -/
def toI32 (n : ℕ) : ℤ :=
  if toU32 n < 2147483648 then toU32 n else (toU32 n : ℤ) - 4294967296

theorem toU32_lt (n : ℕ) : toU32 n < 4294967296 :=
  Nat.mod_lt _ (by decide)

theorem toU32_le (n : ℕ) : toU32 n ≤ n := Nat.mod_le ..

theorem toU32_of_lt {n : ℕ} (h : n < 4294967296) : toU32 n = n :=
  Nat.mod_eq_of_lt h

/-- The conversion loses nothing exactly below `2^32`. -/
theorem toU32_eq_self_iff {n : ℕ} : toU32 n = n ↔ n < 4294967296 :=
  ⟨fun h => h ▸ toU32_lt n, toU32_of_lt⟩

theorem toI32_le (n : ℕ) : toI32 n ≤ n := by
  have hle := toU32_le n
  unfold toI32
  split <;> omega

theorem add32_of_lt {a b : ℕ} (h : a + b < 4294967296) :
    add32 a b = a + b :=
  toU32_of_lt h

theorem sub32_of_le {a b : ℕ} (h : b ≤ a) (ha : a < 4294967296) :
    sub32 a b = a - b := by
  unfold sub32 toU32
  omega

theorem mul32_of_lt {a b : ℕ} (h : a * b < 4294967296) :
    mul32 a b = a * b :=
  toU32_of_lt h

/-- A value that wrapped once. -/
theorem toU32_of_ge {n : ℕ} (h : 4294967296 ≤ n) (h' : n < 8589934592) :
    toU32 n = n - 4294967296 := by
  unfold toU32
  omega

theorem sub32_zero {a : ℕ} (h : a < 4294967296) : sub32 a 0 = a := by
  unfold sub32 toU32
  omega

@[simp] theorem sub32_zero_zero : sub32 0 0 = 0 := sub32_zero (by decide)

/-- A sum that may have wrapped, taken back below `2^32`. -/
theorem sub32_add32_of_le {a b n : ℕ} (h : b ≤ a + n)
    (hlt : a + n - b < 4294967296) (hb : b < 4294967296) :
    sub32 (add32 a n) b = a + n - b := by
  unfold sub32 add32 toU32
  omega

theorem add32_lt (a b : ℕ) : add32 a b < 4294967296 := toU32_lt _

theorem sub32_lt (a b : ℕ) : sub32 a b < 4294967296 := toU32_lt _

theorem mul32_lt (a b : ℕ) : mul32 a b < 4294967296 := toU32_lt _

theorem sub32_self {a : ℕ} (h : a < 4294967296) : sub32 a a = 0 := by
  unfold sub32 toU32
  omega

/-- Moving the lower end up by at most the difference shrinks it by as much,
also when the difference has wrapped. -/
theorem sub32_add32 {a b n : ℕ} (hb : b < 4294967296) (hn : n ≤ sub32 a b) :
    sub32 a (add32 b n) = sub32 a b - n := by
  unfold sub32 add32 toU32 at *
  omega

-- The modulus must never be unfolded into successors.
attribute [irreducible] toU32 add32 sub32 mul32

end Socketchat.Foundation
