import Mathlib.Data.List.Basic
import Mathlib.Tactic.Common

/-!
# Blocks of memory

A block is what one allocation returns: a number of cells and what each of
them holds. `read` is the content of a range, `copy` the block after a list
has been copied to an offset. A copy reads its source before it writes, so a
copy within one block is `memmove`; whether a range lies inside the block
(`Fits`) is a separate question.
-/

namespace Socketchat.Foundation

variable {α : Type*}

/-- An allocated block: its size and the content of its cells. -/
structure Block (α : Type*) where
  size : ℕ
  cell : ℕ → α

namespace Block

/-- A new block; its cells hold nothing anyone has written. -/
def fresh [Inhabited α] (n : ℕ) : Block α := ⟨n, fun _ => default⟩

/-- The `len` cells from offset `off` on. -/
def read (m : Block α) (off len : ℕ) : List α :=
  (List.range len).map fun i => m.cell (off + i)

/-- The block after `xs` has been copied to offset `off`. -/
def copy (m : Block α) (off : ℕ) (xs : List α) : Block α :=
  { m with cell := fun i =>
      if i < off then m.cell i else (xs[i - off]?).getD (m.cell i) }

/-- The range of `len` cells at `off` lies inside the block. -/
def Fits (m : Block α) (off len : ℕ) : Prop := off + len ≤ m.size

instance (m : Block α) (off len : ℕ) : Decidable (m.Fits off len) :=
  inferInstanceAs (Decidable (_ ≤ _))

@[simp] theorem size_fresh [Inhabited α] (n : ℕ) :
    (fresh n : Block α).size = n := rfl

@[simp] theorem size_copy (m : Block α) (off : ℕ) (xs : List α) :
    (m.copy off xs).size = m.size := rfl

@[simp] theorem length_read (m : Block α) (off len : ℕ) :
    (m.read off len).length = len := by
  simp [read]

@[simp] theorem read_zero (m : Block α) (off : ℕ) : m.read off 0 = [] := rfl

theorem getElem?_read (m : Block α) (off len i : ℕ) :
    (m.read off len)[i]? = if i < len then some (m.cell (off + i)) else none := by
  by_cases h : i < len
  · simp [read, h]
  · simp [read, h]

/-! ## Cells after a copy -/

theorem cell_copy_before {m : Block α} {off i : ℕ} {xs : List α}
    (h : i < off) : (m.copy off xs).cell i = m.cell i := by
  simp [copy, h]

theorem cell_copy_after {m : Block α} {off i : ℕ} {xs : List α}
    (h : off + xs.length ≤ i) : (m.copy off xs).cell i = m.cell i := by
  have hoff : ¬ i < off := by omega
  have hlen : xs.length ≤ i - off := by omega
  simp [copy, hoff, List.getElem?_eq_none hlen]

theorem cell_copy_inside {m : Block α} {off i : ℕ} {xs : List α}
    (h : i < xs.length) : (m.copy off xs).cell (off + i) = xs[i] := by
  have hoff : ¬ off + i < off := by omega
  simp [copy, hoff, List.getElem?_eq_getElem h]

@[simp] theorem copy_nil (m : Block α) (off : ℕ) : m.copy off [] = m := by
  simp [copy]

/-! ## Ranges -/

theorem read_congr {m m' : Block α} {off off' len : ℕ}
    (h : ∀ i < len, m.cell (off + i) = m'.cell (off' + i)) :
    m.read off len = m'.read off' len := by
  apply List.map_congr_left
  intro i hi
  exact h i (List.mem_range.mp hi)

theorem read_append (m : Block α) (off n k : ℕ) :
    m.read off (n + k) = m.read off n ++ m.read (off + n) k := by
  simp [read, List.range_add, Nat.add_assoc]

theorem read_take (m : Block α) (off n k : ℕ) (h : k ≤ n) :
    (m.read off n).take k = m.read off k := by
  obtain ⟨j, rfl⟩ := Nat.exists_eq_add_of_le h
  rw [read_append, List.take_left' (length_read ..)]

theorem read_drop (m : Block α) (off n k : ℕ) (h : k ≤ n) :
    (m.read off n).drop k = m.read (off + k) (n - k) := by
  obtain ⟨j, rfl⟩ := Nat.exists_eq_add_of_le h
  rw [read_append, List.drop_left' (length_read ..), Nat.add_sub_cancel_left]

/-- What was copied is what is read back. -/
theorem read_copy_self (m : Block α) (off : ℕ) (xs : List α) :
    (m.copy off xs).read off xs.length = xs := by
  apply List.ext_getElem?
  intro i
  rw [getElem?_read]
  by_cases h : i < xs.length
  · rw [if_pos h, cell_copy_inside h, List.getElem?_eq_getElem h]
  · rw [if_neg h, List.getElem?_eq_none (Nat.le_of_not_lt h)]

/-- A range that the copy does not meet is unchanged. -/
theorem read_copy_of_disjoint (m : Block α) {off len dst : ℕ} {xs : List α}
    (h : off + len ≤ dst ∨ dst + xs.length ≤ off) :
    (m.copy dst xs).read off len = m.read off len := by
  apply read_congr
  intro i hi
  rcases h with h | h
  · exact cell_copy_before (by omega)
  · exact cell_copy_after (by omega)

/-- A copy behind what is read is read with it. -/
theorem read_copy_append (m : Block α) (n : ℕ) (xs : List α) :
    (m.copy n xs).read 0 (n + xs.length) = m.read 0 n ++ xs := by
  have hbefore : (m.copy n xs).read 0 n = m.read 0 n :=
    m.read_copy_of_disjoint (Or.inl (by omega))
  rw [read_append, hbefore, Nat.zero_add, read_copy_self]

end Block

end Socketchat.Foundation
