import Socketchat.Foundation.Block
import Mathlib.Tactic.Ring

/-!
# Rings

A ring of `cap` cells holds a window of an endless stream: the element with
number `t` is in cell `t % cap`. An index that has advanced by `T` elements
rests at `cap`, not at `0`, when it has just filled the top cell
(`ringIndex`). What a window holds is `Holds`; a range of elements that
crosses the top is covered by two segments of cells (`Covers`).
-/

namespace Socketchat.Foundation

/-! ## Indices -/

/-- Where an index stands that started at `0` and has advanced by `T`,
wrapping only when it has to go beyond `cap`. -/
def ringIndex (cap T : ℕ) : ℕ := if T = 0 then 0 else (T - 1) % cap + 1

section Index

variable {cap T n : ℕ}

@[simp] theorem ringIndex_zero (cap : ℕ) : ringIndex cap 0 = 0 := rfl

theorem ringIndex_succ (cap T : ℕ) : ringIndex cap (T + 1) = T % cap + 1 := rfl

/-- An index that has left `0` does not come back to it. -/
theorem ringIndex_eq_zero (h : ringIndex cap T = 0) : T = 0 := by
  cases T with
  | zero => rfl
  | succ T => exact absurd h (Nat.succ_ne_zero _)

theorem ringIndex_le (hc : 0 < cap) (T : ℕ) : ringIndex cap T ≤ cap := by
  cases T with
  | zero => exact Nat.zero_le _
  | succ T =>
      rw [ringIndex_succ]
      exact Nat.mod_lt T hc

/-- The index and the count name the same cell. -/
theorem ringIndex_mod (cap T : ℕ) : ringIndex cap T % cap = T % cap := by
  cases T with
  | zero => rfl
  | succ T => rw [ringIndex_succ, Nat.mod_add_mod]

/-- Below the top, the index is the cell. -/
theorem ringIndex_of_lt (h : ringIndex cap T < cap) :
    ringIndex cap T = T % cap := by
  rw [← ringIndex_mod, Nat.mod_eq_of_lt h]

/-- What follows the top starts again in cell `0`. -/
theorem ringIndex_top (hc : 0 < cap) (T : ℕ) :
    (T + (cap - ringIndex cap T)) % cap = 0 := by
  have hT := ringIndex_le hc T
  rw [← Nat.mod_add_mod, ← ringIndex_mod cap T, Nat.mod_add_mod,
    Nat.add_sub_cancel' hT, Nat.mod_self]

/-- **Advancing an index** by at most `cap`: up to the top, or past it. -/
theorem ringIndex_add (hc : 0 < cap) (hn : n ≤ cap) (T : ℕ) :
    ringIndex cap (T + n) =
      if n ≤ cap - ringIndex cap T then ringIndex cap T + n
      else n - (cap - ringIndex cap T) := by
  cases n with
  | zero => simp
  | succ n =>
      rw [← Nat.add_assoc, ringIndex_succ]
      cases T with
      | zero =>
          have hlt : n < cap := hn
          rw [Nat.zero_add, Nat.mod_eq_of_lt hlt, ringIndex_zero,
            Nat.sub_zero, if_pos hn, Nat.zero_add]
      | succ T =>
          rw [ringIndex_succ]
          have hcell := Nat.mod_lt T hc
          have hsplit : (T + 1 + n) % cap = (T % cap + (n + 1)) % cap := by
            rw [Nat.mod_add_mod]
            congr 1
            omega
          rw [hsplit]
          by_cases hfits : n + 1 ≤ cap - (T % cap + 1)
          · rw [if_pos hfits, Nat.mod_eq_of_lt (by omega)]
            omega
          · rw [if_neg hfits, Nat.mod_eq_sub_mod (by omega),
              Nat.mod_eq_of_lt (by omega)]
            omega

/-- **The distance of two indices** less than a full turn apart. Neither full
nor empty is mistaken for the other, wherever the indices rest. -/
theorem ringIndex_distance (hc : 0 < cap) {R W : ℕ} (hle : R ≤ W)
    (hlt : W < R + cap) :
    (if ringIndex cap R ≤ ringIndex cap W
      then ringIndex cap W - ringIndex cap R
      else ringIndex cap W + cap - ringIndex cap R) = W - R := by
  obtain ⟨n, rfl⟩ := Nat.exists_eq_add_of_le hle
  have hR := ringIndex_le hc R
  rw [ringIndex_add hc (by omega)]
  by_cases hfits : n ≤ cap - ringIndex cap R
  · rw [if_pos hfits, if_pos (Nat.le_add_right _ _)]
    omega
  · rw [if_neg hfits, if_neg (by omega)]
    omega

/-- Elements of one window are in different cells. -/
theorem mod_ne_of_window {a i j : ℕ} (hi : a ≤ i) (hij : i < j)
    (hj : j < a + cap) : i % cap ≠ j % cap := by
  intro h
  have hdvd : (j - i) % cap = 0 := Nat.sub_mod_eq_zero_of_mod_eq h.symm
  rw [Nat.mod_eq_of_lt (by omega)] at hdvd
  omega

end Index

/-! ## What a window holds -/

/-- The elements from number `T` on are `xs`. -/
def Holds {α : Type*} (m : Block α) (cap T : ℕ) (xs : List α) : Prop :=
  ∀ i (h : i < xs.length), m.cell ((T + i) % cap) = xs[i]

/-- A segment of cells for elements from number `T` on. -/
structure Segment (cap T off len : ℕ) : Prop where
  inside : off + len ≤ cap
  start : len ≠ 0 → off = T % cap

/-- Segments that together hold the `n` elements from number `T` on. -/
def Covers (cap : ℕ) : ℕ → List (ℕ × ℕ) → ℕ → Prop
  | _, [], n => n = 0
  | T, (off, len) :: segs, n =>
      Segment cap T off len ∧ len ≤ n ∧ Covers cap (T + len) segs (n - len)

section Window

variable {α : Type*} {m : Block α} {cap T : ℕ} {xs ys : List α}

/-- The cells of a segment are those of its elements. -/
theorem Segment.cell {off len : ℕ} (h : Segment cap T off len) {i : ℕ}
    (hi : i < len) : (T + i) % cap = off + i := by
  have hstart := h.start (by omega)
  have hinside := h.inside
  rw [← Nat.mod_add_mod, ← hstart, Nat.mod_eq_of_lt (by omega)]

@[simp] theorem Holds.nil : Holds m cap T [] := fun _ h => absurd h (by simp)

theorem Holds.append (hx : Holds m cap T xs)
    (hy : Holds m cap (T + xs.length) ys) : Holds m cap T (xs ++ ys) := by
  intro i hi
  by_cases hlt : i < xs.length
  · rw [List.getElem_append_left hlt]
    exact hx i hlt
  · rw [List.length_append] at hi
    have hj := hy (i - xs.length) (by omega)
    rw [List.getElem_append_right (by omega), ← hj]
    congr 2
    omega

theorem Holds.drop (h : Holds m cap T xs) {k : ℕ} (hk : k ≤ xs.length) :
    Holds m cap (T + k) (xs.drop k) := by
  intro i hi
  rw [List.length_drop] at hi
  rw [List.getElem_drop, ← h (k + i) (by omega), Nat.add_assoc]

/-- Reading a segment of a window. -/
theorem Holds.read (h : Holds m cap T xs) {off len : ℕ}
    (hseg : Segment cap T off len) (hlen : len ≤ xs.length) :
    m.read off len = xs.take len := by
  apply List.ext_getElem?
  intro i
  rw [Block.getElem?_read]
  by_cases hi : i < len
  · rw [if_pos hi, List.getElem?_take_of_lt hi,
      List.getElem?_eq_getElem (by omega), ← hseg.cell hi, h i (by omega)]
  · rw [if_neg hi, List.getElem?_eq_none (by rw [List.length_take]; omega)]

/-- Writing a segment of a window. -/
theorem Holds.copy_self {off : ℕ} (hseg : Segment cap T off ys.length) :
    Holds (m.copy off ys) cap T ys := by
  intro i hi
  rw [hseg.cell hi, Block.cell_copy_inside hi]

/-- Writing elements of the same turn, but other ones, keeps a window. -/
theorem Holds.copy_other (h : Holds m cap T xs) {U off : ℕ}
    (hseg : Segment cap U off ys.length)
    (hapart : T + xs.length ≤ U) (hturn : U + ys.length ≤ T + cap) :
    Holds (m.copy off ys) cap T xs := by
  intro i hi
  rw [← h i hi]
  -- the cell of element `T + i` is outside the segment
  have hout : ∀ j < ys.length, (T + i) % cap ≠ off + j := by
    intro j hj
    rw [← hseg.cell hj]
    exact mod_ne_of_window (a := T) (by omega) (by omega) (by omega)
  by_cases hbefore : (T + i) % cap < off
  · exact Block.cell_copy_before hbefore
  · apply Block.cell_copy_after
    by_contra hin
    exact hout ((T + i) % cap - off) (by omega) (by omega)

theorem Covers.inside {segs : List (ℕ × ℕ)} {n : ℕ}
    (h : Covers cap T segs n) : ∀ seg ∈ segs, seg.1 + seg.2 ≤ cap := by
  induction segs generalizing T n with
  | nil => exact fun seg hseg => absurd hseg (by simp)
  | cons seg segs ih =>
      obtain ⟨hseg, -, hrest⟩ := h
      intro x hx
      rcases List.mem_cons.mp hx with rfl | hx
      · exact hseg.inside
      · exact ih hrest x hx

/-- Every cell of a cover is the cell of one of its elements. -/
theorem Covers.element {segs : List (ℕ × ℕ)} {n : ℕ}
    (h : Covers cap T segs n) {seg : ℕ × ℕ} (hseg : seg ∈ segs) {i : ℕ}
    (hi : i < seg.2) : ∃ j < n, seg.1 + i = (T + j) % cap := by
  induction segs generalizing T n with
  | nil => exact absurd hseg (by simp)
  | cons x segs ih =>
      obtain ⟨hx, hle, hrest⟩ := h
      rcases List.mem_cons.mp hseg with rfl | hin
      · exact ⟨i, by omega, (hx.cell hi).symm⟩
      · obtain ⟨j, hj, heq⟩ := ih hrest hin
        exact ⟨x.2 + j, by omega, by rw [heq, Nat.add_assoc]⟩

end Window

end Socketchat.Foundation
