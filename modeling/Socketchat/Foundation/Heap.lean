import Mathlib.Algebra.BigOperators.Group.List.Basic
import Mathlib.Algebra.GroupWithZero.Defs
import Mathlib.Algebra.Order.Monoid.Defs
import Mathlib.Algebra.Order.Ring.Nat
import Mathlib.Tactic.Common

/-!
# Heaps

Blocks are numbered in the order in which they are allocated, and no number is
given out twice. An assertion speaks of a part of a heap. Assertions form a
commutative monoid: `P * Q` holds of two parts that share no block, `1` of no
block at all, and `P ^ n` of `n` parts.
-/

namespace Socketchat.Foundation

/-- The blocks allocated so far; those that have been freed are `none`. -/
structure Heap (β : Type) where
  blocks : List (Option β)

/-- Some blocks, by number. -/
abbrev Part (β : Type) := ℕ → Option β

variable {β α γ : Type}

namespace Heap

def empty : Heap β := ⟨[]⟩

/-- The block of this number. -/
def get (h : Heap β) : Part β := fun p => h.blocks[p]?.join

/-- How many blocks there are to be freed. -/
def live (h : Heap β) : ℕ := h.blocks.countP Option.isSome

/-- What these blocks weigh together. -/
def weight (f : β → ℕ) (h : Heap β) : ℕ :=
  (h.blocks.map fun x => x.elim 0 f).sum

def push (h : Heap β) (x : β) : Heap β := ⟨h.blocks ++ [some x]⟩

def put (h : Heap β) (p : ℕ) (x : Option β) : Heap β := ⟨h.blocks.set p x⟩

variable {h : Heap β} {p : ℕ} {x y : β}

theorem get_of_ge (hp : h.blocks.length ≤ p) : h.get p = none := by
  rw [get, List.getElem?_eq_none hp]
  rfl

theorem lt_of_get (hp : h.get p = some x) : p < h.blocks.length := by
  by_contra hge
  rw [get_of_ge (Nat.le_of_not_lt hge)] at hp
  cases hp

theorem get_push (x : β) :
    (h.push x).get = Function.update h.get h.blocks.length (some x) := by
  funext q
  rcases Nat.lt_trichotomy q h.blocks.length with hq | rfl | hq
  · rw [Function.update_of_ne (Nat.ne_of_lt hq), get, push,
      List.getElem?_append_left hq]
    rfl
  · rw [Function.update_self, get, push,
      List.getElem?_append_right (Nat.le_refl _), Nat.sub_self]
    rfl
  · rw [Function.update_of_ne (Nat.ne_of_gt hq), get_of_ge (Nat.le_of_lt hq)]
    refine get_of_ge ?_
    rw [push, List.length_append]
    exact hq

theorem get_put (hp : h.get p = some y) (z : Option β) :
    (h.put p z).get = Function.update h.get p z := by
  funext q
  by_cases hq : q = p
  · subst hq
    rw [Function.update_self, get, put,
      List.getElem?_set_self (lt_of_get hp), Option.join_some]
  · rw [Function.update_of_ne hq, get, put,
      List.getElem?_set_ne fun heq => hq heq.symm]
    rfl

theorem weight_set {f : β → ℕ} : ∀ {xs : List (Option β)} {p : ℕ},
    xs[p]? = some (some y) →
    ((xs.set p none).map fun x => x.elim 0 f).sum + f y =
      (xs.map fun x => x.elim 0 f).sum
  | x :: xs, 0, h => by
      obtain rfl := Option.some.inj h
      rw [List.set_cons_zero, List.map_cons, List.map_cons, List.sum_cons,
        List.sum_cons, Option.elim_none, Option.elim_some, Nat.zero_add,
        Nat.add_comm]
  | x :: xs, p + 1, h => by
      have htail : xs[p]? = some (some y) := h
      rw [List.set_cons_succ, List.map_cons, List.map_cons, List.sum_cons,
        List.sum_cons, Nat.add_assoc, weight_set htail]

/-- Freeing a block takes away what it weighs. -/
theorem weight_put_none (f : β → ℕ) (hp : h.get p = some y) :
    (h.put p none).weight f + f y = h.weight f := by
  refine weight_set ?_
  have hlt := lt_of_get hp
  rw [get, List.getElem?_eq_getElem hlt, Option.join_some] at hp
  rw [List.getElem?_eq_getElem hlt, hp]

theorem weight_eq_zero (f : β → ℕ) (hempty : h.get = fun _ => none) :
    h.weight f = 0 := by
  refine List.sum_eq_zero fun n hn => ?_
  obtain ⟨x, hx, rfl⟩ := List.mem_map.mp hn
  obtain ⟨q, hq⟩ := List.mem_iff_getElem?.mp hx
  have hnone : h.get q = none := congrFun hempty q
  rw [get, hq, Option.join_some] at hnone
  rw [hnone, Option.elim_none]

/-- Counted, every block weighs one. -/
theorem live_eq_weight (h : Heap β) : h.live = h.weight fun _ => 1 := by
  unfold live weight
  induction h.blocks with
  | nil => rfl
  | cons x xs ih =>
      rw [List.map_cons, List.sum_cons, List.countP_cons, ih, Nat.add_comm]
      cases x <;> rfl

end Heap

/-! ## Parts -/

namespace Part

def empty : Part β := fun _ => none

def single (p : ℕ) (x : β) : Part β := Function.update empty p (some x)

/-- No block is in both. -/
def Disjoint (u v : Part β) : Prop := ∀ p, u p = none ∨ v p = none

/-- The blocks of both. -/
def union (u v : Part β) : Part β := fun p => (u p).or (v p)

variable {u v w : Part β} {p : ℕ} {x : β}

theorem Disjoint.symm (h : Disjoint u v) : Disjoint v u := fun p => (h p).symm

theorem union_comm (h : Disjoint u v) : union u v = union v u := by
  funext p
  rcases h p with hp | hp
  · simp [union, hp]
  · simp [union, hp]

theorem union_assoc : union (union u v) w = union u (union v w) := by
  funext p
  exact Option.or_assoc

theorem disjoint_empty : Disjoint empty u := fun _ => Or.inl rfl

theorem disjoint_union :
    Disjoint (union u v) w ↔ Disjoint u w ∧ Disjoint v w := by
  simp only [Disjoint, union, Option.or_eq_none_iff]
  constructor
  · intro h
    exact ⟨fun p => (h p).imp_left And.left, fun p => (h p).imp_left And.right⟩
  · rintro ⟨hu, hv⟩ p
    rcases hu p with hp | hp
    · exact (hv p).imp_left fun hq => ⟨hp, hq⟩
    · exact Or.inr hp

theorem disjoint_single : Disjoint (single p x) u ↔ u p = none := by
  constructor
  · intro h
    rcases h p with hp | hp
    · rw [single, Function.update_self] at hp
      cases hp
    · exact hp
  · intro hp q
    by_cases hq : q = p
    · exact Or.inr (hq ▸ hp)
    · exact Or.inl (Function.update_of_ne hq ..)

theorem union_single : union (single p x) u = Function.update u p (some x) := by
  funext q
  by_cases hq : q = p
  · subst hq
    simp [union, single]
  · simp [union, single, empty, hq]

end Part

/-! ## Assertions -/

/-- What is said of a part of a heap. -/
def Assertion (β : Type) := Part β → Prop

namespace Assertion

variable {P Q : Assertion β} {w : Part β} {p : ℕ} {x : β} {φ : Prop}

instance : PartialOrder (Assertion β) where
  le P Q := ∀ w, P w → Q w
  le_refl _ _ h := h
  le_trans _ _ _ hPQ hQR w h := hQR w (hPQ w h)
  le_antisymm _ _ hPQ hQP := funext fun w => propext ⟨hPQ w, hQP w⟩

instance : Mul (Assertion β) where
  mul P Q w := ∃ u v, Part.Disjoint u v ∧ w = Part.union u v ∧ P u ∧ Q v

instance : One (Assertion β) where
  one w := w = Part.empty

theorem mul_comm_le (P Q : Assertion β) : P * Q ≤ Q * P := by
  rintro w ⟨u, v, hdisjoint, rfl, hP, hQ⟩
  exact ⟨v, u, hdisjoint.symm, Part.union_comm hdisjoint, hQ, hP⟩

theorem mul_assoc_le (P Q R : Assertion β) : P * Q * R ≤ P * (Q * R) := by
  rintro w ⟨uv, t, hdisjoint, rfl, ⟨u, v, hparts, rfl, hP, hQ⟩, hR⟩
  obtain ⟨hu, hv⟩ := Part.disjoint_union.mp hdisjoint
  refine ⟨u, Part.union v t, ?_, Part.union_assoc, hP, v, t, hv, rfl, hQ, hR⟩
  exact (Part.disjoint_union.mpr ⟨hparts.symm, hu.symm⟩).symm

theorem mul_le_mul (hP : P ≤ Q) (R : Assertion β) : P * R ≤ Q * R := by
  rintro w ⟨u, v, hdisjoint, rfl, hu, hv⟩
  exact ⟨u, v, hdisjoint, rfl, hP u hu, hv⟩

theorem one_mul_eq (P : Assertion β) : 1 * P = P := by
  apply le_antisymm
  · rintro w ⟨u, v, -, rfl, rfl, hP⟩
    exact hP
  · intro w hP
    exact ⟨Part.empty, w, Part.disjoint_empty, rfl, rfl, hP⟩

instance : CommMonoid (Assertion β) where
  mul_comm P Q := le_antisymm (mul_comm_le P Q) (mul_comm_le Q P)
  mul_assoc P Q R := by
    have hcomm (P Q : Assertion β) : P * Q = Q * P :=
      le_antisymm (mul_comm_le P Q) (mul_comm_le Q P)
    refine le_antisymm (mul_assoc_le P Q R) ?_
    -- the other way round, with the factors in reverse
    rw [hcomm P, hcomm Q, hcomm (P * Q), hcomm P]
    exact mul_assoc_le R Q P
  one_mul := one_mul_eq
  mul_one P := by
    rw [le_antisymm (mul_comm_le P 1) (mul_comm_le 1 P), one_mul_eq]

instance : IsOrderedMonoid (Assertion β) where
  mul_le_mul_left _ _ h R := mul_le_mul h R

instance : Zero (Assertion β) where
  zero _ := False

theorem zero_mul_eq (P : Assertion β) : 0 * P = 0 := by
  apply le_antisymm
  · rintro w ⟨u, v, -, -, hno, -⟩
    exact hno
  · exact fun _ hno => False.elim hno

instance : CommMonoidWithZero (Assertion β) where
  zero_mul := zero_mul_eq
  mul_zero P := by
    rw [mul_comm, zero_mul_eq]

/-- Something that is so, of no block. -/
def fact (φ : Prop) : Assertion β := fun w => φ ∧ w = Part.empty

/-- The block `p`, which holds `x`. -/
def pts (p : ℕ) (x : β) : Assertion β := fun w => w = Part.single p x

/-- One block. -/
def block : Assertion β := fun w => ∃ p x, pts p x w

/-- Some block that holds `x`. -/
def held (x : β) : Assertion β := fun w => ∃ p, pts p x w

/-- Blocks that weigh `n` together. -/
def weighs (f : β → ℕ) (n : ℕ) : Assertion β :=
  fun w => ∃ xs : List β, (xs.map f).sum = n ∧ (xs.map held).prod w

theorem fact_mul : (fact φ * P : Assertion β) w ↔ φ ∧ P w := by
  constructor
  · rintro ⟨u, v, -, rfl, ⟨hφ, rfl⟩, hP⟩
    exact ⟨hφ, hP⟩
  · rintro ⟨hφ, hP⟩
    exact ⟨Part.empty, w, Part.disjoint_empty, rfl, ⟨hφ, rfl⟩, hP⟩

theorem fact_true (h : φ) : (fact φ : Assertion β) = 1 := by
  apply le_antisymm
  · exact fun w hw => hw.2
  · exact fun w hw => ⟨h, hw⟩

theorem pts_le_block : pts p x ≤ block := fun _ h => ⟨p, x, h⟩

theorem pts_mul : (pts p x * P) w ↔
    ∃ v, v p = none ∧ w = Function.update v p (some x) ∧ P v := by
  constructor
  · rintro ⟨u, v, hdisjoint, rfl, rfl, hP⟩
    exact ⟨v, Part.disjoint_single.mp hdisjoint, Part.union_single, hP⟩
  · rintro ⟨v, hnone, rfl, hP⟩
    exact ⟨_, v, Part.disjoint_single.mpr hnone, Part.union_single.symm, rfl,
      hP⟩

/-! ## Weighing a heap -/

section Weight

variable {f : β → ℕ} {m n : ℕ}

theorem one_le_weighs : (1 : Assertion β) ≤ weighs f 0 :=
  fun _ h => ⟨[], rfl, h⟩

theorem pts_le_weighs : pts p x ≤ weighs f (f x) := by
  refine fun w h => ⟨[x], List.sum_singleton, ?_⟩
  rw [List.map_singleton, List.prod_singleton]
  exact ⟨p, h⟩

theorem weighs_mul : weighs f m * weighs f n ≤ weighs f (m + n) := by
  rintro w ⟨u, v, hdisjoint, rfl, ⟨xs, rfl, hu⟩, ys, rfl, hv⟩
  refine ⟨xs ++ ys, ?_, ?_⟩
  · rw [List.map_append, List.sum_append]
  · rw [List.map_append, List.prod_append]
    exact ⟨u, v, hdisjoint, rfl, hu, hv⟩

theorem block_le_weighs : (block : Assertion β) ≤ weighs (fun _ => 1) 1 := by
  rintro w ⟨p, x, h⟩
  exact pts_le_weighs (f := fun _ => 1) w h

theorem block_pow_le_weighs : ∀ n : ℕ,
    (block ^ n : Assertion β) ≤ weighs (fun _ => 1) n
  | 0 => by
      rw [pow_zero]
      exact one_le_weighs
  | n + 1 => by
      rw [pow_succ]
      exact (mul_le_mul' (block_pow_le_weighs n) block_le_weighs).trans
        weighs_mul

/-- **Weighing.** What the blocks of the heap weigh is what `weighs` says. -/
theorem weight_eq {h : Heap β} (hweighs : weighs f n h.get) :
    h.weight f = n := by
  obtain ⟨xs, rfl, hxs⟩ := hweighs
  induction xs generalizing h with
  | nil => exact Heap.weight_eq_zero f hxs
  | cons x xs ih =>
      obtain ⟨u, v, hdisjoint, hget, ⟨p, rfl⟩, hrest⟩ := hxs
      have hnone := Part.disjoint_single.mp hdisjoint
      rw [Part.union_single] at hget
      have hp : h.get p = some x := by rw [hget, Function.update_self]
      have hv : (h.put p none).get = v := by
        rw [Heap.get_put hp, hget, Function.update_idem, ← hnone,
          Function.update_eq_self]
      rw [← Heap.weight_put_none f hp, ih (hv ▸ hrest), List.map_cons,
        List.sum_cons, Nat.add_comm]

/-- **Counting.** A heap of `n` blocks. -/
theorem live_eq {h : Heap β} (hblocks : (block ^ n : Assertion β) h.get) :
    h.live = n := by
  rw [Heap.live_eq_weight]
  exact weight_eq (block_pow_le_weighs n _ hblocks)

end Weight

end Assertion

end Socketchat.Foundation
