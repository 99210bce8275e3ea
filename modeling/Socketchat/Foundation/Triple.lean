import Socketchat.Foundation.Block
import Socketchat.Foundation.Heap

/-!
# Programs on a heap

A program that uses a block that is not allocated, or is no longer, has no
outcome; nor has one that reads or writes outside a block. A `Triple` says that
a program that starts with a part of the heap of which `P` holds has an outcome,
and ends with one of which `Q` does; the rest, whatever it is, stays what it
was.
-/

namespace Socketchat.Foundation

variable {α β γ : Type}

/-- `none` is no outcome. -/
abbrev HeapM (β α : Type) := StateT (Heap β) Option α

namespace HeapM

/-- No outcome. -/
def fault : HeapM β α := fun _ => none

def malloc (x : β) : HeapM β ℕ := fun h => some (h.blocks.length, h.push x)

def load (p : ℕ) : HeapM β β := fun h => (h.get p).map fun x => (x, h)

def store (p : ℕ) (y : β) : HeapM β Unit :=
  fun h => (h.get p).map fun _ => ((), h.put p (some y))

/-- Freeing the null pointer does nothing. -/
def free : Option ℕ → HeapM β Unit
  | none => pure ()
  | some p => fun h => (h.get p).map fun _ => ((), h.put p none)

end HeapM

open Assertion HeapM

/-- From a part of which `P` holds the program has an outcome `a`, with a part
of which `Q a` holds; the others are what they were. -/
def Triple (P : Assertion β) (m : HeapM β α) (Q : α → Assertion β) : Prop :=
  ∀ (F : Assertion β) (h : Heap β), (P * F) h.get →
    ∃ a h', m.run h = some (a, h') ∧ (Q a * F) h'.get

namespace Triple

variable {P P' F : Assertion β} {m : HeapM β α} {Q Q' : α → Assertion β}
  {f : α → HeapM β γ} {R : γ → Assertion β} {φ : Prop} {p : ℕ} {x y : β}

theorem conseq (h : Triple P m Q) (hpre : P' ≤ P) (hpost : ∀ a, Q a ≤ Q' a) :
    Triple P' m Q' := by
  intro F heap hheap
  obtain ⟨a, heap', hrun, hheap'⟩ := h F heap (mul_le_mul hpre F _ hheap)
  exact ⟨a, heap', hrun, mul_le_mul (hpost a) F _ hheap'⟩

theorem post (h : Triple P m Q) (hpost : ∀ a, Q a ≤ Q' a) : Triple P m Q' :=
  h.conseq (le_refl P) hpost

theorem pre (h : Triple P m Q) (hpre : P' ≤ P) : Triple P' m Q :=
  h.conseq hpre fun _ => le_refl _

/-- **The frame rule.** -/
theorem frame (h : Triple P m Q) (R : Assertion β) :
    Triple (P * R) m fun a => Q a * R := by
  intro F heap hheap
  rw [mul_assoc] at hheap
  obtain ⟨a, heap', hrun, hheap'⟩ := h _ heap hheap
  exact ⟨a, heap', hrun, by rwa [mul_assoc]⟩

theorem pure (a : α) : Triple (Q a) (pure a) Q :=
  fun _ heap hheap => ⟨a, heap, rfl, hheap⟩

theorem ret {φ : α → Prop} {a : α} (hφ : φ a) (hP : P = Q a) :
    Triple P (Pure.pure a) fun b => Assertion.fact (φ b) * Q b := by
  refine (Triple.pure a).pre ?_
  rw [fact_true hφ, one_mul, hP]

theorem bind (h : Triple P m Q) (hf : ∀ a, Triple (Q a) (f a) R) :
    Triple P (m >>= f) R := by
  intro F heap hheap
  obtain ⟨a, heap', hrun, hheap'⟩ := h F heap hheap
  obtain ⟨c, heap'', hrun', hheap''⟩ := hf a F heap' hheap'
  refine ⟨c, heap'', ?_, hheap''⟩
  rw [StateT.run_bind, hrun]
  exact hrun'

theorem fact (h : φ → Triple P m Q) : Triple (Assertion.fact φ * P) m Q := by
  intro F heap hheap
  rw [mul_assoc, fact_mul] at hheap
  exact h hheap.1 F heap hheap.2

/-- The answer of a program, put another way. -/
theorem relabel {δ : Type} {m : HeapM β (α × δ)} {a : α} {R : δ → Assertion β}
    (h : Triple P m fun r => Assertion.fact (r.1 = a) * R r.2) (f : α → γ) :
    Triple P (m >>= fun r => Pure.pure (f r.1, r.2)) fun r =>
      Assertion.fact (r.1 = f a) * R r.2 :=
  h.bind fun _ => fact fun hr => ret (congrArg f hr) rfl

theorem zero : Triple 0 m Q := by
  intro F heap hheap
  rw [zero_mul] at hheap
  exact False.elim hheap

theorem malloc (x : β) : Triple 1 (malloc x) fun p => pts p x := by
  intro F heap hheap
  rw [one_mul] at hheap
  refine ⟨heap.blocks.length, heap.push x, rfl, pts_mul.mpr ?_⟩
  exact ⟨heap.get, Heap.get_of_ge (Nat.le_refl _), Heap.get_push x, hheap⟩

theorem load : Triple (pts p x) (load p) fun y =>
    Assertion.fact (y = x) * pts p x := by
  intro F heap hheap
  obtain ⟨v, -, hget, -⟩ := pts_mul.mp hheap
  have hp : heap.get p = some x := by rw [hget, Function.update_self]
  refine ⟨x, heap, ?_, ?_⟩
  · show (heap.get p).map _ = _
    rw [hp]
    rfl
  · rw [mul_assoc, fact_mul]
    exact ⟨rfl, hheap⟩

theorem store (y : β) : Triple (pts p x) (store p y) fun _ => pts p y := by
  intro F heap hheap
  obtain ⟨v, hnone, hget, hF⟩ := pts_mul.mp hheap
  have hp : heap.get p = some x := by rw [hget, Function.update_self]
  refine ⟨(), heap.put p (some y), ?_, pts_mul.mpr ⟨v, hnone, ?_, hF⟩⟩
  · show (heap.get p).map _ = _
    rw [hp]
    rfl
  · rw [Heap.get_put hp, hget, Function.update_idem]

end Triple

/-! ## Pointers -/

/-- `ptr` is a null pointer, or points to a block that holds `x`. -/
def owns : Option ℕ → Option β → Assertion β
  | none, none => 1
  | some p, some x => pts p x
  | _, _ => 0

theorem owns_le_block (ptr : Option ℕ) (x : Option β) :
    owns ptr x ≤ .block ^ x.elim 0 fun _ => 1 := by
  cases ptr with
  | none =>
      cases x with
      | none => exact le_of_eq (pow_zero _).symm
      | some x => exact fun _ hno => False.elim hno
  | some p =>
      cases x with
      | none => exact fun _ hno => False.elim hno
      | some x =>
          rw [Option.elim_some, pow_one]
          exact pts_le_block

theorem owns_le_weighs (f : β → ℕ) (ptr : Option ℕ) (x : Option β) :
    owns ptr x ≤ .weighs f (x.elim 0 f) := by
  cases ptr with
  | none =>
      cases x with
      | none => exact one_le_weighs
      | some x => exact fun _ hno => False.elim hno
  | some p =>
      cases x with
      | none => exact fun _ hno => False.elim hno
      | some x => exact pts_le_weighs

theorem Triple.free {ptr : Option ℕ} {x : Option β} :
    Triple (owns ptr x) (free ptr) fun _ => 1 := by
  cases ptr with
  | none =>
      cases x with
      | none => exact Triple.pure (Q := fun _ => 1) ()
      | some x => exact Triple.zero
  | some p =>
      cases x with
      | none => exact Triple.zero
      | some x =>
          intro F heap hheap
          obtain ⟨v, hnone, hget, hF⟩ := pts_mul.mp hheap
          have hp : heap.get p = some x := by rw [hget, Function.update_self]
          refine ⟨(), heap.put p none, ?_, ?_⟩
          · show (heap.get p).map _ = _
            rw [hp]
            rfl
          · have hv : (heap.put p none).get = v := by
              rw [Heap.get_put hp, hget, Function.update_idem, ← hnone,
                Function.update_eq_self]
            rw [one_mul, hv]
            exact hF

/-! ## Cells of a block -/

section Cells

variable [Inhabited α] {ptr : Option ℕ} {x : Option (Block α)} {off len : ℕ}
  {xs : List α}

namespace HeapM

/-- The `len` cells from `off` on. A null pointer has none. -/
def read (ptr : Option ℕ) (off len : ℕ) : HeapM (Block α) (List α) :=
  match ptr with
  | none => if off + len = 0 then pure [] else fault
  | some p => do
      let m ← load p
      if m.Fits off len then pure (m.read off len) else fault

/-- `memcpy` to offset `off`. -/
def write (ptr : Option ℕ) (off : ℕ) (xs : List α) : HeapM (Block α) Unit :=
  match ptr with
  | none => if off + xs.length = 0 then pure () else fault
  | some p => do
      let m ← load p
      if m.Fits off xs.length then store p (m.copy off xs) else fault

end HeapM

/-- What a pointer points to; a null pointer has no cells. -/
abbrev pointee (x : Option (Block α)) : Block α := x.getD (Block.fresh 0)

theorem Triple.read (h : (pointee x).Fits off len) :
    Triple (owns ptr x) (HeapM.read ptr off len) fun xs =>
      Assertion.fact (xs = (pointee x).read off len) * owns ptr x := by
  cases ptr with
  | none =>
      cases x with
      | none =>
          have hzero : off + len = 0 := Nat.le_zero.mp h
          obtain rfl : len = 0 := by omega
          simp only [HeapM.read, if_pos hzero]
          exact Triple.ret rfl rfl
      | some m => exact Triple.zero
  | some p =>
      cases x with
      | none => exact Triple.zero
      | some m =>
          refine Triple.load.bind fun y => Triple.fact fun hy => ?_
          subst hy
          rw [if_pos (show y.Fits off len from h)]
          exact Triple.ret rfl rfl

theorem Triple.write (h : (pointee x).Fits off xs.length) :
    Triple (owns ptr x) (HeapM.write ptr off xs) fun _ =>
      owns ptr (x.map (·.copy off xs)) := by
  cases ptr with
  | none =>
      cases x with
      | none =>
          have hzero : off + xs.length = 0 := Nat.le_zero.mp h
          simp only [HeapM.write, if_pos hzero]
          exact Triple.pure (Q := fun _ => 1) ()
      | some m => exact Triple.zero
  | some p =>
      cases x with
      | none => exact Triple.zero
      | some m =>
          refine Triple.load.bind fun y => Triple.fact fun hy => ?_
          subst hy
          rw [if_pos (show y.Fits off xs.length from h)]
          exact Triple.store _

end Cells

end Socketchat.Foundation
