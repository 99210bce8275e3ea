import Socketchat.Foundation.Transition
import Socketchat.Foundation.Triple

/-!
# Objects that share a heap

Objects of a class, as their clients see them, and code for them that keeps its
data on a heap. If every single call is implemented on the blocks of the one
object it is made on, then a whole program with any number of objects gets the
answers that the objects give one by one: they share the heap, and no call
disturbs another object.
-/

namespace Socketchat.Foundation

variable {β A C N K R : Type}

/-- What a class promises: `create` an object, and `call` it for an answer and
the object afterwards. Calls that are not `Safe` are not defined. -/
structure ObjectSpec (A N K R : Type) where
  create : N → A
  call : A → K → R × A
  Creates : N → Prop
  Safe : A → K → Prop

/-- How the class is programmed. -/
structure ObjectCode (β C N K R : Type) where
  create : N → HeapM β C
  call : C → K → HeapM β (R × C)
  release : C → HeapM β Unit

/-- An object occupies `blocks` of the heap, and a call loses `lost` of them,
which no object has any more. -/
structure Implements (code : ObjectCode β C N K R) (spec : ObjectSpec A N K R)
    (Valid : A → Prop) (holds : A → C → Assertion β) (blocks : A → ℕ)
    (lost : K → ℕ) : Prop where
  valid_create : ∀ n, spec.Creates n → Valid (spec.create n)
  valid_call : ∀ a k, Valid a → spec.Safe a k → Valid (spec.call a k).2
  create : ∀ n, spec.Creates n →
    Triple 1 (code.create n) (holds (spec.create n))
  call : ∀ a c k, Valid a → spec.Safe a k →
    Triple (holds a c) (code.call c k) fun r =>
      .fact (r.1 = (spec.call a k).1) *
        (holds (spec.call a k).2 r.2 * .block ^ lost k)
  release : ∀ a c, Triple (holds a c) (code.release c) fun _ => 1
  blocks : ∀ a c, holds a c ≤ .block ^ blocks a

/-! ## Programs with objects -/

/-- What a program does; objects are numbered as they are created. -/
inductive Command (N K : Type) where
  | create (n : N)
  | call (i : ℕ) (k : K)
  | release (i : ℕ)

namespace ObjectSpec

variable (spec : ObjectSpec A N K R) (s : List (Option A))

/-- The objects after a command; a released one is `none`. -/
def after : Command N K → List (Option A)
  | .create n => s ++ [some (spec.create n)]
  | .call i k =>
      match s[i]?.join with
      | some a => s.set i (some (spec.call a k).2)
      | none => s
  | .release i => s.set i none

/-- What the program learns from a command. -/
def answer : Command N K → Option R
  | .call i k => s[i]?.join.map fun a => (spec.call a k).1
  | _ => none

/-- No command on an object that is not there, and no call that is not
defined. -/
def SafeCommand : Command N K → Prop
  | .create n => spec.Creates n
  | .call i k => ∃ a, s[i]? = some (some a) ∧ spec.Safe a k
  | .release i => ∃ a, s[i]? = some (some a)

instance [∀ n, Decidable (spec.Creates n)] [∀ a k, Decidable (spec.Safe a k)] :
    ∀ k : Command N K, Decidable (spec.SafeCommand s k)
  | .create n => inferInstanceAs (Decidable (spec.Creates n))
  | .call i k =>
      match h : s[i]? with
      | some (some a) =>
          decidable_of_iff (spec.Safe a k) (by simp [SafeCommand, h])
      | some none => .isFalse (by simp [SafeCommand, h])
      | none => .isFalse (by simp [SafeCommand, h])
  | .release i =>
      match h : s[i]? with
      | some (some a) => .isTrue ⟨a, h⟩
      | some none => .isFalse (by simp [SafeCommand, h])
      | none => .isFalse (by simp [SafeCommand, h])

def answers : List (Option A) → List (Command N K) → List (Option R)
  | _, [] => []
  | s, k :: ks => spec.answer s k :: answers (spec.after s k) ks

end ObjectSpec

namespace ObjectCode

variable (code : ObjectCode β C N K R)

open HeapM

def exec (s : List (Option C)) :
    Command N K → HeapM β (Option R × List (Option C))
  | .create n => do
      let c ← code.create n
      pure (none, s ++ [some c])
  | .call i k =>
      match s[i]?.join with
      | some c => do
          let (r, c) ← code.call c k
          pure (some r, s.set i (some c))
      | none => fault
  | .release i =>
      match s[i]?.join with
      | some c => do
          code.release c
          pure (none, s.set i none)
      | none => fault

def run : List (Option C) → List (Command N K) →
    HeapM β (List (Option R) × List (Option C))
  | s, [] => pure ([], s)
  | s, k :: ks => do
      let (r, s) ← code.exec s k
      let (rs, s) ← run s ks
      pure (r :: rs, s)

end ObjectCode

def Command.lost (lost : K → ℕ) : Command N K → ℕ
  | .call _ k => lost k
  | _ => 0

theorem Command.lost_nothing (ks : List (Command N K)) :
    (ks.map (Command.lost fun _ => 0)).sum = 0 := by
  refine List.sum_eq_zero fun n hn => ?_
  obtain ⟨k, -, rfl⟩ := List.mem_map.mp hn
  cases k with
  | call i k => rfl
  | _ => rfl

/-! ## Their blocks -/

section Pool

variable (holds : A → C → Assertion β)

/-- What an object holds, and a released one nothing. -/
def slot : Option A → Option C → Assertion β
  | some a, some c => holds a c
  | none, none => 1
  | _, _ => 0

/-- What all objects hold, each its own blocks. -/
def pool : List (Option A) → List (Option C) → Assertion β
  | [], [] => 1
  | a :: s, c :: t => slot holds a c * pool s t
  | _, _ => 0

variable {holds}

theorem pool_append (a : Option A) (c : Option C) :
    ∀ (s : List (Option A)) (t : List (Option C)),
    pool holds (s ++ [a]) (t ++ [c]) = pool holds s t * slot holds a c
  | [], [] => by rw [List.nil_append, List.nil_append, pool, pool, pool, mul_comm]
  | [], _ :: t => by
      cases t <;> simp [pool]
  | _ :: s, [] => by
      cases s <;> simp [pool]
  | b :: s, d :: t => by
      rw [List.cons_append, List.cons_append, pool, pool, pool_append a c s t,
        mul_assoc]

/-- **One object and the others.** -/
theorem pool_at {i : ℕ} {a : Option A} : ∀ {s : List (Option A)}
    (t : List (Option C)), s[i]? = some a →
    (∃ c F, t[i]? = some c ∧ pool holds s t = slot holds a c * F ∧
      ∀ a' c', pool holds (s.set i a') (t.set i c') = slot holds a' c' * F) ∨
    pool holds s t = 0 := by
  induction i with
  | zero =>
      intro s t h
      cases s with
      | nil => cases h
      | cons b s =>
          cases t with
          | nil => exact Or.inr rfl
          | cons c t =>
              obtain rfl : b = a := Option.some.inj h
              exact Or.inl ⟨c, pool holds s t, rfl, rfl, fun _ _ => rfl⟩
  | succ i ih =>
      intro s t h
      cases s with
      | nil => cases h
      | cons b s =>
          cases t with
          | nil => exact Or.inr rfl
          | cons d t =>
              rcases ih t h with ⟨c, F, hc, hpool, hset⟩ | hzero
              · refine Or.inl ⟨c, slot holds b d * F, hc, ?_, fun a' c' => ?_⟩
                · rw [pool, hpool, mul_left_comm]
                · rw [List.set_cons_succ, List.set_cons_succ, pool, hset,
                    mul_left_comm]
              · exact Or.inr (by rw [pool, hzero, mul_zero])

theorem pool_some {i : ℕ} {a : A} {s : List (Option A)}
    (h : s[i]? = some (some a)) (t : List (Option C)) :
    (∃ c F, t[i]? = some (some c) ∧ pool holds s t = holds a c * F ∧
      ∀ a' c', pool holds (s.set i a') (t.set i c') = slot holds a' c' * F) ∨
    pool holds s t = 0 := by
  rcases pool_at t h with ⟨c, F, hc, hpool, hset⟩ | hzero
  · cases c with
    | none => exact Or.inr (hpool.trans (zero_mul F))
    | some c => exact Or.inl ⟨c, F, hc, hpool, hset⟩
  · exact Or.inr hzero

end Pool

namespace Implements

variable {code : ObjectCode β C N K R} {spec : ObjectSpec A N K R}
  {Valid : A → Prop} {holds : A → C → Assertion β} {blocks : A → ℕ}
  {lost : K → ℕ} {s : List (Option A)} {k : Command N K}

/-- Every object there is is valid. -/
def AllValid (Valid : A → Prop) (s : List (Option A)) : Prop :=
  ∀ a, some a ∈ s → Valid a

theorem allValid_after (h : Implements code spec Valid holds blocks lost)
    (hs : AllValid Valid s) (hsafe : spec.SafeCommand s k) :
    AllValid Valid (spec.after s k) := by
  intro a ha
  cases k with
  | create n =>
      rcases List.mem_append.mp ha with hold | hnew
      · exact hs a hold
      · obtain rfl := Option.some.inj (List.mem_singleton.mp hnew)
        exact h.valid_create n hsafe
  | call i k =>
      obtain ⟨b, hb, hcall⟩ := hsafe
      simp only [ObjectSpec.after, hb, Option.join_some] at ha
      rcases List.mem_or_eq_of_mem_set ha with hold | hnew
      · exact hs a hold
      · obtain rfl := Option.some.inj hnew
        exact h.valid_call b k (hs b (List.mem_of_getElem? hb)) hcall
  | release i =>
      rcases List.mem_or_eq_of_mem_set ha with hold | hnew
      · exact hs a hold
      · cases hnew

/-- **One command** gets the answer the object gives alone, and leaves the
others what they were. -/
theorem exec (h : Implements code spec Valid holds blocks lost)
    (hs : AllValid Valid s) (hsafe : spec.SafeCommand s k)
    (t : List (Option C)) :
    Triple (pool holds s t) (code.exec t k) fun r =>
      .fact (r.1 = spec.answer s k) *
        (pool holds (spec.after s k) r.2 * .block ^ k.lost lost) := by
  cases k with
  | create n =>
      have hcreate := (h.create n hsafe).frame (pool holds s t)
      rw [one_mul] at hcreate
      refine hcreate.bind fun c => Triple.ret rfl ?_
      show _ = pool holds (s ++ [some _]) (t ++ [some c]) * .block ^ 0
      rw [pool_append, pow_zero, mul_one, mul_comm]
      rfl
  | call i k =>
      obtain ⟨a, ha, hcall⟩ := hsafe
      rcases pool_some ha t with ⟨c, F, hc, hpool, hset⟩ | hzero
      · have hvalid := hs a (List.mem_of_getElem? ha)
        have hafter : spec.after s (.call i k) =
            s.set i (some (spec.call a k).2) := by
          simp only [ObjectSpec.after, ha, Option.join_some]
        have hanswer : spec.answer s (.call i k) =
            some (spec.call a k).1 := by
          simp only [ObjectSpec.answer, ha, Option.join_some, Option.map_some]
        simp only [ObjectCode.exec, hc, Option.join_some]
        rw [hpool]
        refine ((h.call a c k hvalid hcall).frame F).bind fun r => ?_
        rw [mul_assoc]
        refine Triple.fact fun hr => Triple.ret (by rw [hanswer, hr]) ?_
        rw [hafter, hset, mul_right_comm]
        rfl
      · rw [hzero]
        exact Triple.zero
  | release i =>
      obtain ⟨a, ha⟩ := hsafe
      rcases pool_some ha t with ⟨c, F, hc, hpool, hset⟩ | hzero
      · simp only [ObjectCode.exec, hc, Option.join_some]
        rw [hpool]
        refine ((h.release a c).frame F).bind fun _ => Triple.ret rfl ?_
        show _ = pool holds (s.set i none) (t.set i none) * .block ^ 0
        rw [hset, pow_zero, mul_one]
        rfl
      · rw [hzero]
        exact Triple.zero

/-- **A whole program**, by one command after the other. -/
theorem run (h : Implements code spec Valid holds blocks lost) :
    ∀ {ks : List (Command N K)} {s : List (Option A)} (t : List (Option C)),
    AllValid Valid s → Along spec.after spec.SafeCommand s ks →
    Triple (pool holds s t) (code.run t ks) fun r =>
      .fact (r.1 = spec.answers s ks) *
        (pool holds (ks.foldl spec.after s) r.2 *
          .block ^ (ks.map (Command.lost lost)).sum)
  | [], s, t, _, _ => by
      refine Triple.ret rfl ?_
      rw [List.map_nil, List.sum_nil, pow_zero, mul_one]
      rfl
  | k :: ks, s, t, hs, hsafe => by
      refine (h.exec hs hsafe.1 t).bind fun r => Triple.fact fun hr => ?_
      have hrest := h.run r.2 (h.allValid_after hs hsafe.1) hsafe.2
      refine (hrest.frame _).bind fun rs => ?_
      rw [mul_assoc]
      refine Triple.fact fun hrs => Triple.ret (by rw [hr, hrs]; rfl) ?_
      rw [List.foldl_cons, List.map_cons, List.sum_cons, add_comm, pow_add,
        mul_assoc]

/-! ## From an empty heap -/

/-- What all objects occupy. -/
def occupied (blocks : A → ℕ) (s : List (Option A)) : ℕ :=
  (s.map fun a => a.elim 0 blocks).sum

theorem occupied_le {blocks : A → ℕ} {c : ℕ} (hle : ∀ a, blocks a ≤ c) :
    ∀ s : List (Option A), occupied blocks s ≤ c * s.countP Option.isSome
  | [] => Nat.zero_le _
  | none :: s => by
      rw [List.countP_cons_of_neg (by simp)]
      exact (Nat.zero_add _).trans_le (occupied_le hle s)
  | some a :: s => by
      rw [List.countP_cons_of_pos rfl, Nat.mul_succ, Nat.add_comm]
      exact Nat.add_le_add (hle a) (occupied_le hle s)

theorem pool_blocks (h : Implements code spec Valid holds blocks lost) :
    ∀ (s : List (Option A)) (t : List (Option C)),
    pool holds s t ≤ .block ^ occupied blocks s
  | [], [] => le_of_eq (pow_zero _).symm
  | [], _ :: _ => fun _ hno => False.elim hno
  | _ :: _, [] => fun _ hno => False.elim hno
  | a :: s, c :: t => by
      have hslot : slot holds a c ≤ .block ^ a.elim 0 blocks := by
        cases a with
        | none =>
            cases c with
            | none => exact le_of_eq (pow_zero _).symm
            | some c => exact fun _ hno => False.elim hno
        | some a =>
            cases c with
            | none => exact fun _ hno => False.elim hno
            | some c => exact h.blocks a c
      rw [pool, occupied, List.map_cons, List.sum_cons, pow_add]
      exact mul_le_mul' hslot (h.pool_blocks s t)

theorem pool_weighs {f : β → ℕ} {g : C → ℕ}
    (hholds : ∀ a c, Valid a → holds a c ≤ .weighs f (g c)) :
    ∀ {s : List (Option A)} (t : List (Option C)), AllValid Valid s →
    pool holds s t ≤ .weighs f (t.map fun c => c.elim 0 g).sum
  | [], [], _ => Assertion.one_le_weighs
  | [], _ :: _, _ => fun _ hno => False.elim hno
  | _ :: _, [], _ => fun _ hno => False.elim hno
  | a :: s, c :: t, hs => by
      have hslot : slot holds a c ≤ .weighs f (c.elim 0 g) := by
        cases a with
        | none =>
            cases c with
            | none => exact Assertion.one_le_weighs
            | some c => exact fun _ hno => False.elim hno
        | some a =>
            cases c with
            | none => exact fun _ hno => False.elim hno
            | some c => exact hholds a c (hs a List.mem_cons_self)
      have hrest := pool_weighs hholds t
        fun b hb => hs b (List.mem_cons_of_mem a hb)
      rw [pool, List.map_cons, List.sum_cons]
      exact (mul_le_mul' hslot hrest).trans Assertion.weighs_mul

/-- What the code's objects are like, read off the objects they stand for. -/
theorem pool_all {P : C → Prop}
    (hholds : ∀ a c w, Valid a → holds a c w → P c) :
    ∀ {s : List (Option A)} (t : List (Option C)) (w : Part β),
    AllValid Valid s → pool holds s t w → ∀ c, some c ∈ t → P c
  | [], [], _, _, _, _, hc => by cases hc
  | [], _ :: _, _, _, hno, _, _ => False.elim hno
  | _ :: _, [], _, _, hno, _, _ => False.elim hno
  | a :: s, c :: t, w, hs, hw, d, hd => by
      obtain ⟨u, v, -, -, hu, hv⟩ := hw
      rcases List.mem_cons.mp hd with rfl | htail
      · cases a with
        | none => exact False.elim hu
        | some a => exact hholds a d u (hs a List.mem_cons_self) hu
      · exact pool_all hholds t v
          (fun b hb => hs b (List.mem_cons_of_mem a hb)) hv d htail

/-- A program that makes no undefined call has an outcome: the answers are
those of the objects one by one, and at the end the heap is what they hold and
what has been lost. -/
theorem ends (h : Implements code spec Valid holds blocks lost)
    {ks : List (Command N K)} (hsafe : Along spec.after spec.SafeCommand [] ks) :
    ∃ t heap, (code.run [] ks).run Heap.empty =
      some ((spec.answers [] ks, t), heap) ∧
    (pool holds (ks.foldl spec.after []) t *
      .block ^ (ks.map (Command.lost lost)).sum) heap.get ∧
    AllValid Valid (ks.foldl spec.after []) := by
  have hnone : AllValid Valid ([] : List (Option A)) := fun a ha => by cases ha
  have hempty : (pool holds [] [] * 1 : Assertion β) Heap.empty.get := by
    rw [mul_one]
    rfl
  -- the frame is empty: the heap holds nothing but what the program allocates
  obtain ⟨⟨rs, t⟩, heap, hrun, hheap⟩ :=
    h.run [] hnone hsafe 1 Heap.empty hempty
  rw [mul_one, Assertion.fact_mul] at hheap
  obtain ⟨rfl, hheap⟩ := hheap
  exact ⟨t, heap, hrun, hheap,
    Along.holds (fun _ _ => h.allValid_after) hnone hsafe⟩

/-- **Counting.** At the end the heap has the blocks the objects occupy and
those that have been lost. -/
theorem outcome (h : Implements code spec Valid holds blocks lost)
    {ks : List (Command N K)} (hsafe : Along spec.after spec.SafeCommand [] ks) :
    ∃ t heap, (code.run [] ks).run Heap.empty =
      some ((spec.answers [] ks, t), heap) ∧
    heap.live = occupied blocks (ks.foldl spec.after []) +
      (ks.map (Command.lost lost)).sum := by
  obtain ⟨t, heap, hrun, hheap, -⟩ := h.ends hsafe
  refine ⟨t, heap, hrun, Assertion.live_eq ?_⟩
  rw [pow_add]
  exact mul_le_mul' (h.pool_blocks _ t) (le_refl _) _ hheap

end Implements

end Socketchat.Foundation
