import Mathlib.Data.List.Infix
import Mathlib.Tactic

/-!
# Framing with a two-symbol delimiter

Messages over an alphabet `α` are sent as one stream by appending the
delimiter `cr lf` to each. The grammar of a stream is the cut at each
leftmost, non-overlapping delimiter (`unframe`). A message that contains no
delimiter may still end in `cr` or start with `lf`: since `cr ≠ lf`, the
leftmost delimiter behind it is its own.
-/

namespace Socketchat.Foundation.Framing

variable {α : Type*}

/-- No delimiter occurs in `l`. -/
def Free (cr lf : α) (l : List α) : Prop := ¬ [cr, lf] <:+: l

/-- The stream of a sequence of messages. -/
def frame (cr lf : α) (msgs : List (List α)) : List α :=
  msgs.flatMap (· ++ [cr, lf])

/-- One more symbol in front: it belongs to the first message, if there is
one, and to the rest otherwise. -/
def extend (a : α) : List (List α) × List α → List (List α) × List α
  | ([], r) => ([], a :: r)
  | (f :: fs, r) => ((a :: f) :: fs, r)

/-- The messages completed in a stream, and what is behind the last
delimiter. -/
def unframe [DecidableEq α] (cr lf : α) : List α → List (List α) × List α
  | [] => ([], [])
  | [a] => ([], [a])
  | a :: b :: t =>
      if a = cr ∧ b = lf then
        ([] :: (unframe cr lf t).1, (unframe cr lf t).2)
      else
        extend a (unframe cr lf (b :: t))

variable {cr lf : α}

@[simp] theorem frame_nil : frame cr lf [] = [] := rfl

@[simp] theorem frame_cons (m : List α) (ms : List (List α)) :
    frame cr lf (m :: ms) = m ++ cr :: lf :: frame cr lf ms := by
  simp [frame]

theorem frame_snoc (ms : List (List α)) (m : List α) :
    frame cr lf (ms ++ [m]) = frame cr lf ms ++ m ++ [cr, lf] := by
  simp [frame]

theorem frame_append (ms ms' : List (List α)) :
    frame cr lf (ms ++ ms') = frame cr lf ms ++ frame cr lf ms' := by
  simp [frame]

/-! ## Delimiter-free lists -/

instance [DecidableEq α] (l : List α) : Decidable (Free cr lf l) :=
  inferInstanceAs (Decidable (¬ _))

theorem free_nil : Free cr lf [] := by
  simp [Free]

theorem free_cons_cons {a b : α} {t : List α} :
    Free cr lf (a :: b :: t) ↔ ¬ (a = cr ∧ b = lf) ∧ Free cr lf (b :: t) := by
  unfold Free
  rw [List.infix_cons_iff, not_or]
  constructor
  · rintro ⟨h₁, h₂⟩
    refine ⟨?_, h₂⟩
    rintro ⟨rfl, rfl⟩
    exact h₁ ⟨t, rfl⟩
  · rintro ⟨h₁, h₂⟩
    refine ⟨?_, h₂⟩
    rintro ⟨u, hu⟩
    simp only [List.cons_append, List.nil_append, List.cons.injEq] at hu
    exact h₁ ⟨hu.1.symm, hu.2.1.symm⟩

theorem Free.tail {a : α} {t : List α} (h : Free cr lf (a :: t)) :
    Free cr lf t :=
  fun hin => h (List.infix_cons hin)

theorem Free.of_length_lt_two {l : List α} (h : l.length < 2) :
    Free cr lf l := by
  intro hin
  have := hin.length_le
  simp at this
  omega

/-- What a scan over the positions looks for. -/
theorem free_iff_getElem? {l : List α} :
    Free cr lf l ↔ ∀ i, ¬ (l[i]? = some cr ∧ l[i + 1]? = some lf) := by
  unfold Free
  rw [List.infix_iff_getElem?, not_exists]
  refine forall_congr' fun i => not_congr ?_
  constructor
  · rintro ⟨-, h⟩
    have hcr := h 0 (by simp)
    have hlf := h 1 (by simp)
    rw [Nat.zero_add] at hcr
    rw [Nat.add_comm] at hlf
    exact ⟨hcr, hlf⟩
  · rintro ⟨hcr, hlf⟩
    have hlen := (List.getElem?_eq_some_iff.mp hlf).1
    refine ⟨by simp; omega, fun j hj => ?_⟩
    match j, hj with
    | 0, _ => simpa using hcr
    | 1, _ =>
        rw [Nat.add_comm]
        exact hlf

/-- A list with a delimiter at `i` is cut there. -/
theorem eq_take_append_drop {l : List α} {i : ℕ} (hcr : l[i]? = some cr)
    (hlf : l[i + 1]? = some lf) : l = l.take i ++ cr :: lf :: l.drop (i + 2) := by
  obtain ⟨hi, hcr⟩ := List.getElem?_eq_some_iff.mp hcr
  obtain ⟨hi', hlf⟩ := List.getElem?_eq_some_iff.mp hlf
  conv_lhs => rw [← List.take_append_drop i l]
  rw [List.drop_eq_getElem_cons hi, List.drop_eq_getElem_cons hi', hcr, hlf]

/-! ## The cut at the leftmost delimiter -/

section Unframe

variable [DecidableEq α]

theorem unframe_of_free : ∀ {l : List α}, Free cr lf l →
    unframe cr lf l = ([], l)
  | [], _ => rfl
  | [_], _ => rfl
  | a :: b :: t, h => by
      rw [unframe, if_neg (free_cons_cons.mp h).1, unframe_of_free h.tail]
      rfl

/-- A stream without a complete message has no delimiter. -/
theorem unframe_fst_eq_nil : ∀ {l : List α},
    (unframe cr lf l).1 = [] ↔ Free cr lf l
  | [] => iff_of_true rfl free_nil
  | [_] => iff_of_true rfl (Free.of_length_lt_two (by simp))
  | a :: b :: t => by
      have ih := unframe_fst_eq_nil (l := b :: t)
      rw [unframe, free_cons_cons]
      by_cases h : a = cr ∧ b = lf
      · rw [if_pos h]
        exact iff_of_false (by simp) fun hfree => hfree.1 h
      · rw [if_neg h, ← ih]
        rcases unframe cr lf (b :: t) with ⟨fs, r⟩
        cases fs with
        | nil => exact iff_of_true rfl ⟨h, rfl⟩
        | cons f fs => simp [extend]

/-- No delimiter is left behind the last one. -/
theorem unframe_snd_free : ∀ l : List α, Free cr lf (unframe cr lf l).2
  | [] => free_nil
  | [_] => Free.of_length_lt_two (by simp [unframe])
  | a :: b :: t => by
      have ih := unframe_snd_free (b :: t)
      rw [unframe]
      by_cases h : a = cr ∧ b = lf
      · rw [if_pos h]
        exact unframe_snd_free t
      · rw [if_neg h]
        cases hfst : (unframe cr lf (b :: t)).1 with
        | nil =>
            have hfree := unframe_fst_eq_nil.mp hfst
            rw [unframe_of_free hfree]
            exact free_cons_cons.mpr ⟨h, hfree⟩
        | cons f fs =>
            rw [← Prod.eta (unframe cr lf (b :: t)), hfst]
            exact ih

/-- The first message of a stream is what stands before its leftmost
delimiter. -/
theorem unframe_append (hne : cr ≠ lf) : ∀ {m : List α}, Free cr lf m →
    ∀ t, unframe cr lf (m ++ cr :: lf :: t) =
      (m :: (unframe cr lf t).1, (unframe cr lf t).2)
  | [], _, t => by simp [unframe]
  | [a], _, t => by
      have ha : ¬ (a = cr ∧ cr = lf) := fun h => hne h.2
      have ih := unframe_append hne free_nil t
      rw [List.nil_append] at ih
      simp only [List.cons_append, List.nil_append]
      rw [unframe, if_neg ha, ih]
      rfl
  | a :: b :: m, h, t => by
      have ih := unframe_append hne h.tail t
      rw [List.cons_append] at ih
      simp only [List.cons_append]
      rw [unframe, if_neg (free_cons_cons.mp h).1, ih]
      rfl

/-- **Unframing undoes framing**, whatever stands behind the framed
messages. -/
theorem unframe_frame_append (hne : cr ≠ lf) {ms : List (List α)}
    (h : ∀ m ∈ ms, Free cr lf m) (t : List α) :
    unframe cr lf (frame cr lf ms ++ t) =
      (ms ++ (unframe cr lf t).1, (unframe cr lf t).2) := by
  induction ms with
  | nil => rfl
  | cons m ms ih =>
      have ih := ih fun x hx => h x (List.mem_cons_of_mem _ hx)
      rw [frame_cons, List.append_assoc, List.cons_append, List.cons_append,
        unframe_append hne (h m List.mem_cons_self), ih]
      rfl

/-- The decomposition of a stream into delimiter-free messages and a
delimiter-free rest is unique: it is the grammar's. -/
theorem unframe_eq (hne : cr ≠ lf) {ms : List (List α)} {r : List α}
    (h : ∀ m ∈ ms, Free cr lf m) (hr : Free cr lf r) :
    unframe cr lf (frame cr lf ms ++ r) = (ms, r) := by
  rw [unframe_frame_append hne h, unframe_of_free hr, List.append_nil]

/-- **Framed messages are recovered in order.** If the stream of `ys` starts
the stream of `xs`, then `ys` is a prefix of `xs`. -/
theorem prefix_of_frame_eq (hne : cr ≠ lf) {xs ys : List (List α)}
    {r : List α} (hx : ∀ m ∈ xs, Free cr lf m) (hy : ∀ m ∈ ys, Free cr lf m)
    (h : frame cr lf xs = frame cr lf ys ++ r) : ys <+: xs := by
  have hxs : unframe cr lf (frame cr lf xs) = (xs, []) := by
    simpa using unframe_eq hne hx free_nil
  rw [h, unframe_frame_append hne hy] at hxs
  exact ⟨_, congrArg Prod.fst hxs⟩

end Unframe

end Socketchat.Foundation.Framing
