import Mathlib.Data.List.Infix
import Mathlib.Data.List.ReduceOption
import Mathlib.Tactic

/-!
# Cutting a stream into chunks

A stream of items, some of which end a chunk, and of gaps. A chunk ends behind
an item that ends one, when it is `limit` long, or at a gap; a gap right behind
a chunk is none. Nothing is lost (`chunks_flatten`), later items only add chunks
(`chunks_prefix`), and a chunk is not empty, at most `limit` long and without an
ending inside (`Cut.Proper`).
-/

namespace Socketchat.Foundation

variable {α : Type*}

/-- The chunks that are complete, and the items of the next one. -/
structure Cut (α : Type*) where
  done : List (List α)
  cur : List α

namespace Cut

/-- The cut after one more item, or a gap. -/
def feed (limit : ℕ) (ends : α → Bool) (c : Cut α) : Option α → Cut α
  | some a =>
      if ends a ∨ c.cur.length + 1 = limit then
        ⟨c.done ++ [c.cur ++ [a]], []⟩
      else
        ⟨c.done, c.cur ++ [a]⟩
  | none => if c.cur = [] then c else ⟨c.done ++ [c.cur], []⟩

end Cut

/-- The chunks of a stream. -/
def chunks (limit : ℕ) (ends : α → Bool) (items : List (Option α)) : Cut α :=
  items.foldl (Cut.feed limit ends) ⟨[], []⟩

section Chunks

variable {limit : ℕ} {ends : α → Bool} {items : List (Option α)} {c : Cut α}

@[simp] theorem chunks_nil : chunks limit ends ([] : List (Option α)) = ⟨[], []⟩ :=
  rfl

theorem chunks_snoc (items : List (Option α)) (a : Option α) :
    chunks limit ends (items ++ [a]) =
      (chunks limit ends items).feed limit ends a := by
  rw [chunks, List.foldl_concat]
  rfl

theorem Cut.done_prefix_feed (c : Cut α) (a : Option α) :
    c.done <+: (c.feed limit ends a).done := by
  cases a with
  | some a =>
      simp only [Cut.feed]
      split
      · exact List.prefix_append ..
      · exact List.prefix_rfl
  | none =>
      simp only [Cut.feed]
      split
      · exact List.prefix_rfl
      · exact List.prefix_append ..

/-- **Later items only add chunks.** -/
theorem chunks_prefix (items more : List (Option α)) :
    (chunks limit ends items).done <+:
      (chunks limit ends (items ++ more)).done := by
  induction more using List.reverseRecOn with
  | nil => rw [List.append_nil]
  | append_singleton more a ih =>
      rw [← List.append_assoc, chunks_snoc]
      exact ih.trans (Cut.done_prefix_feed ..)

theorem Cut.flatten_feed (c : Cut α) (a : Option α) :
    (c.feed limit ends a).done.flatten ++ (c.feed limit ends a).cur =
      c.done.flatten ++ c.cur ++ a.toList := by
  cases a with
  | some a =>
      simp only [Cut.feed]
      split
      · simp
      · simp
  | none =>
      simp only [Cut.feed]
      split
      · simp
      · simp

/-- **Nothing is lost**: the chunks and what is left are the items in order. -/
theorem chunks_flatten (items : List (Option α)) :
    (chunks limit ends items).done.flatten ++ (chunks limit ends items).cur =
      items.reduceOption := by
  induction items using List.reverseRecOn with
  | nil => rfl
  | append_singleton items a ih =>
      rw [chunks_snoc, Cut.flatten_feed, ih, List.reduceOption_append,
        List.reduceOption_singleton]

/-- A complete chunk. -/
structure Chunk (limit : ℕ) (ends : α → Bool) (x : List α) : Prop where
  ne_nil : x ≠ []
  length_le : x.length ≤ limit
  inner : ∀ a ∈ x.dropLast, ends a = false

/-- What every cut is: complete chunks, and less than one. -/
structure Cut.Proper (limit : ℕ) (ends : α → Bool) (c : Cut α) : Prop where
  done : ∀ x ∈ c.done, Chunk limit ends x
  cur_length : c.cur.length < limit
  cur : ∀ a ∈ c.cur, ends a = false

theorem Cut.Proper.feed (h : c.Proper limit ends) (a : Option α) :
    (c.feed limit ends a).Proper limit ends := by
  have hlen := h.cur_length
  cases a with
  | some a =>
      simp only [Cut.feed]
      split
      · have hchunk : Chunk limit ends (c.cur ++ [a]) := by
          refine ⟨by simp, by simpa using hlen, ?_⟩
          rw [List.dropLast_concat]
          exact h.cur
        refine ⟨fun x hx => ?_, Nat.zero_lt_of_lt hlen, fun _ hb => absurd hb
          List.not_mem_nil⟩
        rcases List.mem_append.mp hx with hx | hx
        · exact h.done x hx
        · exact List.mem_singleton.mp hx ▸ hchunk
      · rename_i hgoes
        rw [not_or] at hgoes
        refine ⟨h.done, ?_, fun b hb => ?_⟩
        · rw [List.length_append, List.length_singleton]
          omega
        · rcases List.mem_append.mp hb with hb | hb
          · exact h.cur b hb
          · rw [List.mem_singleton.mp hb]
            simpa using hgoes.1
  | none =>
      simp only [Cut.feed]
      split
      · exact h
      · rename_i hne
        have hchunk : Chunk limit ends c.cur :=
          ⟨hne, hlen.le, fun b hb => h.cur b (List.mem_of_mem_dropLast hb)⟩
        refine ⟨fun x hx => ?_, Nat.zero_lt_of_lt hlen, fun _ hb => absurd hb
          List.not_mem_nil⟩
        rcases List.mem_append.mp hx with hx | hx
        · exact h.done x hx
        · exact List.mem_singleton.mp hx ▸ hchunk

/-- **What chunks are like.** -/
theorem chunks_proper (hlimit : 0 < limit) (items : List (Option α)) :
    (chunks limit ends items).Proper limit ends := by
  induction items using List.reverseRecOn with
  | nil =>
      exact ⟨fun _ hx => absurd hx List.not_mem_nil, hlimit,
        fun _ ha => absurd ha List.not_mem_nil⟩
  | append_singleton items a ih =>
      rw [chunks_snoc]
      exact ih.feed a

/-- An item of a chunk is an item of the stream. -/
theorem mem_of_mem_chunks {x : List α}
    (hx : x ∈ (chunks limit ends items).done) {a : α} (ha : a ∈ x) :
    some a ∈ items := by
  have hmem : a ∈ items.reduceOption := by
    have hflat : (chunks limit ends items).done.flatten ++
        (chunks limit ends items).cur = items.reduceOption := chunks_flatten items
    rw [← hflat]
    exact List.mem_append_left _ (List.mem_flatten.mpr ⟨x, hx, ha⟩)
  exact List.reduceOption_mem_iff.mp hmem

end Chunks

end Socketchat.Foundation
