import Mathlib.Data.Multiset.AddSub
import Mathlib.Tactic.Common

/-!
# Ledgers

What a program has acquired and must give back once. A ledger goes through the
uses of a kind of resource in order and keeps what is held; it fails where
something is given back that is not held. So a ledger that ends says that
nothing has been given back twice or by anyone who had not got it, and what it
ends with is what has not been given back.
-/

namespace Socketchat.Foundation

/-- What is done with a resource. -/
inductive Use (α : Type*) where
  | acquire (a : α)
  | release (a : α)
deriving DecidableEq

variable {α : Type*} [DecidableEq α]

/-- What is held after a use; `none` if it gives back what is not. -/
def Use.settle (held : Multiset α) : Use α → Option (Multiset α)
  | .acquire a => some (a ::ₘ held)
  | .release a => if a ∈ held then some (held.erase a) else none

def ledger (held : Multiset α) (uses : List (Use α)) : Option (Multiset α) :=
  uses.foldlM Use.settle held

variable {held held' : Multiset α} {uses uses' : List (Use α)} {a : α}

@[simp] theorem ledger_nil : ledger held [] = some held := rfl

@[simp] theorem ledger_acquire :
    ledger held (.acquire a :: uses) = ledger (a ::ₘ held) uses := rfl

theorem ledger_release (h : a ∈ held) :
    ledger held (.release a :: uses) = ledger (held.erase a) uses := by
  unfold ledger
  rw [List.foldlM_cons, Use.settle, if_pos h]
  rfl

/-- Something given back at once. -/
@[simp] theorem ledger_release_cons :
    ledger (a ::ₘ held) (.release a :: uses) = ledger held uses := by
  rw [ledger_release (Multiset.mem_cons_self a held), Multiset.erase_cons_head]

@[simp] theorem ledger_release_singleton :
    ledger {a} (.release a :: uses) = ledger 0 uses := ledger_release_cons

/-- Everything on a list given back. -/
theorem ledger_release_all (as : List α) :
    ledger ((as : Multiset α) + held) (as.map .release) = some held := by
  induction as with
  | nil => simp
  | cons a as ih =>
      rw [← Multiset.cons_coe, Multiset.cons_add, List.map_cons,
        ledger_release_cons, ih]

theorem ledger_append :
    ledger held (uses ++ uses') =
      (ledger held uses).bind fun held => ledger held uses' :=
  List.foldlM_append ..

theorem ledger_trans (h : ledger held uses = some held') :
    ledger held (uses ++ uses') = ledger held' uses' := by
  rw [ledger_append, h]
  rfl

/-- **The balance.** What has been acquired has been given back or is held. -/
theorem ledger_count (h : ledger held uses = some held') (a : α) :
    uses.count (.acquire a) + held.count a =
      uses.count (.release a) + held'.count a := by
  induction uses generalizing held with
  | nil =>
      cases h
      rfl
  | cons use uses ih =>
      cases use with
      | acquire b =>
          have hrest := ih h
          rw [Multiset.count_cons] at hrest
          rw [List.count_cons, List.count_cons_of_ne (by simp)]
          by_cases hb : b = a
          · subst hb
            simp at hrest ⊢
            omega
          · have hne : a ≠ b := fun heq => hb heq.symm
            simp [hb, hne] at hrest ⊢
            omega
      | release b =>
          by_cases hmem : b ∈ held
          · rw [ledger_release hmem] at h
            have hrest := ih h
            rw [List.count_cons_of_ne (by simp), List.count_cons]
            by_cases hb : b = a
            · subst hb
              have hpos := Multiset.count_pos.mpr hmem
              rw [Multiset.count_erase_self] at hrest
              simp
              omega
            · rw [Multiset.count_erase_of_ne (fun heq => hb heq.symm)] at hrest
              simp [hb]
              omega
          · unfold ledger at h
            rw [List.foldlM_cons, Use.settle, if_neg hmem] at h
            cases h

end Socketchat.Foundation
