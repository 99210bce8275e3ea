import Mathlib.Data.Nat.Basic
import Mathlib.Tactic.Common

/-!
# Loops with assertions

A loop runs its body until the body says that it is the last time. How often
that is need not be known: a run is given a number of passes, and is `running`
if they do not suffice. With an invariant and a measure that every pass but the
last lowers, they do (`loop_returns`).
-/

namespace Socketchat.Foundation

variable {σ τ : Type*}

/-- What a run has come to. -/
inductive Outcome (σ : Type*) where
  | running
  /-- An assertion has failed. -/
  | aborted
  | returned (s : σ)

def Outcome.bind : Outcome σ → (σ → Outcome τ) → Outcome τ
  | .running, _ => .running
  | .aborted, _ => .aborted
  | .returned s, f => f s

/-- `while (true)`. The body says whether the loop goes on, and is `none` where
an assertion fails. -/
def loop (body : σ → Option (Bool × σ)) : ℕ → σ → Outcome σ
  | 0, _ => .running
  | passes + 1, s =>
      match body s with
      | none => .aborted
      | some (false, t) => .returned t
      | some (true, t) => loop body passes t

/-- **Termination.** A loop whose body keeps an invariant and lowers a measure,
or ends in a state that meets `Q`, returns such a state. -/
theorem loop_returns {body : σ → Option (Bool × σ)} {I Q : σ → Prop}
    (m : σ → ℕ)
    (hbody : ∀ s, I s → (∃ t, body s = some (false, t) ∧ Q t) ∨
      ∃ t, body s = some (true, t) ∧ I t ∧ m t < m s) {s : σ} (hs : I s) :
    ∃ t, Q t ∧ ∀ passes, m s < passes → loop body passes s = .returned t := by
  induction hm : m s using Nat.strong_induction_on generalizing s with
  | _ n ih =>
      rcases hbody s hs with ⟨t, hlast, hQ⟩ | ⟨t, hnext, hI, hlower⟩
      · refine ⟨t, hQ, fun passes hpasses => ?_⟩
        obtain ⟨k, rfl⟩ := Nat.exists_eq_add_of_lt hpasses
        simp only [loop, hlast]
      · obtain ⟨u, hQ, hrun⟩ := ih (m t) (hm ▸ hlower) hI rfl
        refine ⟨u, hQ, fun passes hpasses => ?_⟩
        obtain ⟨k, rfl⟩ := Nat.exists_eq_add_of_lt hpasses
        simp only [loop, hnext]
        exact hrun (n + k) (by omega)

end Socketchat.Foundation
