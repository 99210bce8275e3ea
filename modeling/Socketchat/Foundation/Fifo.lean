import Socketchat.Foundation.Transition

/-!
# The abstract queue

A queue is the list of what has been put in and not yet taken out. Its
operations carry everything an observer can tell apart: what was appended,
that a request was refused, how much was dropped.
-/

namespace Socketchat.Foundation

inductive FifoOp (α : Type*) where
  | append (xs : List α)
  | refuse
  | drop (k : ℕ)
  | clear

/-- What an operation does to the content. -/
def FifoOp.apply {α : Type*} : FifoOp α → List α → List α
  | .append xs, q => q ++ xs
  | .refuse, q => q
  | .drop k, q => q.drop k
  | .clear, _ => []

/-- The queue as a system: initially empty, and at most as much is dropped as
is there. -/
def fifo (α : Type*) : System (List α) (FifoOp α) where
  init q := q = []
  step q op q' := q' = op.apply q ∧ ∀ k, op = .drop k → k ≤ q.length

end Socketchat.Foundation
