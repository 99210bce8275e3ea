import Mathlib.Data.List.TakeWhile
import Mathlib.Tactic.Common

/-!
# The transport contract

What a `Wsocket` can answer. A positive `receive` returns at most `maxLen`
bytes and a positive `send` accepts at most `dataLen`; both are built into the
answers: a receive offers what the peer has sent (at least one byte) and is cut
to `maxLen`, a send offers room (for at least one byte) and is cut to
`dataLen`. Everything else is a refusal.
-/

namespace Socketchat.Chat

/-- A zero-terminated string: the bytes before the terminator. -/
abbrev CString := { s : List UInt8 // (0 : UInt8) ∉ s }

/-- The string a `const char *` to these bytes denotes. -/
def cstring (data : List UInt8) : CString :=
  ⟨data.takeWhile (· ≠ 0), fun h => by simpa using List.mem_takeWhile_imp h⟩

theorem cstring_of_zero_free {s : List UInt8} (h : (0 : UInt8) ∉ s) :
    cstring s = ⟨s, h⟩ := by
  apply Subtype.ext
  show s.takeWhile (· ≠ 0) = s
  rw [List.takeWhile_eq_self_iff]
  intro x hx
  have hne : x ≠ 0 := fun h0 => h (h0 ▸ hx)
  simpa using hne

/-- A string followed by its terminator, and anything after it. -/
theorem cstring_terminated (s t : List UInt8) :
    cstring (s ++ 0 :: t) = cstring s := by
  apply Subtype.ext
  show (s ++ 0 :: t).takeWhile (· ≠ 0) = s.takeWhile (· ≠ 0)
  induction s with
  | nil => simp
  | cons a s ih =>
      rw [List.cons_append, List.takeWhile_cons, List.takeWhile_cons, ih]

/-- The letter `a`, `n` times. -/
def letters (n : ℕ) : CString :=
  ⟨List.replicate n 97, fun h => absurd (List.eq_of_mem_replicate h) (by decide)⟩

theorem length_letters (n : ℕ) : (letters n).val.length = n :=
  List.length_replicate

/-- A result `<= 0` of `receive` or `send`: `0`, or an error together with what
`wouldBlock` and `inProgress` then say. -/
inductive Refusal where
  | closed
  | error (wouldBlock inProgress : Bool)
deriving DecidableEq

/-- `ret < 0 && (mSocket->wouldBlock() || mSocket->inProgress())`. -/
def Refusal.transient : Refusal → Bool
  | .closed => false
  | .error wouldBlock inProgress => wouldBlock || inProgress

/-- What answers one `receive`. -/
inductive Received where
  | bytes (b : UInt8) (bs : List UInt8)
  | refused (r : Refusal)
deriving DecidableEq

/-- What answers one `send`: `room k` accepts up to `k + 1` bytes. -/
inductive Sent where
  | room (k : ℕ)
  | refused (r : Refusal)
deriving DecidableEq

/-- The answers one `poll` gets, in order. A list that has run out goes on with
would-block. -/
structure Answers where
  recvs : List Received
  sends : List Sent

end Socketchat.Chat
