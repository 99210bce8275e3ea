import Socketchat.Chat.Lifecycle
import Mathlib.Data.Rat.Defs
import Mathlib.Algebra.Order.Field.Rat
import Mathlib.Tactic.Linarith

/-!
# Waiting for the close in the destructor

`~SocketChatImpl` requests a close and polls until CLOSED, or until its timer
says that a second has passed. But `getElapsedSeconds` also resets the timer,
so what the loop compares with a second is the time since the previous
iteration. A wait that the transport does not end goes on for as long as each
iteration is shorter than that.
-/

namespace Socketchat.Chat

open Foundation Buffer

/-! ## `Timer` -/

/-- The readings of `high_resolution_clock::now()`, in the order they are
made, in seconds. -/
abbrev Clock := ℕ → ℚ

structure Timer where
  mStartTime : ℚ

namespace Timer

variable (clock : Clock)

/-- Every function takes the number of readings made so far and returns the
number made afterwards. -/
def new (k : ℕ) : Timer × ℕ := (⟨clock k⟩, k + 1)

def reset (k : ℕ) : Timer × ℕ := (⟨clock k⟩, k + 1)

def peekElapsedSeconds (t : Timer) (k : ℕ) : ℚ × ℕ :=
  (clock k - t.mStartTime, k + 1)

/-- Asking for the elapsed time restarts the timer. -/
def getElapsedSeconds (t : Timer) (k : ℕ) : ℚ × Timer × ℕ :=
  let s := t.peekElapsedSeconds clock k
  let r := reset clock s.2
  (s.1, r.1, r.2)

end Timer

namespace SocketChatImpl

def CLOSE_TIMEOUT : ℚ := 1

/-- The `while` loop of the destructor, for at most `fuel` iterations; `none`
if it has not ended by then. Iteration `i` polls with the answers `io i`. -/
def waitLoop (clock : Clock) (io : ℕ → Answers) :
    ℕ → ℕ → ℕ → SocketChatImpl → Timer → Option SocketChatImpl
  | 0, _, _, s, _ => if s.mReadyState ≠ .CLOSED then none else some s
  | fuel + 1, i, k, s, t =>
      if s.mReadyState ≠ .CLOSED then
        let s := (s.poll none 1 (io i)).1
        let r := t.getElapsedSeconds clock k
        if r.1 ≥ CLOSE_TIMEOUT then
          some s
        else
          waitLoop clock io fuel (i + 1) r.2.2 s r.2.1
      else
        some s

/-- `~SocketChatImpl`, up to the release of the socket and the buffers. -/
def destruct (clock : Clock) (io : ℕ → Answers) (fuel : ℕ)
    (s : SocketChatImpl) : Option SocketChatImpl :=
  let t := Timer.new clock 0
  waitLoop clock io fuel 0 t.2 s.close.1 t.1

/-- `SocketChat::create`: a connection without a socket is deleted again. The
outer `none` is a call that has not returned. -/
def create (clock : Clock) (io : ℕ → Answers) (fuel : ℕ)
    (socket : Option ℕ) : Option (Option SocketChatImpl) :=
  let ret := construct socket
  if ret.mSocket.isSome then
    some (some ret)
  else
    (destruct clock io fuel ret).map fun _ => none

variable {s : SocketChatImpl} {clock : Clock} {io : ℕ → Answers}

/-! ## One iteration -/

/-- Iteration `i` ends the loop when a second has passed since the timer was
last reset. -/
theorem waitLoop_succ (hopen : s.mReadyState ≠ .CLOSED) (fuel i k : ℕ) :
    waitLoop clock io (fuel + 1) i (k + 1) s ⟨clock k⟩ =
      if CLOSE_TIMEOUT ≤ clock (k + 1) - clock k then
        some (s.poll none 1 (io i)).1
      else
        waitLoop clock io fuel (i + 1) (k + 3) (s.poll none 1 (io i)).1
          ⟨clock (k + 2)⟩ := by
  rw [waitLoop, if_pos hopen]
  rfl

theorem waitLoop_closed (hclosed : s.mReadyState = .CLOSED)
    (fuel i k : ℕ) (t : Timer) :
    waitLoop clock io fuel i k s t = some s := by
  have hnot : ¬ s.mReadyState ≠ .CLOSED := not_not.mpr hclosed
  cases fuel with
  | zero => rw [waitLoop, if_neg hnot]
  | succ fuel => rw [waitLoop, if_neg hnot]

/-- One long iteration is enough. -/
theorem waitLoop_of_gap (fuel : ℕ) :
    ∀ (i k : ℕ) (s : SocketChatImpl),
    (∃ j < fuel, CLOSE_TIMEOUT ≤ clock (k + 2 * j + 1) - clock (k + 2 * j)) →
    (waitLoop clock io fuel i (k + 1) s ⟨clock k⟩).isSome := by
  induction fuel with
  | zero =>
      rintro i k s ⟨j, hj, -⟩
      exact absurd hj (Nat.not_lt_zero j)
  | succ fuel ih =>
      rintro i k s ⟨j, hj, hgap⟩
      by_cases hclosed : s.mReadyState = .CLOSED
      · rw [waitLoop_closed hclosed]
        rfl
      rw [waitLoop_succ hclosed]
      by_cases hnow : CLOSE_TIMEOUT ≤ clock (k + 1) - clock k
      · rw [if_pos hnow]
        rfl
      · rw [if_neg hnow]
        cases j with
        | zero => exact absurd hgap hnow
        | succ j =>
            refine ih (i + 1) (k + 2) _ ⟨j, by omega, ?_⟩
            rw [show k + 2 * (j + 1) = k + 2 + 2 * j by omega] at hgap
            exact hgap

/-! ## A transport that never answers -/

/-- The answers of a transport that has nothing to receive and no room. -/
def wouldBlock : Answers := ⟨[], []⟩

/-- Polling cannot close the connection while the transport says would-block:
it has no socket, or bytes are pending. -/
structure Stuck (s : SocketChatImpl) : Prop where
  valid : s.mReceiveBuffer.Valid
  notClosed : s.mReadyState ≠ .CLOSED
  blocked : s.mSocket = none ∨ s.mTransmitBuffer.getSize ≠ 0

theorem Stuck.poll (h : Stuck s) (timeout : ℤ) :
    Stuck (s.poll none timeout wouldBlock).1 := by
  have hemits := poll_emits h.valid none timeout wouldBlock
  have hvalid := activity_valid hemits h.valid
  have hsocket := activity_socket hemits
  by_cases hnone : s.mSocket = none
  · have hpoll : s.poll none timeout wouldBlock = (s, []) := by
      simp [SocketChatImpl.poll, hnone]
    rw [hpoll]
    exact h
  have hsize := h.blocked.resolve_left hnone
  obtain ⟨hready, -, -, -, htx⟩ := receiveLoop_spec wouldBlock.recvs h.valid
  have hkeep : (s.receiveLoop wouldBlock.recvs).1.mReadyState =
      s.mReadyState := hready
  have hsend : (s.receiveLoop wouldBlock.recvs).1.transmitLoop
      wouldBlock.sends =
        ((s.receiveLoop wouldBlock.recvs).1,
          [.sendRefused (.error true false)]) := by
    show (transmitPass _ _).2 = _
    rw [transmitPass_refused (by rw [htx]; exact hsize)]
    rfl
  rcases poll_cases s none timeout wouldBlock with
    ⟨hnone', -⟩ | ⟨-, hclosed, -⟩ | ⟨-, hread, -⟩ |
    ⟨t, es, -, hread, -, hclosed, -⟩ |
    ⟨t, es, u, es', -, hread, -, hsend', -, heq⟩
  · exact absurd hnone' hnone
  · exact absurd hclosed h.notClosed
  · rw [hkeep] at hread
    exact absurd hread h.notClosed
  · rw [hread] at hsend hkeep
    rw [hsend] at hclosed
    exact absurd (hkeep.symm.trans hclosed) h.notClosed
  · rw [hread] at hsend hkeep htx
    rw [hsend'] at hsend
    have hu : u = t := congrArg Prod.fst hsend
    have hstay : t.finishClosing = (t, []) := by
      have hpending : ¬ (t.mTransmitBuffer.getSize = 0 ∧
          t.mReadyState = .CLOSING) := by
        rw [show t.mTransmitBuffer = s.mTransmitBuffer from htx]
        exact fun hboth => hsize hboth.1
      rw [finishClosing, if_neg hpending]
    rw [heq, hu, hstay] at hvalid ⊢
    refine ⟨hvalid, ?_, Or.inr ?_⟩
    · show t.mReadyState ≠ .CLOSED
      rw [show t.mReadyState = s.mReadyState from hkeep]
      exact h.notClosed
    · show t.mTransmitBuffer.getSize ≠ 0
      rw [show t.mTransmitBuffer = s.mTransmitBuffer from htx]
      exact hsize

/-- Then only a long iteration ends the loop. -/
theorem waitLoop_stuck (fuel : ℕ) :
    ∀ (i k : ℕ) {s : SocketChatImpl}, Stuck s →
    (∀ j < fuel, ¬ CLOSE_TIMEOUT ≤ clock (k + 2 * j + 1) - clock (k + 2 * j)) →
    waitLoop clock (fun _ => wouldBlock) fuel i (k + 1) s ⟨clock k⟩ = none := by
  induction fuel with
  | zero =>
      intro i k s h _
      rw [waitLoop, if_pos h.notClosed]
  | succ fuel ih =>
      intro i k s h hgap
      have hfirst : ¬ CLOSE_TIMEOUT ≤ clock (k + 1) - clock k :=
        hgap 0 (Nat.succ_pos fuel)
      rw [waitLoop_succ h.notClosed, if_neg hfirst]
      refine ih (i + 1) (k + 2) (h.poll 1) fun j hj => ?_
      have hlater := hgap (j + 1) (by omega)
      rw [show k + 2 * (j + 1) = k + 2 + 2 * j by omega] at hlater
      exact hlater

/-! ## Nothing to send -/

theorem transmitLoop_done (h : s.mTransmitBuffer.getSize = 0)
    (answers : List Sent) : s.transmitLoop answers = (s, []) := by
  cases answers with
  | nil => rw [transmitLoop, transmitPass_done h]
  | cons answer answers =>
      rw [transmitLoop, transmitPass_done h]
      rfl

/-- With nothing pending, one `poll` completes a requested close whatever the
transport answers. -/
theorem poll_closes (h : s.mReceiveBuffer.Valid) (hsocket : s.mSocket ≠ none)
    (hclosing : s.mReadyState = .CLOSING)
    (hempty : s.mTransmitBuffer.getSize = 0) (timeout : ℤ) (io : Answers) :
    (s.poll none timeout io).1.mReadyState = .CLOSED := by
  have hopen : s.mReadyState ≠ .CLOSED := by simp [hclosing]
  obtain ⟨hready, -, -, -, htx⟩ := receiveLoop_spec io.recvs h
  rcases poll_cases s none timeout io with
    ⟨hnone, -⟩ | ⟨-, hclosed, -⟩ | ⟨-, hread, heq⟩ |
    ⟨t, es, -, -, -, hclosed, heq⟩ |
    ⟨t, es, u, es', -, hread, hopen', hsend, -, heq⟩
  · exact absurd hnone hsocket
  · exact absurd hclosed hopen
  · rw [heq]
    exact hread
  · rw [heq]
    exact hclosed
  · rw [hread] at hready htx
    have hsize : t.mTransmitBuffer.getSize = 0 := by
      rw [show t.mTransmitBuffer = s.mTransmitBuffer from htx]
      exact hempty
    have hkeep : t.mReadyState = .CLOSING := by
      have hready : t.mReadyState = _ := hready
      by_cases hin : (incoming s.mReceiveBuffer io.recvs).2 = true
      · rw [if_pos hin] at hready
        exact absurd hready hopen'
      · rw [if_neg hin] at hready
        exact hready.trans hclosing
    rw [transmitLoop_done hsize] at hsend
    have hu : t = u := congrArg Prod.fst hsend
    have hfinish : t.finishClosing = t.disconnect := by
      rw [finishClosing, if_pos ⟨hsize, hkeep⟩]
    rw [heq, ← hu, hfinish]
    rfl

theorem close_closing (h : s.mReadyState ≠ .CLOSED) :
    s.close.1 = { s with mReadyState := .CLOSING } := by
  unfold close
  by_cases hclosing : s.mReadyState = .CLOSING
  · rw [if_pos (Or.inl hclosing), ← hclosing]
  · rw [if_neg (not_or.mpr ⟨hclosing, h⟩)]

/-! ## The bound -/

/-- Iteration `n` is the first whose reading of the clock is a second or more
after the timer was constructed: that was reading `0`, and iteration `m` looks
at reading `2 * m + 1`. -/
def FirstLate (clock : Clock) (n : ℕ) : Prop :=
  CLOSE_TIMEOUT ≤ clock (2 * n + 1) - clock 0 ∧
    ∀ m < n, clock (2 * m + 1) - clock 0 < CLOSE_TIMEOUT

/-- Whatever the transport answers, the wait ends by that iteration. -/
def ExitsInTime (clock : Clock) (s : SocketChatImpl) : Prop :=
  ∀ n, FirstLate clock n → ∀ io, (destruct clock io (n + 1) s).isSome

/-! ## The three ways out -/

theorem destruct_closed (hclosed : s.mReadyState = .CLOSED) (fuel : ℕ) :
    (destruct clock io fuel s).isSome := by
  have hclose : s.close.1 = s := by
    unfold close
    rw [if_pos (Or.inr hclosed)]
  show (waitLoop _ _ _ _ _ s.close.1 _).isSome
  rw [hclose, waitLoop_closed hclosed]
  rfl

theorem destruct_empty (h : s.mReceiveBuffer.Valid) (hsocket : s.mSocket ≠ none)
    (hempty : s.mTransmitBuffer.getSize = 0) (fuel : ℕ) :
    (destruct clock io (fuel + 1) s).isSome := by
  by_cases hclosed : s.mReadyState = .CLOSED
  · exact destruct_closed hclosed (fuel + 1)
  · show (waitLoop clock io (fuel + 1) 0 (0 + 1) s.close.1 ⟨clock 0⟩).isSome
    rw [close_closing hclosed, waitLoop_succ ReadyState.noConfusion]
    have hdone := poll_closes (s := { s with mReadyState := .CLOSING }) h
      hsocket rfl hempty 1 (io 0)
    rw [waitLoop_closed hdone]
    split <;> rfl

/-- Any other connection waits for a long iteration if nothing is answered. -/
theorem destruct_stuck (h : s.mReceiveBuffer.Valid)
    (hopen : s.mReadyState ≠ .CLOSED)
    (hblocked : s.mSocket = none ∨ s.mTransmitBuffer.getSize ≠ 0) {fuel : ℕ}
    (hshort : ∀ j < fuel,
      ¬ CLOSE_TIMEOUT ≤ clock (2 * j + 1) - clock (2 * j)) :
    destruct clock (fun _ => wouldBlock) fuel s = none := by
  have hstuck : Stuck s.close.1 := by
    rw [close_closing hopen]
    exact ⟨h, ReadyState.noConfusion, hblocked⟩
  refine waitLoop_stuck fuel 0 0 hstuck fun j hj => ?_
  rw [Nat.zero_add]
  exact hshort j hj

end SocketChatImpl

open SocketChatImpl in
/-- **When the destructor's wait is bounded.** It ends in time, whatever the
transport answers, exactly if the connection is closed already, or has a
socket and nothing to send, or one of the iterations up to the bound is a
second long by itself, from one reset of the timer to the next look at it. -/
theorem destructor_exits_in_time_iff {socket : Option ℕ} {t : Session}
    (ht : (session socket).Reachable t) (clock : Clock) :
    ExitsInTime clock t.chat ↔
      t.chat.mReadyState = .CLOSED ∨
      (t.chat.mSocket ≠ none ∧ t.chat.mTransmitBuffer.getSize = 0) ∨
      ∀ n, FirstLate clock n →
        ∃ i ≤ n, CLOSE_TIMEOUT ≤ clock (2 * i + 1) - clock (2 * i) := by
  have hvalid := (session_inbound ht).1
  constructor
  · intro hexits
    by_contra hnot
    rw [not_or, not_or, not_and_or, not_not] at hnot
    obtain ⟨hopen, hblocked, hgap⟩ := hnot
    push Not at hgap
    obtain ⟨n, hn, hshort⟩ := hgap
    have hnone : destruct clock (fun _ => wouldBlock) (n + 1) t.chat = none :=
      destruct_stuck hvalid hopen hblocked fun j hj =>
        not_le.mpr (hshort j (Nat.le_of_lt_succ hj))
    have hsome := hexits n hn fun _ => wouldBlock
    rw [hnone] at hsome
    exact absurd hsome (by decide)
  · rintro (hclosed | ⟨hsocket, hempty⟩ | hgap) n hn io
    · exact destruct_closed hclosed (n + 1)
    · exact destruct_empty hvalid hsocket hempty n
    · obtain ⟨i, hi, hlong⟩ := hgap n hn
      refine waitLoop_of_gap (n + 1) 0 0 _ ⟨i, by omega, ?_⟩
      rw [Nat.zero_add]
      exact hlong

open SocketChatImpl in
/-- Without a socket, but with a second between any two readings. -/
theorem destructor_exits_in_time_iff_slow :
    ExitsInTime (fun k => k) (.construct none) := by
  have ht : (session none).Reachable ⟨.construct none, []⟩ := .of_init rfl
  refine (destructor_exits_in_time_iff ht _).mpr (Or.inr (Or.inr ?_))
  intro n _
  refine ⟨0, Nat.zero_le n, ?_⟩
  norm_num [CLOSE_TIMEOUT]

open SocketChatImpl in
/-- A failed connect, and a quarter of a second between any two readings: the
time since the start is over a second in iteration `2`, and neither the
destructor nor `create` ever returns. -/
theorem destructor_waits_forever :
    let clock : Clock := fun k => k / 4
    Monotone clock ∧ (∀ b : ℚ, ∃ k, b ≤ clock k) ∧
    ¬ ExitsInTime clock (.construct none) ∧
    ∀ fuel, create clock (fun _ => wouldBlock) fuel none = none := by
  intro clock
  have hgap : ∀ j : ℕ,
      ¬ CLOSE_TIMEOUT ≤ clock (2 * j + 1) - clock (2 * j) := by
    intro j
    simp only [clock, CLOSE_TIMEOUT, not_le]
    push_cast
    linarith
  have hnever : ∀ fuel,
      destruct clock (fun _ => wouldBlock) fuel (.construct none) = none :=
    fun fuel => destruct_stuck (construct_valid none).1 (by decide)
      (Or.inl rfl) fun j _ => hgap j
  refine ⟨?_, ?_, ?_, ?_⟩
  · intro i j hij
    have hcast : (i : ℚ) ≤ j := by exact_mod_cast hij
    show (i : ℚ) / 4 ≤ j / 4
    linarith
  · intro b
    obtain ⟨k, hk⟩ := exists_nat_ge (b * 4)
    refine ⟨k, ?_⟩
    show b ≤ (k : ℚ) / 4
    linarith
  · intro hexits
    have hlate : FirstLate clock 2 := by
      refine ⟨by norm_num [clock, CLOSE_TIMEOUT], fun m hm => ?_⟩
      have hcast : (m : ℚ) ≤ 1 := by exact_mod_cast Nat.le_of_lt_succ hm
      simp only [clock, CLOSE_TIMEOUT]
      push_cast
      linarith
    have hsome := hexits 2 hlate fun _ => wouldBlock
    rw [hnever] at hsome
    exact absurd hsome (by decide)
  · intro fuel
    show (destruct clock (fun _ => wouldBlock) fuel (.construct none)).map _ = _
    rw [hnever]
    rfl

end Socketchat.Chat
