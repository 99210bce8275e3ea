import Socketchat.Chat.Passes
import Socketchat.Foundation.Loop

/-!
# `poll` on a transport that never stops

The transport answers every `receive` and every `send`, for ever, and the loops
of `poll` go on until they end by themselves; the assertion in `consume` stands
where the code has it. The receive loop ends because every successful receive
leaves more bytes in a buffer that is capped, the transmit loop because every
successful send leaves fewer, and dispatching because every message takes its
delimiter with it. What is returned is what `poll` returns on the answers it has
asked for (`pollOn_returns`), so no connection ever hangs in a `poll`
(`poll_returns`).
-/

namespace Socketchat.Chat

open Foundation Buffer

/-- `consume` with its assertion. -/
def consumeAsserted (b : SimpleBuffer) (removeLen : ℕ) : Option SimpleBuffer :=
  let activeBufferSize := b.getSize
  if removeLen ≤ activeBufferSize then some (b.consume removeLen) else none

/-- A transport loop of `poll`: the connection, how many answers have been asked
for, and what has happened. -/
structure Progress where
  chat : SocketChatImpl
  calls : ℕ
  trace : List Event

/-- The dispatch loop of `poll`, with the messages passed on so far. -/
structure Dispatching where
  chat : SocketChatImpl
  past : List CString
  trace : List Event

/-- The first answers of a transport. -/
def asked {α : Type} (answers : ℕ → α) (n : ℕ) : List α :=
  (List.range n).map answers

theorem asked_succ {α : Type} (answers : ℕ → α) (n : ℕ) :
    asked answers (n + 1) = asked answers n ++ [answers n] := by
  unfold asked
  rw [List.range_succ, List.map_append, List.map_singleton]

namespace SocketChatImpl

/-! ## The loops -/

/-- A pass of the receive loop. -/
def receiveBody (recvs : ℕ → Received) (p : Progress) :
    Option (Bool × Progress) :=
  let r := p.chat.receivePass (recvs p.calls)
  some (r.1, ⟨r.2.1, p.calls + 1, p.trace ++ r.2.2⟩)

/-- `transmitPass`, with the assertion in `consume`. -/
def transmitAsserted (s : SocketChatImpl) (answer : Sent) :
    Option (Bool × SocketChatImpl × List Event) :=
  if s.mTransmitBuffer.getSize = 0 then
    some (false, s, [])
  else
    let buffer := s.mTransmitBuffer.getData
    match answer with
    | .refused r =>
        if r.transient then
          some (false, s, [.sendRefused r])
        else
          some (false, s.disconnect.1, .sendRefused r :: s.disconnect.2)
    | .room k =>
        let ret := min (k + 1) buffer.length
        (consumeAsserted s.mTransmitBuffer ret).map fun b =>
          (true, { s with mTransmitBuffer := b }, [.sent (buffer.take ret)])

def transmitBody (sends : ℕ → Sent) (p : Progress) :
    Option (Bool × Progress) :=
  (p.chat.transmitAsserted (sends p.calls)).map fun r =>
    (r.1, ⟨r.2.1, p.calls + 1, p.trace ++ r.2.2⟩)

/-- `dispatchPass`, with the assertion in `consume`; the inner `none` ends the
loop. -/
def dispatchAsserted (s : SocketChatImpl) (callback : Callback)
    (past : List CString) :
    Option (Option (CString × SocketChatImpl × List Event)) :=
  let data := s.mReceiveBuffer.getData
  if data.length < 2 then
    some none
  else
    match messageEnd data with
    | none => some none
    | some messageEnd =>
        let b := s.mReceiveBuffer.store
          (s.mReceiveBuffer.mStartLoc + messageEnd) [0]
        let message := cstring b.getData
        let r := react { s with mReceiveBuffer := b }
          (callback (past ++ [message]))
        (consumeAsserted r.1.mReceiveBuffer (messageEnd + 2)).map fun b =>
          some (message, { r.1 with mReceiveBuffer := b },
            .delivered message :: r.2)

def dispatchBody (callback : Callback) (p : Dispatching) :
    Option (Bool × Dispatching) :=
  (p.chat.dispatchAsserted callback p.past).map fun r =>
    match r with
    | none => (false, p)
    | some (message, s, events) =>
        (true, ⟨s, p.past ++ [message], p.trace ++ events⟩)

/-- `poll`, with so many passes for each of its loops. -/
def pollOn (s : SocketChatImpl) (callback : Option Callback) (timeout : ℤ)
    (recvs : ℕ → Received) (sends : ℕ → Sent) (passes : ℕ) :
    Outcome (SocketChatImpl × List Event) :=
  if s.mSocket.isNone then
    .returned (s, [])
  else if s.mReadyState = .CLOSED then
    .returned (s, if timeout > 0 then [.nullSelect timeout] else [])
  else
    (loop (receiveBody recvs) passes ⟨s, 0, []⟩).bind fun p =>
    if p.chat.mReadyState = .CLOSED then
      .returned (p.chat, p.trace)
    else
      (loop (transmitBody sends) passes ⟨p.chat, 0, []⟩).bind fun q =>
      if q.chat.mReadyState = .CLOSED then
        .returned (q.chat, p.trace ++ q.trace)
      else
        let r := q.chat.finishClosing
        match callback with
        | none => .returned (r.1, p.trace ++ (q.trace ++ (r.2 ++ [])))
        | some callback =>
            (loop (dispatchBody callback) passes ⟨r.1, [], []⟩).bind fun d =>
              .returned (d.chat, p.trace ++ (q.trace ++ (r.2 ++ d.trace)))

/-! ## The assertions hold -/

variable {s : SocketChatImpl}

theorem consumeAsserted_eq {b : SimpleBuffer} {n : ℕ} (h : n ≤ b.getSize) :
    consumeAsserted b n = some (b.consume n) := by
  simp only [consumeAsserted, if_pos h]

theorem transmitAsserted_eq (s : SocketChatImpl) (answer : Sent) :
    s.transmitAsserted answer = some (s.transmitPass answer) := by
  unfold transmitAsserted transmitPass
  by_cases hsize : s.mTransmitBuffer.getSize = 0
  · rw [if_pos hsize, if_pos hsize]
  · rw [if_neg hsize, if_neg hsize]
    cases answer with
    | refused r =>
        dsimp only
        split
        · rfl
        · rfl
    | room k =>
        have hle : min (k + 1) s.mTransmitBuffer.getData.length ≤
            s.mTransmitBuffer.getSize := by
          rw [SimpleBuffer.length_getData]
          exact Nat.min_le_right ..
        simp only [consumeAsserted_eq hle, Option.map_some]

/-- The callback leaves the receive buffer as it was, so the message to be
consumed is still there. -/
theorem dispatchAsserted_eq (s : SocketChatImpl) (callback : Callback)
    (past : List CString) :
    s.dispatchAsserted callback past = some (s.dispatchPass callback past) := by
  unfold dispatchAsserted dispatchPass
  by_cases hshort : s.mReceiveBuffer.getData.length < 2
  · simp only [if_pos hshort]
  · simp only [if_neg hshort]
    cases hend : messageEnd s.mReceiveBuffer.getData with
    | none => rfl
    | some i =>
        have hlen := (messageEnd_eq_some hend).2.2
        rw [SimpleBuffer.length_getData] at hlen
        have hle : i + 2 ≤ (s.mReceiveBuffer.store
            (s.mReceiveBuffer.mStartLoc + i) [0]).getSize := hlen
        simp only [react_setReceive, consumeAsserted_eq hle, Option.map_some]

/-! ## The loops end -/

/-- **The receive loop ends**: what is received does not fit in the buffer for
ever. -/
theorem receive_returns (h : s.mReceiveBuffer.Valid) (recvs : ℕ → Received) :
    ∃ p : Progress,
      (∃ n, s.receiveLoop (asked recvs n) = (p.chat, p.trace)) ∧
      ∀ passes, 536870912 < passes →
        loop (receiveBody recvs) passes ⟨s, 0, []⟩ = .returned p := by
  -- so far the loop has done what it does on the answers asked for
  let I : Progress → Prop := fun p => p.chat.mReceiveBuffer.Valid ∧
    ∀ rest, s.receiveLoop (asked recvs p.calls ++ rest) =
      ((p.chat.receiveLoop rest).1, p.trace ++ (p.chat.receiveLoop rest).2)
  have hbody : ∀ p, I p →
      (∃ q, receiveBody recvs p = some (false, q) ∧
        ∃ n, s.receiveLoop (asked recvs n) = (q.chat, q.trace)) ∨
      ∃ q, receiveBody recvs p = some (true, q) ∧ I q ∧
        536870912 - q.chat.mReceiveBuffer.getSize <
          536870912 - p.chat.mReceiveBuffer.getSize := by
    rintro p ⟨hvalid, hsame⟩
    let q : Progress := ⟨(p.chat.receivePass (recvs p.calls)).2.1, p.calls + 1,
      p.trace ++ (p.chat.receivePass (recvs p.calls)).2.2⟩
    cases hgo : (p.chat.receivePass (recvs p.calls)).1 with
    | false =>
        have hq : receiveBody recvs p = some (false, q) := by
          simp only [receiveBody, hgo, q]
        refine Or.inl ⟨q, hq, p.calls + 1, ?_⟩
        rw [asked_succ, hsame]
        simp only [receiveLoop, hgo, Bool.false_eq_true, if_false, q]
    | true =>
        have hq : receiveBody recvs p = some (true, q) := by
          simp only [receiveBody, hgo, q]
        obtain ⟨hvalid', -, -, hmore⟩ :=
          receivePass_counts hvalid (recvs p.calls)
        rw [hgo, Bool.toNat_true] at hmore
        have hsize := hvalid'.getSize_le
        have hmax := hvalid'.max_le
        have hcap := hvalid'.grow_le
        refine Or.inr ⟨q, hq, ⟨hvalid', ?_⟩, ?_⟩
        · intro rest
          rw [asked_succ, List.append_assoc, hsame]
          simp only [List.singleton_append, receiveLoop, hgo, if_true,
            List.append_assoc, q]
        · dsimp only [q]
          omega
  -- the measure is what the largest possible cap leaves
  obtain ⟨p, hdone, hrun⟩ := loop_returns (s := (⟨s, 0, []⟩ : Progress))
    (fun p => 536870912 - p.chat.mReceiveBuffer.getSize) hbody
    ⟨h, fun rest => rfl⟩
  refine ⟨p, hdone, fun passes hpasses => hrun passes ?_⟩
  dsimp only
  omega

/-- **The transmit loop ends**: nothing is left to be sent. -/
theorem transmit_returns (h : Words s.mTransmitBuffer) (sends : ℕ → Sent) :
    ∃ p : Progress,
      (∃ n, s.transmitLoop (asked sends n) = (p.chat, p.trace)) ∧
      ∀ passes, s.mTransmitBuffer.getSize < passes →
        loop (transmitBody sends) passes ⟨s, 0, []⟩ = .returned p := by
  let I : Progress → Prop := fun p => Words p.chat.mTransmitBuffer ∧
    ∀ rest, s.transmitLoop (asked sends p.calls ++ rest) =
      ((p.chat.transmitLoop rest).1, p.trace ++ (p.chat.transmitLoop rest).2)
  have hbody : ∀ p, I p →
      (∃ q, transmitBody sends p = some (false, q) ∧
        ∃ n, s.transmitLoop (asked sends n) = (q.chat, q.trace)) ∨
      ∃ q, transmitBody sends p = some (true, q) ∧ I q ∧
        q.chat.mTransmitBuffer.getSize < p.chat.mTransmitBuffer.getSize := by
    rintro p ⟨hwords, hsame⟩
    have hassert := transmitAsserted_eq p.chat (sends p.calls)
    let q : Progress := ⟨(p.chat.transmitPass (sends p.calls)).2.1, p.calls + 1,
      p.trace ++ (p.chat.transmitPass (sends p.calls)).2.2⟩
    cases hgo : (p.chat.transmitPass (sends p.calls)).1 with
    | false =>
        have hq : transmitBody sends p = some (false, q) := by
          simp only [transmitBody, hassert, Option.map_some, hgo, q]
        refine Or.inl ⟨q, hq, p.calls + 1, ?_⟩
        rw [asked_succ, hsame]
        simp only [transmitLoop, hgo, Bool.false_eq_true, if_false, q]
    | true =>
        have hq : transmitBody sends p = some (true, q) := by
          simp only [transmitBody, hassert, Option.map_some, hgo, q]
        obtain ⟨hwords', -, hless⟩ :=
          transmitPass_counts hwords (sends p.calls)
        rw [hgo, Bool.toNat_true] at hless
        refine Or.inr ⟨q, hq, ⟨hwords', ?_⟩, hless⟩
        intro rest
        rw [asked_succ, List.append_assoc, hsame]
        simp only [List.singleton_append, transmitLoop, hgo, if_true,
          List.append_assoc, q]
  exact loop_returns (s := (⟨s, 0, []⟩ : Progress))
    (fun p => p.chat.mTransmitBuffer.getSize) hbody ⟨h, fun rest => rfl⟩

/-- **The dispatch loop ends**: a message passed on is no longer in the
buffer. -/
theorem dispatch_returns (h : s.mReceiveBuffer.Valid) (callback : Callback) :
    ∃ p : Dispatching, s.dispatchBinary callback = (p.chat, p.trace) ∧
      ∀ passes, s.mReceiveBuffer.getSize < passes →
        loop (dispatchBody callback) passes ⟨s, [], []⟩ = .returned p := by
  -- the fuel of `dispatchLoop` lasts as long as there are bytes
  let I : Dispatching → Prop := fun p => p.chat.mReceiveBuffer.Valid ∧
    p.past.length + p.chat.mReceiveBuffer.getSize ≤ s.mReceiveBuffer.getSize ∧
    ∀ fuel, s.dispatchLoop callback [] (p.past.length + fuel) =
      ((p.chat.dispatchLoop callback p.past fuel).1,
        p.trace ++ (p.chat.dispatchLoop callback p.past fuel).2)
  have hbody : ∀ p, I p →
      (∃ q, dispatchBody callback p = some (false, q) ∧
        s.dispatchBinary callback = (q.chat, q.trace)) ∨
      ∃ q, dispatchBody callback p = some (true, q) ∧ I q ∧
        q.chat.mReceiveBuffer.getSize < p.chat.mReceiveBuffer.getSize := by
    rintro p ⟨hvalid, hleft, hsame⟩
    have hassert := dispatchAsserted_eq p.chat callback p.past
    rcases dispatchPass_spec hvalid callback p.past with
      ⟨hnone, -⟩ | ⟨seg, b, hb, -, hcut, hsome⟩
    · have hq : dispatchBody callback p = some (false, p) := by
        simp only [dispatchBody, hassert, hnone, Option.map_some]
      -- whatever is left of the fuel, `dispatchLoop` stops here
      have hlast : ∀ fuel, p.chat.dispatchLoop callback p.past fuel =
          (p.chat, []) := by
        intro fuel
        cases fuel with
        | zero => rfl
        | succ fuel => simp only [dispatchLoop, hnone]
      refine Or.inl ⟨p, hq, ?_⟩
      obtain ⟨fuel, hfuel⟩ := Nat.exists_eq_add_of_le
        (show p.past.length ≤ s.mReceiveBuffer.getSize by omega)
      rw [dispatchBinary, hfuel, hsame, hlast, List.append_nil]
    · let r := react { p.chat with mReceiveBuffer := b }
        (callback (p.past ++ [cstring seg]))
      let q : Dispatching := ⟨r.1, p.past ++ [cstring seg],
        p.trace ++ .delivered (cstring seg) :: r.2⟩
      have hq : dispatchBody callback p = some (true, q) := by
        simp only [dispatchBody, hassert, hsome, Option.map_some, q, r]
      have hkeep : q.chat.mReceiveBuffer = b := react_receiveBuffer ..
      have hlen := congrArg List.length hcut
      rw [List.length_append, List.length_cons, List.length_cons,
        SimpleBuffer.length_getData, SimpleBuffer.length_getData] at hlen
      have hpast : q.past.length = p.past.length + 1 := List.length_append
      refine Or.inr ⟨q, hq, ⟨hkeep.symm ▸ hb, ?_, ?_⟩, ?_⟩
      · rw [hkeep, hpast]
        omega
      · intro fuel
        have hmore : q.past.length + fuel = p.past.length + (fuel + 1) := by
          omega
        rw [hmore, hsame]
        simp only [dispatchLoop, hsome, q, r, List.append_assoc]
      · rw [hkeep]
        omega
  exact loop_returns (s := (⟨s, [], []⟩ : Dispatching))
    (fun p => p.chat.mReceiveBuffer.getSize) hbody
    ⟨h, by simp, fun fuel => by simp⟩

/-- **`poll` ends**, and returns what it returns on the answers it has asked
for. -/
theorem pollOn_returns (h : s.mReceiveBuffer.Valid)
    (hwords : Words s.mTransmitBuffer) (callback : Option Callback)
    (timeout : ℤ) (recvs : ℕ → Received) (sends : ℕ → Sent) :
    ∃ n k, ∀ passes, 536870912 + s.mTransmitBuffer.getSize < passes →
      s.pollOn callback timeout recvs sends passes =
        .returned (s.poll callback timeout
          ⟨asked recvs n, asked sends k⟩) := by
  obtain ⟨p, ⟨n, hread⟩, hreceive⟩ := receive_returns h recvs
  -- what is received changes nothing about what is to be sent
  have htx := (receiveLoop_spec (asked recvs n) h).2.2.2.2
  rw [hread] at htx
  obtain ⟨q, ⟨k, hsend⟩, htransmit⟩ :=
    transmit_returns (s := p.chat) (htx.symm ▸ hwords) sends
  refine ⟨n, k, fun passes hpasses => ?_⟩
  have hreceived := hreceive passes (by omega)
  have hsent := htransmit passes (by
    rw [show p.chat.mTransmitBuffer = s.mTransmitBuffer from htx]
    omega)
  unfold pollOn poll
  by_cases hsocket : s.mSocket.isNone = true
  · rw [if_pos hsocket, if_pos hsocket]
  by_cases hclosed : s.mReadyState = .CLOSED
  · rw [if_neg hsocket, if_neg hsocket, if_pos hclosed, if_pos hclosed]
  simp only [if_neg hsocket, if_neg hclosed, hreceived, hread, Outcome.bind]
  by_cases hopen : p.chat.mReadyState = .CLOSED
  · rw [if_pos hopen, if_pos hopen]
  simp only [if_neg hopen, hsent, hsend]
  by_cases hopen' : q.chat.mReadyState = .CLOSED
  · rw [if_pos hopen', if_pos hopen']
  simp only [if_neg hopen']
  cases callback with
  | none => rfl
  | some callback =>
      have hlive : s.Live := ⟨by simpa using hsocket, hclosed⟩
      have hloops := (@loops_emit s p.chat q.chat p.trace q.trace
        ⟨asked recvs n, asked sends k⟩ h hlive hread hopen hsend).2
      have hvalid := activity_valid hloops h
      have hkeep := q.chat.finishClosing_receiveBuffer
      have hsize := hvalid.getSize_le
      have hmax := hvalid.max_le
      have hcap := hvalid.grow_le
      obtain ⟨d, hdispatch, hdone⟩ := dispatch_returns
        (s := q.chat.finishClosing.1) (hkeep.symm ▸ hvalid) callback
      simp only [hdone passes (by rw [hkeep]; omega), hdispatch]

end SocketChatImpl

/-- **`poll` always returns**, on any transport and from any state a connection
can be in, and no assertion fails. It receives no more often than the receive
buffer could still grow by bytes, sends no more often than there are bytes to
be sent, and passes on no more messages than half the bytes it has to dispatch:
those buffered and those received. -/
theorem poll_returns {socket : Option ℕ} {t : Session}
    (ht : (session socket).Reachable t) (callback : Option Callback)
    (timeout : ℤ) (recvs : ℕ → Received) (sends : ℕ → Sent) :
    ∃ r : SocketChatImpl × List Event,
      (∃ n k, r = t.chat.poll callback timeout ⟨asked recvs n, asked sends k⟩) ∧
      (∀ passes, 536870912 + t.chat.mTransmitBuffer.getSize < passes →
        t.chat.pollOn callback timeout recvs sends passes = .returned r) ∧
      r.2.countP Event.isReceived + t.chat.mReceiveBuffer.getSize ≤
        t.chat.mReceiveBuffer.getMaxGrowSize ∧
      r.2.countP Event.isSent ≤ t.chat.mTransmitBuffer.getSize ∧
      2 * (messages r.2).length ≤
        t.chat.mReceiveBuffer.getSize + (received r.2).length := by
  have hvalid := (session_inbound ht).1
  have hwords := session_words ht
  obtain ⟨n, k, hreturns⟩ :=
    t.chat.pollOn_returns hvalid hwords callback timeout recvs sends
  let io : Answers := ⟨asked recvs n, asked sends k⟩
  obtain ⟨hreceives, hsends⟩ :=
    SocketChatImpl.poll_counts hvalid hwords callback timeout io
  have hdeliveries := SocketChatImpl.deliveries_le
    (SocketChatImpl.poll_emits hvalid callback timeout io)
  have hdelivered := Nat.le_trans (Nat.le_add_right ..) hdeliveries
  exact ⟨_, ⟨n, k, rfl⟩, hreturns, hreceives, hsends, hdelivered⟩

/-- A transport that has a byte at every `receive` and takes one at every
`send`, after a text has been queued. -/
theorem poll_returns_flooded :
    ∃ t, (session (some 0)).Reachable t ∧
      t.chat.mTransmitBuffer.getSize = 4 ∧
      ∃ r : SocketChatImpl × List Event,
        (∀ passes, 536870916 < passes → t.chat.pollOn none 0
          (fun _ => .bytes 97 []) (fun _ => .room 0) passes = .returned r) ∧
        r.2.countP Event.isReceived ≤ 536870912 ∧
        r.2.countP Event.isSent ≤ 4 := by
  let t₀ : Session := ⟨.construct (some 0), []⟩
  let t₁ := t₀.call (.sendText (some ⟨[104, 105], by decide⟩))
  have h₀ : (session (some 0)).Reachable t₀ := .of_init rfl
  have h₁ : (session (some 0)).Reachable t₁ := h₀.step rfl
  have hpending : t₁.chat.mTransmitBuffer.getSize = 4 := by decide +kernel
  have hempty : t₁.chat.mReceiveBuffer.getSize = 0 := by decide +kernel
  have hcap : t₁.chat.mReceiveBuffer.getMaxGrowSize = 536870912 := by
    decide +kernel
  obtain ⟨r, -, hreturns, hreceives, hsends, -⟩ := poll_returns h₁ none 0
    (fun _ => .bytes 97 []) (fun _ => .room 0)
  rw [hpending] at hreturns hsends
  rw [hempty, hcap] at hreceives
  exact ⟨t₁, h₁, hpending, r, hreturns, hreceives, hsends⟩

end Socketchat.Chat
