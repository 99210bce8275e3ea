import Socketchat.Chat.Lifecycle

/-!
# Messages and the stream

What the callback gets is decided by the bytes received and nothing else: the
messages are the segments of the stream between leftmost delimiters, each read
as a C string, however the stream was cut. This holds after a `poll` that gets
as far as dispatching. One that the transport fails returns before, one that
finishes a requested close without a callback has nothing to dispatch to, and
both leave complete messages in the receive buffer of a connection no later
`poll` will look at.
-/

namespace Socketchat.Chat

open Foundation Buffer

namespace SocketChatImpl

variable {s : SocketChatImpl} {trace : List Event}

/-- Cutting the stream again finds the messages delivered, and then those
still in the receive buffer. -/
theorem Inbound.unframe (h : s.Inbound trace) :
    ∃ segs, messages trace = segs.map cstring ∧
      unframe (received trace) =
        (segs ++ (Chat.unframe s.mReceiveBuffer.getData).1,
          (Chat.unframe s.mReceiveBuffer.getData).2) := by
  obtain ⟨segs, hfree, hrec, hmsg⟩ := h
  refine ⟨segs, hmsg, ?_⟩
  rw [hrec]
  exact Framing.unframe_frame_append (by decide) hfree _

/-- All complete messages have been delivered exactly when the receive buffer
holds no delimiter. -/
theorem Inbound.delivered_iff (h : s.Inbound trace) :
    messages trace = (Chat.unframe (received trace)).1.map cstring ↔
      Free s.mReceiveBuffer.getData := by
  obtain ⟨segs, hmsg, hcut⟩ := h.unframe
  rw [hmsg, hcut, List.map_append, List.self_eq_append_right, List.map_eq_nil_iff]
  exact Framing.unframe_fst_eq_nil

/-- The receive buffer is then what follows the last delimiter. -/
theorem Inbound.rest (h : s.Inbound trace)
    (hfree : Free s.mReceiveBuffer.getData) :
    s.mReceiveBuffer.getData = (Chat.unframe (received trace)).2 := by
  obtain ⟨segs, -, hcut⟩ := h.unframe
  rw [hcut, show Chat.unframe s.mReceiveBuffer.getData = _ from
    Framing.unframe_of_free hfree]

/-- After a `poll` with a callback that the transport does not fail, no
delimiter is left. -/
theorem poll_free (h : s.mReceiveBuffer.Valid)
    (hwords : Words s.mTransmitBuffer) (hlive : s.Live) (callback : Callback)
    (timeout : ℤ) (io : Answers) (hfails : s.transportFails io = false) :
    Free (s.poll (some callback) timeout io).1.mReceiveBuffer.getData := by
  obtain ⟨u, es, hemits, hlive', -, -, -, -, heq⟩ :=
    poll_of_not_fails h hwords hlive (some callback) timeout io hfails
  have hvalid := activity_valid hemits h
  have hvalid' := activity_valid (finishClosing_emits hlive') hvalid
  rw [heq]
  exact dispatchBinary_free hvalid' callback

end SocketChatImpl

/-! ## The decoder -/

/-- The messages delivered are the segments of the bytes received, cut at each
leftmost delimiter and read as C strings, and the receive buffer is what
follows the last one. -/
def Decoded (t : Session) : Prop :=
  messages t.trace = (unframe (received t.trace)).1.map cstring ∧
    t.chat.mReceiveBuffer.getData = (unframe (received t.trace)).2

/-- A connection that is closed has no complete message in its receive
buffer. -/
def Drained (t : Session) : Prop :=
  t.chat.mReadyState = .CLOSED → Free t.chat.mReceiveBuffer.getData

/-- `u` is what a last `poll` with a callback makes of `t`, and the transport
has never failed. -/
structure FinalPoll (socket : Option ℕ) (t u : Session) : Prop where
  reachable : (session socket).Reachable t
  polled : ∃ callback timeout io,
    u = t.call (.poll (some callback) timeout io)
  unbroken : broken u.trace = false

section FinalPoll

variable {socket : Option ℕ} {t u : Session}

theorem FinalPoll.decoded_iff (h : FinalPoll socket t u) :
    Decoded u ↔ Free u.chat.mReceiveBuffer.getData := by
  obtain ⟨callback, timeout, io, rfl⟩ := h.polled
  have hinbound := (session_inbound (h.reachable.step rfl :
    (session socket).Reachable (t.call (.poll (some callback) timeout io)))).2
  constructor
  · intro hdecoded
    exact hinbound.delivered_iff.mp hdecoded.1
  · intro hfree
    exact ⟨hinbound.delivered_iff.mpr hfree, hinbound.rest hfree⟩

/-- A `poll` of a closed connection dispatches nothing; any other leaves no
delimiter behind, unless the transport fails it. -/
theorem FinalPoll.free_iff (h : FinalPoll socket t u) :
    Free u.chat.mReceiveBuffer.getData ↔ Drained t := by
  obtain ⟨callback, timeout, io, rfl⟩ := h.polled
  show Free (t.chat.poll (some callback) timeout io).1.mReceiveBuffer.getData ↔
    Drained t
  by_cases hsocket : t.chat.mSocket = none
  · have hpoll : t.chat.poll (some callback) timeout io = (t.chat, []) := by
      simp [SocketChatImpl.poll, hsocket]
    have hnil := session_no_socket h.reachable hsocket
    rw [hpoll, Drained, hnil]
    exact iff_of_true Framing.free_nil fun _ => Framing.free_nil
  by_cases hclosed : t.chat.mReadyState = .CLOSED
  · have hpoll : (t.chat.poll (some callback) timeout io).1 = t.chat := by
      simp [SocketChatImpl.poll, hsocket, hclosed]
    rw [hpoll]
    exact ⟨fun hfree _ => hfree, fun hdrained => hdrained hclosed⟩
  have hlive : t.chat.Live := ⟨hsocket, hclosed⟩
  have hvalid := (session_inbound h.reachable).1
  have hwords := session_words h.reachable
  have hunbroken : (broken t.trace ||
      broken (t.chat.poll (some callback) timeout io).2) = false := by
    rw [← broken_append]
    exact h.unbroken
  have hfails : t.chat.transportFails io = false := by
    by_contra hyes
    rw [Bool.not_eq_false] at hyes
    obtain ⟨-, htrue, -⟩ := SocketChatImpl.poll_of_fails hvalid hwords hlive
      (some callback) timeout io hyes
    rw [htrue, Bool.or_true] at hunbroken
    exact absurd hunbroken (by decide)
  have hfree := SocketChatImpl.poll_free hvalid hwords hlive callback timeout
    io hfails
  exact iff_of_true hfree fun h => absurd h hclosed

end FinalPoll

/-- **When the decoder is its grammar.** As long as the transport does not
fail, a last `poll` with a callback leaves the messages and the residue of the
bytes received exactly when the connection was not closed before with a
complete message in its receive buffer. Then only the stream matters, not how
it was cut into chunks. -/
theorem decoder_is_grammar {socket : Option ℕ} {t u : Session}
    (hu : FinalPoll socket t u) :
    (Decoded u ↔ Drained t) ∧
    ∀ (socket' : Option ℕ) (t' v : Session), FinalPoll socket' t' v →
      Drained t → Drained t' → received v.trace = received u.trace →
      messages v.trace = messages u.trace ∧
      v.chat.mReceiveBuffer.getData = u.chat.mReceiveBuffer.getData := by
  have hiff : ∀ {socket : Option ℕ} {t u : Session}, FinalPoll socket t u →
      (Decoded u ↔ Drained t) := fun h => h.decoded_iff.trans h.free_iff
  refine ⟨hiff hu, fun socket' t' v hv hdrained hdrained' hsame => ?_⟩
  obtain ⟨hmsg, hrest⟩ := (hiff hu).mpr hdrained
  obtain ⟨hmsg', hrest'⟩ := (hiff hv).mpr hdrained'
  rw [hmsg', hrest', hsame]
  exact ⟨hmsg.symm, hrest.symm⟩

/-- The stream `a CR | LF b`, read in two polls. -/
theorem decoder_is_grammar_split_delimiter :
    ∃ t u, FinalPoll (some 0) t u ∧ received u.trace = [97, 13, 10, 98] ∧
      messages u.trace = [cstring [97]] ∧
      u.chat.mReceiveBuffer.getData = [98] := by
  let t₀ : Session := ⟨.construct (some 0), []⟩
  let t₁ := t₀.call (.poll none 0 ⟨[.bytes 97 [13]], []⟩)
  let u := t₁.call (.poll (some fun _ => []) 0 ⟨[.bytes 10 [98]], []⟩)
  have h₀ : (session (some 0)).Reachable t₀ := .of_init rfl
  have h₁ : (session (some 0)).Reachable t₁ := h₀.step rfl
  have hopen : t₁.chat.mReadyState ≠ .CLOSED := by decide +kernel
  have hunbroken : broken u.trace = false := by decide +kernel
  have hu : FinalPoll (some 0) t₁ u := ⟨h₁, ⟨_, _, _, rfl⟩, hunbroken⟩
  have hstream : received u.trace = [97, 13, 10, 98] := by decide +kernel
  obtain ⟨hmsg, hrest⟩ := (decoder_is_grammar hu).1.mpr fun h => absurd h hopen
  rw [hstream] at hmsg hrest
  exact ⟨t₁, u, hu, hstream, hmsg, hrest⟩

/-- A requested close is finished by a `poll` without a callback that reads
`a CR LF`; the last `poll` finds the connection closed. -/
theorem decoder_strands_message_after_close :
    ∃ t u, FinalPoll (some 0) t u ∧ received u.trace = [97, 13, 10] ∧
      messages u.trace = [] ∧ ¬ Decoded u := by
  let t₀ : Session := ⟨.construct (some 0), []⟩
  let t₁ := t₀.call .close
  let t₂ := t₁.call (.poll none 0 ⟨[.bytes 97 [13, 10]], []⟩)
  let u := t₂.call (.poll (some fun _ => []) 0 ⟨[], []⟩)
  have h₀ : (session (some 0)).Reachable t₀ := .of_init rfl
  have h₁ : (session (some 0)).Reachable t₁ := h₀.step rfl
  have h₂ : (session (some 0)).Reachable t₂ := h₁.step rfl
  have hunbroken : broken u.trace = false := by decide +kernel
  have hu : FinalPoll (some 0) t₂ u := ⟨h₂, ⟨_, _, _, rfl⟩, hunbroken⟩
  have hstream : received u.trace = [97, 13, 10] := by decide +kernel
  have hmsg : messages u.trace = [] := by decide +kernel
  refine ⟨t₂, u, hu, hstream, hmsg, fun hdecoded => ?_⟩
  have hcut := hdecoded.1
  rw [hmsg, hstream] at hcut
  exact absurd hcut (by decide +kernel)

/-! ## Stranded messages -/

/-- Every complete message among the bytes received has been delivered, and
the receive buffer holds no delimiter. -/
def NothingStranded (t : Session) : Prop :=
  messages t.trace = (unframe (received t.trace)).1.map cstring ∧
    Free t.chat.mReceiveBuffer.getData

/-- **When messages are stranded.** A `poll` with a callback leaves a complete
message behind exactly when the transport reports a close or an error in it
and what has been read until then, together with what was in the receive
buffer, holds one. -/
theorem poll_strands_nothing_iff {socket : Option ℕ} {t : Session}
    (ht : (session socket).Reachable t)
    (hopen : t.chat.mReadyState ≠ .CLOSED) (callback : Callback)
    (timeout : ℤ) (io : Answers) :
    NothingStranded (t.call (.poll (some callback) timeout io)) ↔
      (t.chat.mSocket ≠ none → t.chat.transportFails io = true →
        Free (t.chat.mReceiveBuffer.getData ++
          (incoming t.chat.mReceiveBuffer io.recvs).1)) := by
  have hinbound := (session_inbound (ht.step rfl :
    (session socket).Reachable (t.call (.poll (some callback) timeout io)))).2
  have hfree : NothingStranded (t.call (.poll (some callback) timeout io)) ↔
      Free (t.chat.poll (some callback) timeout io).1.mReceiveBuffer.getData := by
    rw [NothingStranded, hinbound.delivered_iff, and_self_iff]
    rfl
  rw [hfree]
  have hvalid := (session_inbound ht).1
  have hwords := session_words ht
  by_cases hsocket : t.chat.mSocket = none
  · have hpoll : t.chat.poll (some callback) timeout io = (t.chat, []) := by
      simp [SocketChatImpl.poll, hsocket]
    rw [hpoll, session_no_socket ht hsocket]
    exact iff_of_true Framing.free_nil fun h => absurd hsocket h
  have hlive : t.chat.Live := ⟨hsocket, hopen⟩
  cases hfails : t.chat.transportFails io with
  | false =>
      have hdone := SocketChatImpl.poll_free hvalid hwords hlive callback
        timeout io hfails
      exact iff_of_true hdone fun _ h => absurd h (by decide)
  | true =>
      obtain ⟨-, -, hdata⟩ := SocketChatImpl.poll_of_fails hvalid hwords hlive
        (some callback) timeout io hfails
      rw [hdata]
      exact ⟨fun h _ _ => h, fun h => h hsocket rfl⟩

/-- `a CR LF` arrives and the peer stays. -/
theorem poll_strands_nothing_iff_open :
    NothingStranded ((⟨.construct (some 0), []⟩ : Session).call
      (.poll (some fun _ => []) 0 ⟨[.bytes 97 [13, 10]], []⟩)) := by
  have hfails : (SocketChatImpl.construct (some 0)).transportFails
      ⟨[.bytes 97 [13, 10]], []⟩ = false := by decide +kernel
  have ht : (session (some 0)).Reachable ⟨.construct (some 0), []⟩ :=
    .of_init rfl
  refine (poll_strands_nothing_iff ht (by decide) _ _ _).mpr fun _ h => ?_
  exact absurd (hfails.symm.trans h) (by decide)

/-- `a CR LF` arrives together with the peer's close: the message is read and
never delivered. -/
theorem poll_strands_message_before_close :
    (session (some 0)).Reachable ⟨.construct (some 0), []⟩ ∧
    (SocketChatImpl.construct (some 0)).mReadyState ≠ .CLOSED ∧
    ¬ NothingStranded ((⟨.construct (some 0), []⟩ : Session).call
      (.poll (some fun _ => []) 0
        ⟨[.bytes 97 [13, 10], .refused .closed], []⟩)) := by
  refine ⟨.of_init rfl, by decide, fun h => ?_⟩
  exact absurd h.2 (by decide +kernel)

end Socketchat.Chat
