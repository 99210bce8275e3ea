import Socketchat.Shared.Undisturbed

/-!
# A side always returns

Wherever the two processes are, also in the middle of a `read` or a `write`, a
side comes back from its `poll` with its own accesses alone: it never waits for
the other one.
-/

namespace Socketchat.Shared

open Foundation Buffer Chat Spsc Sockets SocketChatImpl

/-- What the loops of `poll` rely on. -/
structure Steady (s : SocketChatImpl) : Prop where
  live : s.Live
  valid : s.mReceiveBuffer.Valid
  words : Words s.mTransmitBuffer

theorem Steady.emits {s s' : SocketChatImpl} {es : List Event} (h : Steady s)
    (hes : activity.Emits s es s') (hlive : s'.Live) : Steady s' :=
  ⟨hlive, activity_valid hes h.valid, activity_words hes h.words⟩

namespace SharedChat

variable {n n' : SharedChat} {i : Side} {t : Session}

/-- Side `i` comes back from its call with accesses alone. -/
def Returns (n : SharedChat) (i : Side) : Prop :=
  ∃ n', Alone i n n' ∧ (n'.ends i).stage = .idle

theorem Returns.of_alone (h : Alone i n n') (h' : Returns n' i) :
    Returns n i := by
  obtain ⟨n'', halone, hidle⟩ := h'
  exact ⟨n'', h.trans halone, hidle⟩

theorem returns_of_idle {e : Endpoint} (hidle : e.stage = .idle) :
    Returns (n.enter i e) i := by
  refine ⟨_, .refl _, ?_⟩
  rw [enter_self]
  exact hidle

variable (callback : Option Callback)

/-- From the transmit loop. -/
theorem transmit_returns (hring : Spsc.Inv RING_SIZE (n.rings i))
    (h : Steady t.chat) : Returns (n.enter i (.transmit t callback)) i := by
  obtain ⟨m, t', halone, -, -⟩ :=
    transmit_alone callback hring h.words h.live.notClosed
  exact .of_alone halone (returns_of_idle rfl)

theorem sent_returns (hring : Spsc.Inv RING_SIZE (n.rings i))
    (h : Steady t.chat) (answer : Sent) :
    Returns (n.enter i (.sent t callback answer)) i := by
  obtain ⟨hemits, hnext⟩ := transmitPass_emits h.live answer
  unfold Endpoint.sent
  rcases hpass : t.chat.transmitPass answer with ⟨go, s, es⟩
  rw [hpass] at hemits hnext
  dsimp only
  cases go with
  | true =>
      rw [if_pos rfl]
      exact transmit_returns callback hring (h.emits hemits (hnext rfl))
  | false =>
      rw [if_neg Bool.false_ne_true]
      split
      · exact returns_of_idle rfl
      · exact returns_of_idle rfl

/-- From the receive loop. -/
theorem receive_returns (hrings : ∀ j, Spsc.Inv RING_SIZE (n.rings j))
    (h : Steady t.chat) : Returns (n.enter i (.receive t callback)) i := by
  obtain ⟨m, t₁, halone, hring, ⟨es, -, hloop⟩, hopen, -⟩ :=
    receive_alone callback _ (hrings i.peer) (Nat.le_refl _) (.refl t) h.valid
      h.live.notClosed
  have hemits : activity.Emits t.chat es t₁.chat := by
    have hall := receiveLoop_emits ([] ++ receiveAnswers
      (n.rings i.peer).unread.length (n.rings i.peer).unread) h.valid h.live
    rw [hloop] at hall
    exact hall
  have hlive : t₁.chat.Live :=
    ⟨activity_socket hemits ▸ h.live.socket, hopen⟩
  refine .of_alone halone (transmit_returns callback ?_ (h.emits hemits hlive))
  rw [hring]
  exact hrings i

theorem received_returns (hrings : ∀ j, Spsc.Inv RING_SIZE (n.rings j))
    (h : Steady t.chat) (answer : Received) :
    Returns (n.enter i (.received t callback answer)) i := by
  obtain ⟨hemits, hnext⟩ := receivePass_emits h.valid h.live answer
  unfold Endpoint.received
  rcases hpass : t.chat.receivePass answer with ⟨go, s, es⟩
  rw [hpass] at hemits hnext
  dsimp only
  cases go with
  | true =>
      rw [if_pos rfl]
      exact receive_returns callback hrings (h.emits hemits (hnext rfl))
  | false =>
      rw [if_neg Bool.false_ne_true]
      by_cases hclosed : s.mReadyState = .CLOSED
      · rw [if_pos hclosed]
        exact returns_of_idle rfl
      · rw [if_neg hclosed]
        have hlive : s.Live :=
          ⟨activity_socket hemits ▸ h.live.socket, hclosed⟩
        exact transmit_returns callback (hrings i) (h.emits hemits hlive)

/-- From anywhere. -/
theorem returns (hn : sharedChat.Reachable n) (i : Side) : Returns n i := by
  have hinv := sharedChat_invariant.holds hn
  obtain ⟨hsound, hready, -, -, hreading, hwriting, -⟩ := hinv.connected i
  have hwords := piped_words.holds (network_reachable.holds hn) i
  cases hstage : (n.ends i).stage with
  | idle => exact ⟨n, .refl n, hstage⟩
  | receiving callback =>
      rw [hstage] at hready hreading
      have hsteady : Steady (n.ends i).session.chat :=
        ⟨hready.1, hsound.valid, hwords⟩
      obtain ⟨ring, hrun⟩ := readRun_exists hreading.1
      refine .of_alone (readRun_alone hrun rfl hstage hreading.2)
        (received_returns callback (both i.peer ?_ ?_) hsteady _)
      · rw [setRing_self]
        exact hrun.inv (by decide) (by decide) (hinv.ring i.peer)
      · rw [setRing_peer]
        exact hinv.ring _
  | sending callback =>
      rw [hstage] at hready hwriting
      have hsteady : Steady (n.ends i).session.chat :=
        ⟨hready.1, hsound.valid, hwords⟩
      obtain ⟨ring, hrun⟩ := writeRun_exists hwriting.1
      refine .of_alone (writeRun_alone hrun rfl hstage hwriting.2)
        (sent_returns callback ?_ hsteady _)
      rw [setRing_self]
      exact hrun.inv (by decide) (by decide) (hinv.ring i)

end SharedChat

/-- **Main result.** Wherever the two processes are, a side comes back from its
`poll` with its own accesses alone, and leaves the other where it is, also
inside a call. A `poll` that is begun like that is `SocketChatImpl.poll`,
answered with all that is unread in the one ring and all that is free in the
other. -/
theorem undisturbed_poll {n : SharedChat} (hn : sharedChat.Reachable n)
    (i : Side) :
    (∃ k n', sharedChat.Run n (accesses i k) n' ∧
      (n'.ends i).stage = .idle ∧ SharedChat.Stays i.peer n n') ∧
    ((n.ends i).stage = .idle → ∀ callback timeout, ∃ k n',
      sharedChat.Run n ((i, .poll callback timeout) :: accesses i k) n' ∧
      n'.ends i = ⟨(n.ends i).session.call
        (.poll callback timeout (n.answers i)), .idle⟩ ∧
      SharedChat.Stays i.peer n n') := by
  constructor
  · obtain ⟨n', ⟨k, hrun⟩, hidle⟩ := SharedChat.returns hn i
    exact ⟨k, n', hrun, hidle, SharedChat.Alone.stays ⟨k, hrun⟩⟩
  · exact fun hidle => poll_alone hn hidle

/-- The server has queued `hi`, and the client is in the middle of a `read`. -/
def stopped : List (Side × Move) :=
  [(.B, .poll none 0), (.B, .access), (.A, .sendText (some (cstring [104, 105])))]

theorem undisturbed_poll_stopped : ∃ n k n', sharedChat.Reachable n ∧
    (n.ends .B).stage ≠ .idle ∧
    sharedChat.Run n ((.A, .poll none 0) :: accesses .A k) n' ∧
    (n'.ends .B).stage ≠ .idle ∧
    accepted (n'.ends .A).session.trace = frame [[104, 105]] := by
  have hshape : (SharedChat.after stopped).map (fun n =>
      (n.ends .A).stage.isIdle && !(n.ends .B).stage.isIdle &&
        accepted ((n.ends .A).session.call
          (.poll none 0 (n.answers .A))).trace == frame [[104, 105]]) =
      some true := by
    decide +kernel
  obtain ⟨n, hn, hstate⟩ := Option.map_eq_some_iff.mp hshape
  rw [Bool.and_eq_true, Bool.and_eq_true, Bool.not_eq_true', beq_iff_eq]
    at hstate
  obtain ⟨⟨hidle, hbusy⟩, hsent⟩ := hstate
  have hpeer : (n.ends .B).stage ≠ .idle := by
    intro heq
    rw [heq] at hbusy
    cases hbusy
  have hs := SharedChat.after_reachable hn
  obtain ⟨k, n', hrun, hend, hother⟩ :=
    (undisturbed_poll hs .A).2 (Stage.eq_idle hidle) none 0
  refine ⟨n, k, n', hs, hpeer, hrun, ?_, ?_⟩
  · rw [show n'.ends .B = n.ends .B from hother.ends]
    exact hpeer
  · rw [hend]
    exact hsent

end Socketchat.Shared
