import Socketchat.Chat.Lifecycle
import Socketchat.Chat.Link

/-!
# Two endpoints, action by action

A step of `network` is a whole call. Where both sides are in the middle of a
`poll` at once, what one of them receives may have been sent by the poll the
other has not finished. So here a step is any number of actions of one side,
also none, and a call is a run. What holds in every run of this system holds
over every transport that can be read as a pipe of bytes each way.
-/

namespace Socketchat.Chat

open Foundation Buffer

/-- Side `i` emits these events and is in state `s` then. -/
def Network.emit (n : Network) (i : Side) (es : List Event)
    (s : SocketChatImpl) : Network :=
  { ends := Function.update n.ends i ⟨s, (n.ends i).trace ++ es⟩
    flight := fun j =>
      if j = i then (n.flight i).drop (received es).length
      else n.flight j ++ accepted es }

def piped : System Network (Side × List Event) where
  init n := n = ⟨fun i => ⟨.construct (some i.socket), []⟩, fun _ => []⟩
  step n act n' := ∃ s,
    SocketChatImpl.activity.Emits (n.ends act.1).chat act.2 s ∧
      received act.2 <+: n.flight act.1 ∧ n' = n.emit act.1 act.2 s

namespace Network

variable {n : Network} (i : Side) (es : List Event) (s : SocketChatImpl)

@[simp] theorem emit_ends_self :
    (n.emit i es s).ends i = ⟨s, (n.ends i).trace ++ es⟩ :=
  Function.update_self ..

@[simp] theorem emit_ends_peer :
    (n.emit i es s).ends i.peer = n.ends i.peer :=
  Function.update_of_ne i.peer_ne ..

@[simp] theorem emit_flight_self : (n.emit i es s).flight i =
    (n.flight i).drop (received es).length := by
  simp [emit]

@[simp] theorem emit_flight_peer : (n.emit i es s).flight i.peer =
    n.flight i.peer ++ accepted es := by
  simp [emit, i.peer_ne]

end Network

/-! ## How a connection ends -/

/-- A closed connection has been asked to close before, and had nothing left to
send when it did. -/
def Farewell (s : SocketChatImpl) (trace : List Event) : Prop :=
  s.mReadyState = .CLOSED → ∃ pre post,
    trace = pre ++ .closeSocket :: .ready .CLOSED :: post ∧
      readyMoves pre = [.CLOSING] ∧ accepted pre = placed pre

/-- What leaves the ready state alone, or leaves it open. -/
theorem Farewell.quiet {s u : SocketChatImpl} {tr es : List Event}
    (h : Farewell s tr)
    (hready : u.mReadyState = .CLOSED → s.mReadyState = .CLOSED) :
    Farewell u (tr ++ es) := by
  intro hclosed
  obtain ⟨pre, post, rfl, hmoves, hflushed⟩ := h (hready hclosed)
  refine ⟨pre, post ++ es, ?_, hmoves, hflushed⟩
  rw [List.append_assoc, List.cons_append, List.cons_append]

/-! ## What one side has to itself -/

/-- What holds of a connection and its trace, also in the middle of a call. -/
structure Session.Sound (t : Session) : Prop where
  valid : t.chat.mReceiveBuffer.Valid
  inbound : t.chat.Inbound t.trace
  outbound : t.chat.Outbound t.trace
  intact : (∀ text ∈ texts t.trace, text.val.length < shortLimit) →
    t.chat.mTransmitBuffer.overrun = false
  life : Lifecycle t.chat.mReadyState t.trace
  farewell : broken t.trace = false →
    (∀ text ∈ texts t.trace, text.val.length < shortLimit) →
    Farewell t.chat t.trace

namespace Session.Sound

variable {t : Session} {s : SocketChatImpl} {es : List Event}

theorem construct (socket : Option ℕ) :
    Session.Sound ⟨.construct socket, []⟩ := by
  have ht : (session socket).Reachable ⟨.construct socket, []⟩ := .of_init rfl
  exact ⟨(session_inbound ht).1, (session_inbound ht).2, session_outbound ht,
    fun _ => rfl, session_lifecycle ht, fun _ _ => nofun⟩

theorem placed_eq (h : t.Sound)
    (hshort : ∀ text ∈ texts t.trace, text.val.length < shortLimit) :
    placed t.trace = accepted t.trace ++ t.chat.mTransmitBuffer.getData :=
  (h.outbound (h.intact hshort)).2.2

/-- Unless the transport fails, a connection takes its leave properly. -/
theorem farewell_act (h : t.Sound) (hact : SocketChatImpl.Act t.chat es s)
    (hbroken : broken (t.trace ++ es) = false)
    (hshort : ∀ text ∈ texts (t.trace ++ es), text.val.length < shortLimit) :
    Farewell s (t.trace ++ es) := by
  rw [broken_append, Bool.or_eq_false_iff] at hbroken
  rw [texts_append] at hshort
  have hshort' := fun text htext =>
    hshort text (List.mem_append_left _ htext)
  have hbefore := h.farewell hbroken.1 hshort'
  cases hact with
  | receiveBroken r _ hr =>
      have htrue : broken (.receiveRefused r :: t.chat.disconnect.2) = true := by
        simp [broken, Event.breaks, hr]
      exact absurd htrue (by rw [hbroken.2]; decide)
  | sendBroken r _ hr =>
      have htrue : broken (.sendRefused r :: t.chat.disconnect.2) = true := by
        simp [broken, Event.breaks, hr]
      exact absurd htrue (by rw [hbroken.2]; decide)
  | finish _ hclosing hempty =>
      -- the only way to CLOSED: nothing is pending any more
      intro _
      have hplaced := h.placed_eq hshort'
      have hnil : t.chat.mTransmitBuffer.getData = [] := by
        apply List.eq_nil_of_length_eq_zero
        rw [SimpleBuffer.length_getData, hempty]
      have hmoves := h.life.moves
      rw [hclosing] at hmoves
      rw [hnil, List.append_nil] at hplaced
      refine ⟨t.trace, [], rfl, ?_, hplaced.symm⟩
      simpa using hmoves
  | requestClose => exact hbefore.quiet fun h => by cases h
  | _ => exact hbefore.quiet id

/-- One action. -/
theorem act (h : t.Sound) (hact : SocketChatImpl.Act t.chat es s) :
    Session.Sound ⟨s, t.trace ++ es⟩ := by
  refine ⟨SocketChatImpl.activity_valid hact.emits h.valid, h.inbound.act hact,
    h.outbound.act hact, fun hshort => ?_, h.life.act hact,
    h.farewell_act hact⟩
  rw [texts_append] at hshort
  have hbefore := h.intact fun text htext =>
    hshort text (List.mem_append_left _ htext)
  cases hact with
  | send n _ _ => exact (SocketChatImpl.consume_overrun ..).trans hbefore
  | queue str =>
      refine sendText_intact (h.outbound hbefore).1 (hshort _ ?_)
      exact List.mem_append_right _ List.mem_cons_self
  | _ => exact hbefore

/-- Any number of them. -/
theorem emits (h : t.Sound)
    (hes : SocketChatImpl.activity.Emits t.chat es s) :
    Session.Sound ⟨s, t.trace ++ es⟩ :=
  hes.preserves (I := fun s tr => Session.Sound ⟨s, tr⟩)
    (fun _ _ _ _ hact h => h.act hact) _ h

end Session.Sound

/-- The offsets of the transmit buffer stay words. -/
theorem activity_words {s s' : SocketChatImpl} {es : List Event}
    (h : SocketChatImpl.activity.Emits s es s')
    (hs : SocketChatImpl.Words s.mTransmitBuffer) :
    SocketChatImpl.Words s'.mTransmitBuffer := by
  refine System.Emits.preserves
    (I := fun s _ => SocketChatImpl.Words s.mTransmitBuffer) ?_ h [] hs
  intro s es s' _ hact hs
  cases hact with
  | send n _ _ => exact hs.consume n
  | queue str => exact (hs.addBuffer _ _).addBuffer _ _
  | _ => exact hs

theorem piped_words : piped.Invariant fun n => ∀ i,
    SocketChatImpl.Words (n.ends i).chat.mTransmitBuffer where
  init := by
    rintro n rfl i
    have hzero : 0 < 4294967296 := by decide
    exact ⟨hzero, hzero⟩
  step := by
    rintro n ⟨i, es⟩ n' - h ⟨s, hemits, -, rfl⟩ j
    by_cases hj : j = i
    · subst hj
      rw [Network.emit_ends_self]
      exact activity_words hemits (h j)
    · rw [Side.eq_peer_of_ne hj, Network.emit_ends_peer]
      exact h i.peer

theorem piped_sound : piped.Invariant fun n => ∀ i, (n.ends i).Sound where
  init := by
    rintro n rfl i
    exact .construct _
  step := by
    rintro n ⟨i, es⟩ n' - h ⟨s, hemits, -, rfl⟩ j
    by_cases hj : j = i
    · subst hj
      rw [Network.emit_ends_self]
      exact (h j).emits hemits
    · rw [Side.eq_peer_of_ne hj, Network.emit_ends_peer]
      exact h i.peer

/-! ## The pipe between them -/

theorem piped_carries : piped.Invariant fun n => ∀ i,
    accepted (n.ends i).trace =
      received (n.ends i.peer).trace ++ n.flight i.peer where
  init := by
    rintro n rfl i
    rfl
  step := by
    rintro n ⟨i, es⟩ n' - h ⟨s, -, hpre, rfl⟩ j
    obtain ⟨rest, hrest⟩ := hpre
    have hrest : received es ++ rest = n.flight i := hrest
    by_cases hj : j = i
    · subst hj
      rw [Network.emit_ends_self, Network.emit_ends_peer,
        Network.emit_flight_peer, ← List.append_assoc, ← h j]
      exact accepted_append ..
    · rw [Side.eq_peer_of_ne hj, Side.peer_peer, Network.emit_ends_self,
        Network.emit_ends_peer, Network.emit_flight_self, ← hrest,
        List.drop_left, h i.peer, Side.peer_peer, ← hrest,
        ← List.append_assoc]
      exact congrArg (· ++ rest) (received_append ..).symm

/-- Each direction is a pipe, at every moment. -/
theorem piped_pipe {n : Network} (hn : piped.Reachable n) (i : Side) :
    Pipe (n.ends i) (n.ends i.peer) (n.flight i.peer) where
  outbound hwhole := (piped_sound.holds hn i).placed_eq hwhole.short
  inbound := (piped_sound.holds hn i.peer).inbound
  carries := piped_carries.holds hn i

/-! ## Whole calls -/

/-- The events of a call. -/
def Network.events (n : Network) (act : Side × ApiCall) : Side × List Event :=
  (act.1, ((n.ends act.1).chat.exec act.2).2)

/-- **A run of whole calls is a run of actions.** -/
theorem network_refines_piped :
    Refinement network piped id Network.events where
  init _ h := h
  step := by
    rintro n ⟨i, call⟩ n' hn ⟨hpre, rfl⟩
    have hvalid := (session_inbound (network_session.holds hn i)).1
    exact ⟨_, SocketChatImpl.exec_emits hvalid call, hpre, rfl⟩

end Socketchat.Chat
