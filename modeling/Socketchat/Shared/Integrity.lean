import Socketchat.Shared.Invariant

/-!
# The rings are a pipe each way

Between the two sessions are exactly the unread bytes of the rings, so the two
processes refine the two endpoints of `piped`, whatever the accesses of one do
between those of the other.
-/

namespace Socketchat.Shared

open Foundation Buffer Chat Spsc Sockets SocketChatImpl

namespace SharedChat

/-- The two sessions, and the unread bytes of the ring each of them reads. -/
def network (n : SharedChat) : Network :=
  ⟨fun i => (n.ends i).session, fun i => (n.rings i.peer).unread⟩

/-- What a step adds to the trace of the side that takes it. -/
def events (n : SharedChat) (act : Side × Move) : Side × List Event :=
  (act.1, match n.next act.1 act.2 with
    | some n' => (n'.ends act.1).session.trace.drop
        (n.ends act.1).session.trace.length
    | none => [])

variable {n n' : SharedChat} {i : Side}

/-- The unread bytes of the ring a side reads, in terms of the two traces. -/
theorem Inv.flight (h : n.Inv) (i : Side) :
    (n.rings i.peer).unread =
      (accepted (n.ends i.peer).session.trace).drop
        (received (n.ends i).session.trace).length ∧
    received (n.ends i).session.trace <+:
      accepted (n.ends i.peer).session.trace := by
  rw [(h.connected i).got, (h.connected i.peer).sent]
  exact ⟨(h.ring i.peer).unread_eq (by decide) (by decide),
    (h.ring i.peer).window.inOrder⟩

/-- A step of one side is a step of `piped`. -/
theorem Inv.piped_step (h : n.Inv) (h' : n'.Inv) {es : List Event}
    (hmoves : n.Moves i es n') :
    piped.step n.network (i, es) n'.network := by
  obtain ⟨hunread, -⟩ := h.flight i
  obtain ⟨hunread', hpre'⟩ := h'.flight i
  obtain ⟨hpeer, -⟩ := h.flight i.peer
  obtain ⟨hpeer', -⟩ := h'.flight i.peer
  obtain ⟨-, hbefore⟩ := h.flight i.peer
  rw [Side.peer_peer] at hpeer hpeer' hbefore
  rw [hmoves.trace, hmoves.peer, received_append] at hunread' hpre'
  rw [hmoves.trace, hmoves.peer, accepted_append] at hpeer'
  refine ⟨(n'.ends i).session.chat, hmoves.emits, ?_, ?_⟩
  · -- what is received was unread
    show received es <+: (n.rings i.peer).unread
    rw [hunread]
    obtain ⟨rest, hrest⟩ := hpre'
    rw [← hrest, List.append_assoc, List.drop_left]
    exact List.prefix_append ..
  · have hends : (fun j => (n'.ends j).session) =
        Function.update (fun j => (n.ends j).session) i
          ⟨(n'.ends i).session.chat,
            (n.ends i).session.trace ++ es⟩ := by
      refine funext (both i ?_ ?_)
      · rw [Function.update_self, ← hmoves.trace]
      · rw [Function.update_of_ne i.peer_ne, hmoves.peer]
    have hflight : (fun j => (n'.rings j.peer).unread) = fun j =>
        if j = i then (n.rings i.peer).unread.drop (received es).length
        else (n.rings j.peer).unread ++ accepted es := by
      refine funext (both i ?_ ?_)
      · rw [if_pos rfl, hunread', hunread, List.drop_drop, List.length_append]
      · rw [if_neg i.peer_ne, Side.peer_peer, hpeer', hpeer,
          List.drop_append_of_le_length hbefore.length_le]
    show (⟨_, _⟩ : Network) = ⟨_, _⟩
    rw [hends, hflight]
    rfl

end SharedChat

theorem init_piped {n : SharedChat} (h : sharedChat.init n) :
    piped.init n.network := by
  obtain ⟨files, hserver, hclient, rfl⟩ := h
  have hinv := create_inv hserver hclient
  have hflight : (fun i => ((SharedChat.create files).rings
      (Side.peer i)).unread) = fun _ => [] := by
    funext i
    exact (hinv.flight i).1
  show (⟨_, _⟩ : Network) = ⟨_, _⟩
  rw [hflight]
  rfl

theorem step_piped {n n' : SharedChat} {act : Side × Move} (h : n.Inv)
    (hstep : sharedChat.step n act n') :
    piped.step n.network (n.events act) n'.network := by
  obtain ⟨i, move⟩ := act
  obtain ⟨hinv', es, hmoves⟩ := h.goes (SharedChat.next_goes hstep)
  have hevents : n.events (i, move) = (i, es) := by
    have hnext : n.next i move = some n' := hstep
    rw [SharedChat.events, hnext]
    dsimp only
    rw [hmoves.trace, List.drop_left]
  rw [hevents]
  exact h.piped_step hinv' hmoves

/-- **Main result.** Every run of the two processes, access by access, is a run
of two endpoints joined by a pipe of bytes each way. -/
theorem sharedChat_refines_piped :
    Refinement sharedChat piped SharedChat.network SharedChat.events where
  init _ h := init_piped h
  step _ _ _ hn hstep := step_piped (sharedChat_invariant.holds hn) hstep

theorem network_reachable : sharedChat.Invariant fun n =>
    piped.Reachable n.network where
  init _ h := .of_init (init_piped h)
  step _ _ _ hn h hstep :=
    h.step (step_piped (sharedChat_invariant.holds hn) hstep)

/-- Each direction is a pipe through the ring. -/
theorem sharedChat_pipe {n : SharedChat} (hn : sharedChat.Reachable n)
    (i : Side) : Pipe (n.ends i).session (n.ends i.peer).session
      (n.rings i).unread := by
  have hpipe := piped_pipe (network_reachable.holds hn) i
  have hflight : n.network.flight i.peer = (n.rings i).unread := by
    show (n.rings i.peer.peer).unread = _
    rw [Side.peer_peer]
  rw [hflight] at hpipe
  exact hpipe

/-! ## Moves from a fresh start -/

/-- Two files of zeros. -/
def zeroedFiles : SharedFiles :=
  ⟨⟨⟨0, 0, 0, 0, 0⟩, ⟨16352, fun _ => 0⟩⟩, ⟨⟨0, 0, 0, 0, 0⟩, ⟨16352, fun _ => 0⟩⟩⟩

/-- So many accesses of one side. -/
def accesses (i : Side) (k : ℕ) : List (Side × Move) :=
  List.replicate k (i, .access)

/-- The two processes over these files, after these moves. -/
def SharedChat.after (moves : List (Side × Move)) : Option SharedChat :=
  feed (fun n act => SharedChat.next n act.1 act.2) (.create zeroedFiles) moves

theorem SharedChat.after_reachable {moves : List (Side × Move)}
    {n : SharedChat} (h : SharedChat.after moves = some n) :
    sharedChat.Reachable n :=
  System.reachable_feed (fun _ _ _ h => h)
    (.of_init ⟨zeroedFiles, by decide, by decide, rfl⟩) h

/-! ## Integrity -/

/-- **Nothing is lost, duplicated or reordered in shared memory**, at any moment
of any interleaving of the two processes: framed, what a side has sent is what
its peer has passed on, followed by what the peer's receive buffer, the ring
and the side's transmit buffer hold; and what the peer has passed on is a first
part of what the side has sent. -/
theorem shared_memory_integrity {n : SharedChat}
    (hn : sharedChat.Reachable n) {i : Side}
    (hwhole : Whole (n.ends i).session.trace) :
    frame ((texts (n.ends i).session.trace).map (·.val)) =
      frame ((messages (n.ends i.peer).session.trace).map (·.val)) ++
        ((n.ends i.peer).session.chat.mReceiveBuffer.getData ++
          ((n.rings i).unread ++
            (n.ends i).session.chat.mTransmitBuffer.getData)) ∧
    messages (n.ends i.peer).session.trace <+:
      texts (n.ends i).session.trace := by
  exact (sharedChat_pipe hn i).stream hwhole

/-- The server has sent `hi` and is in the middle of copying `yo`; the client
has got `hi` and is in the middle of its next `read`. -/
def overlapping : List (Side × Move) :=
  List.flatten [
    [(.A, .sendText (some (cstring [104, 105]))), (.A, .poll none 0)],
    accesses .A 7,
    [(.A, .sendText (some (cstring [121, 111]))),
      (.B, .poll (some fun _ => []) 0)],
    accesses .B 7,
    [(.A, .poll none 0)],
    accesses .A 5,
    [(.B, .poll (some fun _ => []) 0), (.B, .access)]]

theorem shared_memory_integrity_overlapping : ∃ n, sharedChat.Reachable n ∧
    (texts (n.ends .A).session.trace).length = 2 ∧
    (messages (n.ends .B).session.trace).length = 1 ∧
    messages (n.ends .B).session.trace <+: texts (n.ends .A).session.trace := by
  have hshape : (SharedChat.after overlapping).map (fun n =>
      (n.ends .A).session.trace.flatMap Event.textsOut) =
      some [cstring [104, 105], cstring [121, 111]] := by
    decide +kernel
  have hstate : (SharedChat.after overlapping).map (fun n =>
      decide (NoneFailed (n.ends .A).session.trace) &&
        (messages (n.ends .B).session.trace).length == 1) = some true := by
    decide +kernel
  obtain ⟨n, hn, htexts⟩ := Option.map_eq_some_iff.mp hshape
  rw [hn, Option.map_some, Option.some.injEq, Bool.and_eq_true,
    decide_eq_true_eq, beq_iff_eq] at hstate
  have htexts : texts (n.ends .A).session.trace = _ := htexts
  have hs := SharedChat.after_reachable hn
  have hwhole : Whole (n.ends .A).session.trace := by
    refine ⟨?_, ?_, hstate.1⟩
    · rw [htexts]
      decide
    · rw [htexts]
      decide
  exact ⟨n, hs, congrArg List.length htexts, hstate.2,
    (shared_memory_integrity hs hwhole).2⟩

/-! ## The end of a connection -/

/-- **Shared memory never fails a connection.** A side is closed only after its
application has asked for it, and only when everything queued before has been
written to the ring; so no process is thrown out by what the other one does. -/
theorem shared_memory_closes_on_request {n : SharedChat}
    (hn : sharedChat.Reachable n) {i : Side}
    (hshort : ∀ text ∈ texts (n.ends i).session.trace,
      text.val.length < shortLimit) :
    broken (n.ends i).session.trace = false ∧
      Farewell (n.ends i).session.chat (n.ends i).session.trace := by
  obtain ⟨hsound, -, -, -, -, -, hunbroken⟩ :=
    (sharedChat_invariant.holds hn).connected i
  exact ⟨hunbroken, hsound.farewell hunbroken hshort⟩

/-- The client queues `hi`, closes and polls; its `poll` finds nothing to read,
and ends when it has written four bytes. -/
def leaving : List (Side × Move) :=
  List.flatten [
    [(.B, .sendText (some (cstring [104, 105]))), (.B, .close),
      (.B, .poll none 0)],
    accesses .B 7]

theorem shared_memory_closes_on_request_leaving : ∃ n,
    sharedChat.Reachable n ∧ (n.ends .B).session.chat.mReadyState = .CLOSED ∧
    Farewell (n.ends .B).session.chat (n.ends .B).session.trace := by
  have hshape : (SharedChat.after leaving).map (fun n =>
      (n.ends .B).session.trace.flatMap Event.textsOut) =
      some [cstring [104, 105]] := by
    decide +kernel
  have hready : (SharedChat.after leaving).map (fun n =>
      (n.ends .B).session.chat.mReadyState) = some .CLOSED := by
    decide +kernel
  obtain ⟨n, hn, htexts⟩ := Option.map_eq_some_iff.mp hshape
  rw [hn, Option.map_some, Option.some.injEq] at hready
  have htexts : texts (n.ends .B).session.trace = _ := htexts
  have hs := SharedChat.after_reachable hn
  refine ⟨n, hs, hready, (shared_memory_closes_on_request hs ?_).2⟩
  rw [htexts]
  decide

end Socketchat.Shared
