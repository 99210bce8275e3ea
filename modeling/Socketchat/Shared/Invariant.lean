import Socketchat.Shared.Locals
import Socketchat.Spsc.Accesses

/-!
# Two processes on one shared memory: the invariant

Each ring keeps its own invariant. What ties a side to the two rings is that the
one it writes has accepted what its trace says was sent, and the one it reads
has returned what its trace says was received; this holds also inside a call,
because both change at its last access.
-/

namespace Socketchat.Shared

open Foundation Buffer Chat Spsc Sockets SocketChatImpl

/-- The bytes of a ring behind its header. -/
def RING_SIZE : ℕ := SHARED_BUFFER_SIZE - HEADER_SIZE

/-! ## A side and its rings -/

/-- Inside `read` exactly when the receive loop has called it. -/
def Stage.Reading (read : ReadStep) : Stage → Prop
  | .receiving _ => read ≠ .idle ∧ read.Within DEFAULT_MAX_READ_SIZE
  | _ => read = .idle

/-- Inside a `write` of what is pending exactly when the transmit loop has
called it. -/
def Stage.Writing (pending : List UInt8) (write : WriteStep) : Stage → Prop
  | .sending _ => write ≠ .idle ∧ write.Of pending
  | _ => write = .idle

/-- A side, the ring it writes and the one it reads. -/
structure Connected (e : Endpoint) (out inn : Spsc.State) : Prop where
  sound : e.session.Sound
  ready : e.stage.Ready e.session.chat
  sent : accepted e.session.trace = out.accepted
  got : received e.session.trace = inn.returned
  reading : e.stage.Reading inn.reading
  writing : e.stage.Writing e.session.chat.mTransmitBuffer.getData out.writing
  unbroken : broken e.session.trace = false

/-- The peer's accesses change nothing that a side relies on. -/
theorem Connected.of_eq {e : Endpoint} {out inn out' inn' : Spsc.State}
    (h : Connected e out inn) (haccepted : out'.accepted = out.accepted)
    (hwriting : out'.writing = out.writing)
    (hreturned : inn'.returned = inn.returned)
    (hreading : inn'.reading = inn.reading) : Connected e out' inn' where
  sound := h.sound
  ready := h.ready
  sent := h.sent.trans haccepted.symm
  got := h.got.trans hreturned.symm
  reading := hreading ▸ h.reading
  writing := hwriting ▸ h.writing
  unbroken := h.unbroken

namespace SharedChat

structure Inv (n : SharedChat) : Prop where
  ring : ∀ i, Spsc.Inv RING_SIZE (n.rings i)
  connected : ∀ i, Connected (n.ends i) (n.rings i) (n.rings i.peer)

/-- Side `i` goes on with these events, and its peer stays. -/
structure Moves (n : SharedChat) (i : Side) (es : List Event)
    (n' : SharedChat) : Prop where
  emits : activity.Emits (n.ends i).session.chat es (n'.ends i).session.chat
  trace : (n'.ends i).session.trace = (n.ends i).session.trace ++ es
  peer : n'.ends i.peer = n.ends i.peer

variable {n n' : SharedChat} {i : Side}

theorem both {P : Side → Prop} (i : Side) (h : P i) (hpeer : P i.peer) :
    ∀ j, P j := by
  intro j
  by_cases hj : j = i
  · rw [hj]
    exact h
  · rw [Side.eq_peer_of_ne hj]
    exact hpeer

@[simp] theorem setRing_ends (ring : Spsc.State) :
    (n.setRing i ring).ends = n.ends := rfl

@[simp] theorem setRing_self (ring : Spsc.State) :
    (n.setRing i ring).rings i = ring := Function.update_self ..

@[simp] theorem setRing_peer (ring : Spsc.State) :
    (n.setRing i ring).rings i.peer = n.rings i.peer :=
  Function.update_of_ne i.peer_ne ..

@[simp] theorem setRing_peer_self (ring : Spsc.State) :
    (n.setRing i.peer ring).rings i = n.rings i :=
  Function.update_of_ne i.peer_ne.symm ..

theorem enter_ends (e : Endpoint) :
    (n.enter i e).ends = Function.update n.ends i e := by
  unfold enter
  split <;> rfl

@[simp] theorem enter_self (e : Endpoint) : (n.enter i e).ends i = e := by
  rw [enter_ends, Function.update_self]

@[simp] theorem enter_peer (e : Endpoint) :
    (n.enter i e).ends i.peer = n.ends i.peer := by
  rw [enter_ends, Function.update_of_ne i.peer_ne]

/-! ## What a step can be -/

/-- The steps of side `i`: a call, which ends or enters `read` or `write`; an
access inside one of these; or the last access, after which `poll` goes on. -/
inductive Goes (n : SharedChat) (i : Side) : SharedChat → Prop
  | sendText (str : Option CString) :
      (n.ends i).stage = .idle →
      Goes n i (n.enter i ⟨(n.ends i).session.call (.sendText str), .idle⟩)
  | close :
      (n.ends i).stage = .idle →
      Goes n i (n.enter i ⟨(n.ends i).session.call .close, .idle⟩)
  | poll (callback : Option Callback) (timeout : ℤ) :
      (n.ends i).stage = .idle →
      Goes n i (n.enter i (.poll (n.ends i).session callback timeout))
  | read {callback : Option Callback} {ring : Spsc.State} :
      (n.ends i).stage = .receiving callback →
      (n.rings i.peer).readerNext = some ring → ring.reading ≠ .idle →
      Goes n i (n.setRing i.peer ring)
  | received {callback : Option Callback} {ring : Spsc.State} :
      (n.ends i).stage = .receiving callback →
      (n.rings i.peer).readerNext = some ring → ring.reading = .idle →
      Goes n i ((n.setRing i.peer ring).enter i
        (.received (n.ends i).session callback
          (WsocketSharedMemory.receiveAnswer
            (ring.returned.drop (n.rings i.peer).returned.length))))
  | write {callback : Option Callback} {ring : Spsc.State} :
      (n.ends i).stage = .sending callback →
      (n.rings i).writerNext = some ring → ring.writing ≠ .idle →
      Goes n i (n.setRing i ring)
  | sent {callback : Option Callback} {ring : Spsc.State} :
      (n.ends i).stage = .sending callback →
      (n.rings i).writerNext = some ring → ring.writing = .idle →
      Goes n i ((n.setRing i ring).enter i
        (.sent (n.ends i).session callback
          (WsocketSharedMemory.sendAnswer
            (ring.accepted.length - (n.rings i).accepted.length))))

theorem next_goes {move : Move} (h : n.next i move = some n') :
    n.Goes i n' := by
  unfold next at h
  cases hstage : (n.ends i).stage with
  | idle =>
      rw [hstage] at h
      cases move with
      | sendText str =>
          cases h
          exact .sendText str hstage
      | close =>
          cases h
          exact .close hstage
      | poll callback timeout =>
          cases h
          exact .poll callback timeout hstage
      | access => cases h
  | receiving callback =>
      rw [hstage] at h
      cases move with
      | access =>
          obtain ⟨ring, hring, rfl⟩ := Option.map_eq_some_iff.mp h
          dsimp only
          split
          · rename_i hlast
            exact .received hstage hring hlast
          · rename_i hmore
            exact .read hstage hring hmore
      | _ => cases h
  | sending callback =>
      rw [hstage] at h
      cases move with
      | access =>
          obtain ⟨ring, hring, rfl⟩ := Option.map_eq_some_iff.mp h
          dsimp only
          split
          · rename_i hlast
            exact .sent hstage hring hlast
          · rename_i hmore
            exact .write hstage hring hmore
      | _ => cases h

/-! ## The invariant -/

/-- **A side enters its next call**, or none. -/
theorem Inv.enter (hring : ∀ j, Spsc.Inv RING_SIZE (n.rings j))
    (hpeer : Connected (n.ends i.peer) (n.rings i.peer) (n.rings i))
    {e : Endpoint} (hidle : Connected { e with stage := .idle } (n.rings i)
      (n.rings i.peer)) (hready : e.stage.Ready e.session.chat) :
    (n.enter i e).Inv := by
  obtain ⟨t, stage⟩ := e
  have hreading : (n.rings i.peer).reading = .idle := hidle.reading
  have hwriting : (n.rings i).writing = .idle := hidle.writing
  cases stage with
  | idle =>
      refine ⟨hring, both i ?_ ?_⟩
      · rw [enter_self]
        exact hidle
      · rw [enter_peer, Side.peer_peer]
        exact hpeer
  | receiving callback =>
      obtain ⟨heq, hinv⟩ := (hring i.peer).startRead DEFAULT_MAX_READ_SIZE
      have hrings : ((n.enter i ⟨t, .receiving callback⟩).rings i.peer) =
        (n.rings i.peer).startRead DEFAULT_MAX_READ_SIZE := setRing_self _
      have hrings' : ((n.enter i ⟨t, .receiving callback⟩).rings i) =
        n.rings i := setRing_peer_self _
      refine ⟨both i ?_ ?_, both i ?_ ?_⟩
      · rw [hrings']
        exact hring i
      · rw [hrings]
        exact hinv
      · rw [enter_self, hrings, hrings', heq]
        exact ⟨hidle.sound, hready, hidle.sent, hidle.got,
          ⟨nofun, Nat.le_refl _⟩, hwriting, hidle.unbroken⟩
      · rw [enter_peer, Side.peer_peer, hrings, hrings', heq]
        exact hpeer.of_eq rfl rfl rfl rfl
  | sending callback =>
      obtain ⟨heq, hinv⟩ :=
        (hring i).startWrite t.chat.mTransmitBuffer.getData
      have hrings : ((n.enter i ⟨t, .sending callback⟩).rings i) =
        (n.rings i).startWrite t.chat.mTransmitBuffer.getData := setRing_self _
      have hrings' : ((n.enter i ⟨t, .sending callback⟩).rings i.peer) =
        n.rings i.peer := setRing_peer _
      refine ⟨both i ?_ ?_, both i ?_ ?_⟩
      · rw [hrings]
        exact hinv
      · rw [hrings']
        exact hring i.peer
      · rw [enter_self, hrings, hrings', heq]
        exact ⟨hidle.sound, hready, hidle.sent, hidle.got, hreading,
          ⟨nofun, rfl⟩, hidle.unbroken⟩
      · rw [enter_peer, Side.peer_peer, hrings, hrings', heq]
        exact hpeer.of_eq rfl rfl rfl rfl

/-- A side that comes to `e` goes on with the events that lead there, whatever
has become of the rings. -/
theorem moves_enter {m : SharedChat} {e : Endpoint} {es : List Event}
    (hends : m.ends = n.ends) (hfrom : e.From (n.ends i).session es) :
    n.Moves i es (m.enter i e) where
  emits := by
    rw [enter_self]
    exact hfrom.emits
  trace := by
    rw [enter_self]
    exact hfrom.trace
  peer := by rw [enter_peer, hends]

/-- A side outside of every call comes to `e` without touching a ring. -/
theorem Inv.act (h : n.Inv) (hidle : (n.ends i).stage = .idle)
    {e : Endpoint} {es : List Event} (hfrom : e.From (n.ends i).session es)
    (hlocal : Local es) :
    (n.enter i e).Inv ∧ n.Moves i es (n.enter i e) := by
  obtain ⟨hsound, -, hsent, hgot, hreading, hwriting, hunbroken⟩ :=
    h.connected i
  rw [hidle] at hreading hwriting
  have hpeer := h.connected i.peer
  rw [Side.peer_peer] at hpeer
  have hsound' : e.session.Sound := by
    have hafter := hsound.emits hfrom.emits
    rw [← hfrom.trace] at hafter
    exact hafter
  refine ⟨Inv.enter h.ring hpeer ⟨hsound', trivial, ?_, ?_, hreading,
    hwriting, ?_⟩ hfrom.ready, moves_enter rfl hfrom⟩
  · rw [hfrom.trace, accepted_append, hlocal.accepted_eq, List.append_nil]
    exact hsent
  · rw [hfrom.trace, received_append, hlocal.received_eq, List.append_nil]
    exact hgot
  · rw [hfrom.trace, broken_append, hlocal.broken_eq, Bool.or_false]
    exact hunbroken

/-! ## The accesses -/

variable {callback : Option Callback} {ring : Spsc.State}

/-- An access of a `read` keeps both rings and concerns the peer in nothing. -/
theorem Inv.readerNext (h : n.Inv)
    (hring : (n.rings i.peer).readerNext = some ring)
    {bytes : List UInt8} (hreads : State.Reads DEFAULT_MAX_READ_SIZE
      (n.rings i.peer) ring bytes) :
    (∀ j, Spsc.Inv RING_SIZE ((n.setRing i.peer ring).rings j)) ∧
      Connected ((n.setRing i.peer ring).ends i.peer)
        ((n.setRing i.peer ring).rings i.peer)
        ((n.setRing i.peer ring).rings i) := by
  have hpeer := h.connected i.peer
  rw [Side.peer_peer] at hpeer
  refine ⟨both i ?_ ?_, ?_⟩
  · rw [setRing_peer_self]
    exact h.ring i
  · rw [setRing_self]
    exact (h.ring i.peer).readerNext (by decide) (by decide) hring
  · rw [setRing_self, setRing_peer_self]
    exact hpeer.of_eq hreads.accepted hreads.writing rfl rfl

theorem Inv.writerNext (h : n.Inv)
    (hring : (n.rings i).writerNext = some ring)
    {offered bytes : List UInt8}
    (hwrites : State.Writes offered (n.rings i) ring bytes) :
    (∀ j, Spsc.Inv RING_SIZE ((n.setRing i ring).rings j)) ∧
      Connected ((n.setRing i ring).ends i.peer)
        ((n.setRing i ring).rings i.peer) ((n.setRing i ring).rings i) := by
  have hpeer := h.connected i.peer
  rw [Side.peer_peer] at hpeer
  refine ⟨both i ?_ ?_, ?_⟩
  · rw [setRing_self]
    exact (h.ring i).writerNext (by decide) (by decide) hring
  · rw [setRing_peer]
    exact h.ring i.peer
  · rw [setRing_self, setRing_peer]
    exact hpeer.of_eq rfl rfl hwrites.returned hwrites.reading

/-- Inside a `read`. -/
theorem Inv.read (h : n.Inv) (hstage : (n.ends i).stage = .receiving callback)
    (hring : (n.rings i.peer).readerNext = some ring)
    (hmore : ring.reading ≠ .idle) :
    (n.setRing i.peer ring).Inv ∧ n.Moves i [] (n.setRing i.peer ring) := by
  obtain ⟨hsound, hready, hsent, hgot, hreading, hwriting, hunbroken⟩ :=
    h.connected i
  rw [hstage] at hreading hwriting
  obtain ⟨bytes, hreads⟩ :=
    readerNext_reads (by decide) hreading.2 hring
  obtain ⟨hrings, hpeer⟩ := h.readerNext hring hreads
  refine ⟨⟨hrings, both i ?_ ?_⟩, .refl _, (List.append_nil _).symm, rfl⟩
  · rw [setRing_self, setRing_peer_self, setRing_ends]
    refine ⟨hsound, hready, hsent, ?_, ?_, ?_, hunbroken⟩
    · rw [hreads.returned, hreads.goes_on hmore, List.append_nil]
      exact hgot
    · rw [hstage]
      exact ⟨hmore, hreads.within⟩
    · rw [hstage]
      exact hwriting
  · rw [Side.peer_peer]
    exact hpeer

/-- **The last access of a `read`**: `receive` returns, and `poll` goes on. -/
theorem Inv.readLast (h : n.Inv)
    (hstage : (n.ends i).stage = .receiving callback)
    (hring : (n.rings i.peer).readerNext = some ring)
    (hlast : ring.reading = .idle) {e : Endpoint}
    (he : e = .received (n.ends i).session callback
      (WsocketSharedMemory.receiveAnswer
        (ring.returned.drop (n.rings i.peer).returned.length))) :
    ((n.setRing i.peer ring).enter i e).Inv ∧
      ∃ es, n.Moves i es ((n.setRing i.peer ring).enter i e) := by
  obtain ⟨hsound, hready, hsent, hgot, hreading, hwriting, hunbroken⟩ :=
    h.connected i
  rw [hstage] at hready hreading hwriting
  obtain ⟨hlive, hroom⟩ := hready
  obtain ⟨bytes, hreads⟩ :=
    readerNext_reads (by decide) hreading.2 hring
  obtain ⟨hrings, hpeer⟩ := h.readerNext hring hreads
  rw [hreads.returned, List.drop_left] at he
  subst he
  obtain ⟨es, hfrom, hreceived, haccepted, hbroken⟩ :=
    Endpoint.received_from hsound.valid hlive hroom callback hreads.length_le
  have hsound' := hsound.emits hfrom.emits
  rw [← hfrom.trace] at hsound'
  refine ⟨Inv.enter hrings hpeer ?_ hfrom.ready, es,
    moves_enter (setRing_ends ..) hfrom⟩
  · rw [setRing_self, setRing_peer_self]
    refine ⟨hsound', trivial, ?_, ?_, hlast, hwriting, ?_⟩
    · rw [hfrom.trace, accepted_append, haccepted, List.append_nil]
      exact hsent
    · rw [hfrom.trace, received_append, hreceived, hreads.returned, hgot]
    · rw [hfrom.trace, broken_append, hbroken, Bool.or_false]
      exact hunbroken

/-- Inside a `write`. -/
theorem Inv.write (h : n.Inv) (hstage : (n.ends i).stage = .sending callback)
    (hring : (n.rings i).writerNext = some ring)
    (hmore : ring.writing ≠ .idle) :
    (n.setRing i ring).Inv ∧ n.Moves i [] (n.setRing i ring) := by
  obtain ⟨hsound, hready, hsent, hgot, hreading, hwriting, hunbroken⟩ :=
    h.connected i
  rw [hstage] at hreading hwriting
  obtain ⟨bytes, hwrites⟩ := writerNext_writes hwriting.2 hring
  obtain ⟨hrings, hpeer⟩ := h.writerNext hring hwrites
  refine ⟨⟨hrings, both i ?_ ?_⟩, .refl _, (List.append_nil _).symm, rfl⟩
  · rw [setRing_self, setRing_peer, setRing_ends]
    refine ⟨hsound, hready, ?_, hgot, ?_, ?_, hunbroken⟩
    · rw [hwrites.accepted, hwrites.goes_on hmore, List.append_nil]
      exact hsent
    · rw [hstage]
      exact hreading
    · rw [hstage]
      exact ⟨hmore, hwrites.of⟩
  · rw [Side.peer_peer]
    exact hpeer

/-- **The last access of a `write`**: `send` returns, and `poll` goes on. -/
theorem Inv.writeLast (h : n.Inv) (hstage : (n.ends i).stage = .sending callback)
    (hring : (n.rings i).writerNext = some ring)
    (hlast : ring.writing = .idle) {e : Endpoint}
    (he : e = .sent (n.ends i).session callback
      (WsocketSharedMemory.sendAnswer
        (ring.accepted.length - (n.rings i).accepted.length))) :
    ((n.setRing i ring).enter i e).Inv ∧
      ∃ es, n.Moves i es ((n.setRing i ring).enter i e) := by
  obtain ⟨hsound, hready, hsent, hgot, hreading, hwriting, hunbroken⟩ :=
    h.connected i
  rw [hstage] at hready hreading hwriting
  obtain ⟨hlive, hsize⟩ := hready
  obtain ⟨bytes, hwrites⟩ := writerNext_writes hwriting.2 hring
  obtain ⟨hrings, hpeer⟩ := h.writerNext hring hwrites
  rw [hwrites.accepted, List.length_append, Nat.add_sub_cancel_left] at he
  subst he
  obtain ⟨es, hfrom, hreceived, haccepted, hbroken⟩ :=
    Endpoint.sent_from hsound.valid hlive hsize callback hwrites.inOrder
  have hsound' := hsound.emits hfrom.emits
  rw [← hfrom.trace] at hsound'
  refine ⟨Inv.enter hrings hpeer ?_ hfrom.ready, es,
    moves_enter (setRing_ends ..) hfrom⟩
  · rw [setRing_self, setRing_peer]
    refine ⟨hsound', trivial, ?_, ?_, hreading, hlast, ?_⟩
    · rw [hfrom.trace, accepted_append, haccepted, hwrites.accepted, hsent]
    · rw [hfrom.trace, received_append, hreceived, List.append_nil]
      exact hgot
    · rw [hfrom.trace, broken_append, hbroken, Bool.or_false]
      exact hunbroken

/-- **Every step.** -/
theorem Inv.goes (h : n.Inv) (hgoes : n.Goes i n') :
    n'.Inv ∧ ∃ es, n.Moves i es n' := by
  cases hgoes with
  | sendText str hstage =>
      have hqueued : Local ((n.ends i).session.chat.sendText str).2 :=
        fun e he => by
          rw [List.mem_singleton.mp he]
          rfl
      have hfrom : Endpoint.From (n.ends i).session _
        ⟨(n.ends i).session.call (.sendText str), .idle⟩ :=
        ⟨sendText_emits _ str, rfl, trivial⟩
      obtain ⟨hinv, hmoves⟩ := h.act hstage hfrom hqueued
      exact ⟨hinv, _, hmoves⟩
  | close hstage =>
      have hclosing : Local (n.ends i).session.chat.close.2 := by
        unfold SocketChatImpl.close
        split
        · exact .nil
        · intro e he
          rw [List.mem_singleton.mp he]
          rfl
      have hfrom : Endpoint.From (n.ends i).session _
        ⟨(n.ends i).session.call .close, .idle⟩ :=
        ⟨close_emits _, rfl, trivial⟩
      obtain ⟨hinv, hmoves⟩ := h.act hstage hfrom hclosing
      exact ⟨hinv, _, hmoves⟩
  | poll callback timeout hstage =>
      obtain ⟨es, hfrom, hlocal⟩ := Endpoint.poll_from
        (h.connected i).sound.valid callback timeout
      obtain ⟨hinv, hmoves⟩ := h.act hstage hfrom hlocal
      exact ⟨hinv, _, hmoves⟩
  | read hstage hring hmore =>
      obtain ⟨hinv, hmoves⟩ := h.read hstage hring hmore
      exact ⟨hinv, _, hmoves⟩
  | received hstage hring hlast => exact h.readLast hstage hring hlast rfl
  | write hstage hring hmore =>
      obtain ⟨hinv, hmoves⟩ := h.write hstage hring hmore
      exact ⟨hinv, _, hmoves⟩
  | sent hstage hring hlast => exact h.writeLast hstage hring hlast rfl

end SharedChat

/-! ## Every run -/

/-- What a server leaves in the header of a file. -/
def initialHeader : SharedMemoryHeader :=
  ⟨cSharedMemoryVersion, SHARED_BUFFER_SIZE, 0, 0, 0⟩

theorem toU32_SHARED_BUFFER_SIZE :
    toU32 SHARED_BUFFER_SIZE = SHARED_BUFFER_SIZE := toU32_of_lt (by decide)

/-- The server attaches to both files whatever they hold. -/
theorem construct_server (files : SharedFiles) :
    WsocketSharedMemory.construct ⟨SHARED_SERVER, by decide⟩
        (some SHARED_BUFFER_SIZE) (some SHARED_BUFFER_SIZE) files =
      (⟨true, 0, true, ⟨true, RING_SIZE, false⟩, ⟨true, RING_SIZE, true⟩,
        some SHARED_BUFFER_SIZE, some SHARED_BUFFER_SIZE⟩,
        ⟨⟨initialHeader, files.server.base⟩,
          ⟨initialHeader, files.client.base⟩⟩) := by
  have hinit := @init_server SHARED_BUFFER_SIZE (by decide) (by decide)
  unfold WsocketSharedMemory.construct
  simp only [toU32_SHARED_BUFFER_SIZE, hinit, decide_true, if_true]
  rfl

/-- The client attaches to both files of a server. -/
theorem construct_client {files : SharedFiles}
    (hserver : files.server.header = initialHeader)
    (hclient : files.client.header = initialHeader) :
    WsocketSharedMemory.construct ⟨SHARED_CLIENT, by decide⟩
        (some SHARED_BUFFER_SIZE) (some SHARED_BUFFER_SIZE) files =
      (⟨true, 0, false, ⟨true, RING_SIZE, false⟩, ⟨true, RING_SIZE, true⟩,
        some SHARED_BUFFER_SIZE, some SHARED_BUFFER_SIZE⟩,
        ⟨files.server, ⟨{ initialHeader with mSequenceNumber := 1 },
          files.client.base⟩⟩) := by
  have hinit := fun (memory : SharedMemory)
      (h : memory.header = initialHeader) (isWriter : Bool) =>
    @init_client SHARED_BUFFER_SIZE (by decide) (by decide) memory isWriter
      (congrArg SharedMemoryHeader.mVersionNumber h)
      (congrArg SharedMemoryHeader.mBufferSize h)
  have hother : decide (SHARED_CLIENT = SHARED_SERVER) = false := by decide
  have hone : add32 initialHeader.mSequenceNumber 1 = 1 :=
    add32_of_lt (by decide)
  unfold WsocketSharedMemory.construct
  simp only [toU32_SHARED_BUFFER_SIZE, hinit _ hserver, hinit _ hclient,
    hother, Bool.false_eq_true, if_false, SPSC.incrementSequenceNumber,
    if_true, hclient, hone]
  rfl

/-- A ring to which both sides are attached and in which nothing has been
written. -/
theorem ring_empty {memory : SharedMemory}
    (hsize : memory.base.size + HEADER_SIZE = SHARED_BUFFER_SIZE)
    (hread : memory.header.mReadIndex = 0)
    (hwrite : memory.header.mWriteIndex = 0) :
    Spsc.Inv RING_SIZE ⟨memory, ⟨true, RING_SIZE, true⟩,
      ⟨true, RING_SIZE, false⟩, .idle, .idle, [], []⟩ where
  attached := ⟨Nat.eq_sub_of_add_eq hsize, rfl, rfl⟩
  window := ⟨hread, hwrite, List.nil_prefix, Nat.zero_le _, Holds.nil⟩
  writing := trivial
  reading := trivial

theorem create_inv {files : SharedFiles}
    (hserver : files.server.base.size + HEADER_SIZE = SHARED_BUFFER_SIZE)
    (hclient : files.client.base.size + HEADER_SIZE = SHARED_BUFFER_SIZE) :
    (SharedChat.create files).Inv := by
  unfold SharedChat.create
  dsimp only
  rw [construct_server, construct_client rfl rfl]
  refine ⟨fun i => ?_, fun i => ?_⟩
  · cases i with
    | A => exact ring_empty hserver rfl rfl
    | B => exact ring_empty hclient rfl rfl
  · refine ⟨.construct _, trivial, ?_, ?_, ?_, ?_, rfl⟩ <;> cases i <;> rfl

theorem sharedChat_invariant : sharedChat.Invariant SharedChat.Inv where
  init := by
    rintro n ⟨files, hserver, hclient, rfl⟩
    exact create_inv hserver hclient
  step n act n' _ h hstep := (h.goes (SharedChat.next_goes hstep)).1

end Socketchat.Shared
