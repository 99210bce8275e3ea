import Socketchat.Chat.Exchange
import Socketchat.Chat.Stalling
import Socketchat.Shared.Returning

/-!
# Everything gets through

A ring holds far less than a transmit buffer, and it may be full. Still nothing
gets stuck: if the two sides poll in turn, each `poll` empties the ring it reads
and fills the one it writes, so what is pending shrinks round by round.
-/

namespace Socketchat.Shared

open Foundation Buffer Chat Spsc Sockets SocketChatImpl

/-- With room to spare, what there is to read is read. -/
theorem incoming_receiveAnswers (fuel : ℕ) :
    ∀ {b : SimpleBuffer} {unread : List UInt8},
    b.Doubled DEFAULT_MAX_READ_SIZE →
    b.mMaxGrowSize = DEFAULT_MAXIMUM_BUFFER_SIZE → unread.length ≤ fuel →
    b.getSize + unread.length + 3 * DEFAULT_MAX_READ_SIZE ≤ spareLimit →
    incoming b (receiveAnswers fuel unread) = (unread, false) := by
  induction fuel with
  | zero =>
      intro b unread _ _ hfuel _
      rw [List.eq_nil_of_length_eq_zero (Nat.le_zero.mp hfuel)]
      rfl
  | succ fuel ih =>
      intro b unread h hcap hfuel hspare
      cases unread with
      | nil => rfl
      | cons y ys =>
          have hroom := hasRoom_of_spare h.valid hcap
            (n := DEFAULT_MAX_READ_SIZE) (by omega)
          obtain ⟨x, xs, htake⟩ : ∃ x xs, (y :: ys).take
              DEFAULT_MAX_READ_SIZE = x :: xs := ⟨y, _, rfl⟩
          have hlen : (x :: xs).length ≤ DEFAULT_MAX_READ_SIZE := by
            rw [← htake, List.length_take]
            exact Nat.min_le_left ..
          have hsplit : (x :: xs).length +
              ((y :: ys).drop DEFAULT_MAX_READ_SIZE).length =
                (y :: ys).length := by
            rw [← htake, ← List.length_append, List.take_append_drop]
          have hanswers : receiveAnswers (fuel + 1) (y :: ys) =
              .bytes x xs ::
                receiveAnswers fuel ((y :: ys).drop DEFAULT_MAX_READ_SIZE) := by
            rw [receiveAnswers, if_neg (List.cons_ne_nil y ys), htake]
            rfl
          have hsize := h.getSize_fill (by decide) hlen hroom
          have hfill := h.fill hlen
          have hshorter : ((y :: ys).drop DEFAULT_MAX_READ_SIZE).length ≤
              fuel := by
            rw [List.length_cons] at hsplit
            omega
          have hrest := ih hfill.doubled (hfill.cap_eq.trans hcap) hshorter
            (by omega)
          rw [hanswers, incoming, if_pos hroom]
          dsimp only
          rw [List.take_of_length_le hlen, hrest, ← htake,
            List.take_append_drop]

theorem outgoing_sendAnswer (data : List UInt8) (k : ℕ) :
    outgoing data [WsocketSharedMemory.sendAnswer k] = data.take k := by
  cases k with
  | zero => rfl
  | succ k => exact List.append_nil _

/-! ## Polling in turn -/

/-- The application prints what it gets. -/
def listening : Callback := fun _ => []

namespace SharedChat

variable (n : SharedChat) (i : Side)

/-- The bytes that side `i` has yet to write to its ring. -/
def pending : List UInt8 := (n.ends i).session.chat.mTransmitBuffer.getData

/-- The bytes that side `i` has read and not passed on. -/
def held : List UInt8 := (n.ends i).session.chat.mReceiveBuffer.getData

/-- The bytes underway from side `i`. -/
def underway : List UInt8 :=
  n.held i.peer ++ ((n.rings i).unread ++ n.pending i)

/-- From `n` to `n'` the sides do nothing but poll. -/
def Leads (n n' : SharedChat) : Prop :=
  ∃ moves, sharedChat.Run n moves n' ∧
    ∀ act ∈ moves, act.2 = .poll (some listening) 0 ∨ act.2 = .access

variable {n n' n'' : SharedChat} {i : Side}

theorem Leads.trans (h : Leads n n') (h' : Leads n' n'') : Leads n n'' := by
  obtain ⟨moves, hrun, hmoves⟩ := h
  obtain ⟨moves', hrun', hmoves'⟩ := h'
  exact ⟨moves ++ moves', hrun.trans hrun', fun act hact =>
    (List.mem_append.mp hact).elim (hmoves act) (hmoves' act)⟩

theorem Leads.single {callback : Option Callback} {k : ℕ}
    (hcallback : callback = some listening)
    (h : sharedChat.Run n ((i, .poll callback 0) :: accesses i k) n') :
    Leads n n' := by
  refine ⟨_, h, fun act hact => ?_⟩
  rcases List.mem_cons.mp hact with rfl | hact
  · exact Or.inl (congrArg (Move.poll · 0) hcallback)
  · exact Or.inr (congrArg Prod.snd (List.eq_of_mem_replicate hact))

/-- Both connections are open and between calls; every text is whole, and the
receive buffers have room to spare for all that is underway. -/
structure Calm (n : SharedChat) : Prop where
  reachable : sharedChat.Reachable n
  idle : ∀ i, (n.ends i).stage = .idle
  isOpen : ∀ i, (n.ends i).session.chat.mReadyState = .OPEN
  whole : ∀ i, Whole (n.ends i).session.trace
  spare : ∀ i, (n.underway i).length + 3 * DEFAULT_MAX_READ_SIZE ≤ spareLimit

/-- What is passed on is underway no longer. -/
theorem underway_le (hn : sharedChat.Reachable n)
    (hn' : sharedChat.Reachable n') (hwhole : Whole (n.ends i).session.trace)
    (hwhole' : Whole (n'.ends i).session.trace)
    (htexts : texts (n'.ends i).session.trace = texts (n.ends i).session.trace)
    (hmore : messages (n.ends i.peer).session.trace <+:
      messages (n'.ends i.peer).session.trace) :
    (n'.underway i).length ≤ (n.underway i).length := by
  obtain ⟨hstream, -⟩ := (sharedChat_pipe hn i).stream hwhole
  obtain ⟨hstream', -⟩ := (sharedChat_pipe hn' i).stream hwhole'
  obtain ⟨more, hmore⟩ := hmore
  rw [htexts, hstream, ← hmore, List.map_append,
    show frame (_ ++ _) = frame _ ++ frame _ from Framing.frame_append ..,
    List.append_assoc, List.append_cancel_left_eq] at hstream'
  have hsuffix : n'.underway i <:+ n.underway i := ⟨_, hstream'.symm⟩
  exact hsuffix.length_le

/-- Side `i` has been left alone in a `poll`, with these events. -/
structure Exchanged (n : SharedChat) (i : Side) (es : List Event)
    (n' : SharedChat) : Prop where
  leads : Leads n n'
  idle : (n'.ends i).stage = .idle
  isOpen : (n'.ends i).session.chat.mReadyState = .OPEN
  trace : (n'.ends i).session.trace = (n.ends i).session.trace ++ es
  silent : Silent es
  received : received es = (n.rings i.peer).unread
  accepted : accepted es = (n.pending i).take (n.free i)
  held : Free (n'.held i)
  peer : n'.ends i.peer = n.ends i.peer

theorem Leads.reachable (h : Leads n n') (hn : sharedChat.Reachable n) :
    sharedChat.Reachable n' := by
  obtain ⟨moves, hrun, -⟩ := h
  exact hrun.reachable hn

theorem Calm.exchanges (h : n.Calm) (i : Side) :
    ∃ n' es, Exchanged n i es n' := by
  have ht := session_of_idle (sharedChat_polling.holds h.reachable i) (h.idle i)
  have hvalid := (session_inbound ht).1
  have hwords := session_words ht
  obtain ⟨htx, -, -⟩ := (h.whole i).outbound ht
  obtain ⟨hdoubled, hcap⟩ := session_doubled ht
  have hlive : (n.ends i).session.chat.Live :=
    ⟨session_socket_ne_none ht, by rw [h.isOpen i]; decide⟩
  obtain ⟨k, n', hrun, hend, hstays⟩ :=
    poll_alone h.reachable (h.idle i) (some listening) 0
  have hpeer := hstays.ends
  have hleads : Leads n n' := .single rfl hrun
  have htrace : (n'.ends i).session.trace = (n.ends i).session.trace ++
      ((n.ends i).session.chat.poll (some listening) 0 (n.answers i)).2 := by
    rw [hend]
    rfl
  have hunbroken : broken ((n.ends i).session.chat.poll (some listening) 0
      (n.answers i)).2 = false := by
    have hinv' := sharedChat_invariant.holds (hleads.reachable h.reachable)
    have hall := (hinv'.connected i).unbroken
    rw [htrace, broken_append, Bool.or_eq_false_iff] at hall
    exact hall.2
  -- all there is to read is read: there is room for it
  have hin : incoming (n.ends i).session.chat.mReceiveBuffer
      (n.answers i).recvs = ((n.rings i.peer).unread, false) := by
    refine incoming_receiveAnswers _ hdoubled hcap (Nat.le_refl _) ?_
    have hspare := h.spare i.peer
    rw [underway, List.length_append, List.length_append, held, Side.peer_peer,
      SimpleBuffer.length_getData] at hspare
    omega
  have hreceived := poll_received hvalid hlive (some listening) 0 (n.answers i)
  have haccepted := poll_accepted hvalid htx hlive (some listening) 0
    (n.answers i)
  rw [hin] at hreceived haccepted
  refine ⟨n', _, hleads, ?_, ?_, htrace,
    poll_silent hvalid quiet_listener 0 (n.answers i), hreceived,
    haccepted.trans (outgoing_sendAnswer ..), ?_, hpeer⟩
  · rw [hend]
  · rw [hend]
    exact poll_open hvalid hwords (h.isOpen i) (fun _ => rfl) 0 _ hunbroken
  · show Free (n'.ends i).session.chat.mReceiveBuffer.getData
    rw [hend]
    exact poll_free hvalid hwords hlive listening 0 _
      (not_fails hvalid hwords hlive _ 0 _ hunbroken)

/-- A `poll` of side `i`, left alone, has led from `n` to `n'`. -/
structure Polled (n : SharedChat) (i : Side) (n' : SharedChat) : Prop where
  leads : Leads n n'
  calm : Calm n'
  texts : ∀ j, texts (n'.ends j).session.trace =
    texts (n.ends j).session.trace
  peer : n'.ends i.peer = n.ends i.peer
  read : (n'.rings i.peer).unread = []
  written : (n'.rings i).unread =
    (n.rings i).unread ++ (n.pending i).take (n.free i)
  pending : n'.pending i = (n.pending i).drop (n.free i)
  held : Free (n'.held i)

variable {es : List Event}

/-- The ring that has been read is empty, and the other one holds what has been
put out. -/
theorem Exchanged.rings (h : Exchanged n i es n') (hn : n.Inv) (hn' : n'.Inv) :
    (n'.rings i.peer).unread = [] ∧
    (n'.rings i).unread =
      (n.rings i).unread ++ (n.pending i).take (n.free i) := by
  constructor
  · rw [(hn'.flight i).1, h.peer, h.trace, received_append, h.received,
      List.length_append, ← List.drop_drop, ← (hn.flight i).1,
      List.drop_length]
  · obtain ⟨hunread, hprefix⟩ := hn.flight i.peer
    obtain ⟨hunread', -⟩ := hn'.flight i.peer
    rw [Side.peer_peer] at hunread hunread' hprefix
    rw [hunread', h.peer, h.trace, accepted_append, h.accepted, hunread,
      List.drop_append_of_le_length hprefix.length_le]

/-- What has been put out is pending no longer. -/
theorem Exchanged.pending (h : Exchanged n i es n') (hn : n.Inv) (hn' : n'.Inv)
    (hwhole : Whole (n.ends i).session.trace) :
    n'.pending i = (n.pending i).drop (n.free i) := by
  have hwhole' : Whole (n'.ends i).session.trace := by
    rw [h.trace]
    exact hwhole.silent h.silent
  have hplaced := (hn.connected i).sound.placed_eq hwhole.short
  have hplaced' := (hn'.connected i).sound.placed_eq hwhole'.short
  rw [h.trace, placed_append, h.silent.placed_eq, List.append_nil, hplaced,
    accepted_append, h.accepted, List.append_assoc,
    List.append_cancel_left_eq] at hplaced'
  have hsplit := hplaced'.symm.trans
    (List.take_append_drop (n.free i) (n.pending i)).symm
  exact List.append_cancel_left hsplit

/-- **One poll** takes in what the one ring holds and puts out what fits into
the other. -/
theorem Calm.poll (h : n.Calm) (i : Side) : ∃ n', Polled n i n' := by
  obtain ⟨n', es, hes⟩ := h.exchanges i
  have hn' := hes.leads.reachable h.reachable
  have hinv := sharedChat_invariant.holds h.reachable
  have hinv' := sharedChat_invariant.holds hn'
  obtain ⟨hread, hwritten⟩ := hes.rings hinv hinv'
  have hwhole' : ∀ j, Whole (n'.ends j).session.trace := by
    refine both i ?_ ?_
    · rw [hes.trace]
      exact (h.whole i).silent hes.silent
    · rw [hes.peer]
      exact h.whole _
  have htexts : ∀ j, texts (n'.ends j).session.trace =
      texts (n.ends j).session.trace := by
    refine both i ?_ ?_
    · rw [hes.trace, texts_append, hes.silent.texts_eq, List.append_nil]
    · rw [hes.peer]
  have hmessages : ∀ j, messages (n.ends j).session.trace <+:
      messages (n'.ends j).session.trace := by
    refine both i ?_ ?_
    · rw [hes.trace, messages_append]
      exact List.prefix_append ..
    · rw [hes.peer]
  refine ⟨n', hes.leads, ⟨hn', ?_, ?_, hwhole', fun j => ?_⟩, htexts, hes.peer,
    hread, hwritten, hes.pending hinv hinv' (h.whole i), hes.held⟩
  · refine both i hes.idle ?_
    rw [hes.peer]
    exact h.idle _
  · refine both i hes.isOpen ?_
    rw [hes.peer]
    exact h.isOpen _
  · have hle := underway_le h.reachable hn' (h.whole j) (hwhole' j) (htexts j)
      (hmessages j.peer)
    have hspare := h.spare j
    omega

/-! ## Rounds -/

/-- What an empty ring takes. -/
def RING_ROOM : ℕ := RING_SIZE - 2

/-- Both sides have polled, the server first. -/
structure Round (n n' : SharedChat) : Prop where
  leads : Leads n n'
  calm : Calm n'
  texts : ∀ i, texts (n'.ends i).session.trace =
    texts (n.ends i).session.trace
  read : (n'.rings .A).unread = []
  written : (n'.rings .B).unread = (n.pending .B).take RING_ROOM
  pending : ∀ i, n'.pending i = (n.pending i).drop RING_ROOM
  held : ∀ i, Free (n'.held i)

theorem free_of_empty (h : (n.rings i).unread = []) : n.free i = RING_ROOM := by
  rw [free, h]
  rfl

/-- **One round.** Each side finds the ring it writes empty. -/
theorem Calm.round (h : n.Calm) (hempty : (n.rings .A).unread = []) :
    ∃ n', Round n n' := by
  obtain ⟨m, hserver⟩ := h.poll .A
  obtain ⟨n', hclient⟩ := hserver.calm.poll .B
  have hread : (m.rings .B).unread = [] := hserver.read
  have hother : n'.ends .A = m.ends .A := hclient.peer
  have hpeer : m.ends .B = n.ends .B := hserver.peer
  have hwaiting : m.pending .B = n.pending .B := by
    rw [pending, pending, hpeer]
  refine ⟨n', hserver.leads.trans hclient.leads, hclient.calm,
    fun i => (hclient.texts i).trans (hserver.texts i), hclient.read, ?_, ?_, ?_⟩
  · rw [hclient.written, hread, free_of_empty hread, hwaiting, List.nil_append]
  · intro i
    cases i with
    | A =>
        show (n'.ends .A).session.chat.mTransmitBuffer.getData = _
        rw [hother]
        exact hserver.pending.trans (by rw [free_of_empty hempty])
    | B => rw [hclient.pending, free_of_empty hread, hwaiting]
  · intro i
    cases i with
    | A =>
        show Free (n'.ends .A).session.chat.mReceiveBuffer.getData
        rw [hother]
        exact hserver.held
    | B => exact hclient.held

/-- Nothing is underway but what is not complete. -/
structure Drained (n : SharedChat) : Prop where
  unread : ∀ i, (n.rings i).unread = []
  pending : ∀ i, n.pending i = []
  held : ∀ i, Free (n.held i)

/-- **Round by round** what is pending gets less, and so there is an end. -/
theorem Calm.drains (size : ℕ) : ∀ {n : SharedChat}, n.Calm →
    (n.rings .A).unread = [] →
    (n.pending .A).length + (n.pending .B).length = size →
    ∃ n', Leads n n' ∧ Calm n' ∧ Drained n' ∧
      ∀ i, texts (n'.ends i).session.trace =
        texts (n.ends i).session.trace := by
  induction size using Nat.strong_induction_on with
  | h size ih =>
      intro n h hempty hsize
      obtain ⟨m, hround⟩ := h.round hempty
      have hroom : 0 < RING_ROOM := by decide
      by_cases hzero : size = 0
      · have hnil : ∀ i, n.pending i = [] := by
          intro i
          apply List.eq_nil_of_length_eq_zero
          cases i <;> omega
        refine ⟨m, hround.leads, hround.calm, ⟨?_, ?_, hround.held⟩,
          hround.texts⟩
        · intro i
          cases i with
          | A => exact hround.read
          | B => rw [hround.written, hnil, List.take_nil]
        · intro i
          rw [hround.pending, hnil, List.drop_nil]
      · have hless : (m.pending .A).length + (m.pending .B).length < size := by
          rw [hround.pending, hround.pending, List.length_drop,
            List.length_drop]
          omega
        obtain ⟨n', hleads, hcalm, hdrained, htexts⟩ :=
          ih _ hless hround.calm hround.read rfl
        exact ⟨n', hround.leads.trans hleads, hcalm, hdrained,
          fun i => (htexts i).trans (hround.texts i)⟩

end SharedChat

/-- **Main result.** From wherever two calm sides are, however much is pending
and however full the rings are, polls alone bring every text over: each side
has then passed on exactly what the other one has sent, and nothing is
underway. -/
theorem everything_gets_through {n : SharedChat} (h : n.Calm) :
    ∃ n', SharedChat.Leads n n' ∧ ∀ i : Side,
      texts (n'.ends i).session.trace = texts (n.ends i).session.trace ∧
      messages (n'.ends i.peer).session.trace =
        texts (n.ends i).session.trace ∧
      n'.underway i = [] := by
  -- the client makes room in the ring of the server
  obtain ⟨m, hfirst⟩ := h.poll .B
  obtain ⟨n', hleads, hcalm, hdrained, htexts⟩ :=
    hfirst.calm.drains _ hfirst.read rfl
  refine ⟨n', hfirst.leads.trans hleads, fun i => ?_⟩
  have hsame := (htexts i).trans (hfirst.texts i)
  have hunder : n'.underway i = n'.held i.peer := by
    rw [SharedChat.underway, hdrained.unread, hdrained.pending,
      List.append_nil, List.append_nil]
  have hpipe := sharedChat_pipe hcalm.reachable i
  have hall := hpipe.delivered_of_free (hcalm.whole i)
    (show Free (n'.underway i) from hunder ▸ hdrained.held i.peer)
  refine ⟨hsame, hall.trans hsame, ?_⟩
  obtain ⟨hstream, -⟩ := hpipe.stream (hcalm.whole i)
  rw [hall] at hstream
  exact List.self_eq_append_right.mp hstream

/-- The server has written `hi` to its ring, and the client has queued `yo`. -/
def crossing : List (Side × Move) :=
  List.flatten [
    [(.A, .sendText (some (cstring [104, 105]))), (.A, .poll none 0)],
    accesses .A 7,
    [(.B, .sendText (some (cstring [121, 111])))]]

theorem everything_gets_through_crossing : ∃ n n', sharedChat.Reachable n ∧
    (n.rings .A).unread = frame [[104, 105]] ∧ SharedChat.Leads n n' ∧
    messages (n'.ends .B).session.trace = [cstring [104, 105]] ∧
    messages (n'.ends .A).session.trace = [cstring [121, 111]] := by
  have hserver : (SharedChat.after crossing).map (fun n =>
      (n.ends .A).session.trace.flatMap Event.textsOut) =
      some [cstring [104, 105]] := by
    decide +kernel
  have hclient : (SharedChat.after crossing).map (fun n =>
      (n.ends .B).session.trace.flatMap Event.textsOut) =
      some [cstring [121, 111]] := by
    decide +kernel
  have hstate : (SharedChat.after crossing).map (fun n =>
      (n.rings .A).unread == frame [[104, 105]] &&
        [Side.A, Side.B].all fun i => (n.ends i).stage.isIdle &&
          decide ((n.ends i).session.chat.mReadyState = .OPEN) &&
          decide (NoneFailed (n.ends i).session.trace) &&
          decide ((n.underway i).length + 3 * DEFAULT_MAX_READ_SIZE ≤
            spareLimit)) = some true := by
    decide +kernel
  obtain ⟨n, hn, htexts⟩ := Option.map_eq_some_iff.mp hserver
  rw [hn, Option.map_some, Option.some.injEq] at hclient hstate
  simp only [List.all_cons, List.all_nil, Bool.and_true, Bool.and_eq_true,
    beq_iff_eq, decide_eq_true_eq] at hstate
  obtain ⟨hunread, ⟨⟨⟨hidle, hopen⟩, hqueued⟩, hspare⟩,
    ⟨⟨hidle', hopen'⟩, hqueued'⟩, hspare'⟩ := hstate
  have hs := SharedChat.after_reachable hn
  have htexts : texts (n.ends .A).session.trace = _ := htexts
  have hclient : texts (n.ends .B).session.trace = _ := hclient
  have hcalm : n.Calm := by
    refine ⟨hs, SharedChat.both .A (Stage.eq_idle hidle) (Stage.eq_idle hidle'),
      SharedChat.both .A hopen hopen', SharedChat.both .A ⟨?_, ?_, hqueued⟩
        ⟨?_, ?_, hqueued'⟩, SharedChat.both .A hspare hspare'⟩
    · rw [htexts]
      decide
    · rw [htexts]
      decide
    · rw [show texts (n.ends (Side.peer .A)).session.trace = _ from hclient]
      decide
    · rw [show texts (n.ends (Side.peer .A)).session.trace = _ from hclient]
      decide
  obtain ⟨n', hleads, hall⟩ := everything_gets_through hcalm
  exact ⟨n, n', hs, hunread, hleads, (hall .A).2.1.trans htexts,
    (hall .B).2.1.trans hclient⟩

end Socketchat.Shared
