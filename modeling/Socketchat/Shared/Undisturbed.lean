import Socketchat.Shared.Polls
import Socketchat.Spsc.Alone

/-!
# A poll that is left alone

Neither side ever waits for the other: with its own accesses alone a `poll` gets
to its end, also while the other process is stopped in the middle of a call. It
takes in what the one ring holds and puts out what fits into the other, and is
then `SocketChatImpl.poll` with just these answers.
-/

namespace Socketchat.Shared

open Foundation Buffer Chat Spsc Sockets SocketChatImpl

/-- What `receive` returns, call after call, when these bytes are unread and no
more come. -/
def receiveAnswers : ℕ → List UInt8 → List Received
  | 0, _ => []
  | fuel + 1, unread =>
      if unread = [] then
        []
      else
        WsocketSharedMemory.receiveAnswer (unread.take DEFAULT_MAX_READ_SIZE) ::
          receiveAnswers fuel (unread.drop DEFAULT_MAX_READ_SIZE)

namespace SharedChat

/-- The answers a `poll` of side `i` gets if the other process does nothing
meanwhile. -/
def answers (n : SharedChat) (i : Side) : Answers :=
  let unread := (n.rings i.peer).unread
  { recvs := receiveAnswers unread.length unread
    sends := [WsocketSharedMemory.sendAnswer
      (RING_SIZE - (n.rings i).unread.length - 2)] }

/-- Side `i` gets from `n` to `n'` with accesses alone. -/
def Alone (i : Side) (n n' : SharedChat) : Prop :=
  ∃ k, sharedChat.Run n (accesses i k) n'

namespace Alone

variable {n n' n'' : SharedChat} {i : Side}

theorem refl (n : SharedChat) : Alone i n n := ⟨0, .nil n⟩

theorem trans (h : Alone i n n') (h' : Alone i n' n'') : Alone i n n'' := by
  obtain ⟨k, hk⟩ := h
  obtain ⟨l, hl⟩ := h'
  refine ⟨k + l, ?_⟩
  have hrun := hk.trans hl
  rw [accesses, accesses, List.replicate_append_replicate] at hrun
  exact hrun

theorem single (h : SharedChat.next n i .access = some n') : Alone i n n' :=
  ⟨1, (System.Run.nil n).snoc (k := (i, Move.access)) h⟩

end Alone

variable {n : SharedChat} {i : Side} {callback : Option Callback}

theorem next_receiving (hstage : (n.ends i).stage = .receiving callback) :
    n.next i .access = n.readOn i callback := by
  unfold next
  rw [hstage]

theorem next_sending (hstage : (n.ends i).stage = .sending callback) :
    n.next i .access = n.writeOn i callback := by
  unfold next
  rw [hstage]

@[simp] theorem setRing_setRing (ring ring' : Spsc.State) :
    (n.setRing i ring).setRing i ring' = n.setRing i ring' := by
  unfold setRing
  rw [Function.update_idem]

/-- **`receive` gets to its end.** -/
theorem readRun_alone {s ring : Spsc.State} (hrun : ReadRun s ring) :
    ∀ {n : SharedChat}, n.rings i.peer = s →
    (n.ends i).stage = .receiving callback →
    s.reading.Within DEFAULT_MAX_READ_SIZE →
    Alone i n ((n.setRing i.peer ring).enter i
      (.received (n.ends i).session callback
        (WsocketSharedMemory.receiveAnswer
          (ring.returned.drop s.returned.length)))) := by
  induction hrun with
  | last hstep hidle =>
      rintro n rfl hstage -
      refine .single ?_
      rw [next_receiving hstage, readOn, hstep, Option.map_some]
      dsimp only
      rw [hidle]
  | @step s s' _ hstep hmore hrun ih =>
      rintro n rfl hstage hwithin
      obtain ⟨bytes, hreads⟩ :=
        readerNext_reads (by decide) hwithin hstep
      have hreturned := hreads.returned
      rw [hreads.goes_on hmore, List.append_nil] at hreturned
      have hnext : n.next i .access = some (n.setRing i.peer s') := by
        rw [next_receiving hstage, readOn, hstep, Option.map_some]
        split
        · rename_i hidle
          exact absurd hidle hmore
        · rfl
      have hrest := ih (n := n.setRing i.peer s') (setRing_self _) hstage
        hreads.within
      rw [setRing_setRing, hreturned] at hrest
      exact (Alone.single hnext).trans hrest

/-- **`send` gets to its end.** -/
theorem writeRun_alone {s ring : Spsc.State} (hrun : WriteRun s ring)
    {offered : List UInt8} :
    ∀ {n : SharedChat}, n.rings i = s →
    (n.ends i).stage = .sending callback → s.writing.Of offered →
    Alone i n ((n.setRing i ring).enter i
      (.sent (n.ends i).session callback
        (WsocketSharedMemory.sendAnswer
          (ring.accepted.length - s.accepted.length)))) := by
  induction hrun with
  | last hstep hidle =>
      rintro n rfl hstage -
      refine .single ?_
      rw [next_sending hstage, writeOn, hstep, Option.map_some]
      dsimp only
      rw [hidle]
  | @step s s' _ hstep hmore hrun ih =>
      rintro n rfl hstage hof
      obtain ⟨bytes, hwrites⟩ := writerNext_writes hof hstep
      have haccepted := hwrites.accepted
      rw [hwrites.goes_on hmore, List.append_nil] at haccepted
      have hnext : n.next i .access = some (n.setRing i s') := by
        rw [next_sending hstage, writeOn, hstep, Option.map_some]
        split
        · rename_i hidle
          exact absurd hidle hmore
        · rfl
      have hrest := ih (n := n.setRing i s') (setRing_self _) hstage hwrites.of
      rw [setRing_setRing, haccepted] at hrest
      exact (Alone.single hnext).trans hrest

/-! ## The transmit loop -/

variable (callback)

/-- What fits into the ring a side writes. -/
def free (n : SharedChat) (i : Side) : ℕ :=
  RING_SIZE - (n.rings i).unread.length - 2

theorem enter_sending {t : Session} (h : Spsc.Inv RING_SIZE (n.rings i)) :
    ((n.enter i ⟨t, .sending callback⟩).rings i).writing =
        .sizing t.chat.mTransmitBuffer.getData ∧
      (n.enter i ⟨t, .sending callback⟩).free i = n.free i := by
  have hrings : (n.enter i ⟨t, .sending callback⟩).rings i =
    (n.rings i).startWrite t.chat.mTransmitBuffer.getData := setRing_self _
  unfold free
  rw [hrings, (h.startWrite _).1]
  exact ⟨rfl, rfl⟩

theorem enter_sending_inv {t : Session} (h : Spsc.Inv RING_SIZE (n.rings i)) :
    Spsc.Inv RING_SIZE ((n.enter i ⟨t, .sending callback⟩).rings i) := by
  have hrings : (n.enter i ⟨t, .sending callback⟩).rings i =
    (n.rings i).startWrite t.chat.mTransmitBuffer.getData := setRing_self _
  rw [hrings]
  exact (h.startWrite _).2

/-- `send` takes what fits. -/
theorem send_alone (hring : Spsc.Inv RING_SIZE (n.rings i)) {t : Session}
    (hends : n.ends i = ⟨t, .sending callback⟩)
    (hcall : (n.rings i).writing =
      .sizing t.chat.mTransmitBuffer.getData) :
    ∃ m : SharedChat, Alone i n (m.enter i (.sent t callback
        (WsocketSharedMemory.sendAnswer
          (min (n.free i) t.chat.mTransmitBuffer.getSize)))) ∧
      Spsc.Inv RING_SIZE (m.rings i) ∧
      m.free i = n.free i - t.chat.mTransmitBuffer.getSize := by
  have hof : (n.rings i).writing.Of t.chat.mTransmitBuffer.getData := by
    rw [hcall]
    rfl
  obtain ⟨ring, hrun, -, haccepted, hunread⟩ :=
    write_alone (by decide) (by decide) hring hcall
  have hsent := writeRun_alone (n := n) hrun rfl
    (congrArg Endpoint.stage hends) hof
  have hcount : ring.accepted.length - (n.rings i).accepted.length =
      min (n.free i) t.chat.mTransmitBuffer.getSize := by
    rw [haccepted, List.length_append, Nat.add_sub_cancel_left,
      List.length_take, SimpleBuffer.length_getData]
    rfl
  rw [hcount, hends] at hsent
  refine ⟨n.setRing i ring, hsent, ?_, ?_⟩
  · rw [setRing_self]
    exact hrun.inv (by decide) (by decide) hring
  · unfold free
    rw [setRing_self, hunread, List.length_append, List.length_take,
      SimpleBuffer.length_getData]
    omega

/-- A pass is the same with all that fits and with what is taken of it. -/
theorem transmitPass_min {s : SocketChatImpl} (k : ℕ) :
    s.transmitPass (WsocketSharedMemory.sendAnswer
      (min k s.mTransmitBuffer.getSize)) =
    s.transmitPass (WsocketSharedMemory.sendAnswer k) := by
  by_cases hsize : s.mTransmitBuffer.getSize = 0
  · rw [transmitPass_done hsize, transmitPass_done hsize]
  · cases k with
    | zero => rw [Nat.zero_min]
    | succ k =>
        obtain ⟨l, hl⟩ := Nat.exists_eq_succ_of_ne_zero
          (show min (k + 1) s.mTransmitBuffer.getSize ≠ 0 by omega)
        rw [hl, transmitPass, transmitPass, if_neg hsize, if_neg hsize]
        dsimp only [WsocketSharedMemory.sendAnswer]
        rw [show min (l + 1) s.mTransmitBuffer.getData.length =
          min (k + 1) s.mTransmitBuffer.getData.length by
            rw [SimpleBuffer.length_getData]
            omega]

/-- A `send` that takes nothing ends the loop. -/
theorem sent_nothing {t : Session} (hopen : t.chat.mReadyState ≠ .CLOSED)
    (hsize : t.chat.mTransmitBuffer.getSize ≠ 0) :
    t.chat.transmitPass (.refused (.error true false)) =
        (false, t.chat, [.sendRefused (.error true false)]) ∧
      Endpoint.sent t callback (WsocketSharedMemory.sendAnswer 0) =
        .finish ⟨t.chat, t.trace ++ [.sendRefused (.error true false)]⟩
          callback := by
  have hpass : t.chat.transmitPass (.refused (.error true false)) =
      (false, t.chat, [.sendRefused (.error true false)]) :=
    transmitPass_refused hsize _
  have hpass' : t.chat.transmitPass (WsocketSharedMemory.sendAnswer 0) =
      (false, t.chat, [.sendRefused (.error true false)]) := hpass
  refine ⟨hpass, ?_⟩
  unfold Endpoint.sent
  rw [hpass']
  dsimp only
  rw [if_neg Bool.false_ne_true, if_neg hopen]

/-- **The transmit loop gets to its end.** One `send` takes what fits; if that
is not all, the next one takes nothing. -/
theorem transmit_alone (hring : Spsc.Inv RING_SIZE (n.rings i)) {t : Session}
    (hwords : Words t.chat.mTransmitBuffer)
    (hopen : t.chat.mReadyState ≠ .CLOSED) :
    ∃ (m : SharedChat) (t' : Session), Alone i (n.enter i (.transmit t callback))
        (m.enter i (.finish t' callback)) ∧
      HasSent t [WsocketSharedMemory.sendAnswer (n.free i)] t' ∧
      t'.chat.mReadyState ≠ .CLOSED := by
  unfold Endpoint.transmit
  by_cases hsize : t.chat.mTransmitBuffer.getSize = 0
  · rw [if_pos hsize]
    refine ⟨n, t, .refl _, ⟨[], (List.append_nil _).symm, ?_⟩, hopen⟩
    rw [transmitLoop, transmitPass_done hsize]
    rfl
  rw [if_neg hsize]
  obtain ⟨hcall, hfree⟩ := enter_sending (t := t) callback hring
  obtain ⟨m, hsent, hringm, hfreem⟩ := send_alone callback
    (enter_sending_inv callback hring) (enter_self _) hcall
  rw [hfree] at hsent hfreem
  by_cases hnone : n.free i = 0
  · obtain ⟨hpass, heq⟩ := sent_nothing callback hopen hsize
    rw [hnone, Nat.zero_min, heq] at hsent
    rw [hnone]
    exact ⟨m, _, hsent, Transmitting.last (.refl t) hpass, hopen⟩
  obtain ⟨k, hk⟩ := Nat.exists_eq_succ_of_ne_zero hnone
  obtain ⟨b, bytes, hwordsb, hleft, -, hpass⟩ :=
    transmitPass_room hwords hsize k
  have hanswer : WsocketSharedMemory.sendAnswer (n.free i) = .room k := by
    rw [hk]
    rfl
  rw [← hanswer] at hpass
  have hgo : Endpoint.sent t callback (WsocketSharedMemory.sendAnswer
      (min (n.free i) t.chat.mTransmitBuffer.getSize)) =
      .transmit ⟨{ t.chat with mTransmitBuffer := b },
        t.trace ++ [.sent bytes]⟩ callback := by
    unfold Endpoint.sent
    rw [transmitPass_min, hpass]
    dsimp only
    rw [if_pos rfl]
  have hloop := Transmitting.pass (.refl t) hpass
  rw [hgo] at hsent
  unfold Endpoint.transmit at hsent
  by_cases hdone : b.getSize = 0
  · rw [if_pos hdone] at hsent
    exact ⟨m, _, hsent, hloop.done hdone, hopen⟩
  · -- the ring is full now
    rw [if_neg hdone] at hsent
    obtain ⟨hcall', hfree'⟩ := enter_sending (n := m)
      (t := ⟨{ t.chat with mTransmitBuffer := b },
        t.trace ++ [.sent bytes]⟩) callback hringm
    obtain ⟨m', hsent', -, -⟩ := send_alone callback
      (enter_sending_inv callback hringm) (enter_self _) hcall'
    have hfull : m.free i = 0 := by omega
    obtain ⟨hpass', heq⟩ := sent_nothing
      (t := ⟨{ t.chat with mTransmitBuffer := b },
        t.trace ++ [.sent bytes]⟩) callback hopen hdone
    rw [hfree', hfull, Nat.zero_min, heq] at hsent'
    exact ⟨m', _, hsent.trans hsent', hloop.waits hpass', hopen⟩

/-! ## The receive loop -/

theorem enter_receiving {t : Session}
    (h : Spsc.Inv RING_SIZE (n.rings i.peer)) :
    ((n.enter i ⟨t, .receiving callback⟩).rings i.peer).reading =
        .sizing DEFAULT_MAX_READ_SIZE ∧
      ((n.enter i ⟨t, .receiving callback⟩).rings i.peer).unread =
        (n.rings i.peer).unread ∧
      Spsc.Inv RING_SIZE
        ((n.enter i ⟨t, .receiving callback⟩).rings i.peer) ∧
      (n.enter i ⟨t, .receiving callback⟩).rings i = n.rings i := by
  have hrings : (n.enter i ⟨t, .receiving callback⟩).rings i.peer =
    (n.rings i.peer).startRead DEFAULT_MAX_READ_SIZE := setRing_self _
  obtain ⟨heq, hinv⟩ := h.startRead DEFAULT_MAX_READ_SIZE
  rw [hrings]
  refine ⟨?_, ?_, hinv, setRing_peer_self _⟩
  · rw [heq]
  · rw [heq]
    rfl

/-- `receive` returns the first unread bytes. -/
theorem readOnce_alone (hring : Spsc.Inv RING_SIZE (n.rings i.peer))
    {t : Session} (hends : n.ends i = ⟨t, .receiving callback⟩)
    (hcall : (n.rings i.peer).reading = .sizing DEFAULT_MAX_READ_SIZE) :
    ∃ m : SharedChat, Alone i n (m.enter i (.received t callback
        (WsocketSharedMemory.receiveAnswer
          ((n.rings i.peer).unread.take DEFAULT_MAX_READ_SIZE)))) ∧
      Spsc.Inv RING_SIZE (m.rings i.peer) ∧
      (m.rings i.peer).unread =
        (n.rings i.peer).unread.drop DEFAULT_MAX_READ_SIZE ∧
      m.rings i = n.rings i := by
  have hwithin : (n.rings i.peer).reading.Within DEFAULT_MAX_READ_SIZE := by
    rw [hcall]
    exact Nat.le_refl _
  obtain ⟨ring, hrun, -, hreturned, hunread⟩ :=
    read_alone (by decide) (by decide) hring (by decide) hcall
  have hreceived := readRun_alone (n := n) hrun rfl
    (congrArg Endpoint.stage hends) hwithin
  rw [hreturned, List.drop_left, hends] at hreceived
  refine ⟨n.setRing i.peer ring, hreceived, ?_, ?_, setRing_peer_self _⟩
  · rw [setRing_self]
    exact hrun.inv (by decide) (by decide) hring
  · rw [setRing_self]
    exact hunread

theorem receiveAnswers_nil (fuel : ℕ) : receiveAnswers fuel [] = [] := by
  cases fuel <;> rfl

/-- **The receive loop gets to its end**, and has read all there was, unless
the receive buffer is full. -/
theorem receive_alone {t₀ : Session} (fuel : ℕ) :
    ∀ {n : SharedChat} {recvs : List Received} {t : Session},
    Spsc.Inv RING_SIZE (n.rings i.peer) →
    (n.rings i.peer).unread.length ≤ fuel → Receiving t₀ recvs t →
    t.chat.mReceiveBuffer.Valid → t.chat.mReadyState ≠ .CLOSED →
    ∃ (m : SharedChat) (t₁ : Session), Alone i (n.enter i (.receive t callback))
        (m.enter i (.transmit t₁ callback)) ∧ m.rings i = n.rings i ∧
      HasReceived t₀ (recvs ++ receiveAnswers fuel (n.rings i.peer).unread)
        t₁ ∧ t₁.chat.mReadyState ≠ .CLOSED ∧
      t₁.chat.mTransmitBuffer = t.chat.mTransmitBuffer := by
  induction fuel using Nat.strong_induction_on with
  | h fuel ih =>
      intro n recvs t hring hfuel hloop hvalid hopen
      unfold Endpoint.receive
      rcases SimpleBuffer.confirmCapacity_spec hvalid
          (c := DEFAULT_MAX_READ_SIZE) (by decide) with
        ⟨b, hconf, -, -, -, -, hroom⟩ | ⟨hconf, -⟩
      · rw [hconf]
        dsimp only
        obtain ⟨hcall, hunread, hring', hout⟩ := enter_receiving (t := t)
          callback hring
        obtain ⟨m, halone, hringm, hunreadm, houtm⟩ :=
          readOnce_alone callback hring' (enter_self _) hcall
        rw [hunread] at halone hunreadm
        rw [hout] at houtm
        generalize (n.rings i.peer).unread = unread at *
        unfold Endpoint.received at halone
        cases unread with
        | nil =>
            -- nothing is left: `receive` would block
            obtain ⟨b', -, hpass⟩ :=
              receivePass_refused hvalid hroom (.error true false)
            have hpass : t.chat.receivePass (.refused (.error true false)) =
                (false, { t.chat with mReceiveBuffer := b' },
                  [.receiveRefused (.error true false)]) := hpass
            have hanswer : WsocketSharedMemory.receiveAnswer
                (([] : List UInt8).take DEFAULT_MAX_READ_SIZE) =
                .refused (.error true false) := rfl
            rw [hanswer, hpass] at halone
            dsimp only at halone
            rw [if_neg Bool.false_ne_true, if_neg hopen] at halone
            rw [receiveAnswers_nil, List.append_nil]
            exact ⟨m, _, halone, houtm, hloop.waits hpass, hopen, rfl⟩
        | cons y ys =>
            obtain ⟨f, rfl⟩ := Nat.exists_eq_add_one_of_ne_zero
              (show fuel ≠ 0 by rintro rfl; cases hfuel)
            obtain ⟨x, xs, htake⟩ : ∃ x xs, (y :: ys).take
                DEFAULT_MAX_READ_SIZE = x :: xs := ⟨y, _, rfl⟩
            obtain ⟨hvalid', -, hpass⟩ := receivePass_bytes hvalid hroom x xs
            have hanswers : receiveAnswers (f + 1) (y :: ys) = .bytes x xs ::
                receiveAnswers f ((y :: ys).drop DEFAULT_MAX_READ_SIZE) := by
              rw [receiveAnswers, if_neg (List.cons_ne_nil y ys), htake]
              rfl
            have hanswer : WsocketSharedMemory.receiveAnswer (x :: xs) =
                .bytes x xs := rfl
            rw [htake, hanswer, hpass] at halone
            dsimp only at halone
            rw [if_pos rfl] at halone
            have hshort : (m.rings i.peer).unread.length ≤ f := by
              rw [hunreadm, List.length_drop, List.length_cons]
              rw [List.length_cons] at hfuel
              have hpos : 0 < DEFAULT_MAX_READ_SIZE := by decide
              omega
            obtain ⟨m', t₁, hrest, hrings, hreceived, hopen₁, hbuffer⟩ :=
              ih f (Nat.lt_succ_self f) hringm hshort (hloop.pass hpass)
                hvalid' hopen
            rw [hunreadm, List.append_assoc, List.singleton_append,
              ← hanswers] at hreceived
            exact ⟨m', t₁, halone.trans hrest, hrings.trans houtm, hreceived,
              hopen₁, hbuffer⟩
      · rw [hconf]
        exact ⟨n, _, .refl _, rfl, hloop.full hconf _, hopen, rfl⟩

/-! ## The whole poll -/

/-- The process of side `i` is where it was: with its session as it was, and
before the same access to a ring. -/
structure Stays (i : Side) (n n' : SharedChat) : Prop where
  ends : n'.ends i = n.ends i
  writing : (n'.rings i).writing = (n.rings i).writing
  reading : (n'.rings i.peer).reading = (n.rings i.peer).reading

theorem Stays.refl (n : SharedChat) : Stays i n n := ⟨rfl, rfl, rfl⟩

theorem Stays.trans {n' n'' : SharedChat} (h : Stays i n n')
    (h' : Stays i n' n'') : Stays i n n'' :=
  ⟨h'.ends.trans h.ends, h'.writing.trans h.writing,
    h'.reading.trans h.reading⟩

theorem stays_readRing {ring : Spsc.State}
    (h : ring.writing = (n.rings i.peer).writing) :
    Stays i.peer n (n.setRing i.peer ring) := by
  refine ⟨rfl, ?_, ?_⟩
  · rw [setRing_self]
    exact h
  · rw [Side.peer_peer, setRing_peer_self]

theorem stays_writeRing {ring : Spsc.State}
    (h : ring.reading = (n.rings i).reading) :
    Stays i.peer n (n.setRing i ring) := by
  refine ⟨rfl, ?_, ?_⟩
  · rw [setRing_peer]
  · rw [Side.peer_peer, setRing_self]
    exact h

theorem stays_enter (e : Endpoint) : Stays i.peer n (n.enter i e) := by
  have hends := enter_peer (n := n) (i := i) e
  unfold enter at hends ⊢
  obtain ⟨t, stage⟩ := e
  cases stage with
  | idle => exact ⟨hends, rfl, rfl⟩
  | receiving callback =>
      have hring := stays_readRing (n := n) (i := i)
        ((n.rings i.peer).startRead_writing DEFAULT_MAX_READ_SIZE)
      exact ⟨hends, hring.writing, hring.reading⟩
  | sending callback =>
      have hring := stays_writeRing (n := n) (i := i)
        ((n.rings i).startWrite_reading t.chat.mTransmitBuffer.getData)
      exact ⟨hends, hring.writing, hring.reading⟩

/-- **A step** of a side moves its own process only. -/
theorem Goes.stays {n' : SharedChat} (h : n.Goes i n') :
    Stays i.peer n n' := by
  cases h with
  | sendText str _ => exact stays_enter _
  | close _ => exact stays_enter _
  | poll callback timeout _ => exact stays_enter _
  | read _ hring _ => exact stays_readRing (Spsc.State.readerNext_writing hring)
  | received _ hring _ =>
      have hread := stays_readRing (Spsc.State.readerNext_writing hring)
      exact hread.trans (stays_enter _)
  | write _ hring _ =>
      exact stays_writeRing (Spsc.State.writerNext_reading hring)
  | sent _ hring _ =>
      have hwrite := stays_writeRing (Spsc.State.writerNext_reading hring)
      exact hwrite.trans (stays_enter _)

/-- The other process does nothing. -/
theorem Alone.stays {n' : SharedChat} (h : Alone i n n') :
    Stays i.peer n n' := by
  obtain ⟨k, hrun⟩ := h
  have hside : ∀ act ∈ accesses i k, act.1 = i := fun act hact =>
    congrArg Prod.fst (List.eq_of_mem_replicate hact)
  generalize accesses i k = acts at hrun hside
  induction hrun with
  | nil => exact .refl _
  | snoc _ hstep ih =>
      rename_i act _
      have hact := hside act (by simp)
      obtain ⟨j, move⟩ := act
      subst hact
      have hbefore := ih fun act hact => hside act (List.mem_append_left _ hact)
      exact hbefore.trans (next_goes hstep).stays

end SharedChat

/-- **A poll that is left alone** comes to its end from wherever the other
process is; and then it is `SocketChatImpl.poll`, answered with all that is
unread in the one ring and all that is free in the other. -/
theorem poll_alone {n : SharedChat} (hn : sharedChat.Reachable n)
    {i : Side} (hidle : (n.ends i).stage = .idle)
    (callback : Option Callback) (timeout : ℤ) :
    ∃ k n', sharedChat.Run n ((i, .poll callback timeout) :: accesses i k) n' ∧
      n'.ends i = ⟨(n.ends i).session.call
        (.poll callback timeout (n.answers i)), .idle⟩ ∧
      SharedChat.Stays i.peer n n' := by
  have hinv := sharedChat_invariant.holds hn
  have ht := session_of_idle (sharedChat_polling.holds hn i) hidle
  have hvalid := (hinv.connected i).sound.valid
  have hwords := session_words ht
  have hsocket : ¬ (n.ends i).session.chat.mSocket.isNone = true := by
    rw [session_socket ht]
    exact Bool.false_ne_true
  have hnext : n.next i (.poll callback timeout) =
      some (n.enter i (.poll (n.ends i).session callback timeout)) := by
    unfold SharedChat.next
    rw [hidle]
  have hfirst : sharedChat.Run n [(i, .poll callback timeout)] _ :=
    (System.Run.nil n).snoc (k := (i, Move.poll callback timeout)) hnext
  unfold Endpoint.poll at hfirst
  rw [if_neg hsocket] at hfirst
  by_cases hopen : (n.ends i).session.chat.mReadyState = .CLOSED
  · rw [if_pos hopen] at hfirst
    refine ⟨0, _, hfirst, ?_, SharedChat.stays_enter _⟩
    rw [SharedChat.enter_self, Session.call, SocketChatImpl.exec,
      SocketChatImpl.poll, if_neg hsocket, if_pos hopen]
  · rw [if_neg hopen] at hfirst
    have hlive : (n.ends i).session.chat.Live :=
      ⟨fun h => hsocket (Option.isNone_iff_eq_none.mpr h), hopen⟩
    obtain ⟨m, t₁, hreceive, hrings, hreceived, hopen₁, hbuffer⟩ :=
      SharedChat.receive_alone callback _ (hinv.ring i.peer) (Nat.le_refl _)
        (.refl (n.ends i).session) hvalid hopen
    obtain ⟨m', t', htransmit, hsent, hopen'⟩ :=
      SharedChat.transmit_alone (n := m) callback
        (by rw [hrings]; exact hinv.ring i) (hbuffer.symm ▸ hwords) hopen₁
    have hfinish := finish_eq hlive hreceived hopen₁ hsent hopen' callback
      timeout
    have hfree : m.free i = n.free i := by
      unfold SharedChat.free
      rw [hrings]
    rw [hfree] at hfinish
    obtain ⟨k, hrun⟩ := hreceive.trans htransmit
    refine ⟨k, _, hfirst.trans hrun, ?_, ?_⟩
    · rw [SharedChat.enter_self, hfinish]
      rfl
    · have hrest : SharedChat.Alone i _ _ := ⟨k, hrun⟩
      exact (SharedChat.stays_enter _).trans hrest.stays

end Socketchat.Shared
