import Socketchat.Chat.Events
import Socketchat.Chat.Loops
import Socketchat.Shared.SharedChat

/-!
# What a side does on its own

Between two accesses a side runs a part of `poll`. Each part is a sequence of
actions of its connection (`From`); those that follow the return of `receive` or
`send` begin with what that has returned, and nothing else in them concerns a
ring (`Local`).
-/

namespace Socketchat.Chat

open Foundation Buffer

/-! ## Events that concern no ring -/

/-- What `receive` or `send` has returned. -/
def Event.ofTransport : Event → Bool
  | .received _ | .receiveRefused _ | .sent _ | .sendRefused _ => true
  | _ => false

/-- Neither `receive` nor `send` is called. -/
def Local (es : List Event) : Prop := ∀ e ∈ es, e.ofTransport = false

namespace Local

variable {es es' : List Event}

theorem nil : Local [] := fun _ he => by cases he

theorem append (h : Local es) (h' : Local es') : Local (es ++ es') :=
  fun e he => (List.mem_append.mp he).elim (h e) (h' e)

theorem received_eq (h : Local es) : received es = [] := by
  rw [received, List.flatMap_eq_nil_iff]
  intro e he
  have hkind := h e he
  cases e <;> first | rfl | cases hkind

theorem accepted_eq (h : Local es) : accepted es = [] := by
  rw [accepted, List.flatMap_eq_nil_iff]
  intro e he
  have hkind := h e he
  cases e <;> first | rfl | cases hkind

theorem broken_eq (h : Local es) : broken es = false := by
  rw [broken, List.any_eq_false]
  intro e he
  have hkind := h e he
  cases e <;> first | exact Bool.false_ne_true | cases hkind

end Local

namespace SocketChatImpl

theorem finishClosing_local (s : SocketChatImpl) : Local s.finishClosing.2 := by
  unfold finishClosing
  split
  · intro e he
    rcases List.mem_pair.mp he with rfl | rfl <;> rfl
  · exact .nil

theorem dispatch_local {s : SocketChatImpl} (h : s.mReceiveBuffer.Valid)
    (callback : Option Callback) : Local (s.dispatch callback).2 := by
  intro e he
  have hkind := dispatch_events h callback e he
  cases e <;> first | rfl | cases hkind

end SocketChatImpl

end Socketchat.Chat

namespace Socketchat.Shared

open Foundation Buffer Chat Spsc Sockets SocketChatImpl

/-! ## From one access to the next -/

/-- What a side that has come this far has seen to. -/
def Stage.Ready (s : SocketChatImpl) : Stage → Prop
  | .idle => True
  | .receiving _ => s.Live ∧ s.mReceiveBuffer.HasRoom DEFAULT_MAX_READ_SIZE
  | .sending _ => s.Live ∧ s.mTransmitBuffer.getSize ≠ 0

namespace Endpoint

/-- The side was in `t`, and has come to `e` with these events. -/
structure From (t : Session) (es : List Event) (e : Endpoint) : Prop where
  emits : activity.Emits t.chat es e.session.chat
  trace : e.session.trace = t.trace ++ es
  ready : e.stage.Ready e.session.chat

theorem From.after {t : Session} {s : SocketChatImpl} {es es' : List Event}
    {e : Endpoint} (hes : activity.Emits t.chat es s)
    (h : From ⟨s, t.trace ++ es⟩ es' e) : From t (es ++ es') e :=
  ⟨hes.trans h.emits, h.trace.trans (List.append_assoc ..), h.ready⟩

variable {t : Session}

theorem finish_from (h : t.chat.mReceiveBuffer.Valid) (hlive : t.chat.Live)
    (callback : Option Callback) :
    ∃ es, From t es (finish t callback) ∧ Local es := by
  have hfinish := finishClosing_emits hlive
  have hvalid := activity_valid hfinish h
  exact ⟨_, ⟨hfinish.trans (dispatch_emits hvalid callback), rfl, trivial⟩,
    t.chat.finishClosing_local.append (dispatch_local hvalid callback)⟩

theorem transmit_from (h : t.chat.mReceiveBuffer.Valid) (hlive : t.chat.Live)
    (callback : Option Callback) :
    ∃ es, From t es (transmit t callback) ∧ Local es := by
  unfold transmit
  by_cases hsize : t.chat.mTransmitBuffer.getSize = 0
  · rw [if_pos hsize]
    exact finish_from h hlive callback
  · rw [if_neg hsize]
    exact ⟨[], ⟨.refl _, (List.append_nil _).symm, hlive, hsize⟩, .nil⟩

theorem receive_from (h : t.chat.mReceiveBuffer.Valid) (hlive : t.chat.Live)
    (callback : Option Callback) :
    ∃ es, From t es (receive t callback) ∧ Local es := by
  unfold receive
  rcases SimpleBuffer.confirmCapacity_spec h
      (c := DEFAULT_MAX_READ_SIZE) (by decide) with
    ⟨b, hconf, -, -, -, -, hroom⟩ | ⟨hconf, -⟩
  · rw [hconf]
    exact ⟨[], ⟨.refl _, (List.append_nil _).symm, hlive, hroom⟩, .nil⟩
  · rw [hconf]
    exact transmit_from h hlive callback

/-- **The return of `receive`.** -/
theorem received_from (h : t.chat.mReceiveBuffer.Valid) (hlive : t.chat.Live)
    (hroom : t.chat.mReceiveBuffer.HasRoom DEFAULT_MAX_READ_SIZE)
    (callback : Option Callback) {bytes : List UInt8}
    (hlen : bytes.length ≤ DEFAULT_MAX_READ_SIZE) :
    ∃ es, From t es (received t callback
        (WsocketSharedMemory.receiveAnswer bytes)) ∧
      Chat.received es = bytes ∧ accepted es = [] ∧ broken es = false := by
  obtain ⟨hpass, hgo⟩ := receivePass_emits h hlive
    (WsocketSharedMemory.receiveAnswer bytes)
  have hvalid := activity_valid hpass h
  unfold received
  dsimp only
  cases bytes with
  | nil =>
      obtain ⟨b, -, heq⟩ := receivePass_refused h hroom (.error true false)
      have heq : t.chat.receivePass (WsocketSharedMemory.receiveAnswer []) =
        (false, { t.chat with mReceiveBuffer := b },
          [.receiveRefused (.error true false)]) := heq
      rw [heq] at hpass hvalid ⊢
      have hlive' : Live { t.chat with mReceiveBuffer := b } :=
        hlive.of_eq rfl rfl
      obtain ⟨es, hfrom, hlocal⟩ := transmit_from (t :=
        ⟨{ t.chat with mReceiveBuffer := b },
          t.trace ++ [.receiveRefused (.error true false)]⟩)
        hvalid hlive' callback
      rw [if_neg Bool.false_ne_true, if_neg hlive.notClosed]
      refine ⟨_, hfrom.after hpass, ?_, ?_, ?_⟩
      · rw [received_append, hlocal.received_eq]
        rfl
      · rw [accepted_append, hlocal.accepted_eq]
        rfl
      · rw [broken_append, hlocal.broken_eq]
        rfl
  | cons x xs =>
      obtain ⟨-, -, heq⟩ := receivePass_bytes h hroom x xs
      rw [List.take_of_length_le hlen] at heq
      obtain ⟨s, heq⟩ : ∃ s, t.chat.receivePass
          (WsocketSharedMemory.receiveAnswer (x :: xs)) =
            (true, s, [.received (x :: xs)]) := ⟨_, heq⟩
      rw [heq] at hpass hvalid hgo ⊢
      obtain ⟨es, hfrom, hlocal⟩ := receive_from (t :=
        ⟨s, t.trace ++ [.received (x :: xs)]⟩) hvalid (hgo rfl) callback
      rw [if_pos rfl]
      refine ⟨_, hfrom.after hpass, ?_, ?_, ?_⟩
      · rw [received_append, hlocal.received_eq]
        exact (List.append_nil _).trans (List.append_nil _)
      · rw [accepted_append, hlocal.accepted_eq]
        rfl
      · rw [broken_append, hlocal.broken_eq]
        rfl

/-- **The return of `send`.** -/
theorem sent_from (h : t.chat.mReceiveBuffer.Valid) (hlive : t.chat.Live)
    (hsize : t.chat.mTransmitBuffer.getSize ≠ 0) (callback : Option Callback)
    {bytes : List UInt8} (hpre : bytes <+: t.chat.mTransmitBuffer.getData) :
    ∃ es, From t es (sent t callback
        (WsocketSharedMemory.sendAnswer bytes.length)) ∧
      Chat.received es = [] ∧ accepted es = bytes ∧ broken es = false := by
  obtain ⟨hpass, hgo⟩ := transmitPass_emits hlive
    (WsocketSharedMemory.sendAnswer bytes.length)
  have hvalid := activity_valid hpass h
  unfold sent
  dsimp only
  cases bytes with
  | nil =>
      have heq : t.chat.transmitPass (WsocketSharedMemory.sendAnswer 0) =
        (false, t.chat, [.sendRefused (.error true false)]) :=
        transmitPass_refused hsize (.error true false)
      rw [List.length_nil, heq] at hpass hvalid ⊢
      obtain ⟨es, hfrom, hlocal⟩ := finish_from (t :=
        ⟨t.chat, t.trace ++ [.sendRefused (.error true false)]⟩)
        hvalid hlive callback
      rw [if_neg Bool.false_ne_true, if_neg hlive.notClosed]
      refine ⟨_, hfrom.after hpass, ?_, ?_, ?_⟩
      · rw [received_append, hlocal.received_eq]
        rfl
      · rw [accepted_append, hlocal.accepted_eq]
        rfl
      · rw [broken_append, hlocal.broken_eq]
        rfl
  | cons x xs =>
      have htake : t.chat.mTransmitBuffer.getData.take
          (min (xs.length + 1) t.chat.mTransmitBuffer.getData.length) =
          x :: xs := by
        have hle := hpre.length_le
        rw [List.length_cons] at hle
        rw [Nat.min_eq_left hle]
        exact (List.prefix_iff_eq_take.mp hpre).symm
      obtain ⟨s, heq⟩ : ∃ s, t.chat.transmitPass
          (WsocketSharedMemory.sendAnswer (x :: xs).length) =
            (true, s, [.sent (x :: xs)]) := by
        rw [transmitPass, if_neg hsize]
        dsimp only [List.length_cons, WsocketSharedMemory.sendAnswer]
        rw [htake]
        exact ⟨_, rfl⟩
      rw [heq] at hpass hvalid hgo ⊢
      obtain ⟨es, hfrom, hlocal⟩ := transmit_from (t :=
        ⟨s, t.trace ++ [.sent (x :: xs)]⟩) hvalid (hgo rfl) callback
      rw [if_pos rfl]
      refine ⟨_, hfrom.after hpass, ?_, ?_, ?_⟩
      · rw [received_append, hlocal.received_eq]
        rfl
      · rw [accepted_append, hlocal.accepted_eq]
        exact (List.append_nil _).trans (List.append_nil _)
      · rw [broken_append, hlocal.broken_eq]
        rfl

/-- **The call of `poll`.** -/
theorem poll_from (h : t.chat.mReceiveBuffer.Valid)
    (callback : Option Callback) (timeout : ℤ) :
    ∃ es, From t es (poll t callback timeout) ∧ Local es := by
  unfold poll
  cases hsocket : t.chat.mSocket with
  | none =>
      rw [if_pos (show (none : Option ℕ).isNone = true from rfl)]
      exact ⟨[], ⟨.refl _, (List.append_nil _).symm, trivial⟩, .nil⟩
  | some k =>
      rw [if_neg (by simp)]
      have hsome : t.chat.mSocket ≠ none := by simp [hsocket]
      by_cases hclosed : t.chat.mReadyState = .CLOSED
      · rw [if_pos hclosed]
        by_cases hrest : timeout > 0
        · rw [if_pos hrest]
          have hes : Local [.nullSelect timeout] := fun e he => by
            rw [List.mem_singleton.mp he]
            rfl
          exact ⟨_, ⟨(Act.rest timeout hsome hclosed).emits, rfl, trivial⟩, hes⟩
        · rw [if_neg hrest]
          exact ⟨[], ⟨.refl _, rfl, trivial⟩, .nil⟩
      · rw [if_neg hclosed]
        exact receive_from h ⟨hsome, hclosed⟩ callback

end Endpoint

end Socketchat.Shared
