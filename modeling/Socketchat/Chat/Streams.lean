import Socketchat.Chat.Session

/-!
# The two streams of a connection

Nothing is lost, duplicated or reordered inside a connection. Inwards, the
bytes received are the messages delivered, framed, followed by the receive
buffer (`Inbound`). Outwards, the bytes placed in the transmit buffer are those
the transport has accepted, followed by the transmit buffer (`Outbound`), as
long as no `sendText` has written outside its block.
-/

namespace Socketchat.Chat

open Foundation Buffer

/-- Messages are framed by a carriage return and a line feed. -/
abbrev frame (msgs : List (List UInt8)) : List UInt8 :=
  Framing.frame 13 10 msgs

/-- The grammar of the stream: its complete messages and the rest. -/
abbrev unframe (stream : List UInt8) : List (List UInt8) × List UInt8 :=
  Framing.unframe 13 10 stream

/-! ## What a trace shows -/

def Event.bytesIn : Event → List UInt8
  | .received bytes => bytes
  | _ => []

def Event.bytesOut : Event → List UInt8
  | .sent bytes => bytes
  | _ => []

def Event.messagesIn : Event → List CString
  | .delivered message => [message]
  | _ => []

def Event.textsOut : Event → List CString
  | .queued text _ _ => [text]
  | _ => []

/-- The bytes a `sendText` has put into the transmit buffer. -/
def Event.bytesPlaced : Event → List UInt8
  | .queued text textAdded delimiterAdded =>
      (if textAdded then text.val.take (toU32 text.val.length) else []) ++
        (if delimiterAdded then [13, 10] else [])
  | _ => []

/-- All bytes `receive` has returned. -/
def received (trace : List Event) : List UInt8 := trace.flatMap Event.bytesIn

/-- All bytes `send` has accepted. -/
def accepted (trace : List Event) : List UInt8 := trace.flatMap Event.bytesOut

/-- All messages passed to the callback. -/
def messages (trace : List Event) : List CString := trace.flatMap Event.messagesIn

/-- All strings given to `sendText`. -/
def texts (trace : List Event) : List CString := trace.flatMap Event.textsOut

/-- All bytes ever placed in the transmit buffer. -/
def placed (trace : List Event) : List UInt8 := trace.flatMap Event.bytesPlaced

section Append

variable (tr tr' : List Event)

@[simp] theorem received_append :
    received (tr ++ tr') = received tr ++ received tr' :=
  List.flatMap_append

@[simp] theorem accepted_append :
    accepted (tr ++ tr') = accepted tr ++ accepted tr' :=
  List.flatMap_append

@[simp] theorem messages_append :
    messages (tr ++ tr') = messages tr ++ messages tr' :=
  List.flatMap_append

@[simp] theorem texts_append : texts (tr ++ tr') = texts tr ++ texts tr' :=
  List.flatMap_append

@[simp] theorem placed_append :
    placed (tr ++ tr') = placed tr ++ placed tr' :=
  List.flatMap_append

end Append

namespace SocketChatImpl

variable {s t : SocketChatImpl} {events trace : List Event}

/-! ## Inwards -/

/-- Every byte received is in a delivered message, in a delimiter behind one,
or still in the receive buffer. -/
def Inbound (s : SocketChatImpl) (trace : List Event) : Prop :=
  ∃ segs : List (List UInt8), (∀ seg ∈ segs, Free seg) ∧
    received trace = frame segs ++ s.mReceiveBuffer.getData ∧
    messages trace = segs.map cstring

theorem Inbound.act (hact : Act s events t) (h : s.Inbound trace) :
    t.Inbound (trace ++ events) := by
  obtain ⟨segs, hfree, hrec, hmsg⟩ := h
  -- an action that neither receives nor delivers leaves both sides alone
  have hquiet : received events = [] → messages events = [] →
      t.mReceiveBuffer.getData = s.mReceiveBuffer.getData →
      t.Inbound (trace ++ events) := by
    intro hr hm hdata
    refine ⟨segs, hfree, ?_, ?_⟩
    · rw [received_append, hr, List.append_nil, hdata]
      exact hrec
    · rw [messages_append, hm, List.append_nil]
      exact hmsg
  cases hact with
  | move b _ hdata => exact hquiet rfl rfl hdata
  | receive b bytes _ _ hdata =>
      refine ⟨segs, hfree, ?_, ?_⟩
      · rw [received_append, hrec, hdata, List.append_assoc]
        simp [received, Event.bytesIn]
      · rw [messages_append, hmsg]
        simp [messages, Event.messagesIn]
  | deliver b seg _ hseg hcut =>
      refine ⟨segs ++ [seg], ?_, ?_, ?_⟩
      · intro x hx
        rcases List.mem_append.mp hx with hx | hx
        · exact hfree x hx
        · rw [List.mem_singleton.mp hx]
          exact hseg
      · rw [received_append, hrec, hcut,
          show frame (segs ++ [seg]) = _ from Framing.frame_snoc ..]
        simp [received, Event.bytesIn]
      · rw [messages_append, hmsg]
        simp [messages, Event.messagesIn]
  | _ => exact hquiet rfl rfl rfl

/-! ## Outwards -/

/-- A null pointer is sent like an empty string. -/
theorem addBuffer_null {b : SimpleBuffer} (h : b.Valid) :
    b.addBuffer none 0 = b.addBuffer (some []) 0 := by
  have hroom : b.makeRoom 0 = b := by
    simp [SimpleBuffer.makeRoom]
  have hfits : b.block.Fits b.mEndLoc 0 := by
    have := h.size_eq
    have := h.end_le
    unfold Block.Fits
    omega
  have hstore : b.store b.mEndLoc [] = b := by
    have hcopy : (b.mBuffer.map fun m => m.copy b.mEndLoc []) = b.mBuffer := by
      simp
    simp only [SimpleBuffer.store, hcopy, List.length_nil, hfits]
    simp
  simp [SimpleBuffer.addBuffer, hroom, hstore]

theorem sendText_addBuffer (h : s.mTransmitBuffer.Valid)
    (str : Option CString) :
    s.mTransmitBuffer.addBuffer (str.map (·.val))
        (toU32 (textOf str).val.length) =
      s.mTransmitBuffer.addBuffer (some (textOf str).val)
        (toU32 (textOf str).val.length) := by
  cases str with
  | none =>
      have hzero : toU32 (textOf none).val.length = 0 := toU32_of_lt (by decide)
      rw [hzero]
      exact addBuffer_null h
  | some text => rfl

/-- **`sendText`.** Unless a copy leaves its block, the transmit buffer stays
well-formed and has grown by exactly the bytes placed. -/
theorem sendText_spec (h : s.mTransmitBuffer.Valid) (str : Option CString)
    (ho : (s.sendText str).1.mTransmitBuffer.overrun = false) :
    (s.sendText str).1.mTransmitBuffer.Valid ∧
    (s.sendText str).1.mTransmitBuffer.mMaxGrowSize =
      s.mTransmitBuffer.mMaxGrowSize ∧
    (s.sendText str).1.mTransmitBuffer.getData =
      s.mTransmitBuffer.getData ++ placed (s.sendText str).2 := by
  let text := textOf str
  let n := toU32 text.val.length
  let r₁ := s.mTransmitBuffer.addBuffer (some text.val) n
  let r₂ := r₁.2.addBuffer (some [13, 10]) 2
  have hsend : s.sendText str =
      ({ s with mTransmitBuffer := r₂.2 }, [.queued text r₁.1 r₂.1]) := by
    show (_, _) = (_, _)
    rw [sendText_addBuffer h]
  rw [hsend] at ho ⊢
  have ho₂ : r₂.2.overrun = false := ho
  have ho₁ : r₁.2.overrun = false :=
    SimpleBuffer.makeRoom_overrun 2 (SimpleBuffer.addBuffer_overrun _ _ ho₂)
  obtain ⟨hvalid₁, -, hdata₁, hcap₁⟩ :=
    SimpleBuffer.addBuffer_spec h (toU32_lt _) (toU32_le _) ho₁
  have hlen : 2 ≤ ([13, 10] : List UInt8).length := Nat.le_refl 2
  obtain ⟨hvalid₂, -, hdata₂, hcap₂⟩ :=
    SimpleBuffer.addBuffer_spec hvalid₁ (by decide) hlen ho₂
  refine ⟨hvalid₂, hcap₂.trans hcap₁, ?_⟩
  show r₂.2.getData = _
  rw [hdata₂, hdata₁]
  cases hok₁ : r₁.1 <;> cases hok₂ : r₂.1 <;>
    simp [placed, Event.bytesPlaced]

theorem consume_overrun (b : SimpleBuffer) (n : ℕ) :
    (b.consume n).overrun = b.overrun := by
  unfold SimpleBuffer.consume
  simp only
  split <;> split <;> rfl

theorem sendText_overrun {str : Option CString}
    (ho : (s.sendText str).1.mTransmitBuffer.overrun = false) :
    s.mTransmitBuffer.overrun = false := by
  have h₁ := SimpleBuffer.makeRoom_overrun _
    (SimpleBuffer.addBuffer_overrun _ _ ho)
  exact SimpleBuffer.makeRoom_overrun _
    (SimpleBuffer.addBuffer_overrun _ _ h₁)

/-- Unless a `sendText` has written outside a block, every byte placed in the
transmit buffer has been accepted by the transport or is still there. -/
def Outbound (s : SocketChatImpl) (trace : List Event) : Prop :=
  s.mTransmitBuffer.overrun = false →
    s.mTransmitBuffer.Valid ∧
    s.mTransmitBuffer.mMaxGrowSize = DEFAULT_MAXIMUM_BUFFER_SIZE ∧
    placed trace = accepted trace ++ s.mTransmitBuffer.getData

theorem Outbound.act (hact : Act s events t) (h : s.Outbound trace) :
    t.Outbound (trace ++ events) := by
  -- an action that neither sends nor queues leaves both sides alone
  have hquiet : accepted events = [] → placed events = [] →
      t.mTransmitBuffer = s.mTransmitBuffer →
      t.Outbound (trace ++ events) := by
    intro ha hp hbuf ho
    obtain ⟨hvalid, hcap, hplaced⟩ := h (hbuf ▸ ho)
    rw [hbuf]
    refine ⟨hvalid, hcap, ?_⟩
    rw [placed_append, hp, accepted_append, ha, List.append_nil,
      List.append_nil]
    exact hplaced
  cases hact with
  | send n _ hn =>
      intro ho
      obtain ⟨hvalid, hcap, hplaced⟩ := h ((consume_overrun _ n) ▸ ho)
      obtain ⟨hvalid', hdata, hcap'⟩ := SimpleBuffer.consume_spec hvalid n
      refine ⟨hvalid', hcap'.trans hcap, ?_⟩
      rw [hdata, placed_append, hplaced, accepted_append]
      simp [placed, accepted, Event.bytesPlaced, Event.bytesOut]
  | queue str =>
      intro ho
      obtain ⟨hvalid, hcap, hplaced⟩ := h (sendText_overrun ho)
      obtain ⟨hvalid', hcap', hdata⟩ := sendText_spec hvalid str ho
      refine ⟨hvalid', hcap'.trans hcap, ?_⟩
      have hsent : accepted (s.sendText str).2 = [] := rfl
      rw [hdata, placed_append, hplaced, accepted_append, hsent,
        List.append_nil, List.append_assoc]
  | _ => exact hquiet rfl rfl rfl

end SocketChatImpl

/-! ## Sessions -/

variable {socket : Option ℕ} {t : Session}

theorem session_inbound (ht : (session socket).Reachable t) :
    t.chat.mReceiveBuffer.Valid ∧ t.chat.Inbound t.trace := by
  refine session_invariant ⟨[], by simp, ?_, rfl⟩
    (fun _ _ _ _ hact h => h.act hact) ht
  show [] = frame [] ++ (SimpleBuffer.create _ _).getData
  rw [SimpleBuffer.create_getData]
  rfl

theorem session_outbound (ht : (session socket).Reachable t) :
    t.chat.Outbound t.trace := by
  have hinit : (SocketChatImpl.construct socket).Outbound [] := by
    refine fun _ => ⟨(construct_valid socket).2, rfl, ?_⟩
    show [] = [] ++ (SimpleBuffer.create _ _).getData
    rw [SimpleBuffer.create_getData]
    rfl
  exact (session_invariant hinit (fun _ _ _ _ hact h => h.act hact) ht).2

/-- Without a socket nothing is received, so there is nothing to dispatch. -/
theorem session_no_socket (ht : (session socket).Reachable t)
    (hsocket : t.chat.mSocket = none) : t.chat.mReceiveBuffer.getData = [] := by
  refine (session_invariant (I := fun s _ => s.mSocket = none →
    s.mReceiveBuffer.getData = []) (fun _ => SimpleBuffer.create_getData ..)
    ?_ ht).2 hsocket
  intro s es t tr hact hdata hnone
  cases hact with
  | move b _ hb => exact hb.trans (hdata hnone)
  | receive b bytes hlive _ _ => exact absurd hnone hlive.socket
  | deliver b seg _ _ hcut =>
      rw [hdata hnone] at hcut
      simp at hcut
  | _ => exact hdata hnone

end Socketchat.Chat
