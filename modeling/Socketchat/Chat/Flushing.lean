import Socketchat.Buffer.Bounds
import Socketchat.Chat.Network
import Socketchat.Chat.Polled

/-!
# What a requested close flushes

A `poll` that finishes a requested close closes the socket before it dispatches.
Everything placed in the transmit buffer until then has been accepted; a text
that the callback sends from inside that `poll` finds an empty buffer, is
placed there and never sent. So the close truncates exactly what the callback
sends in the `poll` that closes.
-/

namespace Socketchat.Chat

open Foundation Buffer

/-- The callback sends nothing while it is given these messages, one after the
other. -/
def Callback.SendsNothing (callback : Callback) (msgs : List CString) : Prop :=
  ∀ past, past ≠ [] → past <+: msgs → ∀ str, .sendText str ∉ callback past

/-- A callback that sends nothing for the first message, and nothing for the
others after it. -/
theorem Callback.sendsNothing_cons {callback : Callback} {msg : CString}
    {msgs : List CString} : callback.SendsNothing (msg :: msgs) ↔
      (∀ str, .sendText str ∉ callback [msg]) ∧
        SendsNothing (fun past => callback (msg :: past)) msgs := by
  constructor
  · intro h
    refine ⟨h [msg] (by simp) ⟨msgs, rfl⟩, fun past _ hpast => ?_⟩
    exact h (msg :: past) (by simp) (List.cons_prefix_cons.mpr ⟨rfl, hpast⟩)
  · rintro ⟨hfirst, hrest⟩ past hne hpast
    cases past with
    | nil => exact absurd rfl hne
    | cons m past =>
        obtain ⟨rfl, hlater⟩ := List.cons_prefix_cons.mp hpast
        cases past with
        | nil => exact hfirst
        | cons m' past => exact hrest _ (by simp) hlater

/-! ## An empty transmit buffer takes a delimiter -/

/-- Nothing is pending, and the block is one of at least five bytes. -/
structure Vacant (b : SimpleBuffer) : Prop where
  valid : b.Valid
  empty : b.getSize = 0
  long : 5 ≤ b.mMaxLen

theorem Vacant.hasRoom {b : SimpleBuffer} (h : Vacant b) (cap : ℕ) :
    b.extent.HasRoom cap 2 := by
  have hsize := h.valid.getSize_eq
  have hempty := h.empty
  have hstart := h.valid.start_le
  have hlong := h.long
  -- the offsets are equal: there is space behind them or in front
  show 2 ≤ b.mMaxLen - b.mEndLoc ∨ 2 < b.mStartLoc ∨ _
  omega

namespace SocketChatImpl

variable {s t : SocketChatImpl} {tr es : List Event}

/-- **A text that is sent now is placed**, or at least its delimiter is. -/
theorem placed_sendText_ne_nil (h : Vacant s.mTransmitBuffer)
    {str : Option CString} (hlen : (textOf str).val.length < shortLimit) :
    placed (s.sendText str).2 ≠ [] := by
  have hnil : s.mTransmitBuffer.getData = [] := by
    apply List.eq_nil_of_length_eq_zero
    rw [SimpleBuffer.length_getData, h.empty]
  have hintact := sendText_intact h.valid hlen
  have hdata := (sendText_spec h.valid str hintact).2.2
  rw [hnil, List.nil_append] at hdata
  rw [← hdata]
  by_cases hroom : s.mTransmitBuffer.HasRoom (toU32 (textOf str).val.length)
  · obtain ⟨-, htext⟩ := sendText_of_room h.valid str hroom
    rw [htext, hnil, List.nil_append]
    cases hn : toU32 (textOf str).val.length with
    | zero =>
        have hsame : s.mTransmitBuffer.extent.append 0 =
            s.mTransmitBuffer.extent := by
          simp [Extent.append]
        rw [hsame, if_pos (h.hasRoom _)]
        simp
    | succ n =>
        have hle := toU32_le (textOf str).val.length
        intro hempty
        have hlength := congrArg List.length
          (List.append_eq_nil_iff.mp hempty).1
        rw [List.length_take, List.length_nil] at hlength
        omega
  · rcases sendText_of_no_room h.valid str hroom with
      ⟨-, hover⟩ | ⟨-, -, htext⟩
    · rw [hintact] at hover
      cases hover
    · have hwraps : ¬ s.mTransmitBuffer.extent.Wraps
          s.mTransmitBuffer.mMaxGrowSize
          (toU32 (textOf str).val.length) :=
        not_wraps_of_short h.valid hlen
      rw [htext, hnil, Extent.refuse, if_neg hwraps, if_pos (h.hasRoom _)]
      simp

/-! ## What a callback sends -/

theorem close_transmitBuffer (s : SocketChatImpl) :
    s.close.1.mTransmitBuffer = s.mTransmitBuffer := by
  unfold close
  split
  · rfl
  · rfl

theorem react_transmitBuffer {calls : List Call} :
    ∀ {s : SocketChatImpl}, (∀ str, .sendText str ∉ calls) →
    (react s calls).1.mTransmitBuffer = s.mTransmitBuffer := by
  induction calls with
  | nil => exact fun _ => rfl
  | cons call calls ih =>
      intro s h
      cases call with
      | sendText str => exact absurd List.mem_cons_self (h str)
      | close =>
          have hrest := ih (s := s.close.1) fun str hin =>
            h str (List.mem_cons_of_mem _ hin)
          exact hrest.trans s.close_transmitBuffer

/-- The calls of a callback place nothing exactly when none sends a text. -/
theorem placed_react_eq_nil_iff {calls : List Call} :
    ∀ {s : SocketChatImpl}, Vacant s.mTransmitBuffer →
    (∀ text ∈ texts (react s calls).2, text.val.length < shortLimit) →
    (placed (react s calls).2 = [] ↔ ∀ str, .sendText str ∉ calls) := by
  induction calls with
  | nil => exact fun _ _ => iff_of_true rfl fun _ => List.not_mem_nil
  | cons call calls ih =>
      intro s h hshort
      cases call with
      | sendText str =>
          have hlen := hshort (textOf str) List.mem_cons_self
          refine iff_of_false (fun hnil => ?_) fun hnone =>
            hnone str List.mem_cons_self
          have hsplit : placed ((s.sendText str).2 ++
              (react (s.sendText str).1 calls).2) = [] := hnil
          rw [placed_append, List.append_eq_nil_iff] at hsplit
          exact placed_sendText_ne_nil h hlen hsplit.1
      | close =>
          have hsilent : placed s.close.2 = [] ∧ texts s.close.2 = [] := by
            unfold close
            split
            · exact ⟨rfl, rfl⟩
            · exact ⟨rfl, rfl⟩
          have hrest := ih (s := s.close.1)
            (s.close_transmitBuffer.symm ▸ h) fun text htext =>
              hshort text (by
                show text ∈ texts (s.close.2 ++ _)
                rw [texts_append]
                exact List.mem_append_right _ htext)
          show placed (s.close.2 ++ _) = [] ↔ _
          rw [placed_append, hsilent.1, List.nil_append, hrest]
          simp

/-- Dispatching from an empty transmit buffer places nothing exactly when the
callback sends nothing for the messages it gets. -/
theorem placed_dispatchLoop_eq_nil_iff (callback : Callback) (fuel : ℕ) :
    ∀ {s : SocketChatImpl} (past : List CString), s.mReceiveBuffer.Valid →
    Vacant s.mTransmitBuffer →
    (∀ text ∈ texts (s.dispatchLoop callback past fuel).2,
      text.val.length < shortLimit) →
    (placed (s.dispatchLoop callback past fuel).2 = [] ↔
      Callback.SendsNothing (fun msgs => callback (past ++ msgs))
        (messages (s.dispatchLoop callback past fuel).2)) := by
  induction fuel with
  | zero =>
      intro s past _ _ _
      refine iff_of_true rfl fun msgs hne hmsgs => ?_
      exact absurd (List.prefix_nil.mp hmsgs) hne
  | succ fuel ih =>
      intro s past h hvacant hshort
      rw [dispatchLoop] at hshort ⊢
      rcases dispatchPass_spec h callback past with
        ⟨hnone, -⟩ | ⟨seg, b, hb, -, -, hsome⟩
      · rw [hnone]
        refine iff_of_true rfl fun msgs hne hmsgs => ?_
        exact absurd (List.prefix_nil.mp hmsgs) hne
      · let r := react { s with mReceiveBuffer := b }
          (callback (past ++ [cstring seg]))
        have hkeep : r.1.mReceiveBuffer = b := react_receiveBuffer ..
        rw [hsome] at hshort ⊢
        let rest := r.1.dispatchLoop callback (past ++ [cstring seg]) fuel
        have hshort' : ∀ text ∈ texts (.delivered (cstring seg) :: r.2 ++
            rest.2), text.val.length < shortLimit := hshort
        have hmsgs : messages (.delivered (cstring seg) :: r.2 ++ rest.2) =
            cstring seg :: messages rest.2 := by
          rw [messages_append]
          show cstring seg :: messages r.2 ++ _ = _
          rw [messages_react]
          rfl
        have hplaced : placed (.delivered (cstring seg) :: r.2 ++ rest.2) =
            placed r.2 ++ placed rest.2 := by
          rw [placed_append]
          rfl
        rw [texts_append] at hshort'
        have hreact := placed_react_eq_nil_iff (s := { s with
          mReceiveBuffer := b }) hvacant fun text htext =>
            hshort' text (List.mem_append_left _ htext)
        show placed (.delivered (cstring seg) :: r.2 ++ rest.2) = [] ↔ _
        show _ ↔ Callback.SendsNothing _
          (messages (.delivered (cstring seg) :: r.2 ++ rest.2))
        rw [hplaced, hmsgs, List.append_eq_nil_iff,
          Callback.sendsNothing_cons, hreact]
        refine and_congr_right fun hquiet => ?_
        have hsame : r.1.mTransmitBuffer = s.mTransmitBuffer :=
          react_transmitBuffer (s := { s with mReceiveBuffer := b }) hquiet
        have hnext := ih (s := r.1) (past ++ [cstring seg])
          (hkeep.symm ▸ hb) (hsame.symm ▸ hvacant)
          fun text htext => hshort' text (List.mem_append_right _ htext)
        simpa only [List.append_assoc, List.singleton_append] using hnext

theorem placed_dispatch_eq_nil_iff (callback : Option Callback)
    (h : s.mReceiveBuffer.Valid) (hvacant : Vacant s.mTransmitBuffer)
    (hshort : ∀ text ∈ texts (s.dispatch callback).2,
      text.val.length < shortLimit) :
    placed (s.dispatch callback).2 = [] ↔
      ∀ f ∈ callback, f.SendsNothing (messages (s.dispatch callback).2) := by
  cases callback with
  | none => exact iff_of_true rfl fun f hf => by cases hf
  | some f =>
      have hiff : placed (s.dispatch (some f)).2 = [] ↔
          f.SendsNothing (messages (s.dispatch (some f)).2) :=
        placed_dispatchLoop_eq_nil_iff f _ [] h hvacant hshort
      rw [hiff]
      exact ⟨fun hnothing g hg => Option.some.inj hg ▸ hnothing,
        fun hall => hall f rfl⟩

theorem accepted_dispatch (h : s.mReceiveBuffer.Valid)
    (callback : Option Callback) : accepted (s.dispatch callback).2 = [] := by
  rw [accepted, List.flatMap_eq_nil_iff]
  intro e he
  have hkind := dispatch_events h callback e he
  cases e <;> trivial

/-! ## The transmit buffer does not get shorter -/

theorem noWrap_of_short {b : SimpleBuffer} (hcap : b.mMaxLen ≤ 536870912)
    {n : ℕ} (hn : n < shortLimit) : b.extent.NoWrap n := by
  unfold shortLimit at hn
  have hdouble : b.extent.len = b.mMaxLen := rfl
  refine Or.inr (Or.inr ⟨?_, Or.inr ?_⟩)
  · omega
  · omega

theorem sendText_mMaxLen_le (h : s.mTransmitBuffer.Valid)
    {str : Option CString} (hlen : (textOf str).val.length < shortLimit) :
    s.mTransmitBuffer.mMaxLen ≤ (s.sendText str).1.mTransmitBuffer.mMaxLen := by
  have hcap := h.max_le.trans h.grow_le
  have hbytes : ∀ bytes ∈ str.map (·.val),
      bytes.length = toU32 (textOf str).val.length := by
    intro bytes hin
    obtain ⟨text, rfl, rfl⟩ := Option.map_eq_some_iff.mp hin
    unfold shortLimit at hlen
    exact (toU32_of_lt (hlen.trans (by decide))).symm
  obtain ⟨hfirst, -⟩ := h.sound.addBuffer hbytes (toU32_lt _)
    (noWrap_of_short hcap ((toU32_le _).trans_lt hlen)).growsSafely
  have hcap' := (hfirst.capped h.max_le).trans h.grow_le
  have hdelimiter : ∀ bytes ∈ some ([13, 10] : List UInt8), bytes.length = 2 := by
    simp
  obtain ⟨hsecond, -⟩ := hfirst.sound.addBuffer hdelimiter (by decide)
    (noWrap_of_short hcap' (by decide)).growsSafely
  exact hfirst.mMaxLen_le.trans hsecond.mMaxLen_le

/-- What has been placed is accounted for; and while all texts are short, the
transmit buffer is well-formed and as long as a new one. -/
def Sending (s : SocketChatImpl) (tr : List Event) : Prop :=
  s.Outbound tr ∧ ((∀ text ∈ texts tr, text.val.length < shortLimit) →
    s.mTransmitBuffer.Valid ∧
      DEFAULT_TRANSMIT_BUFFER_SIZE ≤ s.mTransmitBuffer.mMaxLen)

theorem Sending.act (hact : Act s es t) (h : s.Sending tr) :
    t.Sending (tr ++ es) := by
  refine ⟨h.1.act hact, fun hall => ?_⟩
  rw [texts_append] at hall
  obtain ⟨hvalid, hlong⟩ := h.2 fun text htext =>
    hall text (List.mem_append_left _ htext)
  cases hact with
  | send n _ _ =>
      have hkept := hvalid.sound.consume_kept n
      exact ⟨(SimpleBuffer.consume_spec hvalid n).1,
        hlong.trans hkept.mMaxLen_le⟩
  | queue str =>
      have hlen := hall (textOf str)
        (List.mem_append_right _ List.mem_cons_self)
      exact ⟨(sendText_spec hvalid str (sendText_intact hvalid hlen)).1,
        hlong.trans (sendText_mMaxLen_le hvalid hlen)⟩
  | _ => exact ⟨hvalid, hlong⟩

end SocketChatImpl

theorem session_sending {socket : Option ℕ} {t : Session}
    (ht : (session socket).Reachable t) : t.chat.Sending t.trace := by
  have hinit : (SocketChatImpl.construct socket).Sending [] :=
    ⟨session_outbound (.of_init rfl : (session socket).Reachable
      ⟨.construct socket, []⟩), fun _ => ⟨(construct_valid socket).2,
        Nat.le_refl _⟩⟩
  exact (session_invariant hinit (fun _ _ _ _ hact h => h.act hact) ht).2

namespace SocketChatImpl

variable {s : SocketChatImpl} {tr : List Event}

/-- While all texts are short and nothing is pending, what has been placed has
been accepted. -/
theorem Sending.flushed (h : s.Sending tr)
    (hshort : ∀ text ∈ texts tr, text.val.length < shortLimit)
    (hempty : s.mTransmitBuffer.getSize = 0) :
    Vacant s.mTransmitBuffer ∧ accepted tr = placed tr := by
  obtain ⟨hvalid, hlong⟩ := h.2 hshort
  have hnil : s.mTransmitBuffer.getData = [] := by
    apply List.eq_nil_of_length_eq_zero
    rw [SimpleBuffer.length_getData, hempty]
  have hfive : 5 ≤ DEFAULT_TRANSMIT_BUFFER_SIZE := by decide
  refine ⟨⟨hvalid, hempty, hfive.trans hlong⟩, ?_⟩
  rw [(h.1 hvalid.intact).2.2, hnil, List.append_nil]

/-- **Behind the close** nothing is accepted, and nothing is placed exactly if
the callback sends nothing. -/
theorem flushed_disconnect_iff (callback : Option Callback)
    (hread : s.mReceiveBuffer.Valid) (hvacant : Vacant s.mTransmitBuffer)
    (hdone : accepted tr = placed tr)
    (hshort : ∀ text ∈ texts (s.disconnect.1.dispatch callback).2,
      text.val.length < shortLimit) :
    accepted (tr ++ (.closeSocket :: .ready .CLOSED ::
        (s.disconnect.1.dispatch callback).2)) =
      placed (tr ++ (.closeSocket :: .ready .CLOSED ::
        (s.disconnect.1.dispatch callback).2)) ↔
      ∀ f ∈ callback, f.SendsNothing
        (messages (s.disconnect.1.dispatch callback).2) := by
  have haccepted : accepted (.closeSocket :: .ready .CLOSED ::
      (s.disconnect.1.dispatch callback).2) = [] :=
    accepted_dispatch (s := s.disconnect.1) hread callback
  have hplaced : placed (.closeSocket :: .ready .CLOSED ::
      (s.disconnect.1.dispatch callback).2) =
      placed (s.disconnect.1.dispatch callback).2 := rfl
  rw [accepted_append, placed_append, haccepted, hplaced, hdone,
    List.append_nil, List.self_eq_append_right]
  exact placed_dispatch_eq_nil_iff callback (s := s.disconnect.1) hread hvacant
    hshort

end SocketChatImpl

/-- **What a `poll` that finishes a requested close flushes.** Everything
placed until the socket is closed has been accepted by then; and everything
placed until `poll` returns has exactly if the callback sends nothing. -/
theorem poll_flushes {socket : Option ℕ} {t : Session}
    (ht : (session socket).Reachable t) (hopen : t.chat.mReadyState ≠ .CLOSED)
    (callback : Option Callback) (timeout : ℤ) (io : Answers)
    (hclosed : (t.chat.poll callback timeout io).1.mReadyState = .CLOSED)
    (hbroken : broken (t.chat.poll callback timeout io).2 = false)
    (hshort : ∀ text ∈ texts (t.trace ++ (t.chat.poll callback timeout io).2),
      text.val.length < shortLimit) :
    (∃ pre post, (t.chat.poll callback timeout io).2 =
        pre ++ .closeSocket :: .ready .CLOSED :: post ∧
      accepted (t.trace ++ pre) = placed (t.trace ++ pre)) ∧
    (accepted (t.trace ++ (t.chat.poll callback timeout io).2) =
        placed (t.trace ++ (t.chat.poll callback timeout io).2) ↔
      ∀ f ∈ callback, f.SendsNothing (t.chat.complete io)) := by
  obtain ⟨hlive, hfails, u, pre, hemits, hread, hempty, hdata, heq⟩ :=
    SocketChatImpl.poll_finishes (session_inbound ht).1 (session_words ht)
      hopen callback timeout io hclosed hbroken
  have hsending : u.Sending (t.trace ++ pre) :=
    hemits.preserves (I := SocketChatImpl.Sending)
      (fun _ _ _ _ hact h => h.act hact) _ (session_sending ht)
  let post := (u.disconnect.1.dispatch callback).2
  have htexts : texts (t.trace ++ (t.chat.poll callback timeout io).2) =
      texts (t.trace ++ pre) ++ texts post := by
    rw [heq, ← List.append_assoc, texts_append]
    rfl
  rw [htexts] at hshort
  obtain ⟨hvacant, hdone⟩ := hsending.flushed (fun text htext =>
    hshort text (List.mem_append_left _ htext)) hempty
  refine ⟨⟨pre, post, heq, hdone⟩, ?_⟩
  rw [heq, ← List.append_assoc,
    SocketChatImpl.flushed_disconnect_iff callback hread hvacant hdone
      fun text htext => hshort text (List.mem_append_right _ htext)]
  -- what is dispatched then is what was read before
  refine forall₂_congr fun f hf => ?_
  obtain rfl : callback = some f := hf
  have hmsgs : messages post = t.chat.complete io := by
    rw [SocketChatImpl.complete_of_not_fails hlive hfails, ← hdata]
    exact SocketChatImpl.messages_dispatchBinary (s := u.disconnect.1) hread f
  exact iff_of_eq (congrArg f.SendsNothing hmsgs)

/-- **The connection lifecycle.** The ready state has moved from OPEN to
CLOSING, to CLOSED, or through CLOSING to CLOSED, and nowhere else. The socket
is closed once, when CLOSED is entered, and never used after that. And a
`poll` that moves CLOSING to CLOSED without the transport having failed in it
has flushed, where it closes the socket, everything placed in the transmit
buffer; where it returns, exactly if its callback has sent nothing. No text may
be so long that the arithmetic of `sendText` wraps. -/
theorem connection_lifecycle {k : ℕ} {t : Session}
    (ht : (session (some k)).Reachable t) :
    (t.chat.mReadyState, readyMoves t.trace) ∈
      [(.OPEN, []), (.CLOSING, [.CLOSING]), (.CLOSED, [.CLOSED]),
        (.CLOSED, [.CLOSING, .CLOSED])] ∧
    (t.chat.mReadyState ≠ .CLOSED → .closeSocket ∉ t.trace) ∧
    (t.chat.mReadyState = .CLOSED →
      ∃ pre post, t.trace = pre ++ .closeSocket :: .ready .CLOSED :: post ∧
        .closeSocket ∉ pre ∧ .CLOSED ∉ readyMoves pre ∧
        ∀ e ∈ post, e.usesSocket = false) ∧
    (∀ (callback : Option Callback) (timeout : ℤ) (io : Answers),
      let r := t.chat.poll callback timeout io
      t.chat.mReadyState = .CLOSING → r.1.mReadyState = .CLOSED →
      broken r.2 = false →
      (∀ text ∈ texts (t.trace ++ r.2), text.val.length < shortLimit) →
      (∃ pre post, r.2 = pre ++ .closeSocket :: .ready .CLOSED :: post ∧
        accepted (t.trace ++ pre) = placed (t.trace ++ pre)) ∧
      (accepted (t.trace ++ r.2) = placed (t.trace ++ r.2) ↔
        ∀ f ∈ callback, f.SendsNothing (t.chat.complete io))) := by
  have hlife := session_lifecycle ht
  refine ⟨hlife.moves, hlife.notYetClosed, ?_, ?_⟩
  · intro hclosed
    rw [hclosed] at hlife
    exact hlife.closedOnce
  · intro callback timeout io r hclosing hclosed hbroken hshort
    have hopen : t.chat.mReadyState ≠ .CLOSED := by simp [hclosing]
    exact poll_flushes ht hopen callback timeout io hclosed hbroken hshort

/-- A connection that queues a text, is closed and then polled twice: the
transport takes three bytes at first, and the rest in the second `poll`. -/
theorem connection_lifecycle_close_requested :
    ∃ t, (session (some 0)).Reachable t ∧ t.chat.mReadyState = .CLOSING ∧
      (t.chat.poll none 0 ⟨[], [.room 9]⟩).1.mReadyState = .CLOSED ∧
      accepted (t.trace ++ (t.chat.poll none 0 ⟨[], [.room 9]⟩).2) =
        placed (t.trace ++ (t.chat.poll none 0 ⟨[], [.room 9]⟩).2) := by
  let t₀ : Session := ⟨.construct (some 0), []⟩
  let t₁ := t₀.call (.sendText (some ⟨[104, 105], by decide⟩))
  let t₂ := t₁.call .close
  let t₃ := t₂.call (.poll none 0 ⟨[], [.room 2]⟩)
  have h₀ : (session (some 0)).Reachable t₀ := .of_init rfl
  have h₁ : (session (some 0)).Reachable t₁ := h₀.step rfl
  have h₂ : (session (some 0)).Reachable t₂ := h₁.step rfl
  have h₃ : (session (some 0)).Reachable t₃ := h₂.step rfl
  have hclosing : t₃.chat.mReadyState = .CLOSING := by decide +kernel
  have hclosed : (t₃.chat.poll none 0 ⟨[], [.room 9]⟩).1.mReadyState =
      .CLOSED := by decide +kernel
  have hbroken : broken (t₃.chat.poll none 0 ⟨[], [.room 9]⟩).2 = false := by
    decide +kernel
  have hshort : ∀ text ∈ texts (t₃.trace ++
      (t₃.chat.poll none 0 ⟨[], [.room 9]⟩).2),
      text.val.length < shortLimit := by decide +kernel
  obtain ⟨-, hiff⟩ := (connection_lifecycle h₃).2.2.2 none 0 ⟨[], [.room 9]⟩
    hclosing hclosed hbroken hshort
  exact ⟨t₃, h₃, hclosing, hclosed, hiff.mpr fun f hf => by cases hf⟩

/-- A connection is closed, and the `poll` that finishes the close gets a
message and answers it: the answer is placed and never sent. -/
theorem close_truncates_answer :
    ∃ t, (session (some 0)).Reachable t ∧ t.chat.mReadyState = .CLOSING ∧
      ∃ callback io,
        (t.chat.poll (some callback) 0 io).1.mReadyState = .CLOSED ∧
        broken (t.chat.poll (some callback) 0 io).2 = false ∧
        accepted (t.trace ++ (t.chat.poll (some callback) 0 io).2) = [] ∧
        placed (t.trace ++ (t.chat.poll (some callback) 0 io).2) =
          [98, 13, 10] := by
  let t₀ : Session := ⟨.construct (some 0), []⟩
  have h₀ : (session (some 0)).Reachable t₀ := .of_init rfl
  have h₁ : (session (some 0)).Reachable (t₀.call .close) := h₀.step rfl
  let callback : Callback := fun _ => [.sendText (some ⟨[98], by decide⟩)]
  let io : Answers := ⟨[.bytes 97 [13, 10]], []⟩
  refine ⟨t₀.call .close, h₁, by decide +kernel, callback, io, ?_, ?_, ?_, ?_⟩
  · decide +kernel
  · decide +kernel
  · decide +kernel
  · decide +kernel

end Socketchat.Chat
