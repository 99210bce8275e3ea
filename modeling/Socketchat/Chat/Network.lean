import Socketchat.Chat.SendText
import Mathlib.Logic.Function.Basic

/-!
# Two endpoints

Two connections joined by a reliable in-order pipe of bytes each way. A `poll`
takes what it receives from the front of the bytes in flight towards it and
puts what it sends behind those in flight towards its peer; the transport
decides how much of either, and whether it fails. Framed, the texts one side
has sent are the messages the other has got, followed by the bytes underway:
in the receiver's buffer, in flight, in the sender's buffer.
-/

namespace Socketchat.Chat

open Foundation Buffer

inductive Side where
  | A
  | B
deriving DecidableEq

def Side.peer : Side → Side
  | .A => .B
  | .B => .A

@[simp] theorem Side.peer_peer (i : Side) : i.peer.peer = i := by
  cases i <;> rfl

theorem Side.peer_ne (i : Side) : i.peer ≠ i := by
  cases i <;> decide

theorem Side.eq_peer_of_ne {i j : Side} (h : j ≠ i) : j = i.peer := by
  cases i <;> cases j <;> first | rfl | exact absurd rfl h

/-- The socket object of each side. -/
def Side.socket : Side → ℕ
  | .A => 0
  | .B => 1

/-- The two sessions, and the bytes in flight towards each side. -/
structure Network where
  ends : Side → Session
  flight : Side → List UInt8

/-- A call on one side. What it receives comes from the front of the bytes in
flight towards it, and what it sends goes behind those towards its peer. -/
def Network.after (n : Network) (i : Side) (call : ApiCall) : Network :=
  let events := ((n.ends i).chat.exec call).2
  { ends := Function.update n.ends i ((n.ends i).call call)
    flight := fun j =>
      if j = i then (n.flight i).drop (received events).length
      else n.flight j ++ accepted events }

def network : System Network (Side × ApiCall) where
  init n := n = ⟨fun i => ⟨.construct (some i.socket), []⟩, fun _ => []⟩
  step n act n' :=
    received ((n.ends act.1).chat.exec act.2).2 <+: n.flight act.1 ∧
      n' = n.after act.1 act.2

namespace Network

variable {n : Network} (i : Side) (call : ApiCall)

@[simp] theorem after_ends_self :
    (n.after i call).ends i = (n.ends i).call call :=
  Function.update_self ..

@[simp] theorem after_ends_peer :
    (n.after i call).ends i.peer = n.ends i.peer :=
  Function.update_of_ne i.peer_ne ..

@[simp] theorem after_flight_self : (n.after i call).flight i =
    (n.flight i).drop (received ((n.ends i).chat.exec call).2).length := by
  simp [after]

@[simp] theorem after_flight_peer : (n.after i call).flight i.peer =
    n.flight i.peer ++ accepted ((n.ends i).chat.exec call).2 := by
  simp [after, i.peer_ne]

end Network

/-! ## What both sides have to themselves -/

/-- Each side is a session, whatever its peer does. -/
theorem network_session : network.Invariant
    fun n => ∀ i, (session (some i.socket)).Reachable (n.ends i) where
  init := by
    rintro n rfl i
    exact .of_init rfl
  step := by
    rintro n ⟨i, call⟩ n' - h ⟨-, rfl⟩ j
    by_cases hj : j = i
    · subst hj
      rw [Network.after_ends_self]
      exact (h j).step rfl
    · rw [Side.eq_peer_of_ne hj, Network.after_ends_peer]
      exact h i.peer

/-- The pipe neither loses nor invents nor reorders. -/
theorem network_pipe : network.Invariant fun n => ∀ i,
    accepted (n.ends i).trace =
      received (n.ends i.peer).trace ++ n.flight i.peer where
  init := by
    rintro n rfl i
    rfl
  step := by
    rintro n ⟨i, call⟩ n' - h ⟨hpre, rfl⟩ j
    obtain ⟨rest, hrest⟩ := hpre
    have hrest : received ((n.ends i).chat.exec call).2 ++ rest =
        n.flight i := hrest
    by_cases hj : j = i
    · subst hj
      rw [Network.after_ends_self, Network.after_ends_peer,
        Network.after_flight_peer, ← List.append_assoc, ← h j]
      exact accepted_append ..
    · rw [Side.eq_peer_of_ne hj, Side.peer_peer, Network.after_ends_self,
        Network.after_ends_peer, Network.after_flight_self, ← hrest,
        List.drop_left, h i.peer, Side.peer_peer, ← hrest,
        ← List.append_assoc]
      exact congrArg (· ++ rest) (received_append ..).symm

/-! ## What is placed is what was given -/

/-- A `sendText` one of whose `addBuffer` calls has failed. -/
def Event.failed : Event → Bool
  | .queued _ textAdded delimiterAdded => !(textAdded && delimiterAdded)
  | _ => false

/-- No `addBuffer` inside `sendText` has failed. -/
def NoneFailed (trace : List Event) : Prop := ∀ e ∈ trace, e.failed = false

instance (trace : List Event) : Decidable (NoneFailed trace) :=
  inferInstanceAs (Decidable (∀ e ∈ trace, e.failed = false))

/-- If no append has failed and no length was cut, the bytes placed are the
texts, framed. -/
theorem placed_eq_frame : ∀ {trace : List Event}, NoneFailed trace →
    (∀ text ∈ texts trace, text.val.length < 4294967296) →
    placed trace = frame ((texts trace).map (·.val))
  | [], _, _ => rfl
  | e :: trace, hok, hlen => by
      have htail : NoneFailed trace := fun e h =>
        hok e (List.mem_cons_of_mem _ h)
      have hlen' : ∀ text ∈ texts trace, text.val.length < 4294967296 :=
        fun text h => hlen text (List.mem_append_right _ h)
      have ih := placed_eq_frame htail hlen'
      cases e with
      | queued text ok₁ ok₂ =>
          have hboth := hok _ List.mem_cons_self
          simp only [Event.failed, Bool.not_eq_false', Bool.and_eq_true] at hboth
          obtain ⟨rfl, rfl⟩ := hboth
          have hfits := hlen text List.mem_cons_self
          have hplaced : placed (.queued text true true :: trace) =
              text.val.take (toU32 text.val.length) ++ [13, 10] ++
                placed trace := rfl
          have htexts : texts (.queued text true true :: trace) =
              text :: texts trace := rfl
          rw [hplaced, htexts, ih, toU32_of_lt hfits, List.take_length,
            List.map_cons, show frame (text.val :: _) = _ from
            Framing.frame_cons .., List.append_assoc]
          rfl
      | _ => exact ih

/-- `3 * 2^30`: a shorter text cannot make the growth arithmetic wrap. -/
def shortLimit : ℕ := 3221225472

/-- Short texts never make the growth arithmetic wrap. -/
theorem not_wraps_of_short {b : SimpleBuffer} (h : b.Valid) {len : ℕ}
    (hlen : len < shortLimit) :
    ¬ b.extent.Wraps b.mMaxGrowSize (toU32 len) := by
  rintro ⟨hge, -⟩
  have hge' : 4294967296 ≤ 2 * b.mMaxLen + toU32 len := hge
  have hmax := h.max_le
  have hgrow := h.grow_le
  have hn := toU32_le len
  unfold shortLimit at hlen
  omega

/-- Short texts never make a copy leave its block. -/
theorem sendText_intact {s : SocketChatImpl} (h : s.mTransmitBuffer.Valid)
    {str : Option CString}
    (hlen : (SocketChatImpl.textOf str).val.length < shortLimit) :
    (s.sendText str).1.mTransmitBuffer.overrun = false := by
  by_cases hroom : s.mTransmitBuffer.HasRoom
      (toU32 (SocketChatImpl.textOf str).val.length)
  · exact (SocketChatImpl.sendText_of_room h str hroom).1
  · rcases SocketChatImpl.sendText_of_no_room h str hroom with
      ⟨hshort, -⟩ | ⟨-, hintact, -⟩
    · rw [Extent.refuse, if_neg (not_wraps_of_short h hlen)] at hshort
      exact absurd hshort (Nat.not_lt.mpr h.getSize_le)
    · exact hintact

/-- While all texts are short, no copy leaves its block. -/
theorem session_intact {socket : Option ℕ} {t : Session}
    (ht : (session socket).Reachable t)
    (hshort : ∀ text ∈ texts t.trace, text.val.length < shortLimit) :
    t.chat.mTransmitBuffer.overrun = false := by
  have hstart : (session socket).Reachable ⟨.construct socket, []⟩ :=
    .of_init rfl
  refine (session_invariant (I := fun s tr => s.Outbound tr ∧
    ((∀ text ∈ texts tr, text.val.length < shortLimit) →
      s.mTransmitBuffer.overrun = false))
    ⟨session_outbound hstart, fun _ => rfl⟩
    ?_ ht).2.2 hshort
  rintro s es t tr hact ⟨hout, hintact⟩
  refine ⟨hout.act hact, fun hall => ?_⟩
  rw [texts_append] at hall
  have hbefore := hintact fun text h => hall text (List.mem_append_left _ h)
  cases hact with
  | send n _ _ => exact (SocketChatImpl.consume_overrun ..).trans hbefore
  | queue str =>
      refine sendText_intact (hout hbefore).1 (hall _ ?_)
      exact List.mem_append_right _ List.mem_cons_self
  | _ => exact hbefore

/-! ## End to end -/

/-- Framed, what side `i` has sent is what its peer has got, followed by what
is underway; and what its peer has got is a prefix of what it has sent. -/
def Intact (n : Network) (i : Side) : Prop :=
  frame ((texts (n.ends i).trace).map (·.val)) =
    frame ((messages (n.ends i.peer).trace).map (·.val)) ++
      (n.ends i.peer).chat.mReceiveBuffer.getData ++ n.flight i.peer ++
      (n.ends i).chat.mTransmitBuffer.getData ∧
  messages (n.ends i.peer).trace <+: texts (n.ends i).trace

/-- Segments that are strings are read as themselves. -/
theorem map_cstring (msgs : List CString) :
    (msgs.map (·.val)).map cstring = msgs := by
  rw [List.map_map]
  have hself : (cstring ∘ fun m : CString => m.val) = id := by
    funext m
    exact cstring_of_zero_free m.property
  rw [hself, List.map_id]

/-- **End-to-end integrity.** In every run of the two endpoints over the pipe,
if no text a side has sent contains a delimiter or is `3 * 2^30` bytes or
longer, and none of its appends has failed, then its peer has got a prefix of
its texts and the rest of the framed stream is underway. -/
theorem end_to_end_integrity {n : Network} (hn : network.Reachable n)
    {i : Side} (hfree : ∀ text ∈ texts (n.ends i).trace, Free text.val)
    (hok : NoneFailed (n.ends i).trace)
    (hshort : ∀ text ∈ texts (n.ends i).trace,
      text.val.length < shortLimit) : Intact n i := by
  have hsession := network_session.holds hn
  have hpipe := network_pipe.holds hn i
  have hintact := session_intact (hsession i) hshort
  obtain ⟨-, -, hplaced⟩ := session_outbound (hsession i) hintact
  obtain ⟨-, segs, hsegs, hrec, hmsg⟩ := session_inbound (hsession i.peer)
  have hframed : placed (n.ends i).trace =
      frame ((texts (n.ends i).trace).map (·.val)) :=
    placed_eq_frame hok fun text h => by
      have := hshort text h
      unfold shortLimit at this
      omega
  have hstream : frame ((texts (n.ends i).trace).map (·.val)) =
      frame segs ++ ((n.ends i.peer).chat.mReceiveBuffer.getData ++
        (n.flight i.peer ++ (n.ends i).chat.mTransmitBuffer.getData)) := by
    rw [← hframed, hplaced, hpipe, hrec, List.append_assoc, List.append_assoc]
  -- the segments got are texts sent, so reading them as C strings cuts nothing
  have hprefix : segs <+: (texts (n.ends i).trace).map (·.val) := by
    refine Framing.prefix_of_frame_eq (by decide) ?_ hsegs hstream
    intro m hm
    obtain ⟨text, htext, rfl⟩ := List.mem_map.mp hm
    exact hfree text htext
  obtain ⟨rest, hrest⟩ := hprefix
  obtain ⟨got, later, htexts, rfl, -⟩ := List.map_eq_append_iff.mp hrest.symm
  rw [map_cstring] at hmsg
  refine ⟨?_, ?_⟩
  · rw [hmsg, hstream]
    simp only [List.append_assoc]
  · rw [hmsg, htexts]
    exact List.prefix_append got later

/-- `hi` is queued at A, sent in two pieces, and received by B up to the
carriage return. -/
theorem end_to_end_integrity_split :
    ∃ n, network.Reachable n ∧ n.flight .B = [10] ∧ Intact n .A := by
  let n₀ : Network := ⟨fun i => ⟨.construct (some i.socket), []⟩, fun _ => []⟩
  let n₁ := n₀.after .A (.sendText (some ⟨[104, 105], by decide⟩))
  let n₂ := n₁.after .A (.poll none 0 ⟨[], [.room 0, .room 2]⟩)
  let n₃ := n₂.after .B (.poll (some fun _ => []) 0
    ⟨[.bytes 104 [105, 13]], []⟩)
  have h₀ : network.Reachable n₀ := .of_init rfl
  have h₁ : network.Reachable n₁ :=
    h₀.step (k := (.A, .sendText _)) ⟨by decide +kernel, rfl⟩
  have h₂ : network.Reachable n₂ :=
    h₁.step (k := (.A, .poll none 0 _)) ⟨by decide +kernel, rfl⟩
  have h₃ : network.Reachable n₃ :=
    h₂.step (k := (.B, .poll (some fun _ => []) 0 _)) ⟨by decide +kernel, rfl⟩
  have htexts : texts (n₃.ends .A).trace = [⟨[104, 105], by decide⟩] := by
    decide +kernel
  have hok : NoneFailed (n₃.ends .A).trace := by decide +kernel
  refine ⟨n₃, h₃, by decide +kernel, end_to_end_integrity h₃ ?_ hok ?_⟩
  · rw [htexts]
    intro text h
    rw [List.mem_singleton.mp h]
    decide
  · rw [htexts]
    intro text h
    rw [List.mem_singleton.mp h]
    decide

theorem letters_free (n : ℕ) : Free (letters n).val := by
  intro hin
  have hcr : (13 : UInt8) ∈ (letters n).val := hin.subset List.mem_cons_self
  exact absurd (List.eq_of_mem_replicate hcr) (by decide)

/-- A text whose length is zero modulo `2^32`, on a new connection: both
appends succeed, and the delimiter is all that is queued. -/
theorem sendText_wrapped (socket : Option ℕ) {text : CString}
    (hlen : toU32 text.val.length = 0) :
    let s := SocketChatImpl.construct socket
    (s.sendText (some text)).2 = [.queued text true true] ∧
    (s.sendText (some text)).1.mTransmitBuffer.getData = [13, 10] := by
  intro s
  have hvalid : s.mTransmitBuffer.Valid := (construct_valid socket).2
  have hzero : toU32 (SocketChatImpl.textOf (some text)).val.length = 0 := hlen
  have hroom : s.mTransmitBuffer.HasRoom
      (toU32 (SocketChatImpl.textOf (some text)).val.length) := by
    rw [hzero]
    exact Or.inl (Nat.zero_le _)
  have hdelim : (s.mTransmitBuffer.extent.append 0).HasRoom
      s.mTransmitBuffer.mMaxGrowSize 2 := by
    rw [Extent.append_zero]
    show (⟨0, 0, 16384⟩ : Extent).HasRoom 536870912 2
    decide
  obtain ⟨-, hdata⟩ := SocketChatImpl.sendText_of_room hvalid (some text) hroom
  have hnil : s.mTransmitBuffer.getData = [] := SimpleBuffer.create_getData ..
  rw [hzero, if_pos hdelim, hnil, List.take_zero, List.nil_append,
    List.nil_append] at hdata
  exact ⟨SocketChatImpl.sendText_succeeds hvalid (some text) hroom
    (by rw [hzero]; exact hdelim), hdata⟩

/-- `2^32` bytes given to `sendText` on a new connection: an empty message is
queued. -/
theorem end_to_end_loses_long_text :
    ∃ n, network.Reachable n ∧
      (∀ i, ∀ text ∈ texts (n.ends i).trace, Free text.val) ∧
      (∀ i, NoneFailed (n.ends i).trace) ∧ ¬ Intact n .A := by
  have hlen := length_letters 4294967296
  have hfree := letters_free 4294967296
  generalize letters 4294967296 = text at hlen hfree
  have hzero : toU32 text.val.length = 0 := by
    rw [hlen]
    decide +kernel
  obtain ⟨hevents, hdata⟩ := sendText_wrapped (some 0) hzero
  let n₀ : Network := ⟨fun i => ⟨.construct (some i.socket), []⟩, fun _ => []⟩
  let n₁ := n₀.after .A (.sendText (some text))
  have h₁ : network.Reachable n₁ := by
    refine System.Reachable.step (.of_init (s := n₀) rfl)
      (k := (.A, .sendText (some text))) ⟨?_, rfl⟩
    show received ((SocketChatImpl.construct (some 0)).sendText
      (some text)).2 <+: []
    rw [hevents]
    exact List.nil_prefix
  have hA : (n₁.ends .A).trace = [.queued text true true] := hevents
  have hB : n₁.ends .B = ⟨.construct (some 1), []⟩ := rfl
  have hdata' : (n₁.ends .A).chat.mTransmitBuffer.getData = [13, 10] := hdata
  have hflight : n₁.flight .B = [] := by
    show [] ++ accepted ((SocketChatImpl.construct (some 0)).sendText
      (some text)).2 = []
    rw [hevents]
    rfl
  refine ⟨n₁, h₁, ?_, ?_, ?_⟩
  · intro i u hu
    cases i with
    | A =>
        rw [hA] at hu
        rw [List.mem_singleton.mp (show u ∈ [text] from hu)]
        exact hfree
    | B =>
        rw [hB] at hu
        exact absurd hu List.not_mem_nil
  · intro i
    cases i with
    | A =>
        rw [hA]
        exact fun e he => by rw [List.mem_singleton.mp he]; rfl
    | B =>
        rw [hB]
        exact fun e he => absurd he List.not_mem_nil
  · rintro ⟨hstream, -⟩
    have hpeer : Side.A.peer = .B := rfl
    rw [hpeer, hA, hB, hflight, hdata', show
      (SocketChatImpl.construct (some 1)).mReceiveBuffer.getData = [] from
      SimpleBuffer.create_getData ..] at hstream
    have hlong : (frame ((texts [.queued text true true]).map
        (·.val))).length = text.val.length + 2 := by
      simp [texts, Event.textsOut, Framing.frame]
    have hshort := congrArg List.length hstream
    rw [hlong, hlen] at hshort
    exact absurd hshort (by decide)

end Socketchat.Chat
