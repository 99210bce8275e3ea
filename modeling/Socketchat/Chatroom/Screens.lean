import Socketchat.Chatroom.Invariant

/-!
# What is on the screens

Every screen shows a stretch of one script, from where its client was accepted;
and what the script attributes to a client was typed at that client, in the
order in which it was typed. If no poll of the server completes more than one
message, the script has everything the server has heard, and so everything that
is typed once it has arrived.
-/

namespace Socketchat

open Foundation Buffer Chat Console Server Chatroom

variable {stdin : Option ℕ → ℕ → Option UInt8} {s : Chatroom}

/-- What is on a screen has been handed out, in order. -/
theorem Chatroom.Inv.screen_prefix (h : s.Inv stdin) (k : ℕ) :
    s.screen k <+: s.since k := by
  obtain ⟨t, ht⟩ := h.linked k
  exact ((h.link_down ht).faithful ht.whole).trans ht.handed

/-- **Every screen shows the script**, from where its client was accepted,
without gaps, repetitions or additions; a client in the room for which nothing
is underway shows all of it. -/
theorem every_screen_shows_the_script
    (hzero : ∀ source p, stdin source p ≠ some 0)
    (hs : ((chatroom stdin).restrict Roomy).Reachable s) (k : ℕ) :
    s.screen k <+: s.since k ∧
    ∀ c ∈ s.run.server.mClients, c.number = k → ∀ chat ∈ c.mClient,
      chat.mTransmitBuffer.getData = [] → s.down k = [] →
      (s.clients k).ws.chat.mReceiveBuffer.getData = [] →
      s.screen k = s.since k := by
  have h := (invariant hzero).holds hs
  refine ⟨h.screen_prefix k, ?_⟩
  obtain ⟨t, ht⟩ := h.linked k
  have hlink := h.link_down ht
  intro c hc hnumber chat hchat hsent hflight hread
  have hsame : chat = t.chat :=
    Option.some.inj (hchat.symm.trans (ht.chat c hc hnumber))
  rw [hsame] at hsent
  have hall := hlink.delivered ht.whole hsent hflight hread
  exact hall.trans (ht.member (hnumber ▸ mem_members hc))

/-- `h i LF` at the first client, and nothing anywhere else. -/
def hello : Option ℕ → ℕ → Option UInt8
  | some 0, p => [104, 105, 10][p]?
  | _, _ => none

theorem hello_zero_free : ∀ source p, hello source p ≠ some 0
  | some 0, _, hp => absurd (List.mem_of_getElem? hp) (by decide)
  | some (_ + 1), _, hp => by cases hp
  | none, _, hp => by cases hp

/-- Two clients connect and are accepted, the first of them types; the server
hears the line and hands it to both, and both print it. -/
def helloMoves : List Move :=
  List.flatten [
    [.connect, .connect],
    List.replicate 8 (.client 0 .reader),
    List.replicate 8 (.client 0 .getInputLine),
    [.client 0 (.poll ⟨[], [.room 9]⟩),
      .pollServer true, .getInputLine, .reap, .poll ⟨[], []⟩,
      .pollServer true, .getInputLine, .reap,
      .poll ⟨[.bytes 104 [105, 13, 10]], []⟩, .poll ⟨[], [.room 9]⟩,
      .pollServer false, .getInputLine, .reap,
      .poll ⟨[], [.room 9]⟩, .poll ⟨[], []⟩,
      .client 0 .getInputLine,
      .client 0 (.poll ⟨[.bytes 104 [105, 13, 10]], []⟩),
      .client 1 .getInputLine,
      .client 1 (.poll ⟨[.bytes 104 [105, 13, 10]], []⟩)]]

theorem hello_reachable : ∃ s, ((chatroom hello).restrict Roomy).Reachable s ∧
    s.screen 0 = [cstring [104, 105]] ∧ s.screen 1 = [cstring [104, 105]] ∧
    s.joined 0 ≤ s.joined 1 := by
  let next (s : Chatroom) (move : Move) :=
    if Roomy s move then s.next hello move else none
  have hshape : (feed next .start helloMoves).map (fun s =>
      decide (s.screen 0 = [cstring [104, 105]] ∧
        s.screen 1 = [cstring [104, 105]] ∧ s.joined 0 ≤ s.joined 1)) =
      some true := by
    decide +kernel
  obtain ⟨s, hfeed, hscreens⟩ := Option.map_eq_some_iff.mp hshape
  have hs : ((chatroom hello).restrict Roomy).Reachable s :=
    System.reachable_feed (fun _ _ _ h => Option.ite_none_right_eq_some.mp h)
      (.of_init (start_init hello)) hfeed
  exact ⟨s, hs, of_decide_eq_true hscreens⟩

theorem every_screen_shows_the_script_hello : ∃ s,
    ((chatroom hello).restrict Roomy).Reachable s ∧
    s.screen 0 = [cstring [104, 105]] ∧ s.screen 0 <+: s.since 0 := by
  obtain ⟨s, hs, hscreen, -, -⟩ := hello_reachable
  exact ⟨s, hs, hscreen, (every_screen_shows_the_script hello_zero_free hs 0).1⟩

/-- **Two screens agree.** Where both clients were in the room, what one screen
shows is a first part of what the other shows. -/
theorem two_screens_agree
    (hzero : ∀ source p, stdin source p ≠ some 0)
    (hs : ((chatroom stdin).restrict Roomy).Reachable s) {j k : ℕ}
    (hjk : s.joined j ≤ s.joined k) :
    (s.screen j).drop (s.joined k - s.joined j) <+: s.screen k ∨
    s.screen k <+: (s.screen j).drop (s.joined k - s.joined j) := by
  have h := (invariant hzero).holds hs
  have hj := h.screen_prefix j
  have hk := h.screen_prefix k
  have hsince : (s.since j).drop (s.joined k - s.joined j) = s.since k := by
    rw [Chatroom.since, Chatroom.since, ← List.map_drop, List.drop_drop,
      Nat.add_sub_cancel' hjk]
  have hdrop := hj.drop (s.joined k - s.joined j)
  rw [hsince] at hdrop
  exact List.prefix_or_prefix_of_prefix hdrop hk

theorem two_screens_agree_hello : ∃ s,
    ((chatroom hello).restrict Roomy).Reachable s ∧
    s.screen 1 = [cstring [104, 105]] ∧
    ((s.screen 0).drop (s.joined 1 - s.joined 0) <+: s.screen 1 ∨
      s.screen 1 <+: (s.screen 0).drop (s.joined 1 - s.joined 0)) := by
  obtain ⟨s, hs, -, hscreen, hjoined⟩ := hello_reachable
  exact ⟨s, hs, hscreen, two_screens_agree hello_zero_free hs hjoined⟩

namespace Chatroom

/-- No poll of the server completes more than one message. -/
def Orderly (s : Chatroom) : Move → Prop
  | .poll io => (s.run.completes io).length ≤ 1
  | _ => True

instance (s : Chatroom) (move : Move) : Decidable (s.Orderly move) := by
  cases move <;> unfold Orderly <;> infer_instance

/-- A step in which no more than one message is heard says all that is heard. -/
theorem spoken_eq_heard {input : Server.Input}
    (hone : ∀ io, input = .poll io → (s.run.completes io).length ≤ 1) {k : ℕ}
    {t : Session} (ht : s.Linked k t) :
    ((s.run.spoken input).toList.filter (·.1 = some k)).map (·.2) =
      messages (t.observed (s.run.polls input k)) := by
  cases hpolls : s.run.polls input k with
  | some io =>
      obtain ⟨i, c, rfl, hphase, hc, rfl⟩ := ServerRun.polls_some hpolls
      have hclient := ht.chat c (List.mem_of_getElem? hc) rfl
      have hheard : messages (t.observed (some io)) = s.run.completes io := by
        simp only [ServerRun.completes, hphase, hc, Option.bind_some, hclient]
        exact SocketChatImpl.messages_poll (session_inbound ht.session).1
          (session_words ht.session) _ _ _
      have hspoken : s.run.spoken (.poll io) =
          (c.heard io).getLast?.map (some c.number, ·) := by
        simp [ServerRun.spoken, ServerRun.action, hphase, hc, RoomAction.spoken]
      have hsame : c.heard io = messages (t.observed (some io)) := by
        simp only [ClientConnection.heard, hclient]
        rfl
      have hlast := (Room.getLast?_toList_eq_iff _).mpr (hone io rfl)
      rw [← hheard] at hlast
      rw [hspoken, hsame]
      refine Eq.trans ?_ hlast
      cases (messages (t.observed (some io))).getLast? <;> simp
  | none =>
      show _ = []
      rw [List.map_eq_nil_iff, List.filter_eq_nil_iff]
      rintro ⟨source, text⟩ hp hsource
      rw [decide_eq_true_eq] at hsource
      subst hsource
      have hlast := ServerRun.spoken_heard (Option.mem_toList.mp hp) ht.chat
      rw [hpolls] at hlast
      cases hlast

theorem Serves.orderly {s' : Chatroom} {input : Server.Input} (h : s.Inv stdin)
    (hs : Serves s input s')
    (hone : ∀ io, input = .poll io → (s.run.completes io).length ≤ 1) {k : ℕ}
    (hsame : s.saidBy (some k) = heardFrom k s.run.trace) :
    s'.saidBy (some k) = heardFrom k s'.run.trace := by
  obtain ⟨t, ht⟩ := h.linked k
  rw [hs.saidBy, hsame, ServerRun.heardFrom_next hs.run ht.chat,
    spoken_eq_heard hone ht]

/-- Whatever happens, there is room to spare and no poll of the server
completes more than one message. -/
def RoomyOrderly (s : Chatroom) (move : Move) : Prop :=
  Roomy s move ∧ s.Orderly move

instance (s : Chatroom) (move : Move) : Decidable (RoomyOrderly s move) :=
  inferInstanceAs (Decidable (_ ∧ _))

theorem orderly_invariant (hzero : ∀ source p, stdin source p ≠ some 0)
    (k : ℕ) : ((chatroom stdin).restrict RoomyOrderly).Invariant
      fun s => s.saidBy (some k) = heardFrom k s.run.trace where
  init := by
    rintro s ⟨⟨serverSocket, hrun⟩, -, -, -, -, -, hscript, -⟩
    rw [saidBy, hscript, hrun]
    rfl
  step := by
    rintro s move s' hs hsame ⟨⟨hspare, horderly⟩, hnext⟩
    have h := (invariant hzero).holds (hs.restrict_mono fun _ _ h => h.1)
    rcases next_cases hnext with
      ⟨-, rfl⟩ | ⟨m, input, c, -, -, -, hside⟩ | ⟨-, rfl⟩ | ⟨-, -, rfl⟩ |
      ⟨str, -, -, hserves, -⟩ | ⟨input, -, hpoll, hserves, -⟩
    · exact hsame
    · obtain ⟨-, heq⟩ := Option.ite_none_right_eq_some.mp hside
      obtain rfl := Option.some.inj heq
      exact hsame
    · exact hsame
    · exact hsame
    · have h' : Inv stdin { s with console := s.console.call.2 } :=
        ⟨h.run, h.clients, h.clean, h.joined_le, h.plain, h.heard, h.linked⟩
      exact hserves.orderly h' (fun io heq => by cases heq) hsame
    · refine hserves.orderly h (fun io heq => ?_) hsame
      have hmove := hpoll io heq
      subst hmove
      exact horderly

end Chatroom

/-- **Nothing typed is lost.** In an orderly run the script has all that the
server has heard from a client, in order; and that is all that was sent there,
once nothing is underway from a client that is in the room. -/
theorem nothing_typed_is_lost (hzero : ∀ source p, stdin source p ≠ some 0)
    (hs : ((chatroom stdin).restrict RoomyOrderly).Reachable s) (k : ℕ) :
    s.saidBy (some k) <+: s.sent k ∧
    ∀ c ∈ s.run.server.mClients, c.number = k → ∀ chat ∈ c.mClient,
      (s.clients k).ws.chat.mTransmitBuffer.getData = [] → s.up k = [] →
      chat.mReceiveBuffer.getData = [] →
      s.saidBy (some k) = s.sent k := by
  have h := (invariant hzero).holds (hs.restrict_mono fun _ _ h => h.1)
  have hsame := (orderly_invariant hzero k).holds hs
  obtain ⟨t, ht⟩ := h.linked k
  have hlink := h.link_up ht
  rw [hsame, ← ht.heard]
  refine ⟨hlink.faithful (h.clean k).whole, ?_⟩
  intro c hc hnumber chat hchat hsent hflight hread
  have hclient : chat = t.chat :=
    Option.some.inj (hchat.symm.trans (ht.chat c hc hnumber))
  rw [hclient] at hread
  exact hlink.delivered (h.clean k).whole hsent hflight hread

theorem nothing_typed_is_lost_hello : ∃ s,
    ((chatroom hello).restrict RoomyOrderly).Reachable s ∧
    s.sent 0 = [cstring [104, 105]] ∧ s.saidBy (some 0) <+: s.sent 0 := by
  let next (s : Chatroom) (move : Move) :=
    if RoomyOrderly s move then s.next hello move else none
  have hshape : (feed next .start helloMoves).map (fun s => s.sent 0) =
      some [cstring [104, 105]] := by
    decide +kernel
  obtain ⟨s, hfeed, hsent⟩ := Option.map_eq_some_iff.mp hshape
  have hs : ((chatroom hello).restrict RoomyOrderly).Reachable s :=
    System.reachable_feed (fun _ _ _ h => Option.ite_none_right_eq_some.mp h)
      (.of_init (start_init hello)) hfeed
  exact ⟨s, hs, hsent, (nothing_typed_is_lost hello_zero_free hs 0).1⟩

end Socketchat
