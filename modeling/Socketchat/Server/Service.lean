import Socketchat.Chat.Link
import Socketchat.Server.Relay

/-!
# What `run` does to one connection

A step of `run` polls at most one connection, and then hands at most one text
to all of them. So what a client's connection goes through in a step is a poll,
a `sendText`, both or neither: `Session.serve`. The text and its source are
what a step adds to the script of the room.
-/

namespace Socketchat.Chat

open Buffer

/-- A poll, if there is one, and then a text, if there is one. -/
def Session.serve (t : Session) (io : Option Answers)
    (text : Option CString) : Session :=
  let t := io.elim t fun io => t.call (.poll (some fun _ => []) 1 io)
  text.elim t fun text => t.call (.sendText (some text))

/-- What the poll shows. -/
def Session.observed (t : Session) (io : Option Answers) : List Event :=
  io.elim [] fun io => (t.chat.poll (some fun _ => []) 1 io).2

section Serve

variable {socket : Option ℕ} {t : Session} (io : Option Answers)
  (text : Option CString)

theorem serve_reachable (ht : (session socket).Reachable t) :
    (session socket).Reachable (t.serve io text) := by
  have hpolled : (session socket).Reachable
      (io.elim t fun io => t.call (.poll (some fun _ => []) 1 io)) := by
    cases io with
    | none => exact ht
    | some io => exact ht.step (k := .poll (some fun _ => []) 1 io) rfl
  cases text with
  | none => exact hpolled
  | some text => exact hpolled.step (k := .sendText (some text)) rfl

/-- Whatever a `sendText` does not show is shown by the poll. -/
theorem serve_view {α : Type} (view : Event → List α)
    (hview : ∀ text a b, view (.queued text a b) = []) :
    (t.serve io text).trace.flatMap view =
      t.trace.flatMap view ++ (t.observed io).flatMap view := by
  have hsend : ∀ (s : SocketChatImpl) (str : Option CString),
      (s.sendText str).2.flatMap view = [] := by
    intro s str
    show view (.queued _ _ _) ++ [] = []
    rw [hview]
    rfl
  cases io <;> cases text <;>
    simp [Session.serve, Session.observed, Session.call, SocketChatImpl.exec,
      hsend]

theorem serve_received : received (t.serve io text).trace =
    received t.trace ++ received (t.observed io) :=
  serve_view io text Event.bytesIn fun _ _ _ => rfl

theorem serve_accepted : accepted (t.serve io text).trace =
    accepted t.trace ++ accepted (t.observed io) :=
  serve_view io text Event.bytesOut fun _ _ _ => rfl

theorem serve_messages : messages (t.serve io text).trace =
    messages t.trace ++ messages (t.observed io) :=
  serve_view io text Event.messagesIn fun _ _ _ => rfl

theorem observed_silent (ht : (session socket).Reachable t) :
    Silent (t.observed io) := by
  cases io with
  | none => exact fun e he => by cases he
  | some io =>
      exact SocketChatImpl.poll_silent (session_inbound ht).1
        SocketChatImpl.quiet_listener 1 io

theorem serve_texts (ht : (session socket).Reachable t) :
    texts (t.serve io text).trace = texts t.trace ++ text.toList := by
  have hpolled : texts (io.elim t fun io =>
      t.call (.poll (some fun _ => []) 1 io)).trace = texts t.trace := by
    have hsilent := observed_silent io ht
    cases io with
    | none => rfl
    | some io =>
        show texts (t.trace ++ t.observed (some io)) = _
        rw [texts_append, hsilent.texts_eq, List.append_nil]
  cases text with
  | none => exact hpolled.trans (List.append_nil _).symm
  | some text =>
      refine (texts_append _ _).trans ?_
      rw [hpolled]
      rfl

/-- A connection with room to spare serves short texts whole. -/
theorem serve_whole (ht : (session socket).Reachable t) (h : Whole t.trace)
    (hspare : t.chat.Uncongested)
    (htext : ∀ u ∈ text, Free u.val ∧ u.val.length ≤ 511) :
    Whole (t.serve io text).trace := by
  have hpolled : Whole (io.elim t fun io =>
        t.call (.poll (some fun _ => []) 1 io)).trace ∧
      (io.elim t fun io => t.call
        (.poll (some fun _ => []) 1 io)).chat.mTransmitBuffer.getSize ≤
        t.chat.mTransmitBuffer.getSize := by
    have hsilent := observed_silent io ht
    cases io with
    | none => exact ⟨h, Nat.le_refl _⟩
    | some io =>
        exact ⟨h.silent hsilent,
          h.poll_getSize ht SocketChatImpl.quiet_listener 1 io⟩
  have hreach := serve_reachable io none ht
  cases text with
  | none => exact hpolled.1
  | some text =>
      obtain ⟨hfree, hlen⟩ := htext text rfl
      refine (hpolled.1.sendText hreach hfree ?_).2
      have hquarter : DEFAULT_MAXIMUM_BUFFER_SIZE / 4 = 134217728 := by decide
      have hlimit : spareLimit = 268435456 := by decide
      have hle := hpolled.2
      unfold SocketChatImpl.Uncongested at hspare
      omega

end Serve

end Socketchat.Chat

namespace Socketchat.Server

open Foundation Chat

/-- The text every member is handed in an action, and who said it; `none` for
the console. -/
def RoomAction.spoken : RoomAction → Option (Option ℕ × CString)
  | .announce text => some (none, text)
  | .relay source heard => heard.getLast?.map (some source, ·)
  | _ => none

namespace ServerRun

variable (r : ServerRun)

/-- The answers with which the connection of client `k` is polled. -/
def polls : Input → ℕ → Option Answers
  | .poll io, k =>
      match r.phase with
      | .echoing i =>
          if r.server.mClients[i]?.map (·.number) = some k then some io
          else none
      | _ => none
  | _, _ => none

/-- The text that is handed to every client, and who said it. -/
def spoken (input : Input) : Option (Option ℕ × CString) :=
  (r.action input).bind RoomAction.spoken

variable {r} {r' : ServerRun}

theorem spoken_some {input : Input} {source : Option ℕ} {text : CString}
    (h : r.spoken input = some (source, text)) :
    (∃ str, input = .getInputLine str ∧ source = none ∧
      r.action input = some (.announce text)) ∨
    (∃ i c io, input = .poll io ∧ r.phase = .echoing i ∧
      r.server.mClients[i]? = some c ∧ source = some c.number ∧
      (c.heard io).getLast? = some text) := by
  obtain ⟨action, haction, hspoken⟩ := Option.bind_eq_some_iff.mp h
  rcases action_cases haction with
    ⟨waiting, -, rfl⟩ | ⟨str, told, rfl, rfl⟩ | ⟨i, -, rfl⟩ |
    ⟨i, c, io, rfl, hphase, hc, rfl⟩
  · cases hspoken
  · cases hspoken
    exact Or.inl ⟨str, rfl, rfl, haction⟩
  · cases hspoken
  · obtain ⟨last, hlast, heq⟩ := Option.map_eq_some_iff.mp hspoken
    cases heq
    exact Or.inr ⟨i, c, io, rfl, hphase, hc, rfl, hlast⟩

/-- The console speaks unless it gives a stop word. -/
theorem spoken_getInputLine (str : Option CString) :
    r.spoken (.getInputLine str) =
      match if r.server.mInputLine then str else none with
      | none => none
      | some line => if isStopWord line then none else some (none, line) := by
  simp only [spoken, action]
  cases (if r.server.mInputLine then str else none) with
  | none => rfl
  | some line =>
      dsimp only
      split <;> rfl

theorem spoken_line {str : Option CString} {p : Option ℕ × CString}
    (h : r.spoken (.getInputLine str) = some p) :
    str = some p.2 ∧ p.1 = none ∧ isStopWord p.2 = false := by
  rw [spoken_getInputLine] at h
  cases hline : (if r.server.mInputLine then str else none) with
  | none =>
      simp only [hline] at h
      cases h
  | some line =>
      simp only [hline] at h
      obtain ⟨hstop, hp⟩ := Option.ite_none_left_eq_some.mp h
      cases hp
      have hstr := (Option.ite_none_right_eq_some.mp hline).2
      exact ⟨hstr, rfl, by simpa using hstop⟩

/-! ## The clients after a step -/

/-- A client after a step: it has just been accepted, or it was there before
and its connection has been served. -/
def Served (r : ServerRun) (input : Input) (c' : ClientConnection) : Prop :=
  ∃ c ∈ r.server.mClients, c'.number = c.number ∧
    ∀ t : Session, c.mClient = some t.chat →
      c'.mClient = some (t.serve (r.polls input c.number)
        ((r.spoken input).map (·.2))).chat

theorem served_readLine {str : Option CString} {c' : ClientConnection}
    (hc' : c' ∈ (r.readLine str).server.mClients) :
    r.Served (.getInputLine str) c' := by
  have hmem : c' ∈ (r.server.readLine str).2.1.mClients := hc'
  have hspoken := spoken_getInputLine (r := r) str
  simp only [SimpleServer.readLine] at hmem
  unfold Served
  rw [hspoken]
  cases hline : (if r.server.mInputLine then str else none) with
  | none =>
      simp only [hline] at hmem
      exact ⟨c', hmem, rfl, fun t ht => ht⟩
  | some line =>
      simp only [hline] at hmem
      by_cases hstop : isStopWord line = true
      · simp only [if_pos hstop] at hmem ⊢
        exact ⟨c', hmem, rfl, fun t ht => ht⟩
      · simp only [if_neg hstop] at hmem ⊢
        obtain ⟨c, hc, rfl⟩ := List.mem_map.mp hmem
        refine ⟨c, hc, rfl, fun t ht => ?_⟩
        show c.mClient.map _ = _
        rw [ht]
        rfl

/-- After the poll of the client at position `i`, before the text. -/
theorem polled_cases (hnodup : r.members.Nodup) {i : ℕ} {c : ClientConnection}
    (hphase : r.phase = .echoing i) (hc : r.server.mClients[i]? = some c)
    (io : Answers) {d : ClientConnection}
    (hd : d ∈ r.server.mClients.set i (c.getMessage io).2) :
    ∃ b ∈ r.server.mClients, d.number = b.number ∧
      ∀ t : Session, b.mClient = some t.chat →
        d.mClient = some (t.serve (r.polls (.poll io) b.number) none).chat := by
  obtain ⟨hi, hci⟩ := List.getElem?_eq_some_iff.mp hc
  obtain ⟨-, hnumber, hclient⟩ := c.getMessage_spec io
  obtain ⟨j, hj, rfl⟩ := List.mem_iff_getElem.mp hd
  rw [List.length_set] at hj
  by_cases hij : i = j
  · subst hij
    rw [List.getElem_set_self]
    refine ⟨c, List.mem_of_getElem? hc, hnumber, fun t ht => ?_⟩
    have hpolls : r.polls (.poll io) c.number = some io := by
      simp only [polls, hphase, hc, Option.map_some, if_true]
    rw [hclient, ht, hpolls]
    rfl
  · rw [List.getElem_set_ne hij]
    refine ⟨_, List.getElem_mem hj, rfl, fun t ht => ?_⟩
    have hother : ¬ r.server.mClients[i]?.map (·.number) =
        some r.server.mClients[j].number := by
      rw [hc, Option.map_some, Option.some.injEq, ← hci]
      intro heq
      have hlen : r.members.length = r.server.mClients.length :=
        List.length_map _
      have hi' : i < r.members.length := by omega
      have hj' : j < r.members.length := by omega
      have hsame : r.members[i] = r.members[j] := by
        simpa [members, SimpleServer.numbers] using heq
      exact hij (hnodup.getElem_inj_iff.mp hsame)
    have hpolls : r.polls (.poll io) r.server.mClients[j].number = none := by
      simp only [polls, hphase, if_neg hother]
    rw [hpolls]
    exact ht

theorem served_echo (hnodup : r.members.Nodup) {i : ℕ}
    (hphase : r.phase = .echoing i) {io : Answers} {c' : ClientConnection}
    (hc' : c' ∈ (r.echo i io).server.mClients) : r.Served (.poll io) c' := by
  have hmem : c' ∈ (r.server.echoPass i io).1.mClients := hc'
  cases hc : r.server.mClients[i]? with
  | none =>
      simp only [SimpleServer.echoPass, hc] at hmem
      refine ⟨c', hmem, rfl, fun t ht => ?_⟩
      have hpolls : r.polls (.poll io) c'.number = none := by
        simp [polls, hphase, hc]
      have hspoken : r.spoken (.poll io) = none := by
        simp [spoken, action, hphase, hc]
      rw [hpolls, hspoken]
      exact ht
  | some c =>
      obtain ⟨hmessage, -, -⟩ := c.getMessage_spec io
      have hspoken : r.spoken (.poll io) =
          (c.heard io).getLast?.map (some c.number, ·) := by
        simp [spoken, action, hphase, hc, RoomAction.spoken]
      simp only [SimpleServer.echoPass, hc, hmessage] at hmem
      cases hlast : (c.heard io).getLast? with
      | none =>
          rw [hlast] at hmem hspoken
          obtain ⟨b, hb, hnumber, hserve⟩ :=
            polled_cases hnodup hphase hc io hmem
          refine ⟨b, hb, hnumber, fun t ht => ?_⟩
          rw [hspoken]
          exact hserve t ht
      | some text =>
          rw [hlast] at hmem hspoken
          obtain ⟨d, hd, rfl⟩ := List.mem_map.mp hmem
          obtain ⟨b, hb, hnumber, hserve⟩ :=
            polled_cases hnodup hphase hc io hd
          refine ⟨b, hb, hnumber, fun t ht => ?_⟩
          rw [hspoken]
          show d.mClient.map _ = _
          rw [hserve t ht]
          rfl

/-- **What a step does to a client.** -/
theorem next_client {input : Input} (h : r.next input = some r')
    (hnodup : r.members.Nodup) {c' : ClientConnection}
    (hc' : c' ∈ r'.server.mClients) :
    (r.action input = some .join ∧ c'.number = r.count ∧
      c'.mClient = some (.construct (some r.count))) ∨ r.Served input c' := by
  rcases next_cases h with
    ⟨waiting, rfl, -, rfl⟩ | ⟨str, rfl, -, rfl⟩ | ⟨rfl, -, rfl⟩ |
    ⟨i, io, rfl, hphase, rfl⟩
  · have hsame : ∀ c ∈ r.server.mClients, r.Served (.pollServer waiting) c := by
      intro c hc
      refine ⟨c, hc, rfl, fun t ht => ?_⟩
      have hspoken : r.spoken (.pollServer waiting) = none := by
        unfold spoken ServerRun.action
        dsimp only
        split <;> rfl
      rw [hspoken]
      exact ht
    have hmem : c' ∈ (r.server.acceptClient
      (if waiting then some r.count else none)).1.mClients := hc'
    cases hsocket : r.server.mServerSocket <;> cases waiting <;>
      simp only [SimpleServer.acceptClient, hsocket, Bool.false_eq_true,
        if_false, if_true] at hmem
    · exact Or.inr (hsame c' hmem)
    · exact Or.inr (hsame c' hmem)
    · exact Or.inr (hsame c' hmem)
    · rcases List.mem_append.mp hmem with hmem | hmem
      · exact Or.inr (hsame c' hmem)
      · rw [List.mem_singleton.mp hmem]
        refine Or.inl ⟨?_, rfl, rfl⟩
        simp [ServerRun.action, hsocket]
  · exact Or.inr (served_readLine hc')
  · refine Or.inr ⟨c', ?_, rfl, fun t ht => ?_⟩
    · exact SimpleServer.reapPass_forall (P := (· ∈ r.server.mClients))
        (fun _ hc => hc) c' hc'
    · have hspoken : r.spoken .reap = none := by
        unfold spoken ServerRun.action
        cases r.server.mClients.findIdx? fun c => !c.isConnected <;> rfl
      rw [hspoken]
      exact ht
  · exact Or.inr (served_echo hnodup hphase hc')

/-! ## What the room hears -/

theorem polls_some {input : Input} {k : ℕ} {io : Answers}
    (h : r.polls input k = some io) :
    ∃ i c, input = .poll io ∧ r.phase = .echoing i ∧
      r.server.mClients[i]? = some c ∧ c.number = k := by
  unfold polls at h
  cases input with
  | poll io' =>
      cases hphase : r.phase with
      | echoing i =>
          simp only [hphase] at h
          obtain ⟨hc, hio⟩ := Option.ite_none_right_eq_some.mp h
          obtain ⟨c, hc, hnumber⟩ := Option.map_eq_some_iff.mp hc
          cases hio
          exact ⟨i, c, rfl, rfl, hc, hnumber⟩
      | _ =>
          simp only [hphase] at h
          cases h
  | _ => cases h

/-- Nothing is heard but from the client polled. -/
theorem heardFrom_events (room : Room) (action : RoomAction) (k : ℕ) :
    heardFrom k (room.events action) =
      match action with
      | .relay source heard => if source = k then heard else []
      | _ => [] := by
  cases action with
  | relay source heard => exact Room.heardFrom_relay source heard k
  | join => rfl
  | leave i =>
      show heardFrom k (room.members[i]?.map ServerEvent.lost).toList = []
      cases room.members[i]? <;> rfl
  | announce text =>
      show heardFrom k (room.handOut none text) = []
      rw [heardFrom, Room.handOut, List.flatMap_map, List.flatMap_eq_nil_iff]
      exact fun _ _ => rfl

/-- **What a step hears from a client** is what its connection delivers. -/
theorem heardFrom_next {input : Input} (h : r.next input = some r') {k : ℕ}
    {t : Session}
    (hchat : ∀ c ∈ r.server.mClients, c.number = k → c.mClient = some t.chat) :
    heardFrom k r'.trace =
      heardFrom k r.trace ++ messages (t.observed (r.polls input k)) := by
  have htrace : r'.trace =
      r.trace ++ (r.action input).elim [] r.room.events := by
    have hroom := congrArg Room.trace (next_room h)
    cases haction : r.action input with
    | none =>
        rw [haction] at hroom
        exact hroom.trans (List.append_nil _).symm
    | some action =>
        rw [haction] at hroom
        exact hroom.trans (r.room.trace_perform action)
  rw [htrace, heardFrom_append]
  congr 1
  cases hpolls : r.polls input k with
  | some io =>
      obtain ⟨i, c, rfl, hphase, hc, rfl⟩ := polls_some hpolls
      have hclient := hchat c (List.mem_of_getElem? hc) rfl
      have haction : r.action (.poll io) =
          some (.relay c.number (c.heard io)) := by
        simp only [action, hphase, hc, Option.map_some]
      have hheard : c.heard io = messages (t.observed (some io)) := by
        simp only [ClientConnection.heard, hclient]
        rfl
      rw [haction, ← hheard]
      have hevents := heardFrom_events r.room (.relay c.number (c.heard io))
        c.number
      exact hevents.trans (if_pos rfl)
  | none =>
      show _ = []
      cases haction : r.action input with
      | none => rfl
      | some action =>
          refine (heardFrom_events r.room action k).trans ?_
          rcases action_cases haction with
            ⟨waiting, -, rfl⟩ | ⟨str, text, -, rfl⟩ | ⟨i, -, rfl⟩ |
            ⟨i, c, io, rfl, hphase, hc, rfl⟩
          · rfl
          · rfl
          · rfl
          · refine if_neg fun hk => ?_
            simp [polls, hphase, hc, hk] at hpolls

/-- What is said on behalf of a client is the last of what is heard from it. -/
theorem spoken_heard {input : Input} {k : ℕ} {text : CString}
    (h : r.spoken input = some (some k, text)) {t : Session}
    (hchat : ∀ c ∈ r.server.mClients, c.number = k → c.mClient = some t.chat) :
    (messages (t.observed (r.polls input k))).getLast? = some text := by
  rcases spoken_some h with
    ⟨str, -, hsource, -⟩ | ⟨i, c, io, rfl, hphase, hc, hsource, hlast⟩
  · cases hsource
  · obtain rfl : k = c.number := Option.some.inj hsource
    have hclient := hchat c (List.mem_of_getElem? hc) rfl
    have hpolls : r.polls (.poll io) c.number = some io := by
      simp only [polls, hphase, hc, Option.map_some, if_true]
    simp only [ClientConnection.heard, hclient] at hlast
    rw [hpolls]
    exact hlast

/-- The console is never given up. -/
theorem next_mInputLine {input : Input} (h : r.next input = some r') :
    r'.server.mInputLine = r.server.mInputLine := by
  rcases next_cases h with
    ⟨waiting, -, -, rfl⟩ | ⟨str, -, -, rfl⟩ | ⟨-, -, rfl⟩ |
    ⟨i, io, -, -, rfl⟩
  · show (r.server.acceptClient _).1.mInputLine = _
    unfold SimpleServer.acceptClient
    split
    · split <;> rfl
    · rfl
  · show (r.server.readLine str).2.1.mInputLine = _
    unfold SimpleServer.readLine
    split
    · rfl
    · split <;> rfl
  · show r.server.reapPass.2.1.mInputLine = _
    unfold SimpleServer.reapPass
    split <;> rfl
  · show (r.server.echoPass i io).1.mInputLine = _
    unfold SimpleServer.echoPass
    split
    · rfl
    · dsimp only
      split <;> rfl

end ServerRun

end Socketchat.Server
