import Socketchat.Chat.Polled
import Socketchat.Server.Room

/-!
# The server keeps a room

Every step of `run` is an action of the room whose members are the clients:
accepting joins, reaping leaves, the console announces and a poll relays the
last of the messages it hears. What a client's chat does is a session of its
own, so what a poll hears is decided by the stream.
-/

namespace Socketchat.Server

open Foundation Chat

namespace ClientConnection

variable {c : ClientConnection}

/-! ## `getMessage` -/

/-- Of several messages the last one stays. -/
theorem foldl_receiveMessage (c : ClientConnection) (ms : List CString) :
    ms.foldl receiveMessage c =
      match ms.getLast? with
      | none => c
      | some message => c.receiveMessage message := by
  induction ms using List.reverseRecOn with
  | nil => rfl
  | append_singleton ms m ih =>
      rw [List.foldl_concat, ih, List.getLast?_concat]
      cases ms.getLast? <;> rfl

/-- **`getMessage` returns the last of the messages heard**, and polls the
client's chat. -/
theorem getMessage_spec (c : ClientConnection) (io : Answers) :
    (c.getMessage io).1 = (c.heard io).getLast? ∧
    (c.getMessage io).2.number = c.number ∧
    (c.getMessage io).2.mClient = c.mClient.map fun chat =>
      (chat.poll (some fun _ => []) 1 io).1 := by
  rcases c with ⟨number, have_, message, client, id⟩
  cases client with
  | none => exact ⟨rfl, rfl, rfl⟩
  | some chat =>
      simp only [getMessage, heard, foldl_receiveMessage]
      cases (messages (chat.poll (some fun _ => []) 1 io).2).getLast? with
      | none => exact ⟨rfl, rfl, rfl⟩
      | some message => exact ⟨rfl, rfl, rfl⟩

/-! ## The chat is a session -/

/-- What the client's chat has been through is a session on its socket. -/
def Sound (c : ClientConnection) : Prop :=
  ∀ chat, c.mClient = some chat →
    ∃ trace, (session (some c.number)).Reachable ⟨chat, trace⟩

theorem construct_sound (client id : ℕ) : (construct client id).Sound := by
  intro chat hchat
  obtain rfl : SocketChatImpl.construct (some client) = chat :=
    Option.some.inj hchat
  exact ⟨[], .of_init rfl⟩

theorem Sound.sendText (h : c.Sound) (str : CString) :
    (c.sendText str).Sound := by
  intro chat' hchat'
  obtain ⟨chat, hchat, rfl⟩ := Option.map_eq_some_iff.mp hchat'
  obtain ⟨trace, hreach⟩ := h chat hchat
  exact ⟨_, hreach.step (k := .sendText (some str)) rfl⟩

theorem Sound.getMessage (h : c.Sound) (io : Answers) :
    (c.getMessage io).2.Sound := by
  obtain ⟨-, hnumber, hclient⟩ := c.getMessage_spec io
  intro chat' hchat'
  rw [hclient] at hchat'
  obtain ⟨chat, hchat, rfl⟩ := Option.map_eq_some_iff.mp hchat'
  obtain ⟨trace, hreach⟩ := h chat hchat
  rw [hnumber]
  exact ⟨_, hreach.step (k := .poll (some fun _ => []) 1 io) rfl⟩

/-- What a poll hears is what is complete in the stream. -/
theorem Sound.heard (h : c.Sound) {chat : SocketChatImpl}
    (hchat : c.mClient = some chat) (io : Answers) :
    c.heard io = chat.complete io := by
  obtain ⟨trace, hreach⟩ := h chat hchat
  have hheard : c.heard io =
      messages (chat.poll (some fun _ => []) 1 io).2 := by
    simp only [ClientConnection.heard, hchat]
  rw [hheard]
  exact SocketChatImpl.messages_poll (session_inbound hreach).1
    (session_words hreach) _ _ _

end ClientConnection

/-! ## Every step is an action of the room -/

namespace ServerRun

/-- The room the server keeps. -/
def room (r : ServerRun) : Room := ⟨r.members, r.count, r.trace⟩

/-- What a step of `run` means for the room. -/
def action (r : ServerRun) : Input → Option RoomAction
  | .pollServer waiting =>
      if r.server.mServerSocket && waiting then some .join else none
  | .getInputLine str =>
      match if r.server.mInputLine then str else none with
      | none => none
      | some str => if isStopWord str then none else some (.announce str)
  | .reap =>
      (r.server.mClients.findIdx? fun c => !c.isConnected).map .leave
  | .poll io =>
      match r.phase with
      | .echoing i =>
          r.server.mClients[i]?.map fun c => .relay c.number (c.heard io)
      | _ => none

variable {r : ServerRun}

/-- **Which input means which action.** -/
theorem action_cases {input : Input} {action : RoomAction}
    (h : r.action input = some action) :
    (∃ waiting, input = .pollServer waiting ∧ action = .join) ∨
    (∃ str text, input = .getInputLine str ∧ action = .announce text) ∨
    (∃ i, input = .reap ∧ action = .leave i) ∨
    (∃ i c io, input = .poll io ∧ r.phase = .echoing i ∧
      r.server.mClients[i]? = some c ∧
      action = .relay c.number (c.heard io)) := by
  cases input with
  | pollServer waiting =>
      simp only [ServerRun.action] at h
      split at h
      · cases h
        exact Or.inl ⟨waiting, rfl, rfl⟩
      · cases h
  | getInputLine str =>
      simp only [ServerRun.action] at h
      split at h
      · cases h
      · rename_i text _
        split at h
        · cases h
        · cases h
          exact Or.inr (Or.inl ⟨str, text, rfl, rfl⟩)
  | reap =>
      obtain ⟨i, -, rfl⟩ := Option.map_eq_some_iff.mp h
      exact Or.inr (Or.inr (Or.inl ⟨i, rfl, rfl⟩))
  | poll io =>
      cases hphase : r.phase with
      | echoing i =>
          simp only [ServerRun.action, hphase] at h
          obtain ⟨c, hc, rfl⟩ := Option.map_eq_some_iff.mp h
          exact Or.inr (Or.inr (Or.inr ⟨i, c, io, rfl, rfl, hc, rfl⟩))
      | _ =>
          simp only [ServerRun.action, hphase] at h
          cases h

end ServerRun

/-- Replacing an element by one with the same image. -/
theorem map_set_of_eq {α β : Type*} {f : α → β} {l : List α} {i : ℕ} {a a' : α}
    (ha : l[i]? = some a) (hf : f a' = f a) : (l.set i a').map f = l.map f := by
  obtain ⟨hi, rfl⟩ := List.getElem?_eq_some_iff.mp ha
  rw [List.map_set, hf]
  apply List.ext_getElem?
  intro j
  by_cases hj : i = j
  · subst hj
    simp [hi]
  · rw [List.getElem?_set_ne hj]

namespace SimpleServer

variable (s : SimpleServer)

/-- Handing out a text changes no client's number. -/
theorem broadcast_spec (source : Option ℕ) (str : CString) :
    (s.broadcast source str).1.numbers = s.numbers ∧
    (s.broadcast source str).2 =
      s.numbers.map fun m => .handed source m str := by
  constructor
  · show (s.mClients.map (·.sendText str)).map (·.number) = _
    rw [List.map_map]
    rfl
  · show _ = (s.mClients.map (·.number)).map _
    rw [List.map_map]
    rfl

/-- Nor does polling a client. -/
theorem set_numbers {i : ℕ} {c c' : ClientConnection}
    (hc : s.mClients[i]? = some c) (hnumber : c'.number = c.number) :
    numbers { s with mClients := s.mClients.set i c' } = s.numbers :=
  map_set_of_eq hc hnumber

/-- A pass of the echo loop: the messages heard, and the last one for
everybody. -/
theorem echoPass_spec {i : ℕ} {c : ClientConnection}
    (hc : s.mClients[i]? = some c) (io : Answers) :
    (s.echoPass i io).1.numbers = s.numbers ∧
    (s.echoPass i io).2 =
      (c.heard io).map (.received c.number) ++
        match (c.heard io).getLast? with
        | none => []
        | some text => s.numbers.map fun m => .handed (some c.number) m text := by
  obtain ⟨hmessage, hnumber, -⟩ := c.getMessage_spec io
  have hset := s.set_numbers hc hnumber
  simp only [echoPass, hc, hmessage]
  cases (c.heard io).getLast? with
  | none => exact ⟨hset, (List.append_nil _).symm⟩
  | some text =>
      obtain ⟨hnumbers, hevents⟩ := broadcast_spec
        { s with mClients := s.mClients.set i (c.getMessage io).2 }
        (some c.number) text
      rw [hset] at hnumbers hevents
      exact ⟨hnumbers, congrArg _ hevents⟩

/-- A pass of the reaping loop: nothing, or the client at the first position
without a connection is gone. -/
theorem reapPass_spec :
    match s.mClients.findIdx? fun c => !c.isConnected with
    | none => s.reapPass = (false, s, [])
    | some i => s.reapPass.1 = true ∧
        s.reapPass.2.1.mClients = s.mClients.eraseIdx i ∧
        s.reapPass.2.1.numbers = s.numbers.eraseIdx i ∧
        s.reapPass.2.2 = (s.numbers[i]?.map .lost).toList := by
  unfold reapPass
  cases s.mClients.findIdx? fun c => !c.isConnected with
  | none => rfl
  | some i =>
      refine ⟨rfl, rfl, ?_, ?_⟩
      · exact (List.eraseIdx_map ..).symm
      · simp only [numbers, List.getElem?_map, Option.map_map]
        rfl

end SimpleServer

/-- **What a step of `run` does to the room.** -/
theorem next_room {r r' : ServerRun} {input : Input}
    (h : r.next input = some r') :
    r'.room = (r.action input).elim r.room r.room.perform := by
  rcases ServerRun.next_cases h with
    ⟨waiting, rfl, -, rfl⟩ | ⟨str, rfl, -, rfl⟩ | ⟨rfl, -, rfl⟩ |
    ⟨i, io, rfl, hphase, rfl⟩
  · cases hsocket : r.server.mServerSocket <;> cases waiting <;>
      simp [ServerRun.room, ServerRun.action, ServerRun.accept,
        SimpleServer.acceptClient, hsocket, ServerRun.members,
        SimpleServer.numbers, Room.perform, Room.events,
        ClientConnection.construct]
  · simp only [ServerRun.action, ServerRun.readLine, SimpleServer.readLine]
    cases (if r.server.mInputLine then str else none) with
    | none => simp [ServerRun.room, ServerRun.members]
    | some line =>
        by_cases hstop : isStopWord line = true
        · simp [ServerRun.room, ServerRun.members, hstop]
        · obtain ⟨hnumbers, hevents⟩ := r.server.broadcast_spec none line
          simp only [if_neg hstop, ServerRun.room, ServerRun.members,
            hnumbers, hevents]
          rfl
  · have hpass := r.server.reapPass_spec
    simp only [ServerRun.action]
    cases hfind : r.server.mClients.findIdx? fun c => !c.isConnected with
    | none =>
        simp only [hfind] at hpass
        simp [ServerRun.room, ServerRun.reap, ServerRun.members, hpass]
    | some i =>
        simp only [hfind] at hpass
        obtain ⟨-, -, hnumbers, hevents⟩ := hpass
        simp only [ServerRun.room, ServerRun.reap, ServerRun.members, hnumbers,
          hevents]
        rfl
  · simp only [ServerRun.action, hphase]
    cases hc : r.server.mClients[i]? with
    | none =>
        simp [hc, SimpleServer.echoPass, ServerRun.room, ServerRun.echo,
          ServerRun.members]
    | some c =>
        obtain ⟨hnumbers, hevents⟩ := r.server.echoPass_spec hc io
        simp only [ServerRun.room, ServerRun.echo, ServerRun.members, hnumbers,
          hevents]
        rfl

/-- **The server refines the room.** -/
theorem server_refines_room :
    Refinement server room ServerRun.room ServerRun.action where
  init := by
    rintro r ⟨serverSocket, rfl⟩
    rfl
  step := fun _ _ _ _ h => next_room h

theorem server_proper {r : ServerRun} (hr : server.Reachable r) :
    r.room.Proper ∧ r.room.Agreed :=
  Room.invariant.holds (server_refines_room.reachable hr)

/-! ## What holds of every client -/

/-- A predicate that holds of a new client, and that sending to a client and
polling it preserve. -/
structure ClientInvariant (P : ClientConnection → Prop) : Prop where
  construct : ∀ client id, P (.construct client id)
  sendText : ∀ c str, P c → P (c.sendText str)
  getMessage : ∀ c io, P c → P (c.getMessage io).2

namespace SimpleServer

variable {s : SimpleServer} {P : ClientConnection → Prop}

theorem acceptClient_forall (hP : ClientInvariant P)
    (h : ∀ c ∈ s.mClients, P c) (clientSocket : Option ℕ) :
    ∀ c ∈ (s.acceptClient clientSocket).1.mClients, P c := by
  unfold acceptClient
  split
  · cases clientSocket with
    | none => exact h
    | some client =>
        intro c hc
        rcases List.mem_append.mp hc with hc | hc
        · exact h c hc
        · rw [List.mem_singleton.mp hc]
          exact hP.construct _ _
  · exact h

theorem broadcast_forall (hP : ClientInvariant P)
    (h : ∀ c ∈ s.mClients, P c) (source : Option ℕ) (str : CString) :
    ∀ c ∈ (s.broadcast source str).1.mClients, P c := by
  intro c' hc'
  obtain ⟨c, hc, rfl⟩ := List.mem_map.mp hc'
  exact hP.sendText c str (h c hc)

theorem readLine_forall (hP : ClientInvariant P)
    (h : ∀ c ∈ s.mClients, P c) (str : Option CString) :
    ∀ c ∈ (s.readLine str).2.1.mClients, P c := by
  unfold readLine
  split
  · exact h
  · split
    · exact h
    · exact broadcast_forall hP h none _

theorem reapPass_forall (h : ∀ c ∈ s.mClients, P c) :
    ∀ c ∈ s.reapPass.2.1.mClients, P c := by
  unfold reapPass
  split
  · exact h
  · exact fun c hc => h c (List.mem_of_mem_eraseIdx hc)

theorem echoPass_forall (hP : ClientInvariant P)
    (h : ∀ c ∈ s.mClients, P c) (i : ℕ) (io : Answers) :
    ∀ c ∈ (s.echoPass i io).1.mClients, P c := by
  unfold echoPass
  cases hi : s.mClients[i]? with
  | none => exact h
  | some c =>
      have hc := h c (List.mem_of_getElem? hi)
      have hset : ∀ c' ∈ s.mClients.set i (c.getMessage io).2, P c' := by
        intro c' hc'
        rcases List.mem_or_eq_of_mem_set hc' with hc' | rfl
        · exact h c' hc'
        · exact hP.getMessage c io hc
      dsimp only
      split
      · exact hset
      · exact broadcast_forall hP hset (some c.number) _

end SimpleServer

/-- **The invariant rule for clients.** -/
theorem server_clients {P : ClientConnection → Prop}
    (hP : ClientInvariant P) :
    server.Invariant fun r => ∀ c ∈ r.server.mClients, P c where
  init := by
    rintro r ⟨serverSocket, rfl⟩ c hc
    exact absurd hc List.not_mem_nil
  step := by
    intro r input r' _ h hstep
    rcases ServerRun.next_cases hstep with
      ⟨waiting, -, -, rfl⟩ | ⟨str, -, -, rfl⟩ | ⟨-, -, rfl⟩ |
      ⟨i, io, -, -, rfl⟩
    · exact SimpleServer.acceptClient_forall hP h _
    · exact SimpleServer.readLine_forall hP h str
    · exact SimpleServer.reapPass_forall h
    · exact SimpleServer.echoPass_forall hP h i io

/-- Every client's chat is a session. -/
def SimpleServer.Sound (s : SimpleServer) : Prop := ∀ c ∈ s.mClients, c.Sound

theorem server_sound : server.Invariant fun r => r.server.Sound :=
  server_clients
    { construct := ClientConnection.construct_sound
      sendText := fun _ str h => h.sendText str
      getMessage := fun _ io h => h.getMessage io }

end Socketchat.Server
