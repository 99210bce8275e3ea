import Socketchat.Chat.Memory
import Socketchat.Server.Service

/-!
# The server's memory

What `run` and the destructor of `SimpleServer` do to the connections, as a
program on connections that share a heap: a client is accepted, polled, sent to
and deleted. No client is used after it has been deleted or is deleted twice,
and none is forgotten; so the server's connections are those of the model. Only
the blocks of the connections' buffers are on this heap, not the object of the
console's reader; `memcpy` is read as `memmove` where its ranges overlap.
-/

namespace Socketchat.Chat

open Foundation Buffer

namespace SocketChatImpl

variable {s : SocketChatImpl}

/-- A message is never longer than the receive buffer may grow. -/
theorem poll_messages_short (h : s.mReceiveBuffer.Valid)
    (callback : Option Callback) (timeout : ℤ) (io : Answers) :
    ∀ message ∈ messages (s.poll callback timeout io).2,
      message.val.length ≤ 536870912 := by
  have hstep : ∀ (u : SocketChatImpl) (es : List Event) (v : SocketChatImpl)
      (tr : List Event), activity.step u es v →
      (u.mReceiveBuffer.Valid ∧
        ∀ message ∈ messages tr, message.val.length ≤ 536870912) →
      v.mReceiveBuffer.Valid ∧
        ∀ message ∈ messages (tr ++ es), message.val.length ≤ 536870912 := by
    rintro u es v tr hact ⟨hvalid, hshort⟩
    refine ⟨activity_valid (Act.emits hact) hvalid, fun message hm => ?_⟩
    rw [messages_append] at hm
    rcases List.mem_append.mp hm with hold | hnew
    · exact hshort message hold
    · cases hact with
      | deliver b seg _ _ hcut =>
          obtain rfl := List.mem_singleton.mp hnew
          have hseg : (cstring seg).val.length ≤ seg.length :=
            (List.takeWhile_sublist _).length_le
          have hlen := congrArg List.length hcut
          have hsize := hvalid.getSize_le
          have hmax := hvalid.max_le
          have hcap := hvalid.grow_le
          rw [SimpleBuffer.length_getData, List.length_append] at hlen
          omega
      | _ => cases hnew
  exact (System.Emits.preserves hstep (poll_emits h callback timeout io) []
    ⟨h, fun message hm => by cases hm⟩).2

end SocketChatImpl

end Socketchat.Chat

namespace Socketchat.Server

open Foundation Chat Buffer

/-! ## What is done to the connections -/

/-- `sendText` for each of these clients. -/
def sendTexts (ms : List ℕ) (str : CString) :
    List (Command (Option ℕ) ApiCall) :=
  ms.map fun m => .call m (.sendText (some str))

/-- The calls on connections in a release: the destructor of a connection
closes it and polls it some number of times. The reader of the console and the
server socket have no connection. -/
def Release.commands (polls : ℕ → List Answers) :
    Release → List (Command (Option ℕ) ApiCall)
  | .inputLine => []
  | .client m =>
      .call m .close ::
        ((polls m).map fun io => Command.call m (.poll none 1 io)) ++
          [.release m]
  | .serverSocket => []

namespace ServerRun

variable (r : ServerRun)

/-- The calls on connections in the next step. A client that is deleted there
is closed, so its destructor releases it at once. -/
def commands : Input → List (Command (Option ℕ) ApiCall)
  | .pollServer waiting =>
      if r.server.mServerSocket && waiting then [.create (some r.count)] else []
  | .getInputLine str =>
      match if r.server.mInputLine then str else none with
      | none => []
      | some str =>
          if isStopWord str then [] else sendTexts r.server.numbers str
  | .reap =>
      match r.server.mClients.findIdx? fun c => !c.isConnected with
      | none => []
      | some i => (r.server.mClients[i]?.map fun cc =>
          Command.release cc.number).toList
  | .poll io =>
      match r.phase with
      | .echoing i =>
          match r.server.mClients[i]? with
          | none => []
          | some c =>
              .call c.number (.poll (some fun _ => []) 1 io) ::
                match (c.getMessage io).1 with
                | none => []
                | some newMessage => sendTexts r.server.numbers newMessage
      | _ => []

/-- The calls on connections while `run` gets these inputs. -/
def issued : ServerRun → List Input → List (Command (Option ℕ) ApiCall)
  | _, [] => []
  | r, input :: inputs =>
      r.commands input ++ ((r.next input).map fun r => issued r inputs).getD []

/-- The destructor of `SimpleServer`, which closes and polls each connection
before it releases it. -/
def destroy (polls : ℕ → List Answers) : List (Command (Option ℕ) ApiCall) :=
  r.server.destructor.flatMap (Release.commands polls)

theorem length_mClients : r.server.mClients.length = r.members.length :=
  (List.length_map _).symm

end ServerRun

/-! ## The clients and their connections -/

/-- `objs` are the connections of these clients, each at its number; the other
ones of the `n` that were accepted have been released. -/
structure Tracks (cs : List ClientConnection) (n : ℕ)
    (objs : List (Option SocketChatImpl)) : Prop where
  nodup : (cs.map (·.number)).Nodup
  attached : ∀ c ∈ cs, ∃ chat,
    c.mClient = some chat ∧ objs[c.number]? = some (some chat)
  alive : objs.countP Option.isSome = cs.length
  length_eq : objs.length = n
  ready : ∀ chat, some chat ∈ objs → chat.Ready

/-- These commands are safe, and lead to connections of these clients. -/
def Leads (objs : List (Option SocketChatImpl))
    (ks : List (Command (Option ℕ) ApiCall)) (cs : List ClientConnection)
    (n : ℕ) : Prop :=
  Along connections.after connections.SafeCommand objs ks ∧
    Tracks cs n (ks.foldl connections.after objs)

section Tracks

variable {l l' cs cs' : List ClientConnection} {c d : ClientConnection}
  {n n' : ℕ} {objs : List (Option SocketChatImpl)}
  {ks js : List (Command (Option ℕ) ApiCall)}

theorem Leads.nil (h : Tracks cs n objs) : Leads objs [] cs n := ⟨trivial, h⟩

theorem Leads.append (h : Leads objs ks cs n)
    (hnext : Tracks cs n (ks.foldl connections.after objs) →
      Leads (ks.foldl connections.after objs) js cs' n') :
    Leads objs (ks ++ js) cs' n' := by
  obtain ⟨hsafe, htracks⟩ := hnext h.2
  refine ⟨Along.append.mpr ⟨h.1, hsafe⟩, ?_⟩
  rw [List.foldl_append]
  exact htracks

/-- The other clients have other numbers. -/
theorem Tracks.others (h : Tracks (l ++ c :: l') n objs)
    (hd : d ∈ l ++ l') : d.number ≠ c.number := by
  have hnodup := h.nodup
  rw [List.map_append, List.map_cons, List.nodup_middle, List.nodup_cons,
    ← List.map_append] at hnodup
  exact fun heq => hnodup.1 (heq ▸ List.mem_map_of_mem hd)

theorem Tracks.get_eq (h : Tracks (l ++ c :: l') n objs) : ∃ chat,
    c.mClient = some chat ∧ objs[c.number]? = some (some chat) :=
  h.attached c (List.mem_append_right l List.mem_cons_self)

/-- Putting something else in the place of a client's connection changes
nothing for the others. -/
theorem Tracks.attached_set (h : Tracks (l ++ c :: l') n objs)
    (x : Option SocketChatImpl) (hd : d ∈ l ++ l') : ∃ chat,
    d.mClient = some chat ∧
      (objs.set c.number x)[d.number]? = some (some chat) := by
  have hmem : d ∈ l ++ c :: l' := by
    rw [List.mem_append, List.mem_cons]
    exact (List.mem_append.mp hd).imp_right Or.inr
  obtain ⟨chat, hchat, hget⟩ := h.attached d hmem
  refine ⟨chat, hchat, ?_⟩
  rw [List.getElem?_set_ne (h.others hd).symm]
  exact hget

theorem Tracks.alive_set (h : Tracks (l ++ c :: l') n objs)
    (x : Option SocketChatImpl) :
    (objs.set c.number x).countP Option.isSome =
      (l ++ l').length + if x.isSome then 1 else 0 := by
  obtain ⟨chat, -, hget⟩ := h.get_eq
  obtain ⟨hlt, hsome⟩ := List.getElem?_eq_some_iff.mp hget
  have halive := h.alive
  rw [List.length_append, List.length_cons] at halive
  rw [List.countP_set hlt, hsome, Option.isSome_some, if_pos rfl,
    List.length_append, halive]
  omega

/-- **A call** on one client's connection. -/
theorem Tracks.call (h : Tracks (l ++ c :: l') n objs) {k : ApiCall}
    (hnumber : d.number = c.number)
    (hclient : d.mClient = c.mClient.map fun chat => (chat.exec k).1)
    (hmodest : Modest k) :
    Leads objs [.call c.number k] (l ++ d :: l') n := by
  obtain ⟨chat, hchat, hget⟩ := h.get_eq
  have hlt := (List.getElem?_eq_some_iff.mp hget).1
  have hready := h.ready chat (List.mem_of_getElem? hget)
  have hafter : connections.after objs (.call c.number k) =
      objs.set c.number (some (chat.exec k).1) := by
    simp only [ObjectSpec.after, hget, Option.join_some]
    rfl
  refine ⟨⟨⟨chat, hget, hmodest chat hready⟩, trivial⟩, ?_⟩
  rw [List.foldl_cons, List.foldl_nil, hafter]
  constructor
  case nodup =>
    have hnodup := h.nodup
    rw [List.map_append, List.map_cons] at hnodup ⊢
    rwa [hnumber]
  case attached =>
    -- `d` has the object that was called; the others have what they had
    intro e he
    rcases List.mem_append.mp he with hpre | htail
    · exact h.attached_set _ (List.mem_append_left l' hpre)
    · rcases List.mem_cons.mp htail with rfl | hpost
      · refine ⟨(chat.exec k).1, by rw [hclient, hchat]; rfl, ?_⟩
        rw [hnumber, List.getElem?_set_self hlt]
      · exact h.attached_set _ (List.mem_append_right l hpost)
  case alive =>
    rw [h.alive_set, Option.isSome_some, if_pos rfl, List.length_append,
      List.length_append, List.length_cons, Nat.add_assoc]
  case length_eq =>
    rw [List.length_set]
    exact h.length_eq
  case ready =>
    intro chat' hin
    rcases List.mem_or_eq_of_mem_set hin with hold | hnew
    · exact h.ready chat' hold
    · obtain rfl := Option.some.inj hnew
      exact connections_implemented.valid_call chat k hready
        (hmodest chat hready)

/-- **Deleting** a client. -/
theorem Tracks.release (h : Tracks (l ++ c :: l') n objs) :
    Leads objs [.release c.number] (l ++ l') n := by
  obtain ⟨chat, -, hget⟩ := h.get_eq
  refine ⟨⟨⟨chat, hget⟩, trivial⟩, ?_⟩
  show Tracks (l ++ l') n (objs.set c.number none)
  constructor
  case nodup =>
    have hnodup := h.nodup
    rw [List.map_append, List.map_cons, List.nodup_middle] at hnodup
    rw [List.map_append]
    exact (List.nodup_cons.mp hnodup).2
  case attached => exact fun e he => h.attached_set none he
  case alive => exact h.alive_set none
  case length_eq =>
    rw [List.length_set]
    exact h.length_eq
  case ready =>
    intro chat' hin
    rcases List.mem_or_eq_of_mem_set hin with hold | hnew
    · exact h.ready chat' hold
    · cases hnew

/-- **Accepting** a client. -/
theorem Tracks.create (h : Tracks cs n objs) (id : ℕ) :
    Leads objs [.create (some n)]
      (cs ++ [ClientConnection.construct n id]) (n + 1) := by
  refine ⟨⟨trivial, trivial⟩, ?_⟩
  show Tracks _ _ (objs ++ [some (SocketChatImpl.construct (some n))])
  constructor
  case nodup =>
    rw [List.map_append, List.map_singleton, List.nodup_append_comm,
      List.singleton_append, List.nodup_cons]
    -- all numbers given so far are smaller than the new one
    refine ⟨fun hin => ?_, h.nodup⟩
    obtain ⟨c, hc, rfl⟩ := List.mem_map.mp hin
    obtain ⟨chat, -, hget⟩ := h.attached c hc
    have hlt := (List.getElem?_eq_some_iff.mp hget).1
    rw [h.length_eq] at hlt
    exact Nat.lt_irrefl _ hlt
  case attached =>
    intro c hc
    rcases List.mem_append.mp hc with hold | hnew
    · obtain ⟨chat, hchat, hget⟩ := h.attached c hold
      refine ⟨chat, hchat, ?_⟩
      rw [List.getElem?_append_left (List.getElem?_eq_some_iff.mp hget).1]
      exact hget
    · obtain rfl := List.mem_singleton.mp hnew
      refine ⟨SocketChatImpl.construct (some n), rfl, ?_⟩
      show (objs ++ _)[n]? = _
      rw [← h.length_eq, List.getElem?_concat_length]
  case alive =>
    rw [List.countP_append, List.length_append, h.alive]
    rfl
  case length_eq =>
    rw [List.length_append, h.length_eq]
    rfl
  case ready =>
    intro chat hin
    rcases List.mem_append.mp hin with hold | hnew
    · exact h.ready chat hold
    · obtain rfl := Option.some.inj (List.mem_singleton.mp hnew)
      exact ⟨(construct_valid _).1, (construct_valid _).2⟩

/-! ## A step of `run` -/

/-- The loop that sends a text to all clients. -/
theorem Tracks.sendTexts {str : CString}
    (hstr : str.val.length < shortLimit) : ∀ {l' l : List ClientConnection}
    {objs : List (Option SocketChatImpl)}, Tracks (l ++ l') n objs →
    Leads objs (Server.sendTexts (l'.map (·.number)) str)
      (l ++ l'.map (·.sendText str)) n
  | [], l, objs, h => .nil h
  | c :: l', l, objs, h => by
      have hfirst : Leads objs [.call c.number (.sendText (some str))] _ n :=
        h.call (d := c.sendText str) rfl rfl (modest_sendText hstr)
      refine hfirst.append fun h' => ?_
      rw [← List.singleton_append, ← List.append_assoc] at h'
      have hrest := Tracks.sendTexts hstr h'
      rw [List.append_assoc] at hrest
      exact hrest

end Tracks

/-- A position in a list, as a way to cut it. -/
theorem exists_cut {α : Type*} {xs : List α} {i : ℕ} {x : α}
    (h : xs[i]? = some x) : ∃ pre post, xs = pre ++ x :: post ∧
      xs.eraseIdx i = pre ++ post ∧ ∀ y, xs.set i y = pre ++ y :: post := by
  obtain ⟨hlt, rfl⟩ := List.getElem?_eq_some_iff.mp h
  refine ⟨xs.take i, xs.drop (i + 1), ?_, List.eraseIdx_eq_take_drop_succ ..,
    fun y => List.set_eq_take_append_cons_drop .. |>.trans (if_pos hlt)⟩
  rw [← List.drop_eq_getElem_cons hlt, List.take_append_drop]

/-- The console's lines are short. -/
def ShortLine : Input → Prop
  | .getInputLine (some line) => line.val.length < shortLimit
  | _ => True

variable {r r' : ServerRun} {objs : List (Option SocketChatImpl)}
  {cs : List ClientConnection} {n : ℕ}

/-- The server socket is polled, and a client that waits is accepted. -/
theorem Tracks.pollServer (h : Tracks r.server.mClients r.count objs)
    (waiting : Bool) :
    Leads objs (r.commands (.pollServer waiting))
      (r.accept waiting).server.mClients (r.accept waiting).count := by
  cases hsocket : r.server.mServerSocket with
  | false =>
      simpa [ServerRun.commands, ServerRun.accept,
        SimpleServer.acceptClient, hsocket] using Leads.nil h
  | true =>
      cases waiting with
      | false =>
          simpa [ServerRun.commands, ServerRun.accept,
            SimpleServer.acceptClient, hsocket] using Leads.nil h
      | true =>
          simpa [ServerRun.commands, ServerRun.accept,
            SimpleServer.acceptClient, hsocket] using h.create _

/-- The console's line goes to everyone, unless it is a stop word. -/
theorem Tracks.getInputLine (h : Tracks r.server.mClients r.count objs)
    {str : Option CString} (hline : ShortLine (.getInputLine str)) :
    Leads objs (r.commands (.getInputLine str))
      (r.server.readLine str).2.1.mClients r.count := by
  cases hstr : if r.server.mInputLine then str else none with
  | none =>
      -- no console, or no line yet: nothing is sent
      have hread : r.server.readLine str = (false, r.server, []) := by
        simp only [SimpleServer.readLine, hstr]
      simp only [ServerRun.commands, hstr, hread]
      exact .nil h
  | some line =>
      obtain rfl : str = some line := by
        split at hstr
        · exact hstr
        · cases hstr
      by_cases hstop : isStopWord line
      · have hread : r.server.readLine (some line) =
            (true, r.server, []) := by
          simp only [SimpleServer.readLine, hstr, if_pos hstop]
        simp only [ServerRun.commands, hstr, hread, if_pos hstop]
        exact .nil h
      · have hread : r.server.readLine (some line) =
            (false, r.server.broadcast none line) := by
          simp only [SimpleServer.readLine, hstr, if_neg hstop]
        simp only [ServerRun.commands, hstr, hread, if_neg hstop]
        exact h.sendTexts (l := []) hline

/-- One pass of the loop that deletes the disconnected clients. -/
theorem Tracks.reapPass (h : Tracks r.server.mClients r.count objs) :
    Leads objs (r.commands .reap) r.server.reapPass.2.1.mClients r.count := by
  unfold ServerRun.commands SimpleServer.reapPass
  cases hfind : r.server.mClients.findIdx? fun c => !c.isConnected with
  | none => exact .nil h
  | some i =>
      obtain ⟨hlt, -⟩ := List.findIdx?_eq_some_iff_getElem.mp hfind
      have hget := List.getElem?_eq_getElem hlt
      obtain ⟨pre, post, hcut, herase, -⟩ := exists_cut hget
      dsimp only
      rw [hget, herase]
      rw [hcut] at h
      exact h.release

/-- What a client has said came out of its receive buffer, so it is short. -/
theorem Tracks.getMessage_short (h : Tracks cs n objs) {c : ClientConnection}
    (hc : c ∈ cs) {io : Answers} {text : CString}
    (htext : (c.getMessage io).1 = some text) :
    text.val.length < shortLimit := by
  have hheard : text ∈ c.heard io :=
    List.mem_of_getLast? ((c.getMessage_spec io).1 ▸ htext)
  obtain ⟨chat, hchat, hobj⟩ := h.attached c hc
  have hready := h.ready chat (List.mem_of_getElem? hobj)
  simp only [ClientConnection.heard, hchat] at hheard
  have hle := SocketChatImpl.poll_messages_short hready.receive
    (some fun _ => []) 1 io text hheard
  have hlimit : 536870912 < shortLimit := by decide
  exact hle.trans_lt hlimit

/-- One pass of the loop that polls the clients and echoes what they say. -/
theorem Tracks.echoPass (h : Tracks r.server.mClients r.count objs) {i : ℕ}
    (hphase : r.phase = .echoing i) (io : Answers) :
    Leads objs (r.commands (.poll io)) (r.server.echoPass i io).1.mClients
      r.count := by
  unfold ServerRun.commands SimpleServer.echoPass
  simp only [hphase]
  cases hget : r.server.mClients[i]? with
  | none => exact .nil h
  | some c =>
      obtain ⟨-, hnumber, hclient⟩ := c.getMessage_spec io
      obtain ⟨pre, post, hcut, -, hset⟩ := exists_cut hget
      have hnumbers : (r.server.mClients.set i (c.getMessage io).2).map
          (·.number) = r.server.numbers := r.server.set_numbers hget hnumber
      have hpoll : Leads objs [.call c.number (.poll (some fun _ => []) 1 io)]
          (r.server.mClients.set i (c.getMessage io).2) r.count := by
        rw [hset]
        rw [hcut] at h
        exact h.call hnumber hclient
          (modest_poll SocketChatImpl.quiet_listener 1 io)
      dsimp only
      cases htext : (c.getMessage io).1 with
      | none => exact hpoll
      | some text =>
          have hshort := h.getMessage_short (List.mem_of_getElem? hget) htext
          refine hpoll.append fun h' => ?_
          have hall := h'.sendTexts (l := []) hshort
          rw [hnumbers] at hall
          exact hall

/-- **A step of `run`** is safe, and leaves the connections of the clients
there are. -/
theorem Tracks.next (h : Tracks r.server.mClients r.count objs)
    {input : Input} (hline : ShortLine input)
    (hnext : r.next input = some r') :
    Leads objs (r.commands input) r'.server.mClients r'.count := by
  rcases ServerRun.next_cases hnext with
    ⟨waiting, rfl, -, rfl⟩ | ⟨str, rfl, -, rfl⟩ | ⟨rfl, -, rfl⟩ |
    ⟨i, io, rfl, hphase, rfl⟩
  · exact h.pollServer waiting
  · exact h.getInputLine hline
  · exact h.reapPass
  · exact h.echoPass hphase io

/-! ## Runs, and the destructor -/

/-- **A run**, by one step after the other. -/
theorem Tracks.run : ∀ {inputs : List Input} {r : ServerRun}
    {objs : List (Option SocketChatImpl)},
    Tracks r.server.mClients r.count objs → (∀ i ∈ inputs, ShortLine i) →
    r.feed inputs = some r' →
    Leads objs (r.issued inputs) r'.server.mClients r'.count
  | [], r, objs, h, _, hfeed => Option.some.inj hfeed ▸ .nil h
  | input :: inputs, r, objs, h, hlines, hfeed => by
      obtain ⟨u, hnext, hrest⟩ := Option.bind_eq_some_iff.mp hfeed
      have hissued : r.issued (input :: inputs) =
          r.commands input ++ u.issued inputs := by
        rw [ServerRun.issued, hnext]
        rfl
      rw [hissued]
      exact (h.next (hlines input List.mem_cons_self) hnext).append
        fun h' => Tracks.run h'
          (fun i hi => hlines i (List.mem_cons_of_mem input hi)) hrest

theorem tracks_start (serverSocket : Bool) :
    Tracks (ServerRun.start serverSocket).server.mClients 0 [] where
  nodup := List.nodup_nil
  attached c hc := by cases hc
  alive := rfl
  length_eq := rfl
  ready chat hin := by cases hin

section Destructor

variable {n : ℕ} {post : List ClientConnection}

/-- The polls in the destructor of a connection. -/
theorem Tracks.polls (ios : List Answers) : ∀ {c : ClientConnection}
    {objs : List (Option SocketChatImpl)}, Tracks (c :: post) n objs →
    ∃ d : ClientConnection, d.number = c.number ∧
      Leads objs (ios.map fun io => .call c.number (.poll none 1 io))
        (d :: post) n := by
  induction ios with
  | nil => exact fun {c} _ h => ⟨c, rfl, .nil h⟩
  | cons io ios ih =>
      intro c objs h
      let d := { c with mClient := c.mClient.map fun chat : SocketChatImpl =>
        (chat.exec (.poll none 1 io)).1 }
      have hfirst : Leads objs [.call c.number (.poll none 1 io)]
          (d :: post) n := Tracks.call (l := []) h rfl rfl
        (modest_poll SocketChatImpl.quiet_none 1 io)
      obtain ⟨e, he, hrest⟩ := ih (c := d) hfirst.2
      exact ⟨e, he, hfirst.append fun _ => hrest⟩

/-- **Deleting the clients** releases what there is. -/
theorem Tracks.delete (polls : ℕ → List Answers) :
    ∀ {cs : List ClientConnection} {objs : List (Option SocketChatImpl)},
    Tracks cs n objs →
    Leads objs ((cs.map fun c => Release.client c.number).flatMap
      (Release.commands polls)) [] n
  | [], _, h => .nil h
  | c :: cs, objs, h => by
      let d := { c with
        mClient := c.mClient.map fun chat : SocketChatImpl => chat.close.1 }
      have hclose : Leads objs [.call c.number .close] (d :: cs) n :=
        Tracks.call (l := []) h rfl rfl modest_close
      obtain ⟨e, he, hpolls⟩ := hclose.2.polls (polls c.number)
      have hrelease := Tracks.release (l := []) hpolls.2
      rw [show e.number = c.number from he] at hrelease
      rw [List.map_cons, List.flatMap_cons]
      refine Leads.append ?_ fun h' => h'.delete polls
      rw [Release.commands, List.cons_append, ← List.singleton_append]
      exact hclose.append fun _ => hpolls.append fun _ => hrelease

/-- **The destructor** does nothing else to connections. -/
theorem Tracks.destroy (h : Tracks r.server.mClients n objs)
    (polls : ℕ → List Answers) : Leads objs (r.destroy polls) [] n := by
  have hdestroy : r.destroy polls =
      (r.server.mClients.map fun c => Release.client c.number).flatMap
        (Release.commands polls) := by
    unfold ServerRun.destroy SimpleServer.destructor SimpleServer.numbers
    rw [List.flatMap_append, List.flatMap_append, List.map_map]
    cases r.server.mInputLine <;> cases r.server.mServerSocket <;>
      simp [Release.commands, Function.comp_def]
  rw [hdestroy]
  exact h.delete polls

end Destructor

/-- What is on the heap after commands that leave these clients. -/
theorem Leads.outcome {ks : List (Command (Option ℕ) ApiCall)}
    (h : Leads [] ks cs n) : ∃ os heap,
    (connectionsCode.run [] ks).run Heap.empty =
      some ((connections.answers [] ks, os), heap) ∧
    (∀ c ∈ cs, ∃ chat p q, c.mClient = some chat ∧
      os[c.number]? = some (some (chat.handle p q))) ∧
    heap.live ≤ 2 * cs.length := by
  obtain ⟨os, heap, hcode, hos, hlive⟩ := connections_outcome h.1
  rw [h.2.alive] at hlive
  refine ⟨os, heap, hcode, fun c hc => ?_, hlive⟩
  obtain ⟨chat, hchat, hget⟩ := h.2.attached c hc
  obtain ⟨p, q, hhandle⟩ := hos c.number chat hget
  exact ⟨chat, p, q, hchat, hhandle⟩

/-- No client is left, so no block is. -/
theorem Leads.empty {ks : List (Command (Option ℕ) ApiCall)}
    (h : Leads [] ks [] n) : ∃ os heap,
    (connectionsCode.run [] ks).run Heap.empty =
      some ((connections.answers [] ks, os), heap) ∧ heap.live = 0 := by
  obtain ⟨os, heap, hcode, -, hlive⟩ := h.outcome
  exact ⟨os, heap, hcode, Nat.le_zero.mp hlive⟩

/-- **Main result.** In every run, as long as the console's lines are short:
what the server does to its connections stays inside live blocks and frees none
twice; each client's connection is the one of the model; and there are at most
two blocks for each client. Once the clients have been deleted, however often
each connection is polled in its destructor, no block is left. -/
theorem server_connections_on_heap {serverSocket : Bool} {inputs : List Input}
    {r : ServerRun} (hrun : (ServerRun.start serverSocket).feed inputs = some r)
    (hlines : ∀ input ∈ inputs, ShortLine input) :
    let ks := (ServerRun.start serverSocket).issued inputs
    (∃ cs heap, (connectionsCode.run [] ks).run Heap.empty =
        some ((connections.answers [] ks, cs), heap) ∧
      (∀ c ∈ r.server.mClients, ∃ chat p q, c.mClient = some chat ∧
        cs[c.number]? = some (some (chat.handle p q))) ∧
      heap.live ≤ 2 * r.server.mClients.length) ∧
    ∀ polls : ℕ → List Answers, ∃ cs heap,
      (connectionsCode.run [] (ks ++ r.destroy polls)).run Heap.empty =
        some ((connections.answers [] (ks ++ r.destroy polls), cs), heap) ∧
      heap.live = 0 := by
  intro ks
  have hleads := (tracks_start serverSocket).run hlines hrun
  exact ⟨hleads.outcome, fun polls =>
    (hleads.append fun h => h.destroy polls).empty⟩

/-- Two clients; the first one says `hi` and hangs up, and is reaped. -/
def visit : List Input :=
  [.pollServer true, .getInputLine none, .reap,
    .poll ⟨[.bytes 104 [105, 13, 10], .refused .closed], []⟩,
    .pollServer true, .getInputLine (some ⟨[121, 111], by decide⟩), .reap,
    .reap, .poll ⟨[.bytes 97 [13, 10]], []⟩]

theorem server_connections_on_heap_visit : ∃ r cs heap,
    (ServerRun.start true).feed visit = some r ∧ r.members = [1] ∧
    (connectionsCode.run []
      ((ServerRun.start true).issued visit)).run Heap.empty =
      some ((connections.answers [] ((ServerRun.start true).issued visit), cs),
        heap) ∧
    heap.live ≤ 2 := by
  have hmembers : ((ServerRun.start true).feed visit).map
      (·.members) = some [1] := by
    decide +kernel
  obtain ⟨r, hrun, hone⟩ := Option.map_eq_some_iff.mp hmembers
  have hlines : ∀ input ∈ visit, ShortLine input := by
    simp [visit, ShortLine, shortLimit]
  obtain ⟨⟨cs, heap, hcode, -, hlive⟩, -⟩ :=
    server_connections_on_heap hrun hlines
  rw [r.length_mClients, hone] at hlive
  exact ⟨r, cs, heap, hrun, hone, hcode, hlive⟩

end Socketchat.Server
