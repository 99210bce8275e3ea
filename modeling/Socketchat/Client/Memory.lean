import Socketchat.Chat.Connections
import Socketchat.Client.TestClient

/-!
# The client's memory

What `main` does to its connection, as a program on a heap that has the blocks
of the connection's buffers; the console's reader is not on it, and `memcpy` is
read as `memmove` where its ranges overlap. Whatever is typed, whatever the
server sends and however the reader thread is scheduled, `main` stays inside
live blocks, and deleting the connection leaves none.
-/

namespace Socketchat.Chat

open Foundation Buffer

/-- **A connection by itself.** Modest calls are safe, one after the other, and
lead where they lead without a heap. -/
theorem calls_safe : ∀ {calls : List ApiCall} {t : Session},
    (∀ k ∈ calls, Modest k) → t.chat.Ready →
    Along connections.after connections.SafeCommand [some t.chat]
      (calls.map (.call 0)) ∧
    (calls.map (Command.call 0)).foldl connections.after [some t.chat] =
      [some (calls.foldl Session.call t).chat]
  | [], _, _, _ => ⟨trivial, rfl⟩
  | k :: calls, t, hmodest, hready => by
      have hshort := hmodest k List.mem_cons_self t.chat hready
      have hnext : (t.call k).chat.Ready :=
        connections_implemented.valid_call t.chat k hready hshort
      obtain ⟨hsafe, hlast⟩ := calls_safe
        (fun j hj => hmodest j (List.mem_cons_of_mem k hj)) hnext
      exact ⟨⟨⟨t.chat, rfl, hshort⟩, hsafe⟩, hlast⟩

/-- A connection that is constructed, called and then deleted. -/
theorem calls_outcome {socket : ℕ} {calls : List ApiCall} {t : Session}
    (hmodest : ∀ k ∈ calls, Modest k)
    (ht : t.chat = SocketChatImpl.construct (some socket)) :
    let ks := .create (some socket) :: calls.map (Command.call 0)
    (∃ cs heap p q, (connectionsCode.run [] ks).run Heap.empty =
        some ((connections.answers [] ks, cs), heap) ∧
      cs[0]? = some (some ((calls.foldl Session.call t).chat.handle p q)) ∧
      heap.live ≤ 2) ∧
    ∃ cs heap, (connectionsCode.run [] (ks ++ [.release 0])).run Heap.empty =
        some ((connections.answers [] (ks ++ [.release 0]), cs), heap) ∧
      heap.live = 0 := by
  intro ks
  have hready : t.chat.Ready := by
    rw [ht]
    exact ⟨(construct_valid _).1, (construct_valid _).2⟩
  obtain ⟨hsafe, hend⟩ := calls_safe hmodest hready
  rw [ht] at hsafe hend
  have hks : Along connections.after connections.SafeCommand [] ks :=
    ⟨trivial, hsafe⟩
  -- the connection is the only object, and the first one
  have hobjs : ks.foldl connections.after [] =
      [some (calls.foldl Session.call t).chat] := hend
  constructor
  · obtain ⟨cs, heap, hcode, hcs, hlive⟩ := connections_outcome hks
    rw [hobjs] at hcs hlive
    obtain ⟨p, q, hget⟩ := hcs 0 _ rfl
    exact ⟨cs, heap, p, q, hcode, hget, hlive⟩
  · have hall : Along connections.after connections.SafeCommand []
        (ks ++ [.release 0]) := by
      refine Along.append.mpr ⟨hks, ?_, trivial⟩
      rw [hobjs]
      exact ⟨_, rfl⟩
    obtain ⟨cs, heap, hcode, -, hlive⟩ := connections_outcome hall
    rw [List.foldl_append, hobjs] at hlive
    exact ⟨cs, heap, hcode, Nat.le_zero.mp hlive⟩

end Socketchat.Chat

namespace Socketchat.Client

open Foundation Chat Console

namespace TestClient

variable {c c' : TestClient} {stdin : ℕ → Option UInt8}

/-- The calls on the connection in the next step. -/
def calls (c : TestClient) : Input → List ApiCall
  | .reader => []
  | .getInputLine =>
      c.inputLine.call.1.lines.map fun data => .sendText (some data)
  | .poll io => [.poll (some fun _ => []) 1 io]
  | .close => [.close]
  | .wait io _ =>
      if c.ws.chat.mReadyState ≠ .CLOSED then [.poll none 1 io] else []

/-- The calls on the connection while the client gets these inputs. -/
def issued (stdin : ℕ → Option UInt8) :
    TestClient → List Input → List ApiCall
  | _, [] => []
  | c, input :: inputs => c.calls input ++
      ((c.next stdin input).map fun c => issued stdin c inputs).getD []

/-- A step does to the connection what its calls do. -/
theorem next_ws {input : Input} (h : c.next stdin input = some c') :
    c'.ws = (c.calls input).foldl Session.call c.ws := by
  rcases next_cases h with
    ⟨rfl, rfl⟩ | ⟨rfl, -, rfl⟩ | ⟨io, rfl, -, rfl⟩ | ⟨rfl, -, rfl⟩ |
    ⟨io, late, rfl, -, rfl⟩
  · rfl
  · rcases c.readLine_cases with ⟨data, hline, heq⟩ | ⟨hlines, phase, -, heq⟩
    · rw [heq, calls, hline]
      rfl
    · rw [heq, calls, hlines]
      rfl
  · rfl
  · rfl
  · by_cases hclosed : c.ws.chat.mReadyState ≠ .CLOSED
    · rw [TestClient.wait, if_pos hclosed, calls, if_pos hclosed]
      rfl
    · rw [TestClient.wait, if_neg hclosed, calls, if_neg hclosed]
      rfl

/-- The buffer for lines has the size that it is declared with. -/
def Sized (c : TestClient) : Prop :=
  c.inputLine.mResultBuffer.size = MAX_INPUT

theorem Sized.next (h : c.Sized) {input : Input}
    (hnext : c.next stdin input = some c') : c'.Sized := by
  have hcall : c.inputLine.call.2.mResultBuffer.size = MAX_INPUT := by
    rw [Console.State.call_snd, Console.State.callerNext_size]
    exact h
  rcases next_cases hnext with
    ⟨-, rfl⟩ | ⟨-, -, rfl⟩ | ⟨io, -, -, rfl⟩ | ⟨-, -, rfl⟩ |
    ⟨io, late, -, -, rfl⟩
  · exact (congrArg Block.size
      (c.inputLine.readerNext_mResultBuffer stdin)).trans h
  · rcases c.readLine_cases with ⟨data, -, heq⟩ | ⟨-, phase, -, heq⟩
    · rw [heq]
      exact hcall
    · rw [heq]
      exact hcall
  · exact h
  · exact h
  · unfold TestClient.wait
    split
    · exact h
    · exact h

/-- Everything a client calls is modest: its lines fit their buffer. -/
theorem Sized.modest (h : c.Sized) (input : Input) :
    ∀ k ∈ c.calls input, Modest k := by
  intro k hk
  cases input with
  | reader => cases hk
  | getInputLine =>
      obtain ⟨data, hdata, rfl⟩ := List.mem_map.mp hk
      refine modest_sendText ?_
      -- the line is what `getInputLine` has in its buffer
      have hlen := c.inputLine.call_length hdata
      have hmax : MAX_INPUT < shortLimit := by decide
      rw [show c.inputLine.mResultBuffer.size = MAX_INPUT from h] at hlen
      exact hlen.trans_lt hmax
  | poll io =>
      rw [List.mem_singleton.mp hk]
      exact modest_poll SocketChatImpl.quiet_listener 1 io
  | close =>
      rw [List.mem_singleton.mp hk]
      exact modest_close
  | wait io late =>
      obtain ⟨-, hk⟩ := List.mem_ite_nil_right.mp hk
      rw [List.mem_singleton.mp hk]
      exact modest_poll SocketChatImpl.quiet_none 1 io

/-- **A run**, by one step after the other. -/
theorem Sized.run : ∀ {inputs : List Input} {c : TestClient}, c.Sized →
    feed (TestClient.next · stdin) c inputs = some c' →
    (∀ k ∈ c.issued stdin inputs, Modest k) ∧
    c'.ws = (c.issued stdin inputs).foldl Session.call c.ws
  | [], c, _, hfeed => by
      obtain rfl := Option.some.inj hfeed
      exact ⟨fun k hk => (List.not_mem_nil hk).elim, rfl⟩
  | input :: inputs, c, h, hfeed => by
      obtain ⟨u, hnext, hrest⟩ := Option.bind_eq_some_iff.mp hfeed
      have hnext : c.next stdin input = some u := hnext
      have hissued : c.issued stdin (input :: inputs) =
          c.calls input ++ u.issued stdin inputs := by
        rw [issued, hnext]
        rfl
      obtain ⟨hmodest, hws⟩ := (h.next hnext).run hrest
      rw [hissued]
      constructor
      · intro k hk
        rcases List.mem_append.mp hk with hfirst | hlater
        · exact h.modest input k hfirst
        · exact hmodest k hlater
      · rw [hws, next_ws hnext, List.foldl_append]

end TestClient

/-- **Main result.** In every run, in any interleaving with the reader thread,
whatever is typed and whatever the server sends: what the client does to its
connection stays inside live blocks and frees none twice; the connection is the
one of the model, with at most two blocks; and once it has been deleted no
block is left. -/
theorem client_connection_on_heap {socket : ℕ} {stdin : ℕ → Option UInt8}
    {inputs : List Input} {c₀ c : TestClient}
    (hinit : (testClient socket stdin).init c₀)
    (hrun : feed (TestClient.next · stdin) c₀ inputs = some c) :
    let ks := .create (some socket) ::
      (c₀.issued stdin inputs).map (Command.call 0)
    (∃ cs heap p q, (connectionsCode.run [] ks).run Heap.empty =
        some ((connections.answers [] ks, cs), heap) ∧
      cs[0]? = some (some (c.ws.chat.handle p q)) ∧ heap.live ≤ 2) ∧
    ∃ cs heap, (connectionsCode.run [] (ks ++ [.release 0])).run Heap.empty =
        some ((connections.answers [] (ks ++ [.release 0]), cs), heap) ∧
      heap.live = 0 := by
  intro ks
  obtain ⟨hconsole, -, hws, -⟩ := hinit
  obtain ⟨hmodest, hlast⟩ := TestClient.Sized.run hconsole.2.1 hrun
  rw [hlast]
  exact calls_outcome hmodest (by rw [hws])

/-- The line `bye` is read, handed over and sent, and a poll puts it out. -/
def lastWord : List Input :=
  List.replicate 9 .reader ++ List.replicate 9 .getInputLine ++
    [.poll ⟨[], [.room 8]⟩]

theorem client_connection_on_heap_goodbye : ∃ c cs heap,
    feed (TestClient.next · goodbye) (.start 0) lastWord = some c ∧
    accepted c.ws.trace = [98, 121, 101, 13, 10] ∧
    (connectionsCode.run []
      (.create (some 0) :: ((TestClient.start 0).issued goodbye lastWord).map
        (Command.call 0) ++ [.release 0])).run Heap.empty = some (cs, heap) ∧
    heap.live = 0 := by
  have hshape : (feed (TestClient.next · goodbye) (.start 0) lastWord).map
      (fun c => accepted c.ws.trace) = some [98, 121, 101, 13, 10] := by
    decide +kernel
  obtain ⟨c, hrun, haccepted⟩ := Option.map_eq_some_iff.mp hshape
  obtain ⟨-, cs, heap, hcode, hlive⟩ :=
    client_connection_on_heap (start_init 0 goodbye) hrun
  exact ⟨c, _, heap, hrun, haccepted, hcode, hlive⟩

end Socketchat.Client
