import Socketchat.Chatroom.Screens
import Socketchat.Client.Memory
import Socketchat.Server.Memory

/-!
# The memory of a chatroom

Every process has a heap of its own, on which the connections keep their
buffers. In every run of the chatroom what the server and the clients do to
their connections stays inside live blocks; lines come from buffers of 512
bytes, so none is too long. `memcpy` is read as `memmove` where its ranges
overlap, and the objects of the console's readers are not on these heaps.
-/

namespace Socketchat

open Foundation Chat Console Server Client

/-- What a move is for client `k`. -/
def Move.input (k : ℕ) : Move → Option Client.Input
  | .client j input => if j = k then some input else none
  | _ => none

namespace Chatroom

variable {s s' : Chatroom} {stdin : Option ℕ → ℕ → Option UInt8}

/-- What a move is for the server's `run`. -/
def served (s : Chatroom) : Move → Option Server.Input
  | .getInputLine =>
      match s.console.call.1 with
      | .running => none
      | .null => some (.getInputLine none)
      | .line str => some (.getInputLine (some str))
  | .pollServer waiting => some (.pollServer waiting)
  | .reap => some .reap
  | .poll io => some (.poll io)
  | _ => none

/-- The calls that the server makes on its connections during these moves. -/
def serverCalls (stdin : Option ℕ → ℕ → Option UInt8) :
    Chatroom → List Move → List (Command (Option ℕ) ApiCall)
  | _, [] => []
  | s, move :: moves => (s.served move).elim [] s.run.commands ++
      ((s.next stdin move).map fun s => serverCalls stdin s moves).getD []

/-- The calls that client `k` makes on its connection. -/
def clientCalls (stdin : Option ℕ → ℕ → Option UInt8) (k : ℕ) :
    Chatroom → List Move → List ApiCall
  | _, [] => []
  | s, move :: moves => (move.input k).elim [] (s.clients k).calls ++
      ((s.next stdin move).map fun s => clientCalls stdin k s moves).getD []

/-- What a move does in each process. -/
structure Moves (stdin : Option ℕ → ℕ → Option UInt8) (s : Chatroom)
    (move : Move) (s' : Chatroom) : Prop where
  run : (s.served move).elim (some s.run) s.run.next = some s'.run
  console : s'.console.mResultBuffer.size = s.console.mResultBuffer.size
  client : ∀ k, (move.input k).elim (some (s.clients k))
    ((s.clients k).next (stdin (some k))) = some (s'.clients k)

theorem serve_parts {input : Server.Input} (h : s.serve input = some s') :
    s.run.next input = some s'.run ∧ s'.console = s.console ∧
      s'.clients = s.clients := by
  obtain ⟨run', hnext, rfl⟩ := Option.map_eq_some_iff.mp h
  exact ⟨hnext, rfl, rfl⟩

theorem moves_of_next {move : Move} (h : s.next stdin move = some s') :
    Moves stdin s move s' := by
  cases move with
  | connect =>
      obtain ⟨-, heq⟩ := Option.ite_none_right_eq_some.mp h
      obtain rfl := Option.some.inj heq
      exact ⟨rfl, rfl, fun _ => rfl⟩
  | client k input =>
      obtain ⟨-, hnext⟩ := Option.ite_none_right_eq_some.mp h
      obtain ⟨c, hc, hside⟩ := Option.bind_eq_some_iff.mp hnext
      obtain ⟨-, heq⟩ := Option.ite_none_right_eq_some.mp hside
      obtain rfl := Option.some.inj heq
      refine ⟨rfl, rfl, fun j => ?_⟩
      by_cases hj : k = j
      · subst hj
        simpa [Move.input] using hc
      · simp [Move.input, hj, Ne.symm hj]
  | reader =>
      obtain rfl := Option.some.inj h
      exact ⟨rfl, congrArg Block.size
        (s.console.readerNext_mResultBuffer (stdin none)), fun _ => rfl⟩
  | getInputLine =>
      obtain ⟨-, hnext⟩ := Option.ite_none_right_eq_some.mp h
      have hsize : s.console.call.2.mResultBuffer.size =
          s.console.mResultBuffer.size := by
        rw [State.call_snd, State.callerNext_size]
      cases hcall : s.console.call.1 with
      | running =>
          -- a call that has not returned yet is no step of `run`
          rw [hcall] at hnext
          obtain rfl := Option.some.inj hnext
          refine ⟨?_, hsize, fun _ => rfl⟩
          simp only [served, hcall]
          rfl
      | null =>
          rw [hcall] at hnext
          obtain ⟨hrun, hconsole, hclients⟩ := serve_parts hnext
          refine ⟨?_, hconsole ▸ hsize, fun _ => hclients ▸ rfl⟩
          simp only [served, hcall]
          exact hrun
      | line str =>
          rw [hcall] at hnext
          obtain ⟨hrun, hconsole, hclients⟩ := serve_parts hnext
          refine ⟨?_, hconsole ▸ hsize, fun _ => hclients ▸ rfl⟩
          simp only [served, hcall]
          exact hrun
  | pollServer waiting =>
      obtain ⟨-, hnext⟩ := Option.ite_none_right_eq_some.mp h
      obtain ⟨hrun, hconsole, hclients⟩ := serve_parts hnext
      exact ⟨hrun, hconsole ▸ rfl, fun _ => hclients ▸ rfl⟩
  | reap =>
      obtain ⟨hrun, hconsole, hclients⟩ := serve_parts h
      exact ⟨hrun, hconsole ▸ rfl, fun _ => hclients ▸ rfl⟩
  | poll io =>
      -- the pipes change first, and they are in no process
      obtain ⟨p, -, hnext⟩ := Option.bind_eq_some_iff.mp h
      obtain ⟨s₁, hside, hnext⟩ := Option.bind_eq_some_iff.mp hnext
      obtain ⟨-, heq⟩ := Option.ite_none_right_eq_some.mp hside
      obtain rfl := Option.some.inj heq
      obtain ⟨hrun, hconsole, hclients⟩ := serve_parts hnext
      exact ⟨hrun, hconsole ▸ rfl, fun _ => hclients ▸ rfl⟩

/-! ## The server -/

/-- The console returns no line longer than its buffer. -/
theorem short_served (hsize : s.console.mResultBuffer.size = MAX_INPUT)
    {move : Move} {input : Server.Input} (h : s.served move = some input) :
    ShortLine input := by
  cases move with
  | connect => cases h
  | client k input => cases h
  | reader => cases h
  | getInputLine =>
      cases hcall : s.console.call.1 with
      | running =>
          simp only [served, hcall] at h
          cases h
      | null =>
          simp only [served, hcall] at h
          obtain rfl := Option.some.inj h
          trivial
      | line str =>
          simp only [served, hcall] at h
          obtain rfl := Option.some.inj h
          -- the line is the string in `mResultBuffer`
          have hmem : str ∈ s.console.call.1.lines := by
            rw [hcall]
            exact List.mem_singleton_self str
          have hlen := s.console.call_length hmem
          have hmax : MAX_INPUT < shortLimit := by decide
          rw [hsize] at hlen
          exact hlen.trans_lt hmax
  | pollServer waiting =>
      obtain rfl := Option.some.inj h
      trivial
  | reap =>
      obtain rfl := Option.some.inj h
      trivial
  | poll io =>
      obtain rfl := Option.some.inj h
      trivial

/-- **A move**, for the server's connections. -/
theorem Moves.server {move : Move} (h : Moves stdin s move s')
    (hsize : s.console.mResultBuffer.size = MAX_INPUT)
    {objs : List (Option SocketChatImpl)}
    (htracks : Tracks s.run.server.mClients s.run.count objs) :
    Leads objs ((s.served move).elim [] s.run.commands) s'.run.server.mClients
      s'.run.count := by
  have hrun := h.run
  cases hserved : s.served move with
  | none =>
      rw [hserved] at hrun
      rw [← Option.some.inj hrun]
      exact .nil htracks
  | some input =>
      rw [hserved] at hrun
      exact htracks.next (short_served hsize hserved) hrun

/-- **A run**, for the server's connections. -/
theorem serverCalls_lead : ∀ {moves : List Move} {s : Chatroom}
    {objs : List (Option SocketChatImpl)},
    s.console.mResultBuffer.size = MAX_INPUT →
    Tracks s.run.server.mClients s.run.count objs →
    feed (Chatroom.next · stdin) s moves = some s' →
    Leads objs (s.serverCalls stdin moves) s'.run.server.mClients s'.run.count
  | [], _, _, _, htracks, hfeed => Option.some.inj hfeed ▸ .nil htracks
  | move :: moves, s, objs, hsize, htracks, hfeed => by
      obtain ⟨u, hnext, hrest⟩ := Option.bind_eq_some_iff.mp hfeed
      have hnext : s.next stdin move = some u := hnext
      have hmove := moves_of_next hnext
      have hcalls : s.serverCalls stdin (move :: moves) =
          (s.served move).elim [] s.run.commands ++
            u.serverCalls stdin moves := by
        rw [serverCalls, hnext]
        rfl
      rw [hcalls]
      exact (hmove.server hsize htracks).append fun h =>
        serverCalls_lead (hmove.console.trans hsize) h hrest

/-! ## The clients -/

/-- **A move**, for a client's connection. -/
theorem Moves.client_calls {move : Move} (h : Moves stdin s move s') {k : ℕ}
    (hsized : (s.clients k).Sized) :
    (∀ c ∈ (move.input k).elim [] (s.clients k).calls, Modest c) ∧
    (s'.clients k).Sized ∧
    (s'.clients k).ws =
      ((move.input k).elim [] (s.clients k).calls).foldl Session.call
        (s.clients k).ws := by
  have hclient := h.client k
  cases hinput : move.input k with
  | none =>
      rw [hinput] at hclient
      rw [← Option.some.inj hclient]
      exact ⟨fun c hc => (List.not_mem_nil hc).elim, hsized, rfl⟩
  | some input =>
      rw [hinput] at hclient
      exact ⟨hsized.modest input, hsized.next hclient,
        TestClient.next_ws hclient⟩

/-- **A run**, for a client's connection. -/
theorem clientCalls_modest {k : ℕ} : ∀ {moves : List Move} {s : Chatroom},
    (s.clients k).Sized → feed (Chatroom.next · stdin) s moves = some s' →
    (∀ c ∈ s.clientCalls stdin k moves, Modest c) ∧
    (s'.clients k).ws =
      (s.clientCalls stdin k moves).foldl Session.call (s.clients k).ws
  | [], _, _, hfeed => by
      obtain rfl := Option.some.inj hfeed
      exact ⟨fun c hc => (List.not_mem_nil hc).elim, rfl⟩
  | move :: moves, s, hsized, hfeed => by
      obtain ⟨u, hnext, hrest⟩ := Option.bind_eq_some_iff.mp hfeed
      have hnext : s.next stdin move = some u := hnext
      have hcalls : s.clientCalls stdin k (move :: moves) =
          (move.input k).elim [] (s.clients k).calls ++
            u.clientCalls stdin k moves := by
        rw [clientCalls, hnext]
        rfl
      obtain ⟨hfirst, hsized', hws⟩ :=
        (moves_of_next hnext).client_calls hsized
      obtain ⟨hlater, hlast⟩ := clientCalls_modest hsized' hrest
      rw [hcalls]
      constructor
      · intro c hc
        rcases List.mem_append.mp hc with hnow | hthen
        · exact hfirst c hnow
        · exact hlater c hthen
      · rw [hlast, hws, List.foldl_append]

end Chatroom

/-- **Main result.** In every run of the chat, whatever is typed anywhere and
whatever the transport does: what the server and the clients do to their
connections stays inside live blocks and frees none twice; each connection is
the one of the model, with at most two blocks; and whenever the server or a
client deletes its connections, no block is left in that process. -/
theorem chatroom_connections_on_heap {stdin : Option ℕ → ℕ → Option UInt8}
    {s₀ s : Chatroom} {moves : List Move} (hinit : (chatroom stdin).init s₀)
    (hrun : feed (Chatroom.next · stdin) s₀ moves = some s) :
    let ks := s₀.serverCalls stdin moves
    let js k := .create (some k) ::
      (s₀.clientCalls stdin k moves).map (Command.call 0)
    ((∃ os heap, (connectionsCode.run [] ks).run Heap.empty =
        some ((connections.answers [] ks, os), heap) ∧
      (∀ c ∈ s.run.server.mClients, ∃ chat p q, c.mClient = some chat ∧
        os[c.number]? = some (some (chat.handle p q))) ∧
      heap.live ≤ 2 * s.run.server.mClients.length) ∧
    ∀ polls : ℕ → List Answers, ∃ os heap,
      (connectionsCode.run [] (ks ++ s.run.destroy polls)).run Heap.empty =
        some ((connections.answers [] (ks ++ s.run.destroy polls), os),
          heap) ∧
      heap.live = 0) ∧
    ∀ k, (∃ os heap p q, (connectionsCode.run [] (js k)).run Heap.empty =
        some ((connections.answers [] (js k), os), heap) ∧
      os[0]? = some (some ((s.clients k).ws.chat.handle p q)) ∧
      heap.live ≤ 2) ∧
    ∃ os heap, (connectionsCode.run [] (js k ++ [.release 0])).run Heap.empty =
        some ((connections.answers [] (js k ++ [.release 0]), os), heap) ∧
      heap.live = 0 := by
  intro ks js
  obtain ⟨⟨serverSocket, hstart⟩, hconsole, hclients, -⟩ := hinit
  constructor
  · have htracks : Tracks s₀.run.server.mClients s₀.run.count [] := by
      rw [hstart]
      exact tracks_start serverSocket
    have hleads := Chatroom.serverCalls_lead hconsole.2.1 htracks hrun
    exact ⟨hleads.outcome, fun polls =>
      (hleads.append fun h => h.destroy polls).empty⟩
  · intro k
    obtain ⟨hinput, -, hws, -⟩ := hclients k
    obtain ⟨hmodest, hlast⟩ := Chatroom.clientCalls_modest hinput.2.1 hrun
    rw [hlast]
    exact calls_outcome hmodest (by rw [hws])

/-- The two clients that connect, and the line that both of them print. -/
theorem chatroom_connections_on_heap_hello : ∃ s os heap,
    feed (Chatroom.next · hello) .start helloMoves = some s ∧
    s.run.members = [0, 1] ∧
    (connectionsCode.run [] (Chatroom.start.serverCalls hello helloMoves)).run
      Heap.empty = some (os, heap) ∧
    heap.live ≤ 4 := by
  have hmembers : (feed (Chatroom.next · hello) .start helloMoves).map
      (·.run.members) = some [0, 1] := by
    decide +kernel
  obtain ⟨s, hrun, hboth⟩ := Option.map_eq_some_iff.mp hmembers
  obtain ⟨⟨⟨os, heap, hcode, -, hlive⟩, -⟩, -⟩ :=
    chatroom_connections_on_heap (Chatroom.start_init hello) hrun
  rw [s.run.length_mClients, hboth] at hlive
  exact ⟨s, _, heap, hrun, hboth, hcode, hlive⟩

end Socketchat
