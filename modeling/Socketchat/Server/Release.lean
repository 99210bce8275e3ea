import Socketchat.Server.Refinement
import Socketchat.Sockets.Ownership

/-!
# `SimpleServer` releases its sockets

`SimpleServer` is a host: accepting polls the server socket and wraps what it
returns, reaping drops a connection, and nothing else in `run` touches a
socket's life. On a listening stream socket every connection accepted is a new
object, so its destructor leaves every socket released once. Before that it
releases the console's reader, whose thread it does not wait for.
-/

namespace Socketchat.Server

open Foundation Chat Sockets

/-- The socket that deleting a client releases. -/
def ClientConnection.socket (c : ClientConnection) : Option ℕ :=
  c.mClient.bind (·.mSocket)

/-- The client has a chat, which is a session on its socket. -/
def ClientConnection.Attached (c : ClientConnection) : Prop :=
  ∃ chat trace, c.mClient = some chat ∧
    (session (some c.number)).Reachable ⟨chat, trace⟩

theorem attached_invariant : ClientInvariant ClientConnection.Attached where
  construct client _ := ⟨.construct (some client), [], rfl, .of_init rfl⟩
  sendText c str := by
    rintro ⟨chat, trace, hchat, hreach⟩
    refine ⟨_, _, ?_, hreach.step (k := .sendText (some str)) rfl⟩
    show c.mClient.map _ = _
    rw [hchat]
    rfl
  getMessage c io := by
    rintro ⟨chat, trace, hchat, hreach⟩
    obtain ⟨-, hnumber, hclient⟩ := c.getMessage_spec io
    have hpoll := hreach.step (k := .poll (some fun _ => []) 1 io) rfl
    rw [← hnumber] at hpoll
    refine ⟨_, _, ?_, hpoll⟩
    rw [hclient, hchat]
    rfl

theorem ClientConnection.Attached.socket_eq {c : ClientConnection}
    (h : c.Attached) : c.socket = some c.number := by
  obtain ⟨chat, trace, hchat, hreach⟩ := h
  rw [ClientConnection.socket, hchat]
  exact session_socket hreach

/-- Deleting the clients releases the sockets they are numbered by. -/
theorem server_sockets {r : ServerRun} (hr : server.Reachable r) :
    r.server.mClients.map (·.socket) = r.members.map some := by
  have hattached := (server_clients attached_invariant).holds hr
  show _ = (r.server.mClients.map (·.number)).map some
  rw [List.map_map]
  exact List.map_congr_left fun c hc => (hattached c hc).socket_eq

/-! ## Every step is one of a host -/

/-- `run` changes neither pointer. -/
theorem next_pointers {r r' : ServerRun} {input : Input}
    (h : r.next input = some r') :
    r'.server.mServerSocket = r.server.mServerSocket ∧
      r'.server.mInputLine = r.server.mInputLine := by
  rcases ServerRun.next_cases h with
    ⟨waiting, -, -, rfl⟩ | ⟨str, -, -, rfl⟩ | ⟨-, -, rfl⟩ |
    ⟨i, io, -, -, rfl⟩
  · show (r.server.acceptClient _).1.mServerSocket = _ ∧
      (r.server.acceptClient _).1.mInputLine = _
    unfold SimpleServer.acceptClient
    split
    · split <;> exact ⟨rfl, rfl⟩
    · exact ⟨rfl, rfl⟩
  · show (r.server.readLine str).2.1.mServerSocket = _ ∧
      (r.server.readLine str).2.1.mInputLine = _
    unfold SimpleServer.readLine
    split
    · exact ⟨rfl, rfl⟩
    · split <;> exact ⟨rfl, rfl⟩
  · show r.server.reapPass.2.1.mServerSocket = _ ∧
      r.server.reapPass.2.1.mInputLine = _
    unfold SimpleServer.reapPass
    split <;> exact ⟨rfl, rfl⟩
  · show (r.server.echoPass i io).1.mServerSocket = _ ∧
      (r.server.echoPass i io).1.mInputLine = _
    unfold SimpleServer.echoPass
    split
    · exact ⟨rfl, rfl⟩
    · dsimp only
      split <;> exact ⟨rfl, rfl⟩

/-- The destructor begins with the console's reader: it releases the object
while its thread runs. -/
theorem destructor_releases_inputLine {r : ServerRun}
    (hr : server.Reachable r) :
    ∃ rest, r.server.destructor = .inputLine :: rest := by
  have hinv : server.Invariant fun r => r.server.mInputLine = true := by
    constructor
    case init =>
      rintro r ⟨serverSocket, rfl⟩
      rfl
    case step =>
      intro r input r' _ h hnext
      exact (next_pointers hnext).2.trans h
  unfold SimpleServer.destructor
  rw [hinv.holds hr, if_pos rfl, List.append_assoc]
  exact ⟨_, List.singleton_append⟩

/-- The host has the connections of the server, and its server socket if the
server has one. -/
structure Follows (w : WsocketImpl) (r : ServerRun) (h : Host) : Prop where
  server : h.mServerSocket =
    if r.server.mServerSocket then some (.impl w) else none
  clients : h.mClients = r.members.map .accepted
  count : h.count = r.count

theorem Follows.of_quiet {w : WsocketImpl} {r r' : ServerRun} {h : Host}
    (hf : Follows w r h)
    (hserver : r'.server.mServerSocket = r.server.mServerSocket)
    (hmembers : r'.members = r.members) (hcount : r'.count = r.count) :
    Follows w r' h := by
  refine ⟨?_, ?_, ?_⟩
  · rw [hserver]
    exact hf.server
  · rw [hmembers]
    exact hf.clients
  · rw [hcount]
    exact hf.count

/-- **A step of `run`** is a step of a host with a listening stream socket, or
none. -/
theorem Follows.next {w : WsocketImpl} (hserver : w.mIsServer = true)
    (hsocket : w.mSocket ≠ INVALID_SOCKET) (files : SharedFiles)
    {r r' : ServerRun} {h : Host} (hf : Follows w r h) {input : Input}
    (hnext : r.next input = some r') :
    ∃ steps : List HostStep, Follows w r' (steps.foldl Host.exec h) := by
  have hroom := next_room hnext
  have hsame := (next_pointers hnext).1
  cases haction : r.action input with
  | none =>
      rw [haction] at hroom
      exact ⟨[], hf.of_quiet hsame (congrArg Room.members hroom)
        (congrArg Room.count hroom)⟩
  | some action =>
      rw [haction] at hroom
      have hmembers := congrArg Room.members hroom
      have hcount := congrArg Room.count hroom
      rcases ServerRun.action_cases haction with
        ⟨waiting, rfl, rfl⟩ | ⟨str, text, -, rfl⟩ | ⟨i, -, rfl⟩ |
        ⟨i, c, io, -, -, -, rfl⟩
      · have hlistening : r.server.mServerSocket = true := by
          simp only [ServerRun.action] at haction
          split at haction
          · rename_i hboth
            exact (Bool.and_eq_true _ _ ▸ hboth).1
          · cases haction
        have hs : h.mServerSocket = some (.impl w) := by
          rw [hf.server, if_pos hlistening]
        have hret : (0 : ℤ) ≠ INVALID_SOCKET := by decide
        obtain ⟨hs', hclients, hmade⟩ :=
          h.poll_made hs hserver hsocket hret files
        refine ⟨[.poll 0 files], ?_, ?_, ?_⟩
        · rw [hsame, if_pos hlistening]
          exact hs'
        · show (h.poll 0 files).mClients = _
          have hjoined : r'.members = r.members ++ [r.count] := hmembers
          rw [hclients, hf.clients, hf.count, hjoined, List.map_append]
          rfl
        · show (h.poll 0 files).count = _
          rw [hmade, hf.count]
          exact hcount.symm
      · exact ⟨[], hf.of_quiet hsame hmembers hcount⟩
      · obtain ⟨hs', hclients, hmade⟩ := h.drop_spec i
        refine ⟨[.drop i], ?_, ?_, ?_⟩
        · rw [hsame]
          exact hs'.trans hf.server
        · show (h.drop i).mClients = _
          rw [hclients, hf.clients, List.eraseIdx_map]
          exact congrArg _ hmembers.symm
        · exact (hmade.trans hf.count).trans hcount.symm
      · exact ⟨[], hf.of_quiet hsame hmembers hcount⟩

/-- A run of `run` is a run of a host. -/
theorem server_follows {w : WsocketImpl} (hserver : w.mIsServer = true)
    (hsocket : w.mSocket ≠ INVALID_SOCKET) (files : SharedFiles)
    {serverSocket : Bool} {inputs : List Input} {r : ServerRun}
    (hrun : server.Run (.start serverSocket) inputs r) :
    ∃ steps : List HostStep, Follows w r (steps.foldl Host.exec
      (.start (if serverSocket then some (.impl w) else none))) := by
  induction hrun with
  | nil => exact ⟨[], rfl, rfl, rfl⟩
  | snoc _ hnext ih =>
      obtain ⟨steps, hf⟩ := ih
      obtain ⟨steps', hf'⟩ := hf.next hserver hsocket files hnext
      refine ⟨steps ++ steps', ?_⟩
      rw [List.foldl_append]
      exact hf'

/-- The socket that goes with it. -/
def Release.socket : Release → Option Handle
  | .inputLine => none
  | .client m => some (.accepted m)
  | .serverSocket => some .server

/-- The destructor releases the sockets that the host holds, in this order. -/
theorem Follows.destructor {w : WsocketImpl} {r : ServerRun} {h : Host}
    (hf : Follows w r h) :
    r.server.destructor.filterMap Release.socket = h.held := by
  have hclients : h.mClients = r.server.numbers.map .accepted := hf.clients
  unfold SimpleServer.destructor Host.held
  rw [hclients, hf.server, List.filterMap_append, List.filterMap_append,
    List.filterMap_map]
  cases r.server.mInputLine <;> cases r.server.mServerSocket <;>
    simp [Release.socket, Function.comp_def]

/-- **`~SimpleServer`** at the end of any run on a listening stream socket: it
deletes the clients and releases the server socket, and then every socket that
was ever returned has been released once, and none was polled after that. -/
theorem simpleServer_releases_sockets {w : WsocketImpl}
    (hserver : w.mIsServer = true) (hsocket : w.mSocket ≠ INVALID_SOCKET)
    (files : SharedFiles) {serverSocket : Bool} {inputs : List Input}
    {r : ServerRun} (hrun : server.Run (.start serverSocket) inputs r) :
    ∃ h : Host, Follows w r h ∧ h.ReleasedOnce ∧ h.exit.ReleasedOnce ∧
      h.exit.trace = h.trace ++
        (r.server.destructor.filterMap Release.socket).map .released ∧
      ∀ socket ∈ returned h.exit.trace, socket ∈ released h.exit.trace := by
  obtain ⟨steps, hf⟩ := server_follows hserver hsocket files hrun
  have hstream : ∀ s, (Host.start (if serverSocket then some (.impl w)
      else none)).mServerSocket ≠ some (.sharedMemory s) := by
    intro s
    show (if serverSocket then some (Wsocket.impl w) else none) ≠ _
    cases serverSocket <;> simp
  have honce := Host.releasedOnce_of_along _
    (Host.along_of_stream steps hstream)
  have hexit := Host.releasedOnce_of_along _
    (Host.along_of_stream (steps ++ [.exit]) hstream)
  rw [List.foldl_append] at hexit
  refine ⟨_, hf, honce, hexit, ?_, ?_⟩
  · rw [hf.destructor]
    rfl
  · intro socket hmem
    rcases hexit.all socket hmem with hreleased | hheld
    · exact hreleased
    · exact absurd hheld List.not_mem_nil

end Socketchat.Server
