import Socketchat.Client.Leaving
import Socketchat.Server.Service

/-!
# The chatroom

`TestServer`, any number of `TestClient`s and the connections between them:
what the program is for. Every thread of every process takes its steps in any
order; a connection is a reliable pipe of bytes each way, from which a poll
takes as much as the transport decides. `script` and `joined` only record: what
the server has handed out, and how much of that when each client was accepted.
-/

namespace Socketchat

open Foundation Chat Console Server Client

/-- The server's `run` and console, the clients in the order in which they
connect, how many have, and the bytes in flight to and from the server. -/
structure Chatroom where
  run : ServerRun
  console : Console.State
  clients : ℕ → TestClient
  connected : ℕ
  up : ℕ → List UInt8
  down : ℕ → List UInt8
  script : List (Option ℕ × CString)
  joined : ℕ → ℕ

inductive Move where
  /-- The next client's `connect` succeeds. -/
  | connect
  | client (k : ℕ) (input : Client.Input)
  /-- The server's reader thread takes a step. -/
  | reader
  | getInputLine
  | pollServer (waiting : Bool)
  | reap
  | poll (io : Answers)

namespace Chatroom

variable (s : Chatroom)

/-- `run` takes a step. -/
def serve (input : Server.Input) : Option Chatroom :=
  (s.run.next input).map fun run' =>
    { s with
      run := run'
      script := s.script ++ (s.run.spoken input).toList
      joined := fun k => if k = s.run.count then s.script.length
        else s.joined k }

/-- The client whose connection `run` polls next, and what its poll shows. -/
def polled (io : Answers) : Option (ℕ × List Event) :=
  match s.run.phase with
  | .echoing i => s.run.server.mClients[i]?.map fun c =>
      (c.number, match c.mClient with
        | none => []
        | some chat => (chat.poll (some fun _ => []) 1 io).2)
  | _ => none

/-- Client `k` takes what it receives from the bytes in flight to it, and what
it sends goes behind those to the server. -/
def clientSide (k : ℕ) (c : TestClient) : Option Chatroom :=
  let events := (s.clients k).emitted c
  if received events <+: s.down k then
    some { s with
      clients := Function.update s.clients k c
      up := Function.update s.up k (s.up k ++ accepted events)
      down := Function.update s.down k
        ((s.down k).drop (received events).length) }
  else
    none

/-- The server's connection to client `k` does the same at the other end. -/
def serverSide (k : ℕ) (events : List Event) : Option Chatroom :=
  if received events <+: s.up k then
    some { s with
      up := Function.update s.up k ((s.up k).drop (received events).length)
      down := Function.update s.down k (s.down k ++ accepted events) }
  else
    none

/-- The next state; `none` if this is not what happens next. A connection that
`pollServer` returns has been made by a client. -/
def next (stdin : Option ℕ → ℕ → Option UInt8) : Move → Option Chatroom
  | .connect =>
      if s.run.server.mServerSocket then
        some { s with connected := s.connected + 1 }
      else
        none
  | .client k input =>
      if k < s.connected then
        ((s.clients k).next (stdin (some k)) input).bind (s.clientSide k)
      else
        none
  | .reader =>
      some { s with console := s.console.readerNext (stdin none) }
  | .getInputLine =>
      if s.run.phase = .reading then
        let r := s.console.call
        let s := { s with console := r.2 }
        match r.1 with
        | .running => some s
        | .null => s.serve (.getInputLine none)
        | .line str => s.serve (.getInputLine (some str))
      else
        none
  | .pollServer waiting =>
      if waiting = true → s.run.count < s.connected then
        s.serve (.pollServer waiting)
      else
        none
  | .reap => s.serve .reap
  | .poll io =>
      (s.polled io).bind fun p =>
        (s.serverSide p.1 p.2).bind (serve · (.poll io))

end Chatroom

/-- The chatroom with these inputs at the consoles of the clients and, for
`none`, of the server. -/
def chatroom (stdin : Option ℕ → ℕ → Option UInt8) :
    System Chatroom Move where
  init s :=
    (∃ serverSocket, s.run = .start serverSocket) ∧
    (mailbox (stdin none)).init s.console ∧
    (∀ k, (testClient k (stdin (some k))).init (s.clients k)) ∧
    s.connected = 0 ∧ (∀ k, s.up k = []) ∧ (∀ k, s.down k = []) ∧
    s.script = [] ∧ ∀ k, s.joined k = 0
  step s move s' := s.next stdin move = some s'

/-- A server that listens, before anybody has connected. -/
def Chatroom.start : Chatroom :=
  { run := .start true
    console := ⟨.fresh MAX_INPUT, .fresh MAX_INPUT, false, .testing, .idle, 0,
      []⟩
    clients := .start
    connected := 0
    up := fun _ => []
    down := fun _ => []
    script := []
    joined := fun _ => 0 }

theorem Chatroom.start_init (stdin : Option ℕ → ℕ → Option UInt8) :
    (chatroom stdin).init .start :=
  ⟨⟨true, rfl⟩, ⟨rfl, rfl, rfl, rfl, rfl, rfl, rfl⟩,
    fun k => Client.start_init k _, rfl, fun _ => rfl, fun _ => rfl, rfl,
    fun _ => rfl⟩

end Socketchat
