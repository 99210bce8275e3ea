import Socketchat.Chat.Streams

/-!
# `TestServer`: the chat server

`SimpleServer::run` as a state machine. One iteration of its loop accepts a
connection if one is waiting, takes a line from the console, erases the
clients that have lost their connection one by one, and then polls the clients
in turn and echoes what they say to all of them. Everything from outside is an
input: whether a connection is waiting, the line, and what the transport
answers in each poll. The destructor is the list of what it gives back.
-/

namespace Socketchat.Server

open Foundation Chat

/-- What happens at the server's connections, which are numbered as they are
accepted. -/
inductive ServerEvent where
  | accepted (client : ℕ)
  /-- The client was deleted and erased. -/
  | lost (client : ℕ)
  /-- The client's `receiveMessage(message)` was called. -/
  | received (client : ℕ) (message : CString)
  /-- `sendText(text)` was called on `client`, to pass on what came from
  `source`, or from the console. -/
  | handed (source : Option ℕ) (client : ℕ) (text : CString)
deriving DecidableEq

/-- The fields of `ClientConnection`; `number` names the object. -/
structure ClientConnection where
  number : ℕ
  mHaveMessage : Bool
  mMessage : CString
  mClient : Option SocketChatImpl
  mId : ℕ

namespace ClientConnection

/-- `SocketChat::create(client)`: deleted again if it has no socket. -/
def createChat (client : Option ℕ) : Option SocketChatImpl :=
  let ret := SocketChatImpl.construct client
  if ret.mSocket.isSome then some ret else none

/-- The constructor, on the socket with this number. -/
def construct (client id : ℕ) : ClientConnection :=
  { number := client
    mHaveMessage := false
    mMessage := cstring []
    mClient := createChat (some client)
    mId := id }

variable (c : ClientConnection)

def receiveMessage (message : CString) : ClientConnection :=
  { c with mHaveMessage := true, mMessage := message }

/-- What the `poll` inside `getMessage` passes to `receiveMessage`, which calls
nothing on the connection. -/
def heard (io : Answers) : List CString :=
  match c.mClient with
  | none => []
  | some chat => messages (chat.poll (some fun _ => []) 1 io).2

def getMessage (io : Answers) : Option CString × ClientConnection :=
  let c := { c with mHaveMessage := false }
  match c.mClient with
  | none => (none, c)
  | some chat =>
      let r := chat.poll (some fun _ => []) 1 io
      let c := (messages r.2).foldl receiveMessage { c with mClient := some r.1 }
      (if c.mHaveMessage then some c.mMessage else none, c)

def sendText (str : CString) : ClientConnection :=
  { c with mClient := c.mClient.map fun chat => (chat.sendText (some str)).1 }

def isConnected : Bool :=
  match c.mClient with
  | none => false
  | some chat => decide (chat.mReadyState ≠ .CLOSED)

end ClientConnection

/-- The fields of `SimpleServer`; the first two say which pointers are not
null. -/
structure SimpleServer where
  mServerSocket : Bool
  mInputLine : Bool
  mClients : List ClientConnection

/-- What the destructor deletes or releases. -/
inductive Release where
  /-- `mInputLine->release()`, under the thread that reads the console. -/
  | inputLine
  /-- `delete i` -/
  | client (number : ℕ)
  /-- `mServerSocket->release()` -/
  | serverSocket
deriving DecidableEq

/-- `"bye"`, `"quit"` and `"exit"`. -/
def stopWords : List (List UInt8) :=
  [[98, 121, 101], [113, 117, 105, 116], [101, 120, 105, 116]]

/-- `strcmp` with each of them. -/
def isStopWord (str : CString) : Bool := stopWords.contains str.val

namespace SimpleServer

variable (s : SimpleServer)

/-- The clients' numbers, in the order of `mClients`. -/
def numbers : List ℕ := s.mClients.map (·.number)

/-- `clientSocket` is what `pollServer` returns. -/
def acceptClient (clientSocket : Option ℕ) : SimpleServer × List ServerEvent :=
  if s.mServerSocket then
    match clientSocket with
    | none => (s, [])
    | some client =>
        let index := add32 (toU32 s.mClients.length) 1
        let cc := ClientConnection.construct client index
        ({ s with mClients := s.mClients ++ [cc] }, [.accepted client])
  else
    (s, [])

/-- `for (auto &j : mClients) j->sendText(str);` -/
def broadcast (source : Option ℕ) (str : CString) :
    SimpleServer × List ServerEvent :=
  ({ s with mClients := s.mClients.map (·.sendText str) },
    s.mClients.map fun j => .handed source j.number str)

/-- The console line `str`, if there is one; the first result is `true` if it
ends the server. -/
def readLine (str : Option CString) :
    Bool × SimpleServer × List ServerEvent :=
  match if s.mInputLine then str else none with
  | none => (false, s, [])
  | some str =>
      if isStopWord str then
        (true, s, [])
      else
        (false, s.broadcast none str)

/-- One pass of the reaping loop: the first client that is not connected is
deleted and erased. The first result is `killed`. -/
def reapPass : Bool × SimpleServer × List ServerEvent :=
  match s.mClients.findIdx? fun c => !c.isConnected with
  | none => (false, s, [])
  | some i =>
      (true, { s with mClients := s.mClients.eraseIdx i },
        (s.mClients[i]?.map fun cc => .lost cc.number).toList)

/-- One pass of the echo loop, for the client at position `i`. -/
def echoPass (i : ℕ) (io : Answers) : SimpleServer × List ServerEvent :=
  match s.mClients[i]? with
  | none => (s, [])
  | some c =>
      let r := c.getMessage io
      let s := { s with mClients := s.mClients.set i r.2 }
      let received := (c.heard io).map (.received c.number)
      match r.1 with
      | none => (s, received)
      | some newMessage =>
          let r' := s.broadcast (some c.number) newMessage
          (r'.1, received ++ r'.2)

/-- The destructor: what it gives back, in this order. -/
def destructor : List Release :=
  (if s.mInputLine then [.inputLine] else []) ++ s.numbers.map .client ++
    if s.mServerSocket then [.serverSocket] else []

end SimpleServer

/-! ## `run` -/

/-- Where `run` is; `echoing i` is before the poll of the client at `i`. -/
inductive Phase where
  | accepting
  | reading
  | reaping
  | echoing (i : ℕ)
  | stopped
deriving DecidableEq

/-- `run` and its variable `exit`, with what has happened so far; `count` is
the number of connections accepted, which numbers the next one. -/
structure ServerRun where
  server : SimpleServer
  exit : Bool
  phase : Phase
  count : ℕ
  trace : List ServerEvent

inductive Input where
  | pollServer (waiting : Bool)
  | getInputLine (str : Option CString)
  | reap
  | poll (io : Answers)

namespace ServerRun

/-- The head of the echo loop, and where `run` goes from there. -/
def echoFrom (exit : Bool) (s : SimpleServer) (i : ℕ) : Phase :=
  if i < s.mClients.length then .echoing i
  else if exit then .stopped
  else .accepting

variable (r : ServerRun)

/-- `waiting`: `pollServer` returns a connection. -/
def accept (waiting : Bool) : ServerRun :=
  let p := r.server.acceptClient (if waiting then some r.count else none)
  { r with
    server := p.1
    phase := .reading
    count := if r.server.mServerSocket && waiting then r.count + 1 else r.count
    trace := r.trace ++ p.2 }

def readLine (str : Option CString) : ServerRun :=
  let p := r.server.readLine str
  { r with
    server := p.2.1
    exit := r.exit || p.1
    phase := .reaping
    trace := r.trace ++ p.2.2 }

def reap : ServerRun :=
  let p := r.server.reapPass
  { r with
    server := p.2.1
    phase := if p.1 then .reaping else echoFrom r.exit p.2.1 0
    trace := r.trace ++ p.2.2 }

def echo (i : ℕ) (io : Answers) : ServerRun :=
  let p := r.server.echoPass i io
  { r with
    server := p.1
    phase := echoFrom r.exit p.1 (i + 1)
    trace := r.trace ++ p.2 }

/-- The next step of `run`; `none` if it does not ask for this input. -/
def next : Input → Option ServerRun
  | .pollServer waiting =>
      if r.phase = .accepting then some (r.accept waiting) else none
  | .getInputLine str =>
      if r.phase = .reading then some (r.readLine str) else none
  | .reap => if r.phase = .reaping then some r.reap else none
  | .poll io =>
      match r.phase with
      | .echoing i => some (r.echo i io)
      | _ => none

def members : List ℕ := r.server.numbers

/-- Where `run` starts, once the constructor has or has not got a socket. -/
def start (serverSocket : Bool) : ServerRun :=
  { server := ⟨serverSocket, true, []⟩
    exit := false
    phase := .accepting
    count := 0
    trace := [] }

/-- `run` on these inputs; `none` where it asks for another one. -/
def feed (r : ServerRun) : List Input → Option ServerRun
  | [] => some r
  | input :: inputs => (r.next input).bind fun r => feed r inputs

variable {r}

theorem next_pollServer (hphase : r.phase = .accepting) (waiting : Bool) :
    r.next (.pollServer waiting) = some (r.accept waiting) := if_pos hphase

theorem next_getInputLine (hphase : r.phase = .reading)
    (str : Option CString) :
    r.next (.getInputLine str) = some (r.readLine str) := if_pos hphase

theorem next_reap (hphase : r.phase = .reaping) :
    r.next .reap = some r.reap := if_pos hphase

theorem next_poll {i : ℕ} (hphase : r.phase = .echoing i) (io : Answers) :
    r.next (.poll io) = some (r.echo i io) := by
  simp only [next, hphase]

/-- **The steps of `run`.** -/
theorem next_cases {r' : ServerRun} {input : Input}
    (h : r.next input = some r') :
    (∃ waiting, input = .pollServer waiting ∧ r.phase = .accepting ∧
      r' = r.accept waiting) ∨
    (∃ str, input = .getInputLine str ∧ r.phase = .reading ∧
      r' = r.readLine str) ∨
    (input = .reap ∧ r.phase = .reaping ∧ r' = r.reap) ∨
    (∃ i io, input = .poll io ∧ r.phase = .echoing i ∧ r' = r.echo i io) := by
  cases input with
  | pollServer waiting =>
      by_cases hphase : r.phase = .accepting
      · rw [next_pollServer hphase] at h
        exact Or.inl ⟨waiting, rfl, hphase, (Option.some.inj h).symm⟩
      · rw [next, if_neg hphase] at h
        cases h
  | getInputLine str =>
      by_cases hphase : r.phase = .reading
      · rw [next_getInputLine hphase] at h
        exact Or.inr (Or.inl ⟨str, rfl, hphase, (Option.some.inj h).symm⟩)
      · rw [next, if_neg hphase] at h
        cases h
  | reap =>
      by_cases hphase : r.phase = .reaping
      · rw [next_reap hphase] at h
        exact Or.inr (Or.inr (Or.inl ⟨rfl, hphase, (Option.some.inj h).symm⟩))
      · rw [next, if_neg hphase] at h
        cases h
  | poll io =>
      cases hphase : r.phase with
      | echoing i =>
          rw [next_poll hphase] at h
          exact Or.inr (Or.inr (Or.inr
            ⟨i, io, rfl, rfl, (Option.some.inj h).symm⟩))
      | _ =>
          simp only [next, hphase] at h
          cases h

end ServerRun

/-- Every run of `run`, from the constructor on. -/
def server : System ServerRun Input where
  init r := ∃ serverSocket, r = .start serverSocket
  step r input r' := r.next input = some r'

theorem run_of_feed : ∀ {inputs : List Input} {r r' : ServerRun},
    r.feed inputs = some r' → server.Run r inputs r'
  | [], r, r', h => Option.some.inj h ▸ .nil r
  | input :: inputs, r, r', h => by
      obtain ⟨u, hu, hrest⟩ := Option.bind_eq_some_iff.mp h
      have hfirst : server.Run r [input] u := (System.Run.nil r).snoc hu
      exact hfirst.trans (run_of_feed hrest)

theorem reachable_of_feed {serverSocket : Bool} {inputs : List Input}
    {r : ServerRun} (h : (ServerRun.start serverSocket).feed inputs = some r) :
    server.Reachable r :=
  ⟨_, inputs, ⟨serverSocket, rfl⟩, run_of_feed h⟩

/-- An iteration up to the echo loop, in a system with fewer steps. -/
theorem restrict_round {P : ServerRun → Input → Prop} {r : ServerRun}
    (hr : (server.restrict P).Reachable r) (hphase : r.phase = .accepting)
    {waiting : Bool} {str : Option CString}
    (haccept : P r (.pollServer waiting))
    (hread : P (r.accept waiting) (.getInputLine str))
    (hreap : P ((r.accept waiting).readLine str) .reap) :
    (server.restrict P).Reachable ((r.accept waiting).readLine str).reap := by
  have h₁ : (server.restrict P).Reachable (r.accept waiting) :=
    hr.step (k := .pollServer waiting)
      ⟨haccept, ServerRun.next_pollServer hphase waiting⟩
  have h₂ : (server.restrict P).Reachable
      ((r.accept waiting).readLine str) :=
    h₁.step (k := .getInputLine str)
      ⟨hread, ServerRun.next_getInputLine rfl str⟩
  exact h₂.step (k := .reap) ⟨hreap, ServerRun.next_reap rfl⟩

end Socketchat.Server
