import Socketchat.Sockets.Blocking

/-!
# Which connections are polled in blocking mode

A process of connections, listening sockets and one descriptor table. `poll`
reads until a receive would block, so it must not be called in blocking mode.
The connections made with a host name never are; the accepted ones are all.
-/

namespace Socketchat.Sockets

open Foundation Chat

/-! ## The process -/

/-- A `SocketChatImpl` and its `mSocket`. -/
structure Connection where
  socket : WsocketImpl
  chat : SocketChatImpl

namespace Connection

/-- Both constructors, once there is a socket. -/
def construct (socket : WsocketImpl) : Connection :=
  ⟨socket, .construct (some 0)⟩

def exec (c : Connection) (call : ApiCall) : Connection × List OsCall :=
  let r := c.chat.exec call
  let r' := c.socket.handleAll r.2
  (⟨r'.1, r.1⟩, r'.2)

end Connection

/-- The sockets created as a server, the connections, and the calls made so
far. -/
structure Process where
  servers : List WsocketImpl
  connections : List Connection
  calls : List OsCall

/-- What the process does next. -/
inductive ProcessStep where
  /-- `Wsocket::create("server", port)` -/
  | listen (port : ℤ) (os : OsAnswers)
  /-- `SocketChat::create(host, port)` -/
  | create (host : CString) (port : ℤ) (os : OsAnswers)
  /-- `pollServer` on the `i`-th server socket, to which `accept` answers
  `ret`, and `SocketChat::create(clientSocket)`. -/
  | pollServer (i : ℕ) (ret : ℤ)
  | call (i : ℕ) (call : ApiCall)
  /-- `mSocket->release()`, at the end of the `i`-th connection. -/
  | release (i : ℕ)
  /-- `mServerSocket->release()` -/
  | releaseServer (i : ℕ)

namespace Process

def start : Process := ⟨[], [], []⟩

variable (p : Process)

def listen (port : ℤ) (os : OsAnswers) : Process :=
  let r := WsocketImpl.create ⟨SOCKET_SERVER, by decide⟩ port os
  { p with servers := p.servers ++ r.1.toList, calls := p.calls ++ r.2 }

def create (host : CString) (port : ℤ) (os : OsAnswers) : Process :=
  let r := Wsocket.create host port os
  match r.1 with
  | some (.impl w) =>
      { p with
        connections := p.connections ++ [.construct w]
        calls := p.calls ++ (r.2 ++ w.disableNaglesAlgorithm) }
  -- a connection over shared memory has no descriptor
  | _ => { p with calls := p.calls ++ r.2 }

def pollServer (i : ℕ) (ret : ℤ) : Process :=
  match p.servers[i]? with
  | none => p
  | some w =>
      let r := w.pollServer ret
      { p with
        connections := p.connections ++ r.1.toList.map .construct
        calls := p.calls ++ r.2 }

def call (i : ℕ) (call : ApiCall) : Process :=
  match p.connections[i]? with
  | none => p
  | some c =>
      let r := c.exec call
      { p with
        connections := p.connections.set i r.1
        calls := p.calls ++ r.2 }

def release (i : ℕ) : Process :=
  match p.connections[i]? with
  | none => p
  | some c =>
      { p with
        connections := p.connections.eraseIdx i
        calls := p.calls ++ c.socket.release }

def releaseServer (i : ℕ) : Process :=
  match p.servers[i]? with
  | none => p
  | some w =>
      { p with
        servers := p.servers.eraseIdx i
        calls := p.calls ++ w.release }

def exec : ProcessStep → Process
  | .listen port os => p.listen port os
  | .create host port os => p.create host port os
  | .pollServer i ret => p.pollServer i ret
  | .call i call => p.call i call
  | .release i => p.release i
  | .releaseServer i => p.releaseServer i

/-- The descriptor table now, if it was `T` at the start. -/
def table (T : Table) : Table := p.calls.foldl Table.after T

end Process

/-! ## What every step keeps -/

/-- A connection is closed, or its descriptor has been accepted, or is not in
blocking mode. -/
structure Connection.Calm (T : Table) (c : Connection) : Prop where
  valid : c.chat.mReceiveBuffer.Valid
  mode : c.chat.mReadyState = .CLOSED ∨ ∀ d, T c.socket.mSocket = some d →
    d.accepted = true ∨ d.blocking = false

theorem Connection.Calm.settles {T T' : Table} {c : Connection}
    (h : c.Calm T) (hset : Settles T T') : c.Calm T' := by
  refine ⟨h.valid, h.mode.imp_right fun hmode d hd => ?_⟩
  rcases hset c.socket.mSocket with heq | hnone | ⟨d', hsome, hd'⟩
  · exact hmode d (heq ▸ hd)
  · rw [hnone] at hd
    cases hd
  · rw [hsome] at hd
    cases hd
    exact hd'

/-- `sendText` and `close` call nothing on the socket. -/
theorem Connection.exec_quiet (c : Connection) {call : ApiCall}
    (hquiet : ∀ e ∈ (c.chat.exec call).2, e.usesSocket = false) :
    c.exec call = (⟨c.socket, (c.chat.exec call).1⟩, []) := by
  unfold Connection.exec
  dsimp only
  rw [handleAll_quiet hquiet]

/-- What a call does to a connection and to the table. -/
structure Connection.Executed (T : Table) (c : Connection) (call : ApiCall) :
    Prop where
  calls : NeverBlocks T (c.exec call).2
  settles : Settles T ((c.exec call).2.foldl Table.after T)
  calm : (c.exec call).1.Calm ((c.exec call).2.foldl Table.after T)

namespace Connection.Calm

variable {T : Table} {c : Connection} (h : c.Calm T)

include h

theorem quiet {call : ApiCall}
    (hquiet : ∀ e ∈ (c.chat.exec call).2, e.usesSocket = false)
    (hclosed : c.chat.mReadyState = .CLOSED →
      (c.chat.exec call).1.mReadyState = .CLOSED) :
    Executed T c call := by
  have hvalid := SocketChatImpl.activity_valid
    (SocketChatImpl.exec_emits h.valid call) h.valid
  have hexec := c.exec_quiet hquiet
  constructor
  · rw [hexec]
    trivial
  · rw [hexec]
    exact .refl T
  · rw [hexec]
    exact ⟨hvalid, h.mode.imp_left hclosed⟩

theorem sendText (str : Option CString) : Executed T c (.sendText str) :=
  h.quiet (by simp [SocketChatImpl.exec, SocketChatImpl.sendText,
    Event.usesSocket]) id

theorem close : Executed T c .close := by
  by_cases hnot : c.chat.mReadyState = .CLOSING ∨ c.chat.mReadyState = .CLOSED
  · have hexec : c.chat.exec .close = (c.chat, []) := if_pos hnot
    apply h.quiet
    · rw [hexec]
      simp
    · rw [hexec]
      exact id
  · have hexec : c.chat.exec .close =
        ({ c.chat with mReadyState := .CLOSING }, [.ready .CLOSING]) :=
      if_neg hnot
    apply h.quiet
    · rw [hexec]
      simp [Event.usesSocket]
    · intro hclosed
      exact absurd (Or.inr hclosed) hnot

/-- **A poll of a descriptor of its own.** -/
theorem poll (callback : Option Callback) (timeout : ℤ) (io : Answers)
    (hown : c.chat.mReadyState ≠ .CLOSED →
      ∀ d, T c.socket.mSocket = some d → d.accepted = false) :
    Executed T c (.poll callback timeout io) := by
  have hemits := SocketChatImpl.exec_emits h.valid (.poll callback timeout io)
  have hmode : c.chat.mReadyState = .CLOSED ∨
      T.NonBlocking c.socket.mSocket := by
    by_cases hclosed : c.chat.mReadyState = .CLOSED
    · exact Or.inl hclosed
    · right
      intro d hd
      rcases h.mode.resolve_left hclosed d hd with haccepted | hblocking
      · rw [hown hclosed d hd] at haccepted
        cases haccepted
      · exact hblocking
  have hunblocked := Unblocked.emits hemits hmode
  exact ⟨hunblocked.calls, hunblocked.settles,
    SocketChatImpl.activity_valid hemits h.valid,
    hunblocked.mode.imp_right fun hmode d hd => Or.inr (hmode d hd)⟩

end Connection.Calm

theorem Connection.construct_calm {T : Table} {w : WsocketImpl}
    (hmode : ∀ d, T w.mSocket = some d →
      d.accepted = true ∨ d.blocking = false) :
    (Connection.construct w).Calm T :=
  ⟨(construct_valid (some 0)).1, Or.inr hmode⟩

namespace Process

/-- The `i`-th connection is polled only if `accept` has not returned its
descriptor. -/
def PollsOwn (T : Table) (p : Process) : ProcessStep → Prop
  | .call i (.poll _ _ _) => ∀ c, p.connections[i]? = some c →
      c.chat.mReadyState ≠ .CLOSED →
      ∀ d, p.table T c.socket.mSocket = some d → d.accepted = false
  | _ => True

structure Calm (T : Table) (p : Process) : Prop where
  calls : NeverBlocks T p.calls
  connections : ∀ c ∈ p.connections, c.Calm (p.table T)

variable {T : Table} {p : Process}

/-- What a step has to show. -/
theorem Calm.extend (h : p.Calm T) {calls : List OsCall}
    (hcalls : NeverBlocks (p.table T) calls)
    (hset : Settles (p.table T) (calls.foldl Table.after (p.table T)))
    {connections : List Connection}
    (hconn : ∀ c ∈ connections, c ∈ p.connections ∨
      c.Calm (calls.foldl Table.after (p.table T)))
    (servers : List WsocketImpl) :
    Calm T ⟨servers, connections, p.calls ++ calls⟩ := by
  have htable : table ⟨servers, connections, p.calls ++ calls⟩ T =
      calls.foldl Table.after (p.table T) := List.foldl_append
  refine ⟨Along.append.mpr ⟨h.calls, hcalls⟩, fun c hc => ?_⟩
  rw [htable]
  rcases hconn c hc with hold | hnew
  · exact (h.connections c hold).settles hset
  · exact hnew

theorem Calm.listen (h : p.Calm T) (port : ℤ) (os : OsAnswers) :
    (p.listen port os).Calm T := by
  have htransfers := WsocketImpl.create_transfers ⟨SOCKET_SERVER, by decide⟩
    port os
  have hset := WsocketImpl.create_server_settles port os (p.table T)
  exact h.extend (.of_no_transfer htransfers _) hset (fun _ hc => Or.inl hc) _

/-- **The exits of `SocketChat::create`.** -/
theorem create_cases (p : Process) (host : CString) (port : ℤ)
    (os : OsAnswers) :
    p.create host port os = { p with calls := p.calls ++ [] } ∨
    ((WsocketImpl.create host port os).1 = none ∧
      p.create host port os =
        { p with calls := p.calls ++ (WsocketImpl.create host port os).2 }) ∨
    ∃ w, (WsocketImpl.create host port os).1 = some w ∧
      p.create host port os =
        { p with
          connections := p.connections ++ [.construct w]
          calls := p.calls ++ ((WsocketImpl.create host port os).2 ++
            w.disableNaglesAlgorithm) } := by
  unfold Process.create Wsocket.create
  by_cases hshared : host.val = SHARED_SERVER ∨ host.val = SHARED_CLIENT
  · left
    rw [if_pos hshared]
    dsimp only
    cases (createSocketSharedMemory host os.serverFile os.clientFile
      os.files).1 with
    | none => rfl
    | some w => rfl
  · right
    rw [if_neg hshared]
    dsimp only
    cases (WsocketImpl.create host port os).1 with
    | none => exact Or.inl ⟨rfl, rfl⟩
    | some w => exact Or.inr ⟨w, rfl, rfl⟩

theorem Calm.create (h : p.Calm T) (host : CString) (port : ℤ)
    (os : OsAnswers) : (p.create host port os).Calm T := by
  have htransfers := WsocketImpl.create_transfers host port os
  rcases p.create_cases host port os with heq | ⟨hnone, heq⟩ | ⟨w, hsome, heq⟩
  · have hnothing : NeverBlocks (p.table T) [] := trivial
    rw [heq]
    exact h.extend hnothing (.refl _) (fun _ hc => Or.inl hc) _
  · rw [heq]
    exact h.extend (.of_no_transfer htransfers _)
      (WsocketImpl.create_none_settles hnone _) (fun _ hc => Or.inl hc) _
  · rw [heq]
    refine h.extend (.of_no_transfer ?_ _)
      (WsocketImpl.create_some_settles hsome _) ?_ _
    · intro call hcall
      rcases List.mem_append.mp hcall with hcall | hcall
      · exact htransfers call hcall
      · rw [List.mem_singleton.mp hcall]
        rfl
    · intro c hc
      rcases List.mem_append.mp hc with hc | hc
      · exact Or.inl hc
      · rw [List.mem_singleton.mp hc, List.foldl_append]
        right
        apply Connection.construct_calm
        intro d hd
        exact Or.inr (w.disableNaglesAlgorithm_nonBlocking _ d hd)

theorem Calm.pollServer (h : p.Calm T) (i : ℕ) (ret : ℤ) :
    (p.pollServer i ret).Calm T := by
  unfold Process.pollServer
  cases p.servers[i]? with
  | none => exact h
  | some w =>
      refine h.extend (.of_no_transfer ?_ _) (w.pollServer_settles ret _) ?_ _
      · unfold WsocketImpl.pollServer
        split
        · simp [OsCall.transfers]
        · simp
      · intro c hc
        rcases List.mem_append.mp hc with hc | hc
        · exact Or.inl hc
        · right
          unfold WsocketImpl.pollServer at hc ⊢
          split at hc
          · rename_i hserver
            rw [if_pos hserver]
            by_cases hret : ret ≠ INVALID_SOCKET
            · rw [if_pos hret] at hc
              rw [List.mem_singleton.mp hc]
              apply Connection.construct_calm
              intro d hd
              left
              have haccepted : some (⟨true, true⟩ : Descriptor) = some d := by
                simpa [Table.after, hret] using hd
              cases haccepted
              rfl
            · rw [if_neg hret] at hc
              exact absurd hc (by simp)
          · exact absurd hc (by simp)

/-- **The calls on a connection**, if it is polled only on a descriptor of its
own. -/
theorem Calm.call (h : p.Calm T) (i : ℕ) (call : ApiCall)
    (hown : p.PollsOwn T (.call i call)) : (p.call i call).Calm T := by
  unfold Process.call
  cases hc : p.connections[i]? with
  | none => exact h
  | some c =>
      have hcalm := h.connections c (List.mem_of_getElem? hc)
      have hexec : c.Executed (p.table T) call := by
        cases call with
        | poll callback timeout io =>
            exact hcalm.poll callback timeout io (hown c hc)
        | sendText str => exact hcalm.sendText str
        | close => exact hcalm.close
      refine h.extend hexec.calls hexec.settles (fun c' hc' => ?_) _
      rcases List.mem_or_eq_of_mem_set hc' with hold | rfl
      · exact Or.inl hold
      · exact Or.inr hexec.calm

theorem Calm.release (h : p.Calm T) (i : ℕ) : (p.release i).Calm T := by
  unfold Process.release
  cases p.connections[i]? with
  | none => exact h
  | some c =>
      exact h.extend (.of_no_transfer c.socket.release_transfers _)
        (c.socket.release_settles _)
        (fun _ hc => Or.inl (List.mem_of_mem_eraseIdx hc)) _

theorem Calm.releaseServer (h : p.Calm T) (i : ℕ) :
    (p.releaseServer i).Calm T := by
  unfold Process.releaseServer
  cases p.servers[i]? with
  | none => exact h
  | some w =>
      exact h.extend (.of_no_transfer w.release_transfers _)
        (w.release_settles _) (fun _ hc => Or.inl hc) _

theorem Calm.exec (h : p.Calm T) (step : ProcessStep)
    (hown : p.PollsOwn T step) : (p.exec step).Calm T := by
  cases step with
  | listen port os => exact h.listen port os
  | create host port os => exact h.create host port os
  | pollServer i ret => exact h.pollServer i ret
  | call i call => exact h.call i call hown
  | release i => exact h.release i
  | releaseServer i => exact h.releaseServer i

/-! ## Accepted connections -/

/-- A poll with room in the receive buffer starts with a receive. -/
theorem poll_receives {s : SocketChatImpl} (h : s.mReceiveBuffer.Valid)
    (hlive : s.Live)
    (hroom : s.mReceiveBuffer.HasRoom DEFAULT_MAX_READ_SIZE)
    (callback : Option Callback) (timeout : ℤ) (io : Answers) :
    ∃ e es, (s.poll callback timeout io).2 = e :: es ∧
      ((∃ bytes, e = .received bytes) ∨ ∃ r, e = .receiveRefused r) := by
  have hloop : ∃ e es, (s.receiveLoop io.recvs).2 = e :: es ∧
      ((∃ bytes, e = .received bytes) ∨ ∃ r, e = .receiveRefused r) := by
    cases io.recvs with
    | nil =>
        obtain ⟨b, -, heq⟩ := s.receivePass_refused h hroom (.error true false)
        rw [SocketChatImpl.receiveLoop, heq]
        exact ⟨_, _, rfl, Or.inr ⟨_, rfl⟩⟩
    | cons answer answers =>
        cases answer with
        | refused r =>
            obtain ⟨b, -, heq⟩ := s.receivePass_refused h hroom r
            rw [SocketChatImpl.receiveLoop, heq]
            exact ⟨_, _, rfl, Or.inr ⟨_, rfl⟩⟩
        | bytes x xs =>
            obtain ⟨-, -, heq⟩ := s.receivePass_bytes h hroom x xs
            rw [SocketChatImpl.receiveLoop, heq]
            exact ⟨_, _, rfl, Or.inl ⟨_, rfl⟩⟩
  obtain ⟨e, es, hevents, he⟩ := hloop
  rcases s.poll_cases callback timeout io with
    ⟨hsocket, -⟩ | ⟨-, hclosed, -⟩ | ⟨-, -, heq⟩ |
    ⟨t, es', -, hread, -, -, heq⟩ | ⟨t, es', u, es'', -, hread, -, -, -, heq⟩
  · exact absurd hsocket hlive.socket
  · exact absurd hclosed hlive.notClosed
  · rw [heq]
    exact ⟨e, es, hevents, he⟩
  · rw [hread] at hevents
    rw [heq, show es' = e :: es from hevents]
    exact ⟨e, _, rfl, he⟩
  · rw [hread] at hevents
    rw [heq, show es' = e :: es from hevents]
    exact ⟨e, _, rfl, he⟩

/-- **A connection that has just been accepted** is polled in blocking mode.
Descriptor 0 is taken for no descriptor. -/
theorem accepted_blocks (T : Table) (p : Process) {i : ℕ} {w : WsocketImpl}
    (hw : p.servers[i]? = some w)
    (hserver : w.mIsServer = true ∧ w.mSocket ≠ INVALID_SOCKET) {ret : ℤ}
    (hret : ret ≠ INVALID_SOCKET ∧ ret ≠ 0) (callback : Option Callback)
    (timeout : ℤ) (io : Answers) :
    ¬ NeverBlocks T ((p.pollServer i ret).call p.connections.length
      (.poll callback timeout io)).calls := by
  have haccept : p.pollServer i ret =
      { p with
        connections := p.connections ++ [.construct ⟨false, ret⟩]
        calls := p.calls ++ [.accept w.mSocket ret] } := by
    unfold Process.pollServer WsocketImpl.pollServer
    rw [hw]
    simp [hserver, hret]
  obtain ⟨e, es, hevents, he⟩ := poll_receives (construct_valid (some 0)).1
    ⟨by decide, by decide⟩ (by decide) callback timeout io
  have hrecv : ((Connection.construct ⟨false, ret⟩).exec
      (.poll callback timeout io)).2 =
      .recv ret :: (WsocketImpl.handleAll ⟨false, ret⟩ es).2 := by
    have hhandle : WsocketImpl.handle ⟨false, ret⟩ e =
        (⟨false, ret⟩, [.recv ret]) := by
      rcases he with ⟨bytes, rfl⟩ | ⟨r, rfl⟩
      · simp [WsocketImpl.handle, hret.2]
      · simp [WsocketImpl.handle, hret.2]
    show (WsocketImpl.handleAll ⟨false, ret⟩
      ((SocketChatImpl.construct (some 0)).poll callback timeout io).2).2 = _
    rw [hevents, WsocketImpl.handleAll, hhandle]
    rfl
  have hcalls : ((p.pollServer i ret).call p.connections.length
      (.poll callback timeout io)).calls =
      (p.calls ++ [.accept w.mSocket ret]) ++
        (.recv ret :: (WsocketImpl.handleAll ⟨false, ret⟩ es).2) := by
    rw [haccept, Process.call]
    simp only [List.getElem?_concat_length]
    rw [hrecv]
  rw [hcalls]
  intro hnever
  have hreturns := (Along.append.mp hnever).2.1
  have htable : (p.calls ++ [OsCall.accept w.mSocket ret]).foldl Table.after
      T ret =
      some ⟨true, true⟩ := by
    simp [Table.after, hret.1]
  exact absurd (hreturns _ htable) (by decide)

end Process

/-- **Main result.** In every run that polls no accepted descriptor, no call on a
socket waits for its peer; and a connection that is accepted next would be
polled in blocking mode at once. -/
theorem poll_never_blocks (T : Table) (steps : List ProcessStep)
    (hown : Along Process.exec (Process.PollsOwn T) .start steps) :
    NeverBlocks T (steps.foldl Process.exec .start).calls ∧
    ∀ (i : ℕ) (w : WsocketImpl) (ret : ℤ) (callback : Option Callback)
      (timeout : ℤ) (io : Answers),
      (steps.foldl Process.exec .start).servers[i]? = some w →
      w.mIsServer = true ∧ w.mSocket ≠ INVALID_SOCKET →
      ret ≠ INVALID_SOCKET ∧ ret ≠ 0 →
      ¬ NeverBlocks T ((steps ++ [ProcessStep.pollServer i ret,
        .call (steps.foldl Process.exec .start).connections.length
          (.poll callback timeout io)]).foldl Process.exec .start).calls := by
  have hstart : Process.start.Calm T :=
    ⟨trivial, fun c hc => absurd hc List.not_mem_nil⟩
  have hcalm := Along.holds (I := Process.Calm T)
    (fun _ step h hown => h.exec step hown) hstart hown
  refine ⟨hcalm.calls, ?_⟩
  intro i w ret callback timeout io hw hserver hret
  rw [List.foldl_append]
  exact Process.accepted_blocks T _ hw hserver hret callback timeout io

/-- What the operating system answers in the two runs below. -/
def loopback : OsAnswers :=
  { getaddrinfo := 0
    result := [⟨5, 0⟩]
    socket := 3
    bind := 0
    listen := 0
    serverFile := none
    clientFile := none
    files := ⟨⟨⟨0, 0, 0, 0, 0⟩, ⟨0, fun _ => 0⟩⟩,
      ⟨⟨0, 0, 0, 0, 0⟩, ⟨0, fun _ => 0⟩⟩⟩ }

/-- A connection made with a host name, polled. -/
theorem poll_never_blocks_connected :
    let steps : List ProcessStep := [.create (letters 1) 3009 loopback,
      .call 0 (.poll none 0 ⟨[], []⟩)]
    NeverBlocks (fun _ => none)
      (steps.foldl Process.exec .start).calls := by
  intro steps
  have hown : Along Process.exec (Process.PollsOwn fun _ => none) .start
      steps := by
    refine ⟨trivial, ?_, trivial⟩
    intro c hc _ d hd
    have hcreated : (Process.start.exec
        (.create (letters 1) 3009 loopback)).connections =
        [.construct ⟨false, 5⟩] := rfl
    rw [hcreated] at hc
    cases hc
    have htable : (Process.start.exec
        (.create (letters 1) 3009 loopback)).table (fun _ => none) 5 =
        some ⟨false, false⟩ := by
      decide
    rw [show (Connection.construct ⟨false, 5⟩).socket.mSocket = 5 from rfl,
      htable] at hd
    cases hd
    rfl
  exact (poll_never_blocks (fun _ => none) steps hown).1

/-- A connection that has been accepted, polled. -/
theorem accepted_poll_blocks :
    let steps : List ProcessStep := [.listen 3009 loopback, .pollServer 0 4,
      .call 0 (.poll none 0 ⟨[], []⟩)]
    (steps.foldl Process.exec .start).calls =
      [.socket 3, .bind 3 3009 0, .listen 3 0, .setBlocking 3 false,
        .accept 3 4, .recv 4] ∧
    ¬ NeverBlocks (fun _ => none)
      (steps.foldl Process.exec .start).calls := by
  intro steps
  have hcalls : (steps.foldl Process.exec .start).calls =
      [.socket 3, .bind 3 3009 0, .listen 3 0, .setBlocking 3 false,
        .accept 3 4, .recv 4] := by
    decide +kernel
  refine ⟨hcalls, ?_⟩
  rw [hcalls]
  rintro ⟨-, -, -, -, -, hrecv, -⟩
  exact absurd (hrecv ⟨true, true⟩ (by decide)) (by decide)

end Socketchat.Sockets
