import Socketchat.Sockets.SharedMemory

/-!
# `WsocketImpl`

A transport over a stream socket. What the operating system answers is an
input; its calls on descriptors are recorded in the order they are made, each
with what it was given and what it has returned.
-/

namespace Socketchat.Sockets

open Foundation Chat

def INVALID_SOCKET : ℤ := -1
def SOCKET_ERROR : ℤ := -1

/-- `"server"`. -/
def SOCKET_SERVER : List UInt8 := [115, 101, 114, 118, 101, 114]

/-- A call of the operating system. `setBlocking` is `fcntl` with
`O_NONBLOCK` set or not. -/
inductive OsCall where
  | socket (ret : ℤ)
  | connect (socket ret : ℤ)
  | bind (socket : ℤ) (port : ℕ) (ret : ℤ)
  | listen (socket ret : ℤ)
  | accept (socket ret : ℤ)
  | setBlocking (socket : ℤ) (blocking : Bool)
  | recv (socket : ℤ)
  | send (socket : ℤ)
  | closesocket (socket : ℤ)
deriving DecidableEq

/-- An entry of the list `getaddrinfo` returns, and what `socket` and `connect`
return for it. -/
structure Address where
  socket : ℤ
  connect : ℤ

/-- What a call of `create` is answered: by `getaddrinfo`, with a return code
and a list; by `socket`, `bind` and `listen` for a server; and by
`createMemoryMap` for the two shared files, which hold `files`. -/
structure OsAnswers where
  getaddrinfo : ℤ
  result : List Address
  socket : ℤ
  bind : ℤ
  listen : ℤ
  serverFile : Option ℕ
  clientFile : Option ℕ
  files : SharedFiles

/-- The fields of `WsocketImpl` in a build that records nothing. -/
structure WsocketImpl where
  mIsServer : Bool
  mSocket : ℤ
deriving DecidableEq

/-- `u_short(port)`. -/
def uShort (port : ℤ) : ℕ := (port % 65536).toNat

namespace WsocketImpl

def setBlockingInternal (socket : ℤ) (blocking : Bool) : List OsCall :=
  [.setBlocking socket blocking]

def serverConnect (port : ℤ) (os : OsAnswers) : ℤ × List OsCall :=
  let listenSocket := os.socket
  if listenSocket = INVALID_SOCKET then
    (INVALID_SOCKET, [.socket listenSocket])
  else
    let bound := OsCall.bind listenSocket (uShort port) os.bind ::
      if os.bind = 0 then [.listen listenSocket os.listen] else []
    if os.bind = 0 ∧ os.listen = 0 then
      (listenSocket, .socket listenSocket ::
        (bound ++ setBlockingInternal listenSocket false))
    else
      (INVALID_SOCKET, .socket listenSocket ::
        (bound ++ [.closesocket listenSocket]))

/-- The `for` loop of `hostname_connect`. -/
def connectLoop : List Address → ℤ × List OsCall
  | [] => (INVALID_SOCKET, [])
  | p :: result =>
      if p.socket = INVALID_SOCKET then
        let r := connectLoop result
        (r.1, .socket p.socket :: r.2)
      else if p.connect ≠ SOCKET_ERROR then
        (p.socket, [.socket p.socket, .connect p.socket p.connect])
      else
        let r := connectLoop result
        (r.1, .socket p.socket :: .connect p.socket p.connect ::
          .closesocket p.socket :: r.2)

def hostnameConnect (os : OsAnswers) : ℤ × List OsCall :=
  if os.getaddrinfo ≠ 0 then
    (1, [])
  else
    connectLoop os.result

/-- The constructor with a host name. -/
def construct (hostName : CString) (port : ℤ) (os : OsAnswers) :
    WsocketImpl × List OsCall :=
  if hostName.val = SOCKET_SERVER then
    let r := serverConnect port os
    (⟨true, r.1⟩, r.2)
  else
    let r := hostnameConnect os
    (⟨false, r.1⟩, r.2)

variable (w : WsocketImpl)

def isValid : Bool := decide (w.mSocket ≠ INVALID_SOCKET)

def close : WsocketImpl × List OsCall :=
  ({ w with mSocket := 0 },
    if w.mSocket ≠ 0 then [.closesocket w.mSocket] else [])

/-- `release`, and `delete` in general. -/
def release : List OsCall := w.close.2

def disableNaglesAlgorithm : List OsCall := [.setBlocking w.mSocket false]

/-- `ret` is what `accept` returns, if it is called. -/
def pollServer (ret : ℤ) : Option WsocketImpl × List OsCall :=
  if w.mIsServer ∧ w.mSocket ≠ INVALID_SOCKET then
    (if ret ≠ INVALID_SOCKET then some ⟨false, ret⟩ else none,
      [.accept w.mSocket ret])
  else
    (none, [])

/-- The part of `Wsocket::create` that is about stream sockets. -/
def create (hostName : CString) (port : ℤ) (os : OsAnswers) :
    Option WsocketImpl × List OsCall :=
  let ret := construct hostName port os
  if ret.1.isValid then
    (some ret.1, ret.2)
  else
    (none, ret.2 ++ ret.1.release)

end WsocketImpl

/-- The two classes behind the interface. -/
inductive Wsocket where
  | impl (w : WsocketImpl)
  | sharedMemory (w : WsocketSharedMemory)

/-- `Wsocket::create`; `none` for a null pointer. -/
def Wsocket.create (hostName : CString) (port : ℤ) (os : OsAnswers) :
    Option Wsocket × List OsCall :=
  if hostName.val = SHARED_SERVER ∨ hostName.val = SHARED_CLIENT then
    let r := createSocketSharedMemory hostName os.serverFile os.clientFile
      os.files
    (r.1.map .sharedMemory, [])
  else
    let r := WsocketImpl.create hostName port os
    (r.1.map .impl, r.2)

namespace WsocketImpl

/-- **The exits of `server_connect`.** -/
theorem serverConnect_cases (port : ℤ) (os : OsAnswers) :
    (os.socket = INVALID_SOCKET ∧
      serverConnect port os = (INVALID_SOCKET, [.socket os.socket])) ∨
    (os.socket ≠ INVALID_SOCKET ∧ os.bind = 0 ∧ os.listen = 0 ∧
      serverConnect port os =
        (os.socket, [.socket os.socket, .bind os.socket (uShort port) 0,
          .listen os.socket 0, .setBlocking os.socket false])) ∨
    (os.socket ≠ INVALID_SOCKET ∧ os.bind ≠ 0 ∧
      serverConnect port os =
        (INVALID_SOCKET, [.socket os.socket,
          .bind os.socket (uShort port) os.bind, .closesocket os.socket])) ∨
    (os.socket ≠ INVALID_SOCKET ∧ os.listen ≠ 0 ∧
      serverConnect port os =
        (INVALID_SOCKET, [.socket os.socket, .bind os.socket (uShort port) 0,
          .listen os.socket os.listen, .closesocket os.socket])) := by
  unfold serverConnect setBlockingInternal
  by_cases hsocket : os.socket = INVALID_SOCKET
  · exact Or.inl ⟨hsocket, if_pos hsocket⟩
  · right
    by_cases hbind : os.bind = 0
    · by_cases hlisten : os.listen = 0
      · left
        simp [hsocket, hbind, hlisten]
      · right
        right
        simp [hsocket, hbind, hlisten]
    · right
      left
      simp [hsocket, hbind]

/-- **The exits of `create`.** `delete` closes `INVALID_SOCKET`. -/
theorem create_cases (hostName : CString) (port : ℤ) (os : OsAnswers) :
    ((construct hostName port os).1.mSocket ≠ INVALID_SOCKET ∧
      create hostName port os =
        (some (construct hostName port os).1,
          (construct hostName port os).2)) ∨
    ((construct hostName port os).1.mSocket = INVALID_SOCKET ∧
      create hostName port os =
        (none, (construct hostName port os).2 ++
          [.closesocket INVALID_SOCKET])) := by
  unfold create isValid
  by_cases hvalid : (construct hostName port os).1.mSocket ≠ INVALID_SOCKET
  · left
    refine ⟨hvalid, ?_⟩
    simp [hvalid]
  · have hinvalid := not_not.mp hvalid
    right
    refine ⟨hinvalid, ?_⟩
    simp [hinvalid, release, close, INVALID_SOCKET]

end WsocketImpl

end Socketchat.Sockets
