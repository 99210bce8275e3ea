import Socketchat.Foundation.Ledger
import Socketchat.Sockets.Wsocket

/-!
# Creating a stream socket

`create` opens descriptors one after the other until one is established, and
is to keep that one and close the rest. The ledger of the calls it makes says
what it has opened and closed. All its exits agree on `INVALID_SOCKET` but one.
-/

namespace Socketchat.Sockets

open Foundation Chat

/-- What a call does with a descriptor. Closing `INVALID_SOCKET` closes
nothing. -/
def OsCall.use : OsCall → Option (Use ℤ)
  | .socket ret => if ret = INVALID_SOCKET then none else some (.acquire ret)
  | .accept _ ret => if ret = INVALID_SOCKET then none else some (.acquire ret)
  | .closesocket s => if s = INVALID_SOCKET then none else some (.release s)
  | _ => none

/-- The descriptors these calls leave open; `none` if one of them closes a
descriptor that they have not opened, or have closed before. -/
def descriptors (calls : List OsCall) : Option (Multiset ℤ) :=
  ledger 0 (calls.filterMap OsCall.use)

/-- `socket` and `connect` succeed for this entry. -/
def Address.connects (p : Address) : Bool :=
  decide (p.socket ≠ INVALID_SOCKET ∧ p.connect ≠ SOCKET_ERROR)

/-- The descriptor to be had: the listening one for a server, and else that of
the first address that connects. -/
def OsAnswers.descriptor (os : OsAnswers) (hostName : CString) : Option ℤ :=
  if hostName.val = SOCKET_SERVER then
    if os.socket ≠ INVALID_SOCKET ∧ os.bind = 0 ∧ os.listen = 0 then
      some os.socket
    else
      none
  else if os.getaddrinfo = 0 then
    (os.result.find? Address.connects).map (·.socket)
  else
    none

/-- Among these calls are the ones that make this descriptor usable. -/
def Established (hostName : CString) (port : ℤ) (calls : List OsCall)
    (socket : ℤ) : Prop :=
  if hostName.val = SOCKET_SERVER then
    .bind socket (uShort port) 0 ∈ calls ∧ .listen socket 0 ∈ calls
  else
    ∃ ret, ret ≠ SOCKET_ERROR ∧ .connect socket ret ∈ calls

/-- What `create` promises. -/
structure SoundCreation (hostName : CString) (port : ℤ) (os : OsAnswers) :
    Prop where
  /-- A socket holds the one descriptor that is still open, and it is the one
  to be had. -/
  held : ∀ w, (Wsocket.create hostName port os).1 = some (.impl w) →
    os.descriptor hostName = some w.mSocket ∧
    Established hostName port (Wsocket.create hostName port os).2 w.mSocket ∧
    descriptors (Wsocket.create hostName port os).2 = some {w.mSocket}
  /-- Releasing it closes no other. -/
  released : ∀ w, (Wsocket.create hostName port os).1 = some (.impl w) →
    (descriptors
      ((Wsocket.create hostName port os).2 ++ w.release)).isSome
  /-- Without one there was none to be had, and all are closed. -/
  absent : (Wsocket.create hostName port os).1 = none →
    os.descriptor hostName = none ∧
    descriptors (Wsocket.create hostName port os).2 = some 0

theorem descriptors_append {calls calls' : List OsCall} {held : Multiset ℤ}
    (h : descriptors calls = some held) :
    descriptors (calls ++ calls') =
      ledger held (calls'.filterMap OsCall.use) := by
  unfold descriptors
  rw [List.filterMap_append, ledger_trans h]

/-- After calls that leave nothing open. -/
theorem descriptors_append_closed {calls calls' : List OsCall}
    (h : descriptors calls = some 0) :
    descriptors (calls ++ calls') = descriptors calls' :=
  descriptors_append h

/-! ## The loop over the addresses -/

namespace WsocketImpl

theorem connectLoop_connects {p : Address} (hp : p.connects = true)
    (result : List Address) :
    connectLoop (p :: result) =
      (p.socket, [.socket p.socket, .connect p.socket p.connect]) := by
  have hboth := of_decide_eq_true hp
  rw [connectLoop, if_neg hboth.1, if_pos hboth.2]

/-- An address that does not connect leaves nothing open. -/
theorem connectLoop_refused {p : Address} (hp : p.connects = false)
    (result : List Address) :
    ∃ calls, connectLoop (p :: result) =
        ((connectLoop result).1, calls ++ (connectLoop result).2) ∧
      descriptors calls = some 0 := by
  have hboth := of_decide_eq_false hp
  rw [connectLoop]
  by_cases hsocket : p.socket = INVALID_SOCKET
  · rw [if_pos hsocket]
    refine ⟨[.socket p.socket], rfl, ?_⟩
    simp [descriptors, OsCall.use, hsocket]
  · have hconnect : ¬ p.connect ≠ SOCKET_ERROR := fun h => hboth ⟨hsocket, h⟩
    rw [if_neg hsocket, if_neg hconnect]
    refine ⟨[.socket p.socket, .connect p.socket p.connect,
      .closesocket p.socket], rfl, ?_⟩
    simp [descriptors, OsCall.use, hsocket, List.filterMap_cons]

/-- **The first address that connects is the one that is kept**; every other
descriptor has been closed. -/
theorem connectLoop_spec (result : List Address) :
    (∃ p, result.find? Address.connects = some p ∧
      (connectLoop result).1 = p.socket ∧
      .connect p.socket p.connect ∈ (connectLoop result).2 ∧
      descriptors (connectLoop result).2 = some {p.socket}) ∨
    (result.find? Address.connects = none ∧
      (connectLoop result).1 = INVALID_SOCKET ∧
      descriptors (connectLoop result).2 = some 0) := by
  induction result with
  | nil => exact Or.inr ⟨rfl, rfl, rfl⟩
  | cons p result ih =>
      cases hp : p.connects with
      | true =>
          have hboth := of_decide_eq_true hp
          refine Or.inl ⟨p, List.find?_cons_of_pos hp, ?_⟩
          rw [connectLoop_connects hp]
          refine ⟨rfl, by simp, ?_⟩
          simp [descriptors, OsCall.use, hboth.1, List.filterMap_cons]
      | false =>
          obtain ⟨calls, hloop, hclosed⟩ := connectLoop_refused hp result
          rw [List.find?_cons_of_neg (by simp [hp]), hloop]
          dsimp only
          rw [descriptors_append_closed hclosed]
          rcases ih with ⟨q, hfind, hsocket, hconnect, hopen⟩ |
            ⟨hfind, hsocket, hopen⟩
          · exact Or.inl ⟨q, hfind, hsocket,
              List.mem_append_right calls hconnect, hopen⟩
          · exact Or.inr ⟨hfind, hsocket, hopen⟩

/-! ## The three ways to construct a socket -/

section Construct

variable {hostName : CString} (port : ℤ) (os : OsAnswers)

/-- What a constructor leaves: the descriptor to be had, and no other one, or
`INVALID_SOCKET` and none. -/
def Constructed (hostName : CString) : Prop :=
  (∃ socket, os.descriptor hostName = some socket ∧
    socket ≠ INVALID_SOCKET ∧
    (construct hostName port os).1.mSocket = socket ∧
    Established hostName port (construct hostName port os).2 socket ∧
    descriptors (construct hostName port os).2 = some {socket}) ∨
  (os.descriptor hostName = none ∧
    (construct hostName port os).1.mSocket = INVALID_SOCKET ∧
    descriptors (construct hostName port os).2 = some 0)

theorem construct_server (hserver : hostName.val = SOCKET_SERVER) :
    Constructed port os hostName := by
  unfold Constructed OsAnswers.descriptor Established construct
  simp only [if_pos hserver]
  rcases serverConnect_cases port os with ⟨hsocket, heq⟩ |
    ⟨hsocket, hbind, hlisten, heq⟩ | ⟨hsocket, hbind, heq⟩ |
    ⟨hsocket, hlisten, heq⟩
  · rw [heq]
    refine Or.inr ⟨if_neg fun h => h.1 hsocket, rfl, ?_⟩
    simp [descriptors, OsCall.use, hsocket]
  · rw [heq]
    refine Or.inl ⟨os.socket, if_pos ⟨hsocket, hbind, hlisten⟩, hsocket, rfl,
      ⟨by simp, by simp⟩, ?_⟩
    simp [descriptors, OsCall.use, hsocket, List.filterMap_cons]
  · rw [heq]
    refine Or.inr ⟨if_neg fun h => hbind h.2.1, rfl, ?_⟩
    simp [descriptors, OsCall.use, hsocket, List.filterMap_cons]
  · rw [heq]
    refine Or.inr ⟨if_neg fun h => hlisten h.2.2, rfl, ?_⟩
    simp [descriptors, OsCall.use, hsocket, List.filterMap_cons]

theorem construct_resolved (hserver : hostName.val ≠ SOCKET_SERVER)
    (hresolved : os.getaddrinfo = 0) : Constructed port os hostName := by
  have hnot : ¬ os.getaddrinfo ≠ 0 := not_not.mpr hresolved
  unfold Constructed OsAnswers.descriptor Established construct
    hostnameConnect
  simp only [if_neg hserver, if_pos hresolved, if_neg hnot]
  rcases connectLoop_spec os.result with
    ⟨p, hfind, hsocket, hconnect, hopen⟩ | ⟨hfind, hsocket, hopen⟩
  · have hp : p.connects = true := List.find?_some hfind
    have hboth := of_decide_eq_true hp
    rw [hfind]
    exact Or.inl ⟨p.socket, rfl, hboth.1, hsocket,
      ⟨p.connect, hboth.2, hconnect⟩, hopen⟩
  · rw [hfind]
    exact Or.inr ⟨rfl, hsocket, hopen⟩

/-- Where the name cannot be resolved, the descriptor is a number that no call
has returned. -/
theorem construct_unresolved (hserver : hostName.val ≠ SOCKET_SERVER)
    (hfailed : os.getaddrinfo ≠ 0) :
    construct hostName port os = (⟨false, 1⟩, []) := by
  simp only [construct, hostnameConnect, if_neg hserver, if_pos hfailed]

end Construct

end WsocketImpl

section Create

variable {hostName : CString} {port : ℤ} {os : OsAnswers}
  (hshared : hostName.val ≠ SHARED_SERVER ∧ hostName.val ≠ SHARED_CLIENT)

include hshared

theorem create_eq : Wsocket.create hostName port os =
    ((WsocketImpl.create hostName port os).1.map .impl,
      (WsocketImpl.create hostName port os).2) :=
  if_neg (not_or.mpr hshared)

theorem create_valid
    (hvalid : (WsocketImpl.construct hostName port os).1.mSocket ≠
      INVALID_SOCKET) :
    Wsocket.create hostName port os =
      (some (.impl (WsocketImpl.construct hostName port os).1),
        (WsocketImpl.construct hostName port os).2) := by
  rcases WsocketImpl.create_cases hostName port os with
    ⟨-, heq⟩ | ⟨hinvalid, -⟩
  · rw [create_eq hshared, heq]
    rfl
  · exact absurd hinvalid hvalid

theorem create_invalid
    (hinvalid : (WsocketImpl.construct hostName port os).1.mSocket =
      INVALID_SOCKET) :
    Wsocket.create hostName port os =
      (none, (WsocketImpl.construct hostName port os).2 ++
        [.closesocket INVALID_SOCKET]) := by
  rcases WsocketImpl.create_cases hostName port os with
    ⟨hvalid, -⟩ | ⟨-, heq⟩
  · exact absurd hinvalid hvalid
  · rw [create_eq hshared, heq]
    rfl

theorem SoundCreation.of_constructed
    (h : WsocketImpl.Constructed port os hostName) :
    SoundCreation hostName port os := by
  rcases h with ⟨socket, hhad, hvalid, rfl, hest, hopen⟩ |
    ⟨hhad, hsocket, hopen⟩
  · have hcreate := create_valid hshared hvalid
    refine ⟨?_, ?_, ?_⟩
    · intro w hw
      rw [hcreate] at hw ⊢
      cases hw
      exact ⟨hhad, hest, hopen⟩
    · intro w hw
      rw [hcreate] at hw ⊢
      cases hw
      rw [descriptors_append hopen, WsocketImpl.release, WsocketImpl.close]
      split
      · simp [OsCall.use, hvalid]
      · rfl
    · intro hnone
      rw [hcreate] at hnone
      cases hnone
  · have hcreate := create_invalid hshared hsocket
    refine ⟨?_, ?_, ?_⟩
    · intro w hw
      rw [hcreate] at hw
      cases hw
    · intro w hw
      rw [hcreate] at hw
      cases hw
    · intro _
      rw [hcreate]
      exact ⟨hhad, descriptors_append hopen⟩

end Create

/-- **Main result.** Creation is sound exactly for a server and for a name that
can be resolved. -/
theorem create_sound_iff (hostName : CString) (port : ℤ) (os : OsAnswers)
    (hshared : hostName.val ≠ SHARED_SERVER ∧ hostName.val ≠ SHARED_CLIENT) :
    SoundCreation hostName port os ↔
      hostName.val = SOCKET_SERVER ∨ os.getaddrinfo = 0 := by
  constructor
  · intro hsound
    by_contra hnot
    obtain ⟨hserver, hfailed⟩ := not_or.mp hnot
    have hone := WsocketImpl.construct_unresolved port os hserver hfailed
    have hcreate : (Wsocket.create hostName port os).1 =
        some (.impl ⟨false, 1⟩) := by
      rw [create_valid hshared, hone]
      rw [hone]
      decide
    have hdescriptor := (hsound.held _ hcreate).1
    simp [OsAnswers.descriptor, hserver, hfailed] at hdescriptor
  · intro hcond
    apply SoundCreation.of_constructed hshared
    by_cases hserver : hostName.val = SOCKET_SERVER
    · exact WsocketImpl.construct_server port os hserver
    · exact WsocketImpl.construct_resolved port os hserver
        (hcond.resolve_left hserver)

section Runs

/-- Two addresses; the first one refuses. -/
def twoAddresses (getaddrinfo : ℤ) : OsAnswers :=
  { getaddrinfo := getaddrinfo
    result := [⟨3, -1⟩, ⟨4, 0⟩]
    socket := -1
    bind := -1
    listen := -1
    serverFile := none
    clientFile := none
    files := ⟨⟨⟨0, 0, 0, 0, 0⟩, ⟨0, fun _ => 0⟩⟩,
      ⟨⟨0, 0, 0, 0, 0⟩, ⟨0, fun _ => 0⟩⟩⟩ }

theorem create_sound_second :
    (Wsocket.create (letters 1) 3009 (twoAddresses 0)).1 =
      some (.impl ⟨false, 4⟩) ∧
    SoundCreation (letters 1) 3009 (twoAddresses 0) :=
  ⟨rfl, (create_sound_iff (letters 1) 3009 (twoAddresses 0)
    (by decide)).mpr (.inr rfl)⟩

/-- The name cannot be resolved: the socket holds descriptor 1, and closes it in
the end. -/
theorem create_adopts :
    Wsocket.create (letters 1) 3009 (twoAddresses (-2)) =
      (some (.impl ⟨false, 1⟩), []) ∧
    WsocketImpl.release ⟨false, 1⟩ = [.closesocket 1] ∧
    descriptors ([] ++ WsocketImpl.release ⟨false, 1⟩) = none ∧
    ¬ SoundCreation (letters 1) 3009 (twoAddresses (-2)) := by
  refine ⟨rfl, rfl, by decide, fun hsound => ?_⟩
  have hdescriptor := (hsound.held ⟨false, 1⟩ rfl).1
  exact absurd hdescriptor (by decide)

end Runs

end Socketchat.Sockets
