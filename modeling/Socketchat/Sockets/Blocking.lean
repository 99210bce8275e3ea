import Socketchat.Chat.Polled
import Socketchat.Sockets.Wsocket

/-!
# Blocking mode

`socket` and `accept` return descriptors in blocking mode. What each function of
`WsocketImpl` changes in the table of open descriptors: creating a socket takes
its descriptor out of blocking mode, or `disableNaglesAlgorithm` does so
afterwards, and accepting one does not. A connection whose descriptor is not in
blocking mode never waits for its peer.
-/

namespace Socketchat.Sockets

open Foundation Chat

/-- An open descriptor: its mode, and whether `accept` has returned it. -/
structure Descriptor where
  blocking : Bool
  accepted : Bool
deriving DecidableEq

/-- The open descriptors of the process. -/
abbrev Table := ℤ → Option Descriptor

namespace Table

variable (T : Table)

/-- The table after a call. -/
def after : OsCall → Table
  | .socket ret =>
      if ret = INVALID_SOCKET then T
      else Function.update T ret (some ⟨true, false⟩)
  | .accept _ ret =>
      if ret = INVALID_SOCKET then T
      else Function.update T ret (some ⟨true, true⟩)
  | .setBlocking s blocking =>
      Function.update T s ((T s).map fun d => { d with blocking := blocking })
  | .closesocket s => Function.update T s none
  | _ => T

/-- If this descriptor is open, it is not in blocking mode. -/
def NonBlocking (socket : ℤ) : Prop :=
  ∀ d, T socket = some d → d.blocking = false

/-- The call does not wait for a peer. -/
def Returns : OsCall → Prop
  | .recv s => T.NonBlocking s
  | .send s => T.NonBlocking s
  | _ => True

end Table

/-- None of these calls, made one after the other, waits for a peer. -/
def NeverBlocks (T : Table) (calls : List OsCall) : Prop :=
  Along Table.after Table.Returns T calls

/-! ## What `poll` calls -/

namespace WsocketImpl

variable (w : WsocketImpl)

/-- What an event at the interface of a `Wsocket` is when it is this one. -/
def handle : Event → WsocketImpl × List OsCall
  | .received _ => (w, if w.mSocket ≠ 0 then [.recv w.mSocket] else [])
  | .receiveRefused _ => (w, if w.mSocket ≠ 0 then [.recv w.mSocket] else [])
  | .sent _ => (w, [.send w.mSocket])
  | .sendRefused _ => (w, [.send w.mSocket])
  | .closeSocket => w.close
  | _ => (w, [])

def handleAll (w : WsocketImpl) : List Event → WsocketImpl × List OsCall
  | [] => (w, [])
  | e :: events =>
      let r := w.handle e
      let r' := handleAll r.1 events
      (r'.1, r.2 ++ r'.2)

end WsocketImpl

/-! ## What calls do to the table -/

/-- The calls that move bytes. -/
def OsCall.transfers : OsCall → Bool
  | .recv _ => true
  | .send _ => true
  | _ => false

theorem NeverBlocks.of_no_transfer {calls : List OsCall}
    (h : ∀ call ∈ calls, call.transfers = false) (T : Table) :
    NeverBlocks T calls := by
  induction calls generalizing T with
  | nil => trivial
  | cons call calls ih =>
      have hcall := h call List.mem_cons_self
      have hrest := ih (fun c hc => h c (List.mem_cons_of_mem call hc))
        (T.after call)
      refine ⟨?_, hrest⟩
      cases call with
      | recv s => exact absurd hcall (by simp [OsCall.transfers])
      | send s => exact absurd hcall (by simp [OsCall.transfers])
      | _ => trivial

/-- A descriptor that has changed is closed, accepted or not in blocking
mode. -/
def Settles (T T' : Table) : Prop :=
  ∀ s, T' s = T s ∨ T' s = none ∨
    ∃ d, T' s = some d ∧ (d.accepted = true ∨ d.blocking = false)

theorem Settles.refl (T : Table) : Settles T T := fun _ => Or.inl rfl

theorem Settles.trans {T T' T'' : Table} (h : Settles T T')
    (h' : Settles T' T'') : Settles T T'' := by
  intro s
  rcases h' s with heq | hnone | hsome
  · rw [heq]
    exact h s
  · exact Or.inr (Or.inl hnone)
  · exact Or.inr (Or.inr hsome)

/-- Calls that leave every other descriptor as it was. -/
theorem Settles.of_one {T T' : Table} {socket : ℤ}
    (hother : ∀ s, s ≠ socket → T' s = T s)
    (hsocket : T' socket = none ∨
      ∃ d, T' socket = some d ∧ (d.accepted = true ∨ d.blocking = false)) :
    Settles T T' := by
  intro s
  by_cases hs : s = socket
  · rw [hs]
    exact Or.inr hsocket
  · exact Or.inl (hother s hs)

theorem Settles.closesocket (T : Table) (socket : ℤ) :
    Settles T (T.after (.closesocket socket)) :=
  .of_one (fun _ hs => Function.update_of_ne hs ..)
    (Or.inl (Function.update_self ..))

namespace WsocketImpl

theorem release_settles (w : WsocketImpl) (T : Table) :
    Settles T (w.release.foldl Table.after T) := by
  unfold release close
  dsimp only
  split
  · exact .closesocket T w.mSocket
  · exact .refl T

theorem release_transfers (w : WsocketImpl) :
    ∀ call ∈ w.release, call.transfers = false := by
  unfold release close
  dsimp only
  split
  · simp [OsCall.transfers]
  · simp

theorem connectLoop_transfers (result : List Address) :
    ∀ call ∈ (connectLoop result).2, call.transfers = false := by
  induction result with
  | nil => simp [connectLoop]
  | cons p result ih =>
      unfold connectLoop
      split
      · simpa [OsCall.transfers] using ih
      · split
        · simp [OsCall.transfers]
        · simpa [OsCall.transfers] using ih

/-- Only the descriptor that is kept can be open in blocking mode. -/
theorem connectLoop_table (result : List Address) (T : Table) (s : ℤ) :
    (connectLoop result).2.foldl Table.after T s = T s ∨
      (connectLoop result).2.foldl Table.after T s = none ∨
      s = (connectLoop result).1 := by
  induction result generalizing T with
  | nil => exact Or.inl rfl
  | cons p result ih =>
      unfold connectLoop
      by_cases hsocket : p.socket = INVALID_SOCKET
      · rw [if_pos hsocket, List.foldl_cons, Table.after, if_pos hsocket]
        exact ih T
      · rw [if_neg hsocket]
        by_cases hconnect : p.connect ≠ SOCKET_ERROR
        · rw [if_pos hconnect]
          by_cases hs : s = p.socket
          · exact Or.inr (Or.inr hs)
          · left
            simp [Table.after, hsocket, hs]
        · rw [if_neg hconnect]
          simp only [List.foldl_cons, Table.after, if_neg hsocket,
            Function.update_idem]
          rcases ih (Function.update T p.socket none) with h | h | h
          · rw [h]
            by_cases hs : s = p.socket
            · exact Or.inr (Or.inl (by rw [hs, Function.update_self]))
            · exact Or.inl (Function.update_of_ne hs ..)
          · exact Or.inr (Or.inl h)
          · exact Or.inr (Or.inr h)

theorem serverConnect_transfers (port : ℤ) (os : OsAnswers) :
    ∀ call ∈ (serverConnect port os).2, call.transfers = false := by
  rcases serverConnect_cases port os with ⟨-, heq⟩ | ⟨-, -, -, heq⟩ |
    ⟨-, -, heq⟩ | ⟨-, -, heq⟩
  · simp [heq, OsCall.transfers]
  · simp [heq, OsCall.transfers]
  · simp [heq, OsCall.transfers]
  · simp [heq, OsCall.transfers]

/-- A listening socket is taken out of blocking mode. -/
theorem serverConnect_settles (port : ℤ) (os : OsAnswers) (T : Table) :
    Settles T ((serverConnect port os).2.foldl Table.after T) := by
  rcases serverConnect_cases port os with ⟨hsocket, heq⟩ |
    ⟨hsocket, -, -, heq⟩ | ⟨hsocket, -, heq⟩ | ⟨hsocket, -, heq⟩
  · rw [heq]
    simpa [Table.after, hsocket] using Settles.refl T
  all_goals
    have hother : ∀ s, s ≠ os.socket →
        (serverConnect port os).2.foldl Table.after T s = T s := by
      intro s hs
      simp [heq, Table.after, hsocket, hs]
    refine .of_one hother ?_
    simp [heq, Table.after, hsocket]

theorem hostnameConnect_transfers (os : OsAnswers) :
    ∀ call ∈ (hostnameConnect os).2, call.transfers = false := by
  unfold hostnameConnect
  split
  · simp
  · exact connectLoop_transfers os.result

theorem construct_transfers (hostName : CString) (port : ℤ)
    (os : OsAnswers) :
    ∀ call ∈ (construct hostName port os).2, call.transfers = false := by
  unfold construct
  split
  · exact serverConnect_transfers port os
  · exact hostnameConnect_transfers os

/-- A constructor leaves at most its own descriptor in blocking mode. -/
theorem construct_settles (hostName : CString) (port : ℤ) (os : OsAnswers)
    (T : Table) (s : ℤ)
    (hs : s ≠ (construct hostName port os).1.mSocket) :
    (construct hostName port os).2.foldl Table.after T s = T s ∨
      (construct hostName port os).2.foldl Table.after T s = none ∨
      ∃ d, (construct hostName port os).2.foldl Table.after T s = some d ∧
        (d.accepted = true ∨ d.blocking = false) := by
  unfold construct at hs ⊢
  by_cases hserver : hostName.val = SOCKET_SERVER
  · simp only [if_pos hserver]
    exact serverConnect_settles port os T s
  · simp only [if_neg hserver, hostnameConnect] at hs ⊢
    by_cases hfailed : os.getaddrinfo ≠ 0
    · rw [if_pos hfailed]
      exact Or.inl rfl
    · rw [if_neg hfailed] at hs ⊢
      rcases connectLoop_table os.result T s with h | h | h
      · exact Or.inl h
      · exact Or.inr (Or.inl h)
      · exact absurd h hs

/-- Creating a listening socket leaves no descriptor in blocking mode. -/
theorem create_server_settles (port : ℤ) (os : OsAnswers) (T : Table) :
    Settles T ((create ⟨SOCKET_SERVER, by decide⟩ port os).2.foldl
      Table.after T) := by
  have hserver := serverConnect_settles port os T
  rcases create_cases ⟨SOCKET_SERVER, by decide⟩ port os with
    ⟨-, heq⟩ | ⟨-, heq⟩
  · rw [heq]
    exact hserver
  · rw [heq, List.foldl_append]
    exact hserver.trans (.closesocket _ INVALID_SOCKET)

theorem create_transfers (hostName : CString) (port : ℤ) (os : OsAnswers) :
    ∀ call ∈ (create hostName port os).2, call.transfers = false := by
  have hconstruct := construct_transfers hostName port os
  rcases create_cases hostName port os with ⟨-, heq⟩ | ⟨-, heq⟩
  · rw [heq]
    exact hconstruct
  · rw [heq]
    intro call hcall
    rcases List.mem_append.mp hcall with hcall | hcall
    · exact hconstruct call hcall
    · rw [List.mem_singleton.mp hcall]
      rfl

/-- Without a socket everything is closed again. -/
theorem create_none_settles {hostName : CString} {port : ℤ} {os : OsAnswers}
    (hnone : (create hostName port os).1 = none) (T : Table) :
    Settles T ((create hostName port os).2.foldl Table.after T) := by
  rcases create_cases hostName port os with ⟨-, heq⟩ | ⟨hinvalid, heq⟩
  · rw [heq] at hnone
    cases hnone
  · rw [heq, List.foldl_append]
    intro s
    by_cases hs : s = INVALID_SOCKET
    · right
      left
      simp [Table.after, hs]
    · have hother : s ≠ (construct hostName port os).1.mSocket := by
        rw [hinvalid]
        exact hs
      have hkeep : [OsCall.closesocket INVALID_SOCKET].foldl Table.after
          ((construct hostName port os).2.foldl Table.after T) s =
          (construct hostName port os).2.foldl Table.after T s :=
        Function.update_of_ne hs ..
      rw [hkeep]
      exact construct_settles hostName port os T s hother

theorem disableNaglesAlgorithm_nonBlocking (w : WsocketImpl) (T : Table) :
    (w.disableNaglesAlgorithm.foldl Table.after T).NonBlocking w.mSocket := by
  intro d hd
  have hmode : (T w.mSocket).map (fun d => { d with blocking := false }) =
      some d := by
    simpa [disableNaglesAlgorithm, Table.after] using hd
  obtain ⟨d', -, rfl⟩ := Option.map_eq_some_iff.mp hmode
  rfl

/-- `disableNaglesAlgorithm` is what takes a descriptor from `connect` out of
blocking mode. -/
theorem create_some_settles {hostName : CString} {port : ℤ} {os : OsAnswers}
    {w : WsocketImpl} (hsome : (create hostName port os).1 = some w)
    (T : Table) :
    Settles T (((create hostName port os).2 ++
      w.disableNaglesAlgorithm).foldl Table.after T) := by
  rcases create_cases hostName port os with ⟨-, heq⟩ | ⟨-, heq⟩
  · rw [heq] at hsome ⊢
    cases hsome
    rw [List.foldl_append]
    intro s
    by_cases hs : s = (construct hostName port os).1.mSocket
    · right
      have hmode := disableNaglesAlgorithm_nonBlocking
        (construct hostName port os).1
        ((construct hostName port os).2.foldl Table.after T)
      rw [hs]
      cases hd : (construct hostName port os).1.disableNaglesAlgorithm.foldl
          Table.after ((construct hostName port os).2.foldl Table.after T)
          (construct hostName port os).1.mSocket with
      | none => exact Or.inl rfl
      | some d => exact Or.inr ⟨d, rfl, Or.inr (hmode d hd)⟩
    · have hkeep : (construct hostName port os).1.disableNaglesAlgorithm.foldl
          Table.after ((construct hostName port os).2.foldl Table.after T) s =
          (construct hostName port os).2.foldl Table.after T s :=
        Function.update_of_ne hs ..
      rw [hkeep]
      exact construct_settles hostName port os T s hs
  · rw [heq] at hsome
    cases hsome

/-- `pollServer` leaves a descriptor in blocking mode that is marked as
accepted. -/
theorem pollServer_settles (w : WsocketImpl) (ret : ℤ) (T : Table) :
    Settles T ((w.pollServer ret).2.foldl Table.after T) := by
  unfold pollServer
  split
  · by_cases hret : ret = INVALID_SOCKET
    · rw [List.foldl_cons, Table.after, if_pos hret]
      exact .refl T
    · rw [List.foldl_cons, Table.after, if_neg hret]
      exact .of_one (fun _ hs => Function.update_of_ne hs ..)
        (Or.inr ⟨⟨true, true⟩, Function.update_self .., Or.inl rfl⟩)
  · exact .refl T

/-! ### The calls of one connection -/

theorem handleAll_append (w : WsocketImpl) (es es' : List Event) :
    w.handleAll (es ++ es') =
      (((w.handleAll es).1.handleAll es').1,
        (w.handleAll es).2 ++ ((w.handleAll es).1.handleAll es').2) := by
  induction es generalizing w with
  | nil => rfl
  | cons e es ih =>
      rw [List.cons_append]
      simp only [handleAll, ih, List.append_assoc]

end WsocketImpl

section Handle

variable {w : WsocketImpl} {T : Table} {e : Event} {es : List Event}

theorem handleAll_quiet (h : ∀ e ∈ es, e.usesSocket = false) :
    w.handleAll es = (w, []) := by
  induction es with
  | nil => rfl
  | cons e es ih =>
      have he := h e List.mem_cons_self
      have hrest := ih fun e' he' => h e' (List.mem_cons_of_mem e he')
      have hquiet : w.handle e = (w, []) := by
        cases e with
        | queued text textAdded delimiterAdded => rfl
        | nullSelect timeout => rfl
        | ready state => rfl
        | delivered message => rfl
        | _ => exact absurd he (by simp [Event.usesSocket])
      simp only [WsocketImpl.handleAll, hquiet, hrest, List.append_nil]

/-- A receive or a send, on a descriptor that does not block. -/
theorem handle_transfer (hmode : T.NonBlocking w.mSocket)
    (he : e.usesSocket = true) (hclose : e ≠ .closeSocket) :
    (w.handle e).1 = w ∧ NeverBlocks T (w.handle e).2 ∧
      (w.handle e).2.foldl Table.after T = T := by
  have hrecv : NeverBlocks T
        (if w.mSocket ≠ 0 then [.recv w.mSocket] else []) ∧
      (if w.mSocket ≠ 0 then [OsCall.recv w.mSocket] else []).foldl
        Table.after T = T := by
    split
    · exact ⟨⟨hmode, trivial⟩, rfl⟩
    · exact ⟨trivial, rfl⟩
  cases e with
  | received bytes => exact ⟨rfl, hrecv⟩
  | receiveRefused r => exact ⟨rfl, hrecv⟩
  | sent bytes => exact ⟨rfl, ⟨hmode, trivial⟩, rfl⟩
  | sendRefused r => exact ⟨rfl, ⟨hmode, trivial⟩, rfl⟩
  | closeSocket => exact absurd rfl hclose
  | _ => exact absurd he (by simp [Event.usesSocket])

end Handle

/-- After these events a connection is closed, or its descriptor is not in
blocking mode; and no call has waited for the peer. -/
structure Unblocked (T : Table) (w : WsocketImpl) (s : SocketChatImpl)
    (events : List Event) : Prop where
  calls : NeverBlocks T (w.handleAll events).2
  settles : Settles T ((w.handleAll events).2.foldl Table.after T)
  mode : s.mReadyState = .CLOSED ∨
    ((w.handleAll events).2.foldl Table.after T).NonBlocking
      (w.handleAll events).1.mSocket

namespace Unblocked

variable {T : Table} {w : WsocketImpl} {s t : SocketChatImpl} {e : Event}
  {es : List Event}

theorem quiet (hmode : t.mReadyState = .CLOSED ∨ T.NonBlocking w.mSocket)
    (h : ∀ e ∈ es, e.usesSocket = false) : Unblocked T w t es := by
  have hall := handleAll_quiet (w := w) h
  constructor
  · rw [hall]
    trivial
  · rw [hall]
    exact .refl T
  · rw [hall]
    exact hmode

theorem transfer (hmode : T.NonBlocking w.mSocket)
    (he : e.usesSocket = true) (hclose : e ≠ .closeSocket) :
    Unblocked T w t [e] := by
  obtain ⟨hsocket, hcalls, htable⟩ := handle_transfer hmode he hclose
  have hall : w.handleAll [e] = ((w.handle e).1, (w.handle e).2 ++ []) := rfl
  rw [List.append_nil] at hall
  constructor
  · rw [hall]
    exact hcalls
  · rw [hall]
    dsimp only
    rw [htable]
    exact .refl T
  · rw [hall]
    dsimp only
    rw [htable, hsocket]
    exact Or.inr hmode

/-- After the socket has been closed the connection is. -/
theorem disconnect (s : SocketChatImpl) :
    Unblocked T w s.disconnect.1 s.disconnect.2 := by
  have hall : w.handleAll s.disconnect.2 = (w.close.1, w.close.2 ++ []) := rfl
  rw [List.append_nil] at hall
  refine ⟨?_, ?_, Or.inl rfl⟩
  · rw [hall]
    exact .of_no_transfer w.release_transfers T
  · rw [hall]
    exact w.release_settles T

theorem trans (h : Unblocked T w s es) {es' : List Event}
    (h' : Unblocked ((w.handleAll es).2.foldl Table.after T)
      (w.handleAll es).1 t es') : Unblocked T w t (es ++ es') := by
  constructor
  · rw [WsocketImpl.handleAll_append]
    exact Along.append.mpr ⟨h.calls, h'.calls⟩
  · rw [WsocketImpl.handleAll_append, List.foldl_append]
    exact h.settles.trans h'.settles
  · rw [WsocketImpl.handleAll_append, List.foldl_append]
    exact h'.mode

/-- **One action.** On a closed connection no action uses the socket. -/
theorem act (hact : SocketChatImpl.Act s es t)
    (hmode : s.mReadyState = .CLOSED ∨ T.NonBlocking w.mSocket) :
    Unblocked T w t es := by
  have hlive : s.Live → T.NonBlocking w.mSocket := fun h =>
    hmode.resolve_left h.notClosed
  cases hact with
  | move b _ _ => exact .quiet hmode (by simp)
  | receive b bytes h _ _ => exact .transfer (hlive h) rfl (by simp)
  | receiveWait r h _ => exact .transfer (hlive h) rfl (by simp)
  | receiveBroken r h _ =>
      have hfirst : Unblocked T w s [.receiveRefused r] :=
        .transfer (hlive h) rfl (by simp)
      exact hfirst.trans (.disconnect s)
  | send n h _ => exact .transfer (hlive h) rfl (by simp)
  | sendWait r h _ => exact .transfer (hlive h) rfl (by simp)
  | sendBroken r h _ =>
      have hfirst : Unblocked T w s [.sendRefused r] :=
        .transfer (hlive h) rfl (by simp)
      exact hfirst.trans (.disconnect s)
  | finish _ _ _ => exact .disconnect s
  | deliver b seg _ _ _ => exact .quiet hmode (by simp [Event.usesSocket])
  | queue str =>
      exact .quiet hmode
        (by simp [SocketChatImpl.sendText, Event.usesSocket])
  | requestClose _ hclosed =>
      exact .quiet (Or.inr (hmode.resolve_left hclosed))
        (by simp [Event.usesSocket])
  | rest timeout _ _ => exact .quiet hmode (by simp [Event.usesSocket])

/-- **A sequence of actions.** -/
theorem emits (h : SocketChatImpl.activity.Emits s es t)
    (hmode : s.mReadyState = .CLOSED ∨ T.NonBlocking w.mSocket) :
    Unblocked T w t es := by
  have hinit : Unblocked T w s [] := .quiet hmode (by simp)
  have hstep : ∀ (s : SocketChatImpl) (es : List Event) (t : SocketChatImpl)
      (tr : List Event), SocketChatImpl.activity.step s es t →
      Unblocked T w s tr → Unblocked T w t (tr ++ es) :=
    fun _ _ _ _ hact hu => hu.trans (.act hact hu.mode)
  exact h.preserves (I := fun s tr => Unblocked T w s tr) hstep [] hinit

end Unblocked

end Socketchat.Sockets
