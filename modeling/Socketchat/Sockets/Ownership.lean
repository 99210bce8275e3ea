import Socketchat.Foundation.Ledger
import Socketchat.Foundation.Transition
import Socketchat.Sockets.Wsocket

/-!
# Who releases a socket

What `create` and `pollServer` return is the caller's to release. A host keeps
a server socket and wraps every socket it is returned in a connection, which
releases it when the connection is dropped or when the host exits; then the
host releases its server socket. Each socket is given back as often as it has
been handed out, so all depends on whether `pollServer` hands one out again.
-/

namespace Socketchat.Sockets

open Foundation Chat Spsc

/-- The `Wsocket` objects of a host: its server socket, and those `pollServer`
has made, numbered as it made them. -/
inductive Handle where
  | server
  | accepted (k : ℕ)
deriving DecidableEq

/-- What is done with a `Wsocket`. -/
inductive SocketEvent where
  /-- `socket->pollServer()`. -/
  | polled (socket : Handle)
  /-- `create` or `pollServer` returned it. -/
  | returned (socket : Handle)
  /-- `socket->release()`. -/
  | released (socket : Handle)
deriving DecidableEq

/-- What `pollServer` returns: a null pointer, the socket it was called on, or
a new one. -/
inductive Polled where
  | null
  | this
  | made
deriving DecidableEq

/-- `ret` is what `accept` returns and `files` what the shared files hold, for
the class that asks for it. -/
def Wsocket.pollServer (ret : ℤ) (files : SharedFiles) :
    Wsocket → Polled × Wsocket
  | .impl w =>
      (if (w.pollServer ret).1.isSome then .made else .null, .impl w)
  | .sharedMemory w =>
      let r := w.pollServer files
      (if r.1 then .this else .null, .sharedMemory r.2)

/-- A server that follows the contract of `Wsocket`: its server socket, `none`
for a null pointer, and the socket of each of its connections. `count` is the
number of sockets that `pollServer` has made. -/
structure Host where
  mServerSocket : Option Wsocket
  mClients : List Handle
  count : ℕ
  trace : List SocketEvent

inductive HostStep where
  | poll (ret : ℤ) (files : SharedFiles)
  /-- The connection at position `i` is deleted and erased. -/
  | drop (i : ℕ)
  | exit

namespace Host

/-- `create` has returned this server socket, if any. -/
def start (serverSocket : Option Wsocket) : Host :=
  { mServerSocket := serverSocket
    mClients := []
    count := 0
    trace := if serverSocket.isSome then [.returned .server] else [] }

variable (h : Host)

def wrap (socket : Handle) : Host :=
  { h with
    mClients := h.mClients ++ [socket]
    trace := h.trace ++ [.returned socket] }

/-- The host polls the object it has a pointer to, released or not. -/
def poll (ret : ℤ) (files : SharedFiles) : Host :=
  match h.mServerSocket with
  | none => h
  | some w =>
      let r := w.pollServer ret files
      let h := { h with
        mServerSocket := some r.2
        trace := h.trace ++ [.polled .server] }
      match r.1 with
      | .null => h
      | .this => h.wrap .server
      | .made => { h.wrap (.accepted h.count) with count := h.count + 1 }

/-- The destructor of the connection releases its socket. -/
def drop (i : ℕ) : Host :=
  match h.mClients[i]? with
  | none => h
  | some socket =>
      { h with
        mClients := h.mClients.eraseIdx i
        trace := h.trace ++ [.released socket] }

/-- What the host has to release. -/
def held : List Handle :=
  h.mClients ++ if h.mServerSocket.isSome then [.server] else []

/-- The destructor of the host deletes the connections in turn and then
releases the server socket; nothing is left. -/
def exit : Host :=
  { h with
    mServerSocket := none
    mClients := []
    trace := h.trace ++ h.held.map .released }

def exec : HostStep → Host
  | .poll ret files => h.poll ret files
  | .drop i => h.drop i
  | .exit => h.exit

end Host

/-! ## What the trace shows -/

def SocketEvent.gives : SocketEvent → Option Handle
  | .returned socket => some socket
  | _ => none

def SocketEvent.takes : SocketEvent → Option Handle
  | .released socket => some socket
  | _ => none

/-- The sockets handed out, -/
def returned (trace : List SocketEvent) : List Handle :=
  trace.filterMap SocketEvent.gives

/-- and those released. -/
def released (trace : List SocketEvent) : List Handle :=
  trace.filterMap SocketEvent.takes

/-- `pollServer` is not called on a socket after its release. -/
def Unused (trace : List SocketEvent) : Prop :=
  trace.Pairwise fun e e' =>
    ∀ socket, e = .released socket → e' ≠ .polled socket

/-- No socket is handed out twice, released twice or polled after its release,
and one that has not been released is still held. -/
structure Host.ReleasedOnce (h : Host) : Prop where
  distinct : (returned h.trace).Nodup
  once : (released h.trace).Nodup
  unused : Unused h.trace
  all : ∀ socket ∈ returned h.trace,
    socket ∈ released h.trace ∨ socket ∈ h.held

/-- A shared-memory server that has not returned itself yet is not polled
while the sequence number shows that a client has attached. -/
def Host.ReturnsAnother (h : Host) : HostStep → Prop
  | .poll _ files => ∀ w, h.mServerSocket = some (.sharedMemory w) →
      w.mIsServer = true → w.mFirst = true →
      w.mReader.getSequenceNumber (w.readFile files) = w.mSequenceNumber
  | _ => True

@[simp] theorem returned_append (tr tr' : List SocketEvent) :
    returned (tr ++ tr') = returned tr ++ returned tr' :=
  List.filterMap_append

theorem mem_released {trace : List SocketEvent} {socket : Handle} :
    socket ∈ released trace ↔ .released socket ∈ trace := by
  unfold released
  rw [List.mem_filterMap]
  constructor
  · rintro ⟨e, he, htakes⟩
    cases e with
    | released a =>
        cases htakes
        exact he
    | _ => cases htakes
  · exact fun hmem => ⟨_, hmem, rfl⟩

theorem Unused.append {trace events : List SocketEvent} (h : Unused trace)
    (hevents : Unused events)
    (hpolled : ∀ socket, .polled socket ∈ events → socket ∉ released trace) :
    Unused (trace ++ events) := by
  refine List.pairwise_append.mpr ⟨h, hevents, ?_⟩
  rintro e he e' he' socket rfl rfl
  exact hpolled socket he' (mem_released.mpr he)

/-- The trace as uses of what is the caller's. -/
def SocketEvent.use : SocketEvent → Option (Use Handle)
  | .polled _ => none
  | .returned socket => some (.acquire socket)
  | .released socket => some (.release socket)

def uses (trace : List SocketEvent) : List (Use Handle) :=
  trace.filterMap SocketEvent.use

@[simp] theorem uses_append (tr tr' : List SocketEvent) :
    uses (tr ++ tr') = uses tr ++ uses tr' :=
  List.filterMap_append

theorem count_uses (trace : List SocketEvent) (socket : Handle) :
    (uses trace).count (.acquire socket) = (returned trace).count socket ∧
    (uses trace).count (.release socket) =
      (released trace).count socket := by
  unfold uses returned released
  rw [List.count_filterMap, List.count_filterMap, List.count_filterMap,
    List.count_filterMap]
  constructor
  · refine List.countP_congr fun e _ => ?_
    cases e <;> simp [SocketEvent.use, SocketEvent.gives]
  · refine List.countP_congr fun e _ => ?_
    cases e <;> simp [SocketEvent.use, SocketEvent.takes]

theorem released_map (sockets : List Handle) :
    uses (sockets.map .released) = sockets.map .release ∧
    returned (sockets.map .released) = [] := by
  constructor
  · simp [uses, List.filterMap_map, Function.comp_def, SocketEvent.use]
  · simp [returned, List.filterMap_map, Function.comp_def, SocketEvent.gives]

/-! ## Steps -/

theorem Wsocket.pollServer_this_iff (w : Wsocket) (ret : ℤ)
    (files : SharedFiles) :
    (w.pollServer ret files).1 = .this ↔
      ∃ s, w = .sharedMemory s ∧ s.mIsServer = true ∧ s.mFirst = true ∧
        s.mReader.getSequenceNumber (s.readFile files) ≠
          s.mSequenceNumber := by
  cases w with
  | impl w =>
      refine iff_of_false ?_ (by simp)
      show ¬ (if (w.pollServer ret).1.isSome then Polled.made else .null) = .this
      split <;> decide
  | sharedMemory s =>
      show (if (s.pollServer files).1 then Polled.this else .null) = .this ↔ _
      unfold WsocketSharedMemory.pollServer
      dsimp only
      split
      · rename_i h
        exact iff_of_true rfl ⟨s, rfl, h.1, h.2.2, h.2.1⟩
      · rename_i h
        refine iff_of_false (fun hthis => by cases hthis) ?_
        rintro ⟨s, hs, hserver, hfirst, hne⟩
        cases hs
        exact h ⟨hserver, hne, hfirst⟩

namespace Host

variable {h : Host}

theorem returnsAnother_poll_iff (ret : ℤ) (files : SharedFiles) :
    h.ReturnsAnother (.poll ret files) ↔
      ∀ w, h.mServerSocket = some w → (w.pollServer ret files).1 ≠ .this := by
  constructor
  · intro hanother w hw hthis
    obtain ⟨s, rfl, hserver, hfirst, hne⟩ :=
      (w.pollServer_this_iff ret files).mp hthis
    exact hne (hanother s hw hserver hfirst)
  · intro hall s hs hserver hfirst
    by_contra hne
    exact hall _ hs ((Wsocket.pollServer_this_iff _ ret files).mpr
      ⟨s, rfl, hserver, hfirst, hne⟩)

/-- A listening stream socket with a connection waiting makes a new object. -/
theorem poll_made (h : Host) {w : WsocketImpl}
    (hs : h.mServerSocket = some (.impl w)) (hserver : w.mIsServer = true)
    (hsocket : w.mSocket ≠ INVALID_SOCKET) {ret : ℤ}
    (hret : ret ≠ INVALID_SOCKET) (files : SharedFiles) :
    (h.poll ret files).mServerSocket = some (.impl w) ∧
    (h.poll ret files).mClients = h.mClients ++ [.accepted h.count] ∧
    (h.poll ret files).count = h.count + 1 := by
  have hmade : (Wsocket.impl w).pollServer ret files = (.made, .impl w) := by
    simp [Wsocket.pollServer, WsocketImpl.pollServer, hserver, hsocket, hret]
  simp only [poll, hs, hmade, wrap]
  exact ⟨trivial, trivial, trivial⟩

theorem drop_spec (h : Host) (i : ℕ) :
    (h.drop i).mServerSocket = h.mServerSocket ∧
    (h.drop i).mClients = h.mClients.eraseIdx i ∧
    (h.drop i).count = h.count := by
  unfold drop
  cases hi : h.mClients[i]? with
  | none =>
      have hlen := List.getElem?_eq_none_iff.mp hi
      exact ⟨rfl, (List.eraseIdx_of_length_le hlen).symm, rfl⟩
  | some socket => exact ⟨rfl, rfl, rfl⟩

/-- **What a step does.** Some sockets that the host held are released; or the
server socket is polled, and returns nothing, a new socket, or itself. -/
theorem exec_cases (h : Host) (step : HostStep) :
    (∃ sockets : List Handle, h.ReturnsAnother step ∧
      (h.exec step).trace = h.trace ++ sockets.map .released ∧
      (sockets ++ (h.exec step).held).Perm h.held ∧
      (h.exec step).count = h.count) ∨
    (.server ∈ h.held ∧ h.ReturnsAnother step ∧
      (h.exec step).trace = h.trace ++ [.polled .server] ∧
      (h.exec step).held = h.held ∧ (h.exec step).count = h.count) ∨
    (.server ∈ h.held ∧ h.ReturnsAnother step ∧
      (h.exec step).trace =
        h.trace ++ [.polled .server, .returned (.accepted h.count)] ∧
      (h.exec step).held.Perm (.accepted h.count :: h.held) ∧
      (h.exec step).count = h.count + 1) ∨
    (.server ∈ h.held ∧ ¬ h.ReturnsAnother step ∧
      (h.exec step).trace =
        h.trace ++ [.polled .server, .returned .server] ∧
      (h.exec step).held.Perm (.server :: h.held) ∧
      (h.exec step).count = h.count) := by
  cases step with
  | exit =>
      refine Or.inl ⟨h.held, trivial, rfl, ?_, rfl⟩
      show (h.held ++ []).Perm h.held
      rw [List.append_nil]
  | drop i =>
      cases hi : h.mClients[i]? with
      | none =>
          have hsame : h.exec (.drop i) = h := by
            simp only [exec, drop, hi]
          refine Or.inl ⟨[], trivial, ?_, ?_, ?_⟩
          · rw [hsame, List.map_nil, List.append_nil]
          · rw [hsame, List.nil_append]
          · rw [hsame]
      | some socket =>
          have hdrop : h.exec (.drop i) = { h with
              mClients := h.mClients.eraseIdx i
              trace := h.trace ++ [.released socket] } := by
            simp only [exec, drop, hi]
          obtain ⟨hlt, rfl⟩ := List.getElem?_eq_some_iff.mp hi
          rw [hdrop]
          refine Or.inl ⟨[_], trivial, rfl, ?_, rfl⟩
          exact (List.getElem_cons_eraseIdx_perm hlt).append_right _
  | poll ret files =>
      rw [returnsAnother_poll_iff]
      cases hserver : h.mServerSocket with
      | none =>
          have hsame : h.exec (.poll ret files) = h := by
            simp only [exec, poll, hserver]
          refine Or.inl ⟨[], by simp, ?_, ?_, ?_⟩
          · rw [hsame, List.map_nil, List.append_nil]
          · rw [hsame, List.nil_append]
          · rw [hsame]
      | some w =>
          have hmem : Handle.server ∈ h.held := by simp [held, hserver]
          refine Or.inr ?_
          cases hpolled : (w.pollServer ret files).1 with
          | null =>
              refine Or.inl ⟨hmem, by simp [hpolled], ?_, ?_, ?_⟩
              · simp only [exec, poll, hserver, hpolled]
              · simp [exec, poll, hserver, hpolled, held]
              · simp only [exec, poll, hserver, hpolled]
          | made =>
              refine Or.inr (Or.inl ⟨hmem, by simp [hpolled], ?_, ?_, ?_⟩)
              · simp [exec, poll, hserver, hpolled, wrap]
              · simp [exec, poll, hserver, hpolled, wrap, held]
              · simp only [exec, poll, hserver, hpolled, wrap]
          | this =>
              refine Or.inr (Or.inr ⟨hmem, by simp [hpolled], ?_, ?_, ?_⟩)
              · simp [exec, poll, hserver, hpolled, wrap]
              · simp [exec, poll, hserver, hpolled, wrap, held]
              · simp only [exec, poll, hserver, hpolled, wrap]

/-! ## The balance -/

/-- What has been handed out and not released is held, whether or not a socket
has been handed out twice. -/
structure Balanced (h : Host) : Prop where
  settled : ledger 0 (uses h.trace) = some ↑h.held
  numbered : ∀ k, .accepted k ∈ returned h.trace → k < h.count

theorem Balanced.count_eq (hb : h.Balanced) (socket : Handle) :
    (returned h.trace).count socket =
      (released h.trace).count socket + h.held.count socket := by
  obtain ⟨hgiven, htaken⟩ := count_uses h.trace socket
  have hcount := ledger_count hb.settled socket
  rw [hgiven, htaken, Multiset.count_zero, Multiset.coe_count] at hcount
  exact hcount

theorem start_balanced (serverSocket : Option Wsocket) :
    (start serverSocket).Balanced := by
  cases serverSocket with
  | none =>
      exact ⟨rfl, fun k hk => absurd hk (by simp [start, returned])⟩
  | some w =>
      exact ⟨rfl, fun k hk => absurd hk (by
        simp [start, returned, SocketEvent.gives])⟩

/-- A socket that is returned and kept is held once more. -/
theorem Balanced.handed (hb : h.Balanced) {h' : Host} {socket : Handle}
    (htrace : h'.trace = h.trace ++ [.polled .server, .returned socket])
    (hperm : h'.held.Perm (socket :: h.held)) :
    ledger 0 (uses h'.trace) = some ↑h'.held := by
  rw [htrace, uses_append, ledger_trans hb.settled,
    Multiset.coe_eq_coe.mpr hperm]
  rfl

theorem Balanced.exec (hb : h.Balanced) (step : HostStep) :
    (h.exec step).Balanced := by
  rcases h.exec_cases step with
    ⟨sockets, -, htrace, hperm, hcount⟩ | ⟨-, -, htrace, hheld, hcount⟩ |
    ⟨-, -, htrace, hperm, hcount⟩ | ⟨-, -, htrace, hperm, hcount⟩
  · obtain ⟨huses, hreturned⟩ := released_map sockets
    refine ⟨?_, ?_⟩
    · rw [htrace, uses_append, ledger_trans hb.settled, huses,
        ← Multiset.coe_eq_coe.mpr hperm, ← Multiset.coe_add,
        ledger_release_all]
    · rw [htrace, returned_append, hreturned, List.append_nil, hcount]
      exact hb.numbered
  · refine ⟨?_, ?_⟩
    · rw [htrace, uses_append, ledger_trans hb.settled, hheld]
      rfl
    · rw [htrace, returned_append, hcount]
      intro k hk
      exact hb.numbered k (by simpa [returned, SocketEvent.gives] using hk)
  · refine ⟨hb.handed htrace hperm, ?_⟩
    rw [htrace, returned_append, hcount]
    intro k hk
    rcases List.mem_append.mp hk with hk | hk
    · exact Nat.lt_succ_of_lt (hb.numbered k hk)
    · have hlast : h.count = k := by
        simpa [returned, SocketEvent.gives] using hk
      omega
  · refine ⟨hb.handed htrace hperm, ?_⟩
    rw [htrace, returned_append, hcount]
    intro k hk
    rcases List.mem_append.mp hk with hk | hk
    · exact hb.numbered k hk
    · exact absurd hk (by simp [returned, SocketEvent.gives])

/-- **When a step hands a socket out again.** -/
theorem distinct_exec_iff (hb : h.Balanced)
    (hdistinct : (returned h.trace).Nodup) (step : HostStep) :
    (returned (h.exec step).trace).Nodup ↔ h.ReturnsAnother step := by
  rcases h.exec_cases step with
    ⟨sockets, hanother, htrace, -, -⟩ | ⟨-, hanother, htrace, -, -⟩ |
    ⟨-, hanother, htrace, -, -⟩ | ⟨hheld, hthis, htrace, -, -⟩
  · rw [htrace, returned_append, (released_map sockets).2, List.append_nil]
    exact iff_of_true hdistinct hanother
  · have hnone : returned [.polled .server] = [] := rfl
    rw [htrace, returned_append, hnone, List.append_nil]
    exact iff_of_true hdistinct hanother
  · have hone : returned [.polled .server, .returned (.accepted h.count)] =
        [.accepted h.count] := rfl
    rw [htrace, returned_append, hone]
    refine iff_of_true ?_ hanother
    rw [List.nodup_append_comm, List.singleton_append, List.nodup_cons]
    exact ⟨fun hmem => Nat.lt_irrefl _ (hb.numbered _ hmem), hdistinct⟩
  · have hone : returned [.polled .server, .returned .server] = [.server] := rfl
    rw [htrace, returned_append, hone]
    refine iff_of_false ?_ hthis
    rw [List.nodup_append_comm, List.singleton_append, List.nodup_cons]
    rintro ⟨hnot, -⟩
    -- the server socket is held, so it has been handed out before
    have hcount := hb.count_eq .server
    have hpos := List.count_pos_iff.mpr hheld
    have hzero := List.count_eq_zero.mpr hnot
    omega

/-- What is held has not been released. -/
theorem Balanced.not_released (hb : h.Balanced)
    (hdistinct : (returned h.trace).Nodup) {socket : Handle}
    (hheld : socket ∈ h.held) : socket ∉ released h.trace := by
  intro hmem
  have hcount := hb.count_eq socket
  have hpos := List.count_pos_iff.mpr hheld
  have hpos' := List.count_pos_iff.mpr hmem
  have hle := List.nodup_iff_count_le_one.mp hdistinct socket
  omega

theorem unused_exec (hb : h.Balanced) (hdistinct : (returned h.trace).Nodup)
    (hunused : Unused h.trace) (step : HostStep) :
    Unused (h.exec step).trace := by
  rcases h.exec_cases step with
    ⟨sockets, -, htrace, -⟩ | ⟨hheld, -, htrace, -⟩ |
    ⟨hheld, -, htrace, -⟩ | ⟨hheld, -, htrace, -⟩
  · rw [htrace]
    refine hunused.append ?_ ?_
    · exact List.pairwise_map.mpr (List.pairwise_of_forall
        fun _ _ _ _ => SocketEvent.noConfusion)
    · intro socket hpolled
      simp at hpolled
  all_goals
    have hnot := hb.not_released hdistinct hheld
    rw [htrace]
    refine hunused.append (by simp [Unused]) ?_
    intro socket hpolled
    simp at hpolled
    rw [hpolled]
    exact hnot

theorem Balanced.releasedOnce (hb : h.Balanced)
    (hdistinct : (returned h.trace).Nodup) (hunused : Unused h.trace) :
    h.ReleasedOnce := by
  have hle := List.nodup_iff_count_le_one.mp hdistinct
  refine ⟨hdistinct, ?_, hunused, ?_⟩
  · rw [List.nodup_iff_count_le_one]
    intro socket
    have hcount := hb.count_eq socket
    have hone := hle socket
    omega
  · intro socket hmem
    rw [← List.count_pos_iff, ← List.count_pos_iff]
    have hcount := hb.count_eq socket
    have hpos := List.count_pos_iff.mpr hmem
    omega

/-! ## Runs -/

theorem exec_trace (h : Host) (step : HostStep) :
    h.trace <+: (h.exec step).trace := by
  rcases h.exec_cases step with
    ⟨_, -, htrace, -⟩ | ⟨-, -, htrace, -⟩ | ⟨-, -, htrace, -⟩ |
    ⟨-, -, htrace, -⟩
  all_goals
    rw [htrace]
    exact List.prefix_append ..

theorem foldl_trace (steps : List HostStep) (h : Host) :
    h.trace <+: (steps.foldl exec h).trace := by
  induction steps generalizing h with
  | nil => exact List.prefix_rfl
  | cons step steps ih => exact (h.exec_trace step).trans (ih _)

/-- A run at whose end no socket has been handed out twice. -/
theorem along_of_distinct (steps : List HostStep) :
    ∀ {h : Host}, h.Balanced →
    (returned (steps.foldl exec h).trace).Nodup →
    Along exec ReturnsAnother h steps := by
  induction steps with
  | nil => exact fun _ _ => trivial
  | cons step steps ih =>
      intro h hb hdistinct
      have hlater : (returned (h.exec step).trace).Nodup :=
        hdistinct.sublist ((foldl_trace steps _).sublist.filterMap _)
      have hbefore : (returned h.trace).Nodup :=
        hlater.sublist ((h.exec_trace step).sublist.filterMap _)
      exact ⟨(distinct_exec_iff hb hbefore step).mp hlater,
        ih (hb.exec step) hdistinct⟩

/-- A run in which every poll returns another socket than the server's. -/
theorem releasedOnce_of_along (serverSocket : Option Wsocket)
    {steps : List HostStep}
    (h : Along exec ReturnsAnother (.start serverSocket) steps) :
    (steps.foldl exec (.start serverSocket)).ReleasedOnce := by
  have hstart : (returned (start serverSocket).trace).Nodup ∧
      Unused (start serverSocket).trace := by
    cases serverSocket with
    | none => exact ⟨List.nodup_nil, List.Pairwise.nil⟩
    | some w => exact ⟨List.nodup_singleton _, List.pairwise_singleton ..⟩
  obtain ⟨hb, hdistinct, hunused⟩ := Along.holds
    (I := fun h => h.Balanced ∧ (returned h.trace).Nodup ∧ Unused h.trace)
    (fun h step ⟨hb, hdistinct, hunused⟩ hanother =>
      ⟨hb.exec step, (distinct_exec_iff hb hdistinct step).mpr hanother,
        unused_exec hb hdistinct hunused step⟩)
    ⟨start_balanced serverSocket, hstart⟩ h
  exact hb.releasedOnce hdistinct hunused

theorem exec_stream (hstream : ∀ w, h.mServerSocket ≠ some (.sharedMemory w))
    (step : HostStep) :
    ∀ w, (h.exec step).mServerSocket ≠ some (.sharedMemory w) := by
  cases step with
  | exit => exact fun w hsome => by cases hsome
  | drop i =>
      intro w
      show (h.drop i).mServerSocket ≠ _
      rw [(h.drop_spec i).1]
      exact hstream w
  | poll ret files =>
      intro w
      show (h.poll ret files).mServerSocket ≠ _
      cases hserver : h.mServerSocket with
      | none => simp [poll, hserver]
      | some s =>
          cases s with
          | sharedMemory s => exact absurd hserver (hstream s)
          | impl s =>
              have hsame : ((Wsocket.impl s).pollServer ret files).2 =
                  .impl s := rfl
              cases hpolled : ((Wsocket.impl s).pollServer ret files).1 <;>
                simp [poll, hserver, hpolled, hsame, wrap]

/-- A stream socket never returns itself. -/
theorem along_of_stream (steps : List HostStep) :
    ∀ {h : Host}, (∀ w, h.mServerSocket ≠ some (.sharedMemory w)) →
    Along exec ReturnsAnother h steps := by
  induction steps with
  | nil => exact fun _ => trivial
  | cons step steps ih =>
      intro h hstream
      have hanother : h.ReturnsAnother step := by
        cases step with
        | poll ret files => exact fun w hw => absurd hw (hstream w)
        | _ => trivial
      exact ⟨hanother, ih (exec_stream hstream step)⟩

end Host

/-- **Main result.** In every run of a host, each socket is released once and
never polled after that exactly when `pollServer` never finds a client at a
shared-memory server that has not returned itself yet. -/
theorem sockets_released_once_iff (serverSocket : Option Wsocket)
    (steps : List HostStep) :
    (steps.foldl Host.exec (.start serverSocket)).ReleasedOnce ↔
      Along Host.exec Host.ReturnsAnother (.start serverSocket) steps :=
  ⟨fun h => Host.along_of_distinct steps (Host.start_balanced serverSocket)
    h.distinct, Host.releasedOnce_of_along serverSocket⟩

/-- A client attaches to a shared-memory server, and is dropped: the server
socket is released with it, polled again, and released once more at exit. -/
theorem shared_server_released_twice :
    let blank : SharedMemory := ⟨⟨0, 0, 0, 0, 0⟩, ⟨16352, fun _ => 0⟩⟩
    let server := createSocketSharedMemory ⟨SHARED_SERVER, by decide⟩
      (some 16384) (some 16384) ⟨blank, blank⟩
    let client := createSocketSharedMemory ⟨SHARED_CLIENT, by decide⟩
      (some 16384) (some 16384) server.2
    ∃ w, server.1 = some w ∧
      let host := [.poll 0 client.2, .drop 0, .poll 0 client.2, .exit].foldl
        Host.exec (.start (some (.sharedMemory w)))
      host.trace = [.returned .server, .polled .server, .returned .server,
        .released .server, .polled .server, .released .server] ∧
      ¬ host.ReleasedOnce := by
  intro blank server client
  have hcreate : ∃ w, server.1 = some w ∧
      ([.poll 0 client.2, .drop 0, .poll 0 client.2, .exit].foldl
        Host.exec (.start (some (.sharedMemory w)))).trace =
        [.returned .server, .polled .server, .returned .server,
          .released .server, .polled .server, .released .server] :=
    ⟨_, rfl, by with_unfolding_all rfl⟩
  obtain ⟨w, hw, htrace⟩ := hcreate
  refine ⟨w, hw, htrace, fun h => ?_⟩
  have hdistinct := h.distinct
  rw [htrace] at hdistinct
  exact absurd hdistinct (by decide)

end Socketchat.Sockets
