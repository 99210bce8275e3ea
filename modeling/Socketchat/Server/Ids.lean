import Socketchat.Server.Refinement

/-!
# Client ids

An accepted connection gets the number of clients, plus one, as its id. Ids are
never changed and leave with their client, so they stay distinct until a
connection is accepted while the client that holds the next id is still there,
which takes a client before it that has gone.
-/

namespace Socketchat.Server

open Foundation Chat

/-- The ids of the clients, in the order of `mClients`. -/
def SimpleServer.ids (s : SimpleServer) : List ℕ := s.mClients.map (·.mId)

/-- `uint32_t(mClients.size()) + 1`. -/
def SimpleServer.nextId (s : SimpleServer) : ℕ :=
  add32 (toU32 s.mClients.length) 1

namespace ServerRun

def ids (r : ServerRun) : List ℕ := r.server.ids

/-- `pollServer` returns a connection to this input. -/
def Accepts (r : ServerRun) : Input → Prop
  | .pollServer waiting => r.server.mServerSocket = true ∧ waiting = true
  | _ => False

instance (r : ServerRun) : ∀ input : Input, Decidable (r.Accepts input)
  | .pollServer _ => inferInstanceAs (Decidable (_ ∧ _))
  | .getInputLine _ => inferInstanceAs (Decidable False)
  | .reap => inferInstanceAs (Decidable False)
  | .poll _ => inferInstanceAs (Decidable False)

/-- No client holds the id that a connection accepted now gets. -/
def FreshId (r : ServerRun) (input : Input) : Prop :=
  r.Accepts input → r.server.nextId ∉ r.ids

instance (r : ServerRun) (input : Input) : Decidable (r.FreshId input) :=
  inferInstanceAs (Decidable (_ → _))

end ServerRun

/-! ## The ids after a step -/

namespace ClientConnection

theorem getMessage_mId (c : ClientConnection) (io : Answers) :
    (c.getMessage io).2.mId = c.mId := by
  rcases c with ⟨number, have_, message, client, id⟩
  cases client with
  | none => rfl
  | some chat =>
      simp only [getMessage, foldl_receiveMessage]
      cases (messages (chat.poll (some fun _ => []) 1 io).2).getLast? with
      | none => rfl
      | some message => rfl

end ClientConnection

namespace SimpleServer

variable (s : SimpleServer)

theorem broadcast_ids (source : Option ℕ) (str : CString) :
    (s.broadcast source str).1.ids = s.ids := by
  show (s.mClients.map (·.sendText str)).map (·.mId) = _
  rw [List.map_map]
  rfl

theorem acceptClient_ids (clientSocket : Option ℕ) :
    (s.acceptClient clientSocket).1.ids =
      if s.mServerSocket ∧ clientSocket.isSome then s.ids ++ [s.nextId]
      else s.ids := by
  cases hsocket : s.mServerSocket with
  | false => simp [acceptClient, hsocket]
  | true =>
      cases clientSocket with
      | none => simp [acceptClient, hsocket]
      | some client =>
          simp [acceptClient, hsocket, ids, nextId,
            ClientConnection.construct]

theorem readLine_ids (str : Option CString) :
    (s.readLine str).2.1.ids = s.ids := by
  unfold readLine
  split
  · rfl
  · split
    · rfl
    · exact s.broadcast_ids none _

/-- Reaping removes ids and changes none. -/
theorem reapPass_ids : s.reapPass.2.1.ids.Sublist s.ids := by
  unfold reapPass
  split
  · exact .refl _
  · exact (List.eraseIdx_sublist ..).map _

theorem echoPass_ids (i : ℕ) (io : Answers) :
    (s.echoPass i io).1.ids = s.ids := by
  unfold echoPass
  cases hc : s.mClients[i]? with
  | none => rfl
  | some c =>
      have hset : ids
          { s with mClients := s.mClients.set i (c.getMessage io).2 } = s.ids :=
        map_set_of_eq hc (c.getMessage_mId io)
      dsimp only
      split
      · exact hset
      · rw [broadcast_ids, hset]

end SimpleServer

/-- **The ids after a step**: one more if a connection is accepted, and no new
ones otherwise. -/
theorem next_ids {r r' : ServerRun} {input : Input}
    (h : r.next input = some r') :
    (r.Accepts input ∧ r'.ids = r.ids ++ [r.server.nextId]) ∨
    (¬ r.Accepts input ∧ r'.ids.Sublist r.ids) := by
  rcases ServerRun.next_cases h with
    ⟨waiting, rfl, -, rfl⟩ | ⟨str, rfl, -, rfl⟩ | ⟨rfl, -, rfl⟩ |
    ⟨i, io, rfl, -, rfl⟩
  · have hids := r.server.acceptClient_ids
      (if waiting then some r.count else none)
    by_cases haccepts : r.server.mServerSocket = true ∧ waiting = true
    · refine Or.inl ⟨haccepts, hids.trans ?_⟩
      simp [haccepts.1, haccepts.2, ServerRun.ids]
    · refine Or.inr ⟨haccepts, ?_⟩
      have hsame : (r.accept waiting).ids = r.ids := by
        refine hids.trans ?_
        rw [if_neg]
        · rfl
        · cases waiting with
          | false => simp
          | true => simpa using haccepts
      rw [hsame]
  · have hsame : (r.readLine str).ids = r.ids := r.server.readLine_ids str
    exact Or.inr ⟨id, hsame ▸ .refl _⟩
  · -- reaping is the one step that makes room below the largest id
    exact Or.inr ⟨id, r.server.reapPass_ids⟩
  · have hsame : (r.echo i io).ids = r.ids := r.server.echoPass_ids i io
    exact Or.inr ⟨id, hsame ▸ .refl _⟩

/-- **When a step gives an id away twice.** -/
theorem nodup_ids_step_iff {r r' : ServerRun} {input : Input}
    (h : r.next input = some r') (hids : r.ids.Nodup) :
    r'.ids.Nodup ↔ r.FreshId input := by
  rcases next_ids h with ⟨haccepts, hnew⟩ | ⟨hnot, hsub⟩
  · rw [hnew, List.nodup_append_comm, List.singleton_append, List.nodup_cons]
    exact ⟨fun hnodup _ => hnodup.1, fun hfresh => ⟨hfresh haccepts, hids⟩⟩
  · exact iff_of_true (hids.sublist hsub) fun haccepts => absurd haccepts hnot

/-- **Client ids are distinct** in every run in which each connection is accepted
while its id is free; and the next step keeps them distinct only if it is. -/
theorem client_ids_distinct {r : ServerRun}
    (hr : (server.restrict ServerRun.FreshId).Reachable r) :
    r.ids.Nodup ∧
    ∀ input r', server.step r input r' → (r'.ids.Nodup ↔ r.FreshId input) := by
  have hinv : (server.restrict ServerRun.FreshId).Invariant
      fun r => r.ids.Nodup := by
    refine ⟨?_, ?_⟩
    · rintro r ⟨serverSocket, rfl⟩
      exact List.nodup_nil
    · rintro r input r' - hids ⟨hfresh, h⟩
      exact (nodup_ids_step_iff h hids).mpr hfresh
  have hids := hinv.holds hr
  exact ⟨hids, fun input r' h => nodup_ids_step_iff h hids⟩

/-- Two clients; the second one goes, and a third one gets its id. -/
theorem client_ids_distinct_again : ∃ r,
    (server.restrict ServerRun.FreshId).Reachable r ∧
    r.ids = [1, 2] ∧ r.members = [0, 2] ∧ r.ids.Nodup := by
  let r₀ : ServerRun := .start true
  let r₁ := ((r₀.accept true).readLine none).reap
  let r₂ := r₁.echo 0 ⟨[], []⟩
  let r₃ := ((r₂.accept true).readLine none).reap
  let r₄ := r₃.echo 0 ⟨[], []⟩
  let r₅ := r₄.echo 1 ⟨[.refused .closed], []⟩
  let r₆ := ((r₅.accept false).readLine none).reap
  let r₇ := r₆.reap
  let r₈ := r₇.echo 0 ⟨[], []⟩
  let r₉ := r₈.accept true
  have h₀ : (server.restrict ServerRun.FreshId).Reachable r₀ :=
    .of_init ⟨true, rfl⟩
  have h₁ : (server.restrict ServerRun.FreshId).Reachable r₁ :=
    restrict_round h₀ rfl (by decide +kernel) False.elim False.elim
  have h₂ : (server.restrict ServerRun.FreshId).Reachable r₂ :=
    h₁.step (k := .poll _)
      ⟨False.elim, ServerRun.next_poll (by decide +kernel) _⟩
  have h₃ : (server.restrict ServerRun.FreshId).Reachable r₃ :=
    restrict_round h₂ (by decide +kernel) (by decide +kernel) False.elim
      False.elim
  have h₄ : (server.restrict ServerRun.FreshId).Reachable r₄ :=
    h₃.step (k := .poll _)
      ⟨False.elim, ServerRun.next_poll (by decide +kernel) _⟩
  have h₅ : (server.restrict ServerRun.FreshId).Reachable r₅ :=
    h₄.step (k := .poll _)
      ⟨False.elim, ServerRun.next_poll (by decide +kernel) _⟩
  have h₆ : (server.restrict ServerRun.FreshId).Reachable r₆ :=
    restrict_round h₅ (by decide +kernel) (by decide +kernel) False.elim
      False.elim
  have h₇ : (server.restrict ServerRun.FreshId).Reachable r₇ :=
    h₆.step (k := .reap) ⟨False.elim, ServerRun.next_reap (by decide +kernel)⟩
  have h₈ : (server.restrict ServerRun.FreshId).Reachable r₈ :=
    h₇.step (k := .poll _)
      ⟨False.elim, ServerRun.next_poll (by decide +kernel) _⟩
  have h₉ : (server.restrict ServerRun.FreshId).Reachable r₉ :=
    h₈.step (k := .pollServer true)
      ⟨by decide +kernel, ServerRun.next_pollServer (by decide +kernel) true⟩
  exact ⟨r₉, h₉, by decide +kernel, by decide +kernel,
    (client_ids_distinct h₉).1⟩

/-- Two clients; the first one goes, and the third one gets the id of the
second. -/
theorem client_ids_clash : ∃ r, server.Reachable r ∧ r.ids = [2, 2] ∧
    r.members = [1, 2] ∧ ¬ r.ids.Nodup := by
  let inputs : List Input :=
    [.pollServer true, .getInputLine none, .reap, .poll ⟨[], []⟩,
      .pollServer true, .getInputLine none, .reap,
      .poll ⟨[.refused .closed], []⟩, .poll ⟨[], []⟩,
      .pollServer false, .getInputLine none, .reap, .reap, .poll ⟨[], []⟩,
      .pollServer true]
  have hshape : ((ServerRun.start true).feed inputs).map
      (fun r => (r.ids, r.members)) = some ([2, 2], [1, 2]) := by
    decide +kernel
  obtain ⟨r, hfeed, hshape⟩ := Option.map_eq_some_iff.mp hshape
  obtain ⟨hids, hmembers⟩ := Prod.mk.inj hshape
  refine ⟨r, reachable_of_feed hfeed, hids, hmembers, ?_⟩
  rw [hids]
  decide

end Socketchat.Server
