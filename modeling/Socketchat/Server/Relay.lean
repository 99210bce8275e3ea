import Socketchat.Server.Refinement

/-!
# What clients say

`getMessage` hands back at most one string for each poll, so of several
messages that become complete in one poll only the last is passed on. As long
as that never happens, every message is passed on to every client, once and in
order.
-/

namespace Socketchat.Server

open Foundation Chat

/-- The messages that are complete once the poll that is next has read what
there is. -/
def ServerRun.completes (r : ServerRun) (io : Answers) : List CString :=
  match r.phase with
  | .echoing i =>
      match r.server.mClients[i]?.bind (·.mClient) with
      | some chat => chat.complete io
      | none => []
  | _ => []

/-- No client's poll completes more than one message. -/
def OneMessage (r : ServerRun) : Input → Prop
  | .poll io => (r.completes io).length ≤ 1
  | _ => True

/-- Every client has been handed exactly the messages received from any other
one since it joined, in order. -/
def NothingLost (r : ServerRun) : Prop :=
  ∀ d ∈ r.members, ∀ c,
    handedFrom c d (since [d] r.trace) = heardFrom c (since [d] r.trace)

/-- Only who is in the room is relayed. -/
theorem action_source {r : ServerRun} {input : Input} {source : ℕ}
    {heard : List CString}
    (h : r.action input = some (.relay source heard)) :
    source ∈ r.members := by
  rcases ServerRun.action_cases h with
    ⟨waiting, -, hjoin⟩ | ⟨str, text, -, hannounce⟩ | ⟨j, -, hleave⟩ |
    ⟨j, c, io, -, -, hc, hrelay⟩
  · cases hjoin
  · cases hannounce
  · cases hleave
  · cases hrelay
    exact List.mem_map.mpr ⟨c, List.mem_of_getElem? hc, rfl⟩

/-- The room hears no more than one message when no more than one is complete
in the stream. -/
theorem single_iff {r : ServerRun} (hsound : r.server.Sound) {input : Input}
    {action : RoomAction} (h : r.action input = some action) :
    action.Single ↔ OneMessage r input := by
  rcases ServerRun.action_cases h with
    ⟨waiting, rfl, rfl⟩ | ⟨str, text, rfl, rfl⟩ | ⟨j, rfl, rfl⟩ |
    ⟨i, c, io, rfl, hphase, hc, rfl⟩
  · exact Iff.rfl
  · exact Iff.rfl
  · exact Iff.rfl
  · have hc' := hsound c (List.mem_of_getElem? hc)
    have hheard : c.heard io = r.completes io := by
      unfold ServerRun.completes
      simp only [hphase, hc, Option.bind_some]
      cases hchat : c.mClient with
      | none => simp only [ClientConnection.heard, hchat]
      | some chat => exact hc'.heard hchat io
    show (c.heard io).length ≤ 1 ↔ (r.completes io).length ≤ 1
    rw [hheard]

/-- A step in which nothing happens to the room completes no message. -/
theorem oneMessage_of_none {r : ServerRun} {input : Input}
    (h : r.action input = none) : OneMessage r input := by
  cases input with
  | poll io =>
      have hnothing : r.completes io = [] := by
        unfold ServerRun.completes
        cases hphase : r.phase with
        | echoing i =>
            simp only [ServerRun.action, hphase, Option.map_eq_none_iff] at h
            simp only [h, Option.bind_none]
        | _ => rfl
      show (r.completes io).length ≤ 1
      rw [hnothing]
      exact Nat.zero_le 1
  | _ => trivial

/-- **When a step loses a message.** -/
theorem nothingLost_step_iff {r r' : ServerRun} (hr : server.Reachable r)
    {input : Input} (h : r.next input = some r') (hlost : NothingLost r) :
    NothingLost r' ↔ OneMessage r input := by
  have hproper := (server_proper hr).1
  have hsound := server_sound.holds hr
  show r'.room.Relayed ↔ _
  rw [next_room h]
  cases haction : r.action input with
  | none => exact iff_of_true hlost (oneMessage_of_none haction)
  | some action =>
      rw [← single_iff hsound haction]
      have hrelayed : r.room.Relayed := hlost
      refine hrelayed.perform_iff hproper ?_
      rintro source heard rfl
      exact action_source haction

/-- **The server loses no message** in a run in which no poll of a client
completes more than one. -/
theorem server_loses_nothing {r : ServerRun}
    (hr : (server.restrict OneMessage).Reachable r) : NothingLost r := by
  have hinv : (server.restrict OneMessage).Invariant NothingLost := by
    refine ⟨?_, ?_⟩
    · rintro r ⟨serverSocket, rfl⟩ d hd
      exact absurd hd List.not_mem_nil
    · rintro r input r' hr hlost ⟨hone, h⟩
      exact (nothingLost_step_iff hr.of_restrict h hlost).mpr hone
  exact hinv.holds hr

/-- One client says `a`, with the delimiter split between two polls. -/
theorem server_loses_nothing_split : ∃ r,
    (server.restrict OneMessage).Reachable r ∧
    heardFrom 0 r.trace = [cstring [97]] ∧ NothingLost r := by
  let r₀ : ServerRun := .start true
  let r₁ := ((r₀.accept true).readLine none).reap
  let r₂ := r₁.echo 0 ⟨[.bytes 97 [13]], []⟩
  let r₃ := ((r₂.accept false).readLine none).reap
  let r₄ := r₃.echo 0 ⟨[.bytes 10 []], []⟩
  have hphase₁ : r₁.phase = .echoing 0 := by decide +kernel
  have hphase₂ : r₂.phase = .accepting := by decide +kernel
  have hphase₃ : r₃.phase = .echoing 0 := by decide +kernel
  have hone₁ : OneMessage r₁ (.poll ⟨[.bytes 97 [13]], []⟩) := by
    show List.length _ ≤ 1
    decide +kernel
  have hone₃ : OneMessage r₃ (.poll ⟨[.bytes 10 []], []⟩) := by
    show List.length _ ≤ 1
    decide +kernel
  have h₀ : (server.restrict OneMessage).Reachable r₀ := .of_init ⟨true, rfl⟩
  have h₁ : (server.restrict OneMessage).Reachable r₁ :=
    restrict_round h₀ rfl trivial trivial trivial
  have h₂ : (server.restrict OneMessage).Reachable r₂ :=
    h₁.step (k := .poll _) ⟨hone₁, ServerRun.next_poll hphase₁ _⟩
  have h₃ : (server.restrict OneMessage).Reachable r₃ :=
    restrict_round h₂ hphase₂ trivial trivial trivial
  have h₄ : (server.restrict OneMessage).Reachable r₄ :=
    h₃.step (k := .poll _) ⟨hone₃, ServerRun.next_poll hphase₃ _⟩
  have hheard : heardFrom 0 r₄.trace = [cstring [97]] := by decide +kernel
  exact ⟨r₄, h₄, hheard, server_loses_nothing h₄⟩

/-- `a CR LF b CR LF` arrives in one poll: the server hears two messages and
hands out the second one. -/
theorem server_loses_message : ∃ r, server.Reachable r ∧ ¬ NothingLost r := by
  let inputs : List Input :=
    [.pollServer true, .getInputLine none, .reap,
      .poll ⟨[.bytes 97 [13, 10, 98, 13, 10]], []⟩]
  have hshape : ((ServerRun.start true).feed inputs).map
      (fun r => (r.members, handedFrom 0 0 (since [0] r.trace),
        heardFrom 0 (since [0] r.trace))) =
      some ([0], [cstring [98]], [cstring [97], cstring [98]]) := by
    decide +kernel
  obtain ⟨r, hfeed, hshape⟩ := Option.map_eq_some_iff.mp hshape
  obtain ⟨hmembers, hhanded, hheard⟩ :
      r.members = [0] ∧ _ = _ ∧ _ = _ := by
    simpa only [Prod.mk.injEq] using hshape
  refine ⟨r, reachable_of_feed hfeed, fun hlost => ?_⟩
  have hsame := hlost 0 (by simp [hmembers]) 0
  rw [hhanded, hheard] at hsame
  exact absurd hsame (by decide)

end Socketchat.Server
