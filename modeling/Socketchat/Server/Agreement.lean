import Socketchat.Server.Refinement

/-!
# Broadcast agreement

Two clients of the server have been handed the same texts in the same order
since the later one joined: the room says so. What remains is who leaves. A
client leaves in the reaping loop only, and only without a connection; the
loop ends, and has then lost each of those once and kept the others in order.
-/

namespace Socketchat.Server

open Foundation Chat

/-! ## Reaping -/

/-- What the first element with a property is to the two halves of a list. -/
theorem filter_of_findIdx? {α : Type*} {p : α → Bool} :
    ∀ {l : List α} {i : ℕ}, l.findIdx? p = some i →
      ∃ x, l[i]? = some x ∧ p x = true ∧
        l.filter p = x :: (l.eraseIdx i).filter p ∧
        l.filter (!p ·) = (l.eraseIdx i).filter (!p ·)
  | [], i, h => by simp at h
  | a :: l, i, h => by
      rw [List.findIdx?_cons] at h
      cases ha : p a with
      | true =>
          rw [ha, if_pos rfl] at h
          cases h
          exact ⟨a, rfl, ha, by simp [ha], by simp [ha]⟩
      | false =>
          simp only [ha, Bool.false_eq_true, if_false] at h
          obtain ⟨j, hj, rfl⟩ := Option.map_eq_some_iff.mp h
          obtain ⟨x, hx, hpx, hyes, hno⟩ := filter_of_findIdx? hj
          exact ⟨x, by simpa using hx, hpx, by simp [ha, hyes],
            by simp [ha, hno]⟩

theorem echoFrom_ne_reaping (exit : Bool) (s : SimpleServer) (i : ℕ) :
    ServerRun.echoFrom exit s i ≠ .reaping := by
  unfold ServerRun.echoFrom
  split
  · exact Phase.noConfusion
  · split <;> exact Phase.noConfusion

/-- **A pass of the reaping loop** finds every client connected and ends the
loop, or goes on with one client less. -/
theorem reap_cases (r : ServerRun) :
    ((r.server.mClients.filter fun c => !c.isConnected) = [] ∧
      r.reap.phase ≠ .reaping ∧ r.reap.server = r.server) ∨
    (∃ c, (r.server.mClients.filter fun c => !c.isConnected) =
        c :: r.reap.server.mClients.filter fun c => !c.isConnected) ∧
      r.reap.phase = .reaping ∧
      r.reap.server.mClients.filter (·.isConnected) =
        r.server.mClients.filter (·.isConnected) := by
  have hpass := r.server.reapPass_spec
  cases hfind : r.server.mClients.findIdx? fun c => !c.isConnected with
  | none =>
      simp only [hfind] at hpass
      have hall := List.findIdx?_eq_none_iff.mp hfind
      refine Or.inl ⟨?_, ?_, ?_⟩
      · rw [List.filter_eq_nil_iff]
        intro c hc
        rw [hall c hc]
        exact Bool.false_ne_true
      · show (if r.server.reapPass.1 then Phase.reaping else _) ≠ .reaping
        rw [hpass, if_neg Bool.false_ne_true]
        exact echoFrom_ne_reaping _ _ _
      · show r.server.reapPass.2.1 = r.server
        rw [hpass]
  | some i =>
      simp only [hfind] at hpass
      obtain ⟨hkilled, hclients, -, -⟩ := hpass
      obtain ⟨c, -, -, hlost, hkept⟩ := filter_of_findIdx? hfind
      have hrest : r.reap.server.mClients = r.server.mClients.eraseIdx i :=
        hclients
      refine Or.inr ⟨⟨c, ?_⟩, ?_, ?_⟩
      · rw [hrest]
        exact hlost
      · show (if r.server.reapPass.1 then Phase.reaping else _) = .reaping
        rw [hkilled, if_pos rfl]
      · rw [hrest]
        simpa using hkept.symm

/-- **The reaping loop ends**, one pass after the last client without a
connection has gone. -/
theorem reap_ends : ∀ (n : ℕ) {r : ServerRun}, r.phase = .reaping →
    (r.server.mClients.filter fun c => !c.isConnected).length = n →
    ∃ u, server.Run r (List.replicate (n + 1) .reap) u ∧
      u.phase ≠ .reaping ∧ u.count = r.count ∧
      u.server.mClients = r.server.mClients.filter (·.isConnected) := by
  intro n
  induction n with
  | zero =>
      intro r hphase hnone
      have hstep := ServerRun.next_reap hphase
      rcases reap_cases r with ⟨hall, hend, hsame⟩ | ⟨⟨c, hlost⟩, -, -⟩
      · refine ⟨r.reap, (System.Run.nil r).snoc hstep, hend, rfl, ?_⟩
        rw [hsame, eq_comm, List.filter_eq_self]
        intro c hc
        have hnot := List.filter_eq_nil_iff.mp hall c hc
        simpa using hnot
      · rw [hlost] at hnone
        exact absurd hnone (Nat.succ_ne_zero _)
  | succ n ih =>
      intro r hphase hlen
      have hstep := ServerRun.next_reap hphase
      rcases reap_cases r with ⟨hall, -, -⟩ | ⟨⟨c, hlost⟩, hgoes, hkept⟩
      · rw [hall] at hlen
        exact absurd hlen.symm (Nat.succ_ne_zero n)
      · rw [hlost] at hlen
        obtain ⟨u, hrun, hend, hcount, hclients⟩ :=
          ih hgoes (Nat.succ.inj hlen)
        have hfirst : server.Run r [.reap] r.reap :=
          (System.Run.nil r).snoc hstep
        exact ⟨u, hfirst.trans hrun, hend, hcount, hclients.trans hkept⟩

/-! ## Agreement -/

/-- `u` is where the reaping loop of `r` ends: the clients without a
connection have each been deleted once, the others are there in their
order. -/
structure Reaped (r u : ServerRun) : Prop where
  ended : u.phase ≠ .reaping
  kept : u.server.mClients = r.server.mClients.filter (·.isConnected)
  lost : ∀ c ∈ r.server.mClients,
    u.trace.count (.lost c.number) = if c.isConnected then 0 else 1

theorem mem_members {r : ServerRun} {c : ClientConnection}
    (hc : c ∈ r.server.mClients) : c.number ∈ r.members :=
  List.mem_map.mpr ⟨c, hc, rfl⟩

/-- Clients are told apart by their numbers. -/
theorem eq_of_number {r : ServerRun} (hnodup : r.members.Nodup)
    {c d : ClientConnection} (hc : c ∈ r.server.mClients)
    (hd : d ∈ r.server.mClients) (h : c.number = d.number) : c = d :=
  List.inj_on_of_nodup_map hnodup hc hd h

theorem reaped {r : ServerRun} (hr : server.Reachable r)
    (hphase : r.phase = .reaping) :
    ∃ n u, server.Run r (List.replicate n .reap) u ∧ Reaped r u := by
  obtain ⟨u, hrun, hend, hcount, hclients⟩ := reap_ends _ hphase rfl
  have hproper := (server_proper hr).1
  have hproper' := (server_proper (hrun.reachable hr)).1
  refine ⟨_, u, hrun, hend, hclients, fun c hc => ?_⟩
  have hjoined : c.number < u.count := by
    rw [hcount]
    exact hproper.joined _ (mem_members hc)
  have hmem : c.number ∈ u.members ↔ c.isConnected = true := by
    constructor
    · intro hin
      obtain ⟨d, hd, hnumber⟩ := List.mem_map.mp hin
      rw [hclients] at hd
      obtain ⟨hd, hconnected⟩ := List.mem_filter.mp hd
      rwa [eq_of_number hproper.nodup hd hc hnumber] at hconnected
    · intro hconnected
      refine mem_members ?_
      rw [hclients]
      exact List.mem_filter.mpr ⟨hc, hconnected⟩
  have hlost : u.trace.count (.lost c.number) =
      if c.number < u.count ∧ c.number ∉ u.members then 1 else 0 :=
    hproper'.lost c.number
  rw [hlost]
  cases hconnected : c.isConnected <;> simp [hjoined, hmem, hconnected]

/-- Outside the reaping loop nobody leaves. -/
theorem stays {r r' : ServerRun} {input : Input} (h : r.next input = some r')
    (hother : input ≠ .reap) {m : ℕ} (hm : m ∈ r.members) :
    m ∈ r'.members := by
  have hroom : r'.members = _ := congrArg Room.members (next_room h)
  rw [hroom]
  cases haction : r.action input with
  | none => exact hm
  | some action =>
      cases action with
      | join => exact List.mem_append_left _ hm
      | announce text => exact hm
      | relay source heard => exact hm
      | leave i =>
          rcases ServerRun.action_cases haction with
            ⟨waiting, -, hjoin⟩ | ⟨str, text, -, hannounce⟩ |
            ⟨j, hreap, -⟩ | ⟨j, c, io, -, -, -, hrelay⟩
          · cases hjoin
          · cases hannounce
          · exact absurd hreap hother
          · cases hrelay

/-- A client leaves because it has no connection. -/
theorem leaves_not_connected {r r' : ServerRun} {input : Input}
    (h : r.next input = some r') {c : ClientConnection}
    (hc : c ∈ r.server.mClients) (hgone : c.number ∉ r'.members) :
    c.isConnected = false := by
  by_cases hreap : input = .reap
  · subst hreap
    rcases ServerRun.next_cases h with
      ⟨waiting, hother, -⟩ | ⟨str, hother, -⟩ | ⟨-, -, rfl⟩ |
      ⟨i, io, hother, -⟩
    · cases hother
    · cases hother
    · by_contra hyes
      rw [Bool.not_eq_false] at hyes
      have hkept : c ∈ r.reap.server.mClients := by
        rcases reap_cases r with ⟨-, -, hsame⟩ | ⟨-, -, hsame⟩
        · rw [hsame]
          exact hc
        · have hin := List.mem_filter.mpr ⟨hc, hyes⟩
          rw [← hsame] at hin
          exact List.mem_of_mem_filter hin
      exact hgone (mem_members hkept)
    · cases hother
  · exact absurd (stays h hreap (mem_members hc)) hgone

/-- **Broadcast agreement.** In every state of every run, any two clients have
been handed the same texts in the same order since the later one joined. A
client leaves only without a connection; and once `run` is in the reaping loop
it does nothing else until the loop has ended. -/
theorem broadcast_agreement {r : ServerRun} (hr : server.Reachable r) :
    (∀ c ∈ r.members, ∀ d ∈ r.members,
      handedTo c (since [c, d] r.trace) = handedTo d (since [c, d] r.trace)) ∧
    (∀ input r', r.next input = some r' → ∀ c ∈ r.server.mClients,
      c.number ∉ r'.members → c.isConnected = false) ∧
    (r.phase = .reaping →
      (∀ input, input ≠ .reap → r.next input = none) ∧
      ∃ n u, server.Run r (List.replicate n .reap) u ∧ Reaped r u) := by
  refine ⟨(server_proper hr).2, fun input r' h c hc hgone =>
    leaves_not_connected h hc hgone, fun hphase =>
    ⟨fun input hother => ?_, reaped hr hphase⟩⟩
  by_contra hnext
  obtain ⟨r', h⟩ := Option.ne_none_iff_exists'.mp hnext
  rcases ServerRun.next_cases h with
    ⟨waiting, -, hother', -⟩ | ⟨str, -, hother', -⟩ | ⟨hreap, -, -⟩ |
    ⟨i, io, -, hother', -⟩
  · exact Phase.noConfusion (hphase.symm.trans hother')
  · exact Phase.noConfusion (hphase.symm.trans hother')
  · exact hother hreap
  · exact Phase.noConfusion (hphase.symm.trans hother')

/-- Two clients are told `hi` from the console, then the first one closes its
connection and is about to be reaped. -/
theorem broadcast_agreement_two : ∃ r, server.Reachable r ∧
    r.members = [0, 1] ∧ r.phase = .reaping ∧
    handedTo 0 (since [0, 1] r.trace) = [cstring [104, 105]] ∧
    handedTo 1 (since [0, 1] r.trace) = [cstring [104, 105]] ∧
    ∃ n u, server.Run r (List.replicate n .reap) u ∧ Reaped r u := by
  let inputs : List Input :=
    [.pollServer true, .getInputLine none, .reap, .poll ⟨[], []⟩,
      .pollServer true, .getInputLine (some (cstring [104, 105])), .reap,
      .poll ⟨[.refused .closed], []⟩, .poll ⟨[], []⟩,
      .pollServer false, .getInputLine none]
  have hshape : ((ServerRun.start true).feed inputs).map
      (fun r => (r.members, r.phase, handedTo 0 (since [0, 1] r.trace))) =
      some ([0, 1], .reaping, [cstring [104, 105]]) := by
    decide +kernel
  obtain ⟨r, hfeed, hshape⟩ := Option.map_eq_some_iff.mp hshape
  obtain ⟨hmembers, hphase, hfirst⟩ :
      r.members = [0, 1] ∧ r.phase = .reaping ∧ _ = _ := by
    simpa only [Prod.mk.injEq] using hshape
  have hr := reachable_of_feed hfeed
  obtain ⟨hagree, -, hreap⟩ := broadcast_agreement hr
  have hsame := hagree 0 (by simp [hmembers]) 1 (by simp [hmembers])
  exact ⟨r, hr, hmembers, hphase, hfirst, hsame.symm.trans hfirst,
    (hreap hphase).2⟩

end Socketchat.Server
