import Socketchat.Server.Service

/-!
# Every client has its turn

An iteration of `run` takes one step for each client: the client is erased, or
it is polled. So a client in the list has one poll in every iteration that has
begun since it was accepted, which for this one may be still to come, and an
iteration has no more steps than that. How long a step takes is another matter:
a poll may wait for its socket.
-/

namespace Socketchat.Server

open Foundation Chat

/-! ## Keeping count -/

/-- What an observer of `run` counts. -/
structure Tally where
  /-- the iterations that have begun, and how many of them had when a client
  was accepted; -/
  begun : ℕ
  joined : ℕ → ℕ
  /-- the polls of each client; -/
  polled : ℕ → ℕ
  /-- the steps of this iteration, and the clients there were after its
  `pollServer`. -/
  steps : ℕ
  size : ℕ

def Tally.blank : Tally := ⟨0, fun _ => 0, fun _ => 0, 0, 0⟩

def Tally.record (x : Tally) (r : ServerRun) : Input → Tally
  | .pollServer waiting =>
      { x with
        begun := x.begun + 1
        joined := if r.server.mServerSocket && waiting then
            Function.update x.joined r.count x.begun
          else
            x.joined
        steps := 1
        size := (r.accept waiting).server.mClients.length }
  | input =>
      { x with
        polled := fun k => x.polled k + (r.polls input k).toList.length
        steps := x.steps + 1 }

/-- The server, watched. -/
def tallied : System (ServerRun × Tally) Input :=
  server.recording Tally.record Tally.blank

namespace ServerRun

variable (r : ServerRun)

/-- The client at this position has had its turn in this iteration. -/
def served (p : ℕ) : Bool :=
  match r.phase with
  | .accepting => true
  | .stopped => true
  | .reading => false
  | .reaping => false
  | .echoing i => decide (p < i)

/-- The steps that are left of this iteration. -/
def remaining : ℕ :=
  match r.phase with
  | .accepting => 0
  | .stopped => 0
  | .reading => r.members.length + 2
  | .reaping => r.members.length + 1
  | .echoing i => r.members.length - i

variable {r}

theorem members_accept (waiting : Bool) :
    (r.accept waiting).members =
      if r.server.mServerSocket && waiting then r.members ++ [r.count]
      else r.members := by
  cases hsocket : r.server.mServerSocket <;> cases waiting <;>
    simp [members, accept, SimpleServer.acceptClient, hsocket,
      SimpleServer.numbers, ClientConnection.construct]

theorem members_readLine (str : Option CString) :
    (r.readLine str).members = r.members := by
  show (r.server.readLine str).2.1.numbers = r.server.numbers
  unfold SimpleServer.readLine
  split
  · rfl
  · rename_i line _
    by_cases hstop : isStopWord line = true
    · rw [if_pos hstop]
    · rw [if_neg hstop]
      exact (r.server.broadcast_spec none line).1

theorem members_echo (i : ℕ) (io : Answers) :
    (r.echo i io).members = r.members := by
  show (r.server.echoPass i io).1.numbers = r.server.numbers
  cases hc : r.server.mClients[i]? with
  | none => simp only [SimpleServer.echoPass, hc]
  | some c => exact (r.server.echoPass_spec hc io).1

theorem length_members : r.members.length = r.server.mClients.length :=
  List.length_map ..

/-- **A pass of the reaping loop** erases a client, or nobody and is the
last one. -/
theorem reap_members :
    (r.reap.phase = .reaping ∧ ∃ i, i < r.members.length ∧
      r.reap.members = r.members.eraseIdx i) ∨
    (r.reap.phase = echoFrom r.exit r.server 0 ∧
      r.reap.members = r.members) := by
  have hpass := r.server.reapPass_spec
  cases hfind : r.server.mClients.findIdx? fun c => !c.isConnected with
  | none =>
      simp only [hfind] at hpass
      refine Or.inr ⟨?_, ?_⟩
      · show (if r.server.reapPass.1 then Phase.reaping else
          echoFrom r.exit r.server.reapPass.2.1 0) = _
        rw [hpass, if_neg Bool.false_ne_true]
      · show r.server.reapPass.2.1.numbers = _
        rw [hpass]
        rfl
  | some i =>
      simp only [hfind] at hpass
      obtain ⟨hkilled, -, hnumbers, -⟩ := hpass
      refine Or.inl ⟨?_, i, ?_, hnumbers⟩
      · show (if r.server.reapPass.1 then Phase.reaping else _) = _
        rw [hkilled, if_pos rfl]
      · rw [length_members]
        exact (List.findIdx?_eq_some_iff_getElem.mp hfind).1

/-- Where the echo loop goes on: at a client that is there, or the iteration
is over. -/
theorem echoFrom_cases (exit : Bool) (s : SimpleServer) (i : ℕ) :
    (i < s.mClients.length ∧ echoFrom exit s i = .echoing i) ∨
    (s.mClients.length ≤ i ∧ (echoFrom exit s i = .accepting ∨
      echoFrom exit s i = .stopped)) := by
  unfold echoFrom
  by_cases hi : i < s.mClients.length
  · exact Or.inl ⟨hi, if_pos hi⟩
  · refine Or.inr ⟨Nat.le_of_not_lt hi, ?_⟩
    rw [if_neg hi]
    cases exit with
    | true => exact Or.inr rfl
    | false => exact Or.inl rfl

/-- Polling the client at `i` is the turn of that client. -/
theorem turn_echo {i p : ℕ} (hp : p < r.members.length) (io : Answers) :
    (r.echo i io).served p = decide (p < i + 1) := by
  have hlen : (r.server.echoPass i io).1.mClients.length =
      r.members.length := by
    rw [← members_echo i io, length_members]
    rfl
  have hphase : (r.echo i io).phase =
      echoFrom r.exit (r.server.echoPass i io).1 (i + 1) := rfl
  unfold served
  rcases echoFrom_cases r.exit (r.server.echoPass i io).1 (i + 1) with
    ⟨-, heq⟩ | ⟨hend, heq | heq⟩
  · rw [hphase, heq]
  · rw [hphase, heq]
    exact (decide_eq_true (by omega)).symm
  · rw [hphase, heq]
    exact (decide_eq_true (by omega)).symm

theorem polls_echo {i : ℕ} (hphase : r.phase = .echoing i) (io : Answers)
    (k : ℕ) : (r.polls (.poll io) k).toList.length =
      if r.members[i]? = some k then 1 else 0 := by
  have hmember : r.members[i]? = r.server.mClients[i]?.map (·.number) :=
    List.getElem?_map ..
  rw [hmember]
  simp only [polls, hphase]
  split <;> rfl

end ServerRun

/-! ## What every step keeps -/

/-- The invariant of the tally. -/
structure Turns (r : ServerRun) (x : Tally) : Prop where
  turn : ∀ p k : ℕ, r.members[p]? = some k →
    x.polled k + x.joined k + (if r.served p then 0 else 1) = x.begun
  fresh : ∀ k, r.count ≤ k → x.polled k = 0
  within : ∀ i, r.phase = .echoing i → i < r.members.length
  pace : 0 < x.begun → x.steps + r.remaining = x.size + 3

namespace Turns

variable {r : ServerRun} {x : Tally}

theorem accept (h : Turns r x) (hproper : r.room.Proper)
    (hphase : r.phase = .accepting) (waiting : Bool) :
    Turns (r.accept waiting) (x.record r (.pollServer waiting)) := by
  have hbefore : ∀ p k : ℕ, r.members[p]? = some k →
      x.polled k + x.joined k = x.begun := by
    intro p k hk
    have hturn := h.turn p k hk
    simp only [ServerRun.served, hphase, if_true, Nat.add_zero] at hturn
    exact hturn
  have hold : ∀ p k : ℕ, r.members[p]? = some k → k ≠ r.count := by
    intro p k hk
    have hlt := hproper.joined k (List.mem_of_getElem? hk)
    exact Nat.ne_of_lt hlt
  refine ⟨?_, ?_, fun i hi => Phase.noConfusion hi, fun _ => ?_⟩
  · intro p k hk
    rw [ServerRun.members_accept] at hk
    show x.polled k + (if r.server.mServerSocket && waiting then
      Function.update x.joined r.count x.begun else x.joined) k + 1 =
        x.begun + 1
    by_cases hjoin : (r.server.mServerSocket && waiting) = true
    · rw [if_pos hjoin] at hk ⊢
      rcases Nat.lt_or_ge p r.members.length with hp | hp
      · rw [List.getElem?_append_left hp] at hk
        rw [Function.update_of_ne (hold p k hk), hbefore p k hk]
      · rw [List.getElem?_append_right hp, List.getElem?_singleton] at hk
        obtain ⟨-, heq⟩ := Option.ite_none_right_eq_some.mp hk
        obtain rfl := Option.some.inj heq
        rw [Function.update_self, h.fresh _ (Nat.le_refl _), Nat.zero_add]
    · rw [if_neg hjoin] at hk ⊢
      rw [hbefore p k hk]
  · intro k hk
    refine h.fresh k (Nat.le_trans ?_ hk)
    show r.count ≤ if r.server.mServerSocket && waiting then r.count + 1
      else r.count
    split <;> omega
  · show 1 + ((r.accept waiting).members.length + 2) = _ + 3
    rw [ServerRun.length_members]
    show _ = (r.accept waiting).server.mClients.length + 3
    omega

/-- A step in which nobody is polled. -/
theorem unpolled {r' : ServerRun} (h : Turns r x) (input : Input)
    (hinput : x.record r input =
      { x with polled := x.polled, steps := x.steps + 1 })
    (hcount : r'.count = r.count)
    (hturn : ∀ p k : ℕ, r'.members[p]? = some k → r'.served p = false ∧
      ∃ q, r.members[q]? = some k ∧ r.served q = false)
    (hwithin : ∀ i, r'.phase = .echoing i → i < r'.members.length)
    (hpace : r'.remaining + 1 = r.remaining) :
    Turns r' (x.record r input) := by
  rw [hinput]
  refine ⟨fun p k hk => ?_, fun k hk => h.fresh k (hcount ▸ hk), hwithin,
    fun hpos => ?_⟩
  · obtain ⟨hserved, q, hq, hnot⟩ := hturn p k hk
    have hbefore := h.turn q k hq
    rw [hnot] at hbefore
    rw [hserved]
    exact hbefore
  · have hbefore := h.pace hpos
    show x.steps + 1 + r'.remaining = x.size + 3
    omega

theorem readLine (h : Turns r x) (hphase : r.phase = .reading)
    (str : Option CString) :
    Turns (r.readLine str) (x.record r (.getInputLine str)) := by
  refine h.unpolled _ rfl rfl ?_ (fun i hi => Phase.noConfusion hi) ?_
  · intro p k hk
    rw [ServerRun.members_readLine] at hk
    refine ⟨rfl, p, hk, ?_⟩
    simp only [ServerRun.served, hphase]
  · show (r.readLine str).members.length + 1 + 1 = r.remaining
    rw [ServerRun.members_readLine]
    simp only [ServerRun.remaining, hphase]

theorem reap (h : Turns r x) (hphase : r.phase = .reaping) :
    Turns r.reap (x.record r .reap) := by
  have hserved : ∀ q, r.served q = false := by
    intro q
    simp only [ServerRun.served, hphase]
  have hremaining : r.remaining = r.members.length + 1 := by
    simp only [ServerRun.remaining, hphase]
  rcases ServerRun.reap_members (r := r) with
    ⟨hgoes, i, hi, hmembers⟩ | ⟨hends, hmembers⟩
  · refine h.unpolled _ rfl rfl ?_ ?_ ?_
    · intro p k hk
      rw [hmembers] at hk
      obtain ⟨q, hq⟩ := List.mem_iff_getElem?.mp
        (List.mem_of_mem_eraseIdx (List.mem_of_getElem? hk))
      refine ⟨?_, q, hq, hserved q⟩
      simp only [ServerRun.served, hgoes]
    · intro j hj
      rw [hgoes] at hj
      cases hj
    · rw [hremaining]
      simp only [ServerRun.remaining, hgoes]
      rw [hmembers, List.length_eraseIdx_of_lt hi]
      omega
  · have hlen := ServerRun.length_members (r := r)
    rcases ServerRun.echoFrom_cases r.exit r.server 0 with
      ⟨hsome, heq⟩ | ⟨hnone, heq⟩
    · rw [heq] at hends
      refine h.unpolled _ rfl rfl ?_ ?_ ?_
      · intro p k hk
        rw [hmembers] at hk
        refine ⟨?_, p, hk, hserved p⟩
        simp only [ServerRun.served, hends]
        exact decide_eq_false (Nat.not_lt_zero p)
      · intro j hj
        rw [hends] at hj
        cases hj
        rw [hmembers, hlen]
        exact hsome
      · rw [hremaining]
        simp only [ServerRun.remaining, hends]
        rw [hmembers]
        omega
    · -- nobody is there to be polled
      have hnil : r.members = [] := List.eq_nil_of_length_eq_zero (by omega)
      rw [hnil] at hmembers
      refine h.unpolled _ rfl rfl ?_ ?_ ?_
      · intro p k hk
        rw [hmembers] at hk
        cases hk
      · intro j hj
        rcases heq with heq | heq <;> rw [hends, heq] at hj <;> cases hj
      · rw [hremaining, hnil]
        rcases heq with heq | heq <;>
          simp only [ServerRun.remaining, hends, heq] <;> rfl

theorem echo (h : Turns r x) (hproper : r.room.Proper) {i : ℕ}
    (hphase : r.phase = .echoing i) (io : Answers) :
    Turns (r.echo i io) (x.record r (.poll io)) := by
  have hi := h.within i hphase
  have hlen : (r.server.echoPass i io).1.mClients.length =
      r.members.length := by
    rw [← ServerRun.members_echo i io, ServerRun.length_members]
    rfl
  have hnext : (r.echo i io).phase = ServerRun.echoFrom r.exit
      (r.server.echoPass i io).1 (i + 1) := rfl
  have hcases := ServerRun.echoFrom_cases r.exit
    (r.server.echoPass i io).1 (i + 1)
  refine ⟨?_, ?_, ?_, fun hpos => ?_⟩
  · intro p k hk
    rw [ServerRun.members_echo] at hk
    have hp : p < r.members.length := (List.getElem?_eq_some_iff.mp hk).1
    have hturn := h.turn p k hk
    rw [show r.served p = decide (p < i) by
      simp only [ServerRun.served, hphase]] at hturn
    rw [ServerRun.turn_echo hp]
    show x.polled k + (r.polls (.poll io) k).toList.length + x.joined k + _ =
      x.begun
    rw [ServerRun.polls_echo hphase]
    by_cases heq : p = i
    · subst heq
      simp only [hk, if_true, Nat.lt_irrefl, decide_false, Nat.lt_succ_self,
        decide_true, Bool.false_eq_true, if_false] at hturn ⊢
      omega
    · have hother : ¬ r.members[i]? = some k := by
        intro hsame
        exact heq ((List.getElem?_inj hp hproper.nodup).mp
          (hk.trans hsame.symm))
      have hiff : decide (p < i + 1) = decide (p < i) := by
        apply decide_eq_decide.mpr
        omega
      rw [if_neg hother, hiff]
      exact hturn
  · intro k hk
    have hne : ¬ r.members[i]? = some k := by
      intro hmem
      have hlt := hproper.joined k (List.mem_of_getElem? hmem)
      have hk' : r.count ≤ k := hk
      have hlt' : k < r.count := hlt
      omega
    show x.polled k + (r.polls (.poll io) k).toList.length = 0
    rw [ServerRun.polls_echo hphase, if_neg hne, h.fresh k hk]
  · intro j hj
    rw [ServerRun.members_echo]
    rcases hcases with ⟨hlt, heq⟩ | ⟨-, heq | heq⟩ <;> rw [hnext, heq] at hj <;>
      cases hj
    omega
  · have hbefore := h.pace hpos
    show x.steps + 1 + (r.echo i io).remaining = x.size + 3
    have hrem : r.remaining = r.members.length - i := by
      simp only [ServerRun.remaining, hphase]
    rcases hcases with ⟨hlt, heq⟩ | ⟨hge, heq | heq⟩ <;>
      simp only [ServerRun.remaining, hnext, heq, ServerRun.members_echo] <;>
      omega

end Turns

/-! ## Every run -/

theorem tallied_turns : tallied.Invariant fun w => Turns w.1 w.2 where
  init := by
    rintro ⟨r, x⟩ ⟨⟨serverSocket, hr⟩, hx⟩
    obtain rfl : r = .start serverSocket := hr
    obtain rfl : x = .blank := hx
    refine ⟨?_, fun _ _ => rfl, fun i hi => Phase.noConfusion hi, ?_⟩
    · intro p k hk
      cases hk
    · intro hpos
      exact absurd hpos (Nat.lt_irrefl 0)
  step := by
    rintro ⟨r, x⟩ input ⟨r', x'⟩ hw h ⟨hstep, hx⟩
    obtain rfl : x' = x.record r input := hx
    have hproper := (server_proper
      ((System.recording_refines server _ _).reachable hw)).1
    rcases ServerRun.next_cases hstep with
      ⟨waiting, rfl, hphase, hr⟩ | ⟨str, rfl, hphase, hr⟩ |
      ⟨rfl, hphase, hr⟩ | ⟨i, io, rfl, hphase, hr⟩
    · rw [show r' = _ from hr]
      exact h.accept hproper hphase waiting
    · rw [show r' = _ from hr]
      exact h.readLine hphase str
    · rw [show r' = _ from hr]
      exact h.reap hphase
    · rw [show r' = _ from hr]
      exact h.echo hproper hphase io

/-- **Every client has its turn.** However a run of the server is tallied, each
client in the list has been polled exactly once in every iteration begun since
it was accepted, but for this one if it is still to come; and an iteration that
finds `size` clients takes `size + 3` steps, so that it comes. -/
theorem every_client_has_its_turn {r : ServerRun} (hr : server.Reachable r) :
    (∃ x, tallied.Reachable (r, x)) ∧
    ∀ x, tallied.Reachable (r, x) →
      (∀ p k : ℕ, r.members[p]? = some k →
        x.polled k + x.joined k + (if r.served p then 0 else 1) = x.begun) ∧
      (0 < x.begun → x.steps + r.remaining = x.size + 3) := by
  refine ⟨hr.recorded .., fun x hx => ?_⟩
  have h := tallied_turns.holds hx
  exact ⟨h.turn, h.pace⟩

/-- Two clients are accepted one after the other, and the second one has not
been polled yet. -/
def turns : List Input :=
  [.pollServer true, .getInputLine none, .reap, .poll ⟨[], []⟩,
    .pollServer true, .getInputLine none, .reap, .poll ⟨[], []⟩]

theorem every_client_has_its_turn_second : ∃ r x, tallied.Reachable (r, x) ∧
    r.members = [0, 1] ∧ x.begun = 2 ∧ x.polled 0 + x.joined 0 = 2 ∧
    x.polled 1 + x.joined 1 = 1 ∧ x.steps + r.remaining = 5 := by
  let next (w : ServerRun × Tally) (input : Input) :=
    (w.1.next input).map fun r => (r, w.2.record w.1 input)
  have hshape : (feed next (.start true, .blank) turns).map (fun w =>
      (w.1.members, w.1.served 0, w.1.served 1, w.2.begun, w.2.size)) =
      some ([0, 1], true, false, 2, 2) := by
    decide +kernel
  obtain ⟨⟨r, x⟩, hfeed, hstate⟩ := Option.map_eq_some_iff.mp hshape
  simp only [Prod.mk.injEq] at hstate
  obtain ⟨hmembers, hfirst, hsecond, hbegun, hsize⟩ := hstate
  have hw : tallied.Reachable (r, x) := by
    refine System.reachable_feed (fun w input w' h => ?_)
      (.of_init ⟨⟨true, rfl⟩, rfl⟩) hfeed
    obtain ⟨r', hr', rfl⟩ := Option.map_eq_some_iff.mp h
    exact ⟨hr', rfl⟩
  have hr : server.Reachable r :=
    (System.recording_refines server _ _).reachable hw
  obtain ⟨hturn, hpace⟩ := (every_client_has_its_turn hr).2 x hw
  have h₀ := hturn 0 0 (by rw [hmembers]; rfl)
  have h₁ := hturn 1 1 (by rw [hmembers]; rfl)
  rw [hfirst, hbegun] at h₀
  rw [hsecond, hbegun] at h₁
  refine ⟨r, x, hw, hmembers, hbegun, h₀, ?_, ?_⟩
  · simpa using h₁
  · rw [hpace (by omega), hsize]

end Socketchat.Server
