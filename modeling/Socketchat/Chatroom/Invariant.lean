import Socketchat.Chatroom.Links

/-!
# The invariant of a chatroom

A move is one client's, one of the server's console, or a step of `run`
(`next_cases`). What holds of the clients, the script and the links is kept by
each of them as long as no transmit buffer is more than a quarter full; lines
are typed by people, so no text is long and none contains a delimiter.
-/

namespace Socketchat

open Foundation Buffer Chat Console Server

namespace Chatroom

variable (s : Chatroom)

/-- The texts handed out since client `k` was accepted. -/
def since (k : ℕ) : List CString := (s.script.drop (s.joined k)).map (·.2)

/-- What has been handed out on behalf of a client, or of the console. -/
def saidBy (source : Option ℕ) : List CString :=
  (s.script.filter (·.1 = source)).map (·.2)

/-- What client `k` has printed. -/
def screen (k : ℕ) : List CString := messages (s.clients k).ws.trace

/-- What client `k` has sent. -/
def sent (k : ℕ) : List CString := texts (s.clients k).ws.trace

/-- No connection is congested. -/
def Uncongested : Prop :=
  (∀ k < s.connected, (s.clients k).ws.chat.Uncongested) ∧
    ∀ c ∈ s.run.server.mClients, ∀ chat ∈ c.mClient, chat.Uncongested

/-- The session behind the server's connection to client `k`. -/
def Linked (k : ℕ) (t : Session) : Prop :=
  Socketchat.Linked s.run k (s.since k) (s.clients k).ws (s.up k) (s.down k) t

/-- What holds of the clients, the script and the links. -/
structure Inv (stdin : Option ℕ → ℕ → Option UInt8) (s : Chatroom) : Prop where
  run : server.Reachable s.run
  clients : ∀ k, (s.clients k).Inv (stdin (some k))
  clean : ∀ k, (s.clients k).Clean
  joined_le : ∀ k, s.joined k ≤ s.script.length
  plain : ∀ p ∈ s.script, Plain p.2
  heard : ∀ k, (s.saidBy (some k)).Sublist (heardFrom k s.run.trace)
  linked : ∀ k, ∃ t, s.Linked k t

variable {s} {s' : Chatroom} {stdin : Option ℕ → ℕ → Option UInt8}

theorem Inv.link_up (h : s.Inv stdin) {k : ℕ} {t : Session}
    (ht : s.Linked k t) : Link (s.clients k).ws t (s.up k) := by
  obtain ⟨socket, hreach⟩ := (h.clients k).session
  exact Socketchat.Linked.link_up ht ⟨_, hreach⟩

theorem Inv.link_down (h : s.Inv stdin) {k : ℕ} {t : Session}
    (ht : s.Linked k t) : Link t (s.clients k).ws (s.down k) := by
  obtain ⟨socket, hreach⟩ := (h.clients k).session
  exact Socketchat.Linked.link_down ht ⟨_, hreach⟩

/-- What a poll of the server delivers was sent by the client. -/
theorem Inv.plain_heard (h : s.Inv stdin)
    (hzero : ∀ source p, stdin source p ≠ some 0) {k : ℕ} {t : Session}
    (ht : s.Linked k t) {io : Option Answers}
    (hpre : received (t.observed io) <+: s.up k) {text : CString}
    (htext : text ∈ messages (t.observed io)) : Plain text := by
  obtain ⟨rest, hrest⟩ := hpre
  obtain ⟨socket, hreach⟩ := (h.clients k).session
  have hlink : Link (s.clients k).ws (t.serve io none) rest := by
    refine ⟨⟨_, hreach⟩, ⟨_, serve_reachable io none ht.session⟩, ?_⟩
    rw [serve_received, ht.upward, ← hrest, List.append_assoc]
  have hgot := (hlink.faithful (h.clean k).whole).subset (by
    rw [serve_messages]
    exact List.mem_append_right _ htext)
  exact (h.clients k).plain (hzero (some k)) hgot

/-! ## A step of `run` -/

/-- What a step of `run` leaves alone, and what it does to the pipes: each
connection takes from one what its poll receives and puts into the other what
that sends. -/
structure Serves (s : Chatroom) (input : Server.Input) (s' : Chatroom) :
    Prop where
  run : s.run.next input = some s'.run
  clients : s'.clients = s.clients
  script : s'.script = s.script ++ (s.run.spoken input).toList
  joined : ∀ k, s'.joined k =
    if k = s.run.count then s.script.length else s.joined k
  pipes : ∀ k t, s.Linked k t →
    received (t.observed (s.run.polls input k)) <+: s.up k ∧
    s'.up k = (s.up k).drop
      (received (t.observed (s.run.polls input k))).length ∧
    s'.down k = s.down k ++ accepted (t.observed (s.run.polls input k))

theorem Serves.saidBy {input : Server.Input} (h : Serves s input s')
    (source : Option ℕ) : s'.saidBy source = s.saidBy source ++
      ((s.run.spoken input).toList.filter (·.1 = source)).map (·.2) := by
  rw [Chatroom.saidBy, h.script, List.filter_append, List.map_append]
  rfl

section Serves

variable {input : Server.Input}

theorem Serves.joined_le (hs : Serves s input s') (h : s.Inv stdin) (k : ℕ) :
    s'.joined k ≤ s.script.length := by
  rw [hs.joined]
  split
  · exact Nat.le_refl _
  · exact h.joined_le k

/-- A text that is handed out is new to every client; to the one accepted in
this step everything before it is old. -/
theorem Serves.since (hs : Serves s input s') (h : s.Inv stdin) (k : ℕ) :
    s'.since k = (if k = s.run.count then [] else s.since k) ++
      ((s.run.spoken input).map (·.2)).toList := by
  rw [Chatroom.since, hs.script,
    List.drop_append_of_le_length (hs.joined_le h k), List.map_append,
    hs.joined]
  congr 1
  · split
    · rw [List.drop_length, List.map_nil]
    · rfl
  · cases s.run.spoken input <;> rfl

/-- What is handed out was typed at the console or sent by a client. -/
theorem Serves.plain (hs : Serves s input s') (h : s.Inv stdin)
    (hzero : ∀ source p, stdin source p ≠ some 0)
    (hline : ∀ str, input = .getInputLine (some str) → Plain str) :
    ∀ p ∈ s.run.spoken input, Plain p.2 := by
  rintro ⟨source, text⟩ hp
  cases source with
  | none =>
      rcases ServerRun.spoken_some hp with
        ⟨str, rfl, -, -⟩ | ⟨i, c, io, -, -, -, hsource, -⟩
      · exact hline text (congrArg _ (ServerRun.spoken_line hp).1)
      · cases hsource
  | some k =>
      obtain ⟨t, ht⟩ := h.linked k
      have hlast := ServerRun.spoken_heard hp ht.chat
      exact h.plain_heard hzero ht (hs.pipes k t ht).1
        (List.mem_of_getLast? hlast)

/-- What is handed out on behalf of a client has just been heard from it. -/
theorem Serves.heard (hs : Serves s input s') (h : s.Inv stdin) (k : ℕ) :
    (s'.saidBy (some k)).Sublist (heardFrom k s'.run.trace) := by
  obtain ⟨t, ht⟩ := h.linked k
  rw [hs.saidBy, ServerRun.heardFrom_next hs.run ht.chat]
  refine (h.heard k).append ?_
  cases hspoken : s.run.spoken input with
  | none => exact List.nil_sublist _
  | some p =>
      obtain ⟨source, text⟩ := p
      by_cases hsource : source = some k
      · subst hsource
        have hlast := ServerRun.spoken_heard hspoken ht.chat
        have hmem := List.mem_of_getLast? hlast
        simpa using hmem
      · have hother : ([(source, text)].filter (·.1 = some k)).map (·.2) =
            [] := by
          simp [hsource]
        exact hother ▸ List.nil_sublist _

theorem Serves.linked (hs : Serves s input s') (h : s.Inv stdin)
    (hspare : s.Uncongested) (hplain : ∀ p ∈ s.run.spoken input, Plain p.2)
    (k : ℕ) : ∃ t, s'.Linked k t := by
  obtain ⟨t, ht⟩ := h.linked k
  obtain ⟨hpre, hup, hdown⟩ := hs.pipes k t ht
  refine ⟨Linked.after s.run input k t, ?_⟩
  unfold Chatroom.Linked
  rw [hup, hdown, hs.clients]
  refine Socketchat.Linked.next ht h.run hs.run hpre (fun hmem => ?_) hplain
    (fun hlt => ?_) fun hk hjoin => ?_
  · obtain ⟨c, hc, hnumber⟩ := List.mem_map.mp hmem
    exact hspare.2 c hc t.chat (ht.chat c hc hnumber)
  · rw [hs.since h, if_neg (by omega)]
  · have hspoken : s.run.spoken input = none := by
      rw [ServerRun.spoken, hjoin]
      rfl
    rw [hs.since h, if_pos hk, hspoken]
    rfl

/-- **The invariant is kept by every step of `run`.** -/
theorem Inv.serve (h : s.Inv stdin)
    (hzero : ∀ source p, stdin source p ≠ some 0) (hspare : s.Uncongested)
    (hs : Serves s input s')
    (hline : ∀ str, input = .getInputLine (some str) → Plain str) :
    s'.Inv stdin := by
  have hplain := hs.plain h hzero hline
  constructor
  case run => exact h.run.step hs.run
  case clients =>
    rw [hs.clients]
    exact h.clients
  case clean =>
    rw [hs.clients]
    exact h.clean
  case joined_le =>
    intro k
    rw [hs.script, List.length_append]
    exact (hs.joined_le h k).trans (Nat.le_add_right ..)
  case plain =>
    intro p hp
    rw [hs.script] at hp
    rcases List.mem_append.mp hp with hold | hnew
    · exact h.plain p hold
    · exact hplain p (Option.mem_toList.mp hnew)
  case heard => exact hs.heard h
  case linked => exact hs.linked h hspare hplain

end Serves

/-! ## The moves -/

theorem serves_of_serve {input : Server.Input}
    (hpolls : ∀ k, s.run.polls input k = none)
    (h : s.serve input = some s') : Serves s input s' := by
  obtain ⟨run', hnext, rfl⟩ := Option.map_eq_some_iff.mp h
  refine ⟨hnext, rfl, rfl, fun _ => rfl, fun k t _ => ?_⟩
  rw [hpolls]
  exact ⟨List.nil_prefix, rfl, (List.append_nil _).symm⟩

theorem serves_poll {io : Answers}
    (h : s.next stdin (.poll io) = some s') : Serves s (.poll io) s' := by
  obtain ⟨⟨m, events⟩, hpolled, h⟩ := Option.bind_eq_some_iff.mp h
  obtain ⟨s₁, hside, h⟩ := Option.bind_eq_some_iff.mp h
  obtain ⟨run', hnext, rfl⟩ := Option.map_eq_some_iff.mp h
  obtain ⟨hpre, heq⟩ := Option.ite_none_right_eq_some.mp hside
  obtain rfl := Option.some.inj heq
  cases hphase : s.run.phase with
  | echoing i =>
      simp only [polled, hphase] at hpolled
      obtain ⟨c, hc, hpair⟩ := Option.map_eq_some_iff.mp hpolled
      obtain ⟨rfl, rfl⟩ := Prod.mk.inj hpair
      refine ⟨hnext, rfl, rfl, fun _ => rfl, fun k t ht => ?_⟩
      by_cases hk : k = c.number
      · subst hk
        have hpolls : s.run.polls (.poll io) c.number = some io := by
          simp only [ServerRun.polls, hphase, hc, Option.map_some, if_true]
        simp only [ht.chat c (List.mem_of_getElem? hc) rfl] at hpre ⊢
        rw [hpolls]
        exact ⟨hpre, Function.update_self .., Function.update_self ..⟩
      · have hpolls : s.run.polls (.poll io) k = none := by
          simp only [ServerRun.polls, hphase, hc, Option.map_some,
            Option.some.injEq, if_neg (Ne.symm hk)]
        rw [hpolls]
        refine ⟨List.nil_prefix, Function.update_of_ne hk _ _, ?_⟩
        exact (Function.update_of_ne hk _ _).trans (List.append_nil _).symm
  | _ =>
      simp only [polled, hphase] at hpolled
      cases hpolled

/-- **What happens in a move.** -/
theorem next_cases {move : Move} (h : s.next stdin move = some s') :
    (move = .connect ∧ s' = { s with connected := s.connected + 1 }) ∨
    (∃ k input c, move = .client k input ∧ k < s.connected ∧
      (s.clients k).next (stdin (some k)) input = some c ∧
      s.clientSide k c = some s') ∨
    (move = .reader ∧
      s' = { s with console := s.console.readerNext (stdin none) }) ∨
    (move = .getInputLine ∧ s.console.call.1.lines = [] ∧
      s' = { s with console := s.console.call.2 }) ∨
    (∃ str, move = .getInputLine ∧ s.console.call.1.lines = str.toList ∧
      Serves { s with console := s.console.call.2 } (.getInputLine str) s' ∧
      s'.console = s.console.call.2) ∨
    (∃ input, (∀ str, input ≠ .getInputLine str) ∧
      (∀ io, input = .poll io → move = .poll io) ∧ Serves s input s' ∧
      s'.console = s.console) := by
  cases move with
  | connect =>
      obtain ⟨-, heq⟩ := Option.ite_none_right_eq_some.mp h
      exact Or.inl ⟨rfl, (Option.some.inj heq).symm⟩
  | client k input =>
      obtain ⟨hk, hnext⟩ := Option.ite_none_right_eq_some.mp h
      obtain ⟨c, hc, hside⟩ := Option.bind_eq_some_iff.mp hnext
      exact Or.inr (Or.inl ⟨k, input, c, rfl, hk, hc, hside⟩)
  | reader =>
      exact Or.inr (Or.inr (Or.inl ⟨rfl, (Option.some.inj h).symm⟩))
  | getInputLine =>
      obtain ⟨-, hnext⟩ := Option.ite_none_right_eq_some.mp h
      refine Or.inr (Or.inr (Or.inr ?_))
      have hserve : ∀ str, serve { s with console := s.console.call.2 }
          (.getInputLine str) = some s' →
          Serves { s with console := s.console.call.2 } (.getInputLine str) s' ∧
            s'.console = s.console.call.2 := by
        intro str h
        have hserves := serves_of_serve (fun _ => rfl) h
        obtain ⟨run', -, rfl⟩ := Option.map_eq_some_iff.mp h
        exact ⟨hserves, rfl⟩
      cases hcall : s.console.call.1 with
      | running =>
          rw [hcall] at hnext
          exact Or.inl ⟨rfl, rfl, (Option.some.inj hnext).symm⟩
      | null =>
          rw [hcall] at hnext
          exact Or.inr (Or.inl ⟨none, rfl, rfl, hserve none hnext⟩)
      | line str =>
          rw [hcall] at hnext
          exact Or.inr (Or.inl ⟨some str, rfl, rfl, hserve (some str) hnext⟩)
  | pollServer waiting =>
      obtain ⟨-, hnext⟩ := Option.ite_none_right_eq_some.mp h
      have hserves := serves_of_serve (fun _ => rfl) hnext
      obtain ⟨run', -, rfl⟩ := Option.map_eq_some_iff.mp hnext
      exact Or.inr (Or.inr (Or.inr (Or.inr (Or.inr ⟨_,
        fun _ => Input.noConfusion, fun _ => Input.noConfusion, hserves,
        rfl⟩))))
  | reap =>
      have hserves := serves_of_serve (fun _ => rfl) h
      obtain ⟨run', -, rfl⟩ := Option.map_eq_some_iff.mp h
      exact Or.inr (Or.inr (Or.inr (Or.inr (Or.inr ⟨_,
        fun _ => Input.noConfusion, fun _ => Input.noConfusion, hserves,
        rfl⟩))))
  | poll io =>
      have hserves := serves_poll h
      obtain ⟨p, -, hnext⟩ := Option.bind_eq_some_iff.mp h
      obtain ⟨s₁, hside, hnext⟩ := Option.bind_eq_some_iff.mp hnext
      obtain ⟨run', -, rfl⟩ := Option.map_eq_some_iff.mp hnext
      obtain ⟨-, heq⟩ := Option.ite_none_right_eq_some.mp hside
      obtain rfl := Option.some.inj heq
      exact Or.inr (Or.inr (Or.inr (Or.inr (Or.inr ⟨_,
        fun _ => Input.noConfusion, fun _ heq => congrArg Move.poll
          (Input.poll.inj heq), hserves, rfl⟩))))

/-- A client's step. -/
theorem Inv.client (h : s.Inv stdin)
    (hzero : ∀ source p, stdin source p ≠ some 0) (hspare : s.Uncongested)
    {k : ℕ} (hk : k < s.connected) {input : Client.Input}
    {c : Client.TestClient}
    (hnext : (s.clients k).next (stdin (some k)) input = some c)
    (hside : s.clientSide k c = some s') : s'.Inv stdin := by
  obtain ⟨hpre, heq⟩ := Option.ite_none_right_eq_some.mp hside
  obtain rfl := Option.some.inj heq
  have htrace := Client.TestClient.next_trace hnext
  have hinv := (h.clients k).next (hzero (some k)) hnext
  have hclean := (h.clean k).next (h.clients k) (hzero (some k)) (hspare.1 k hk)
    hnext
  refine ⟨h.run, fun m => ?_, fun m => ?_, h.joined_le, h.plain, h.heard,
    fun m => ?_⟩
  · by_cases hm : m = k
    · subst hm
      simpa using hinv
    · simpa [hm] using h.clients m
  · by_cases hm : m = k
    · subst hm
      simpa using hclean
    · simpa [hm] using h.clean m
  · obtain ⟨t, ht⟩ := h.linked m
    refine ⟨t, ?_⟩
    show Socketchat.Linked s.run m (s.since m) (Function.update s.clients k c m).ws
      (Function.update s.up k _ m) (Function.update s.down k _ m) t
    by_cases hm : m = k
    · subst hm
      rw [Function.update_self, Function.update_self, Function.update_self]
      exact Socketchat.Linked.client ht htrace hpre
    · rw [Function.update_of_ne hm, Function.update_of_ne hm,
        Function.update_of_ne hm]
      exact ht

theorem Inv.init (hzero : ∀ source p, stdin source p ≠ some 0)
    (h : (chatroom stdin).init s) : s.Inv stdin := by
  obtain ⟨⟨serverSocket, hrun⟩, -, hclients, -, hup, hdown, hscript, hjoined⟩ :=
    h
  have hws : ∀ k, (s.clients k).ws = ⟨.construct (some k), []⟩ := fun k =>
    (hclients k).2.2.1
  refine ⟨.of_init ⟨_, hrun⟩, fun k => ?_, fun k => ?_, ?_, ?_, ?_, ?_⟩
  · exact (Client.testClient_invariant (hzero (some k))).init _ (hclients k)
  · exact (Client.testClient_clean (hzero (some k))).init _ (hclients k)
  · intro k
    rw [hjoined]
    exact Nat.zero_le _
  · rw [hscript]
    exact fun p hp => absurd hp List.not_mem_nil
  · intro k
    rw [saidBy, hscript]
    exact List.nil_sublist _
  · intro k
    have hnew : s.since k = [] := by
      rw [since, hscript, hjoined]
      rfl
    refine ⟨⟨.construct (some k), []⟩, .of_init rfl, fun _ => rfl, ?_, ?_, ?_,
      List.nil_prefix, fun _ => hnew.symm, ?_, whole_nil⟩
    · rw [hrun]
      exact fun c hc => absurd hc List.not_mem_nil
    · rw [hws, hdown]
      rfl
    · rw [hws, hup]
      rfl
    · rw [hrun]
      rfl

/-! ## The server's console -/

/-- What the console has announced is every line returned there but the stop
words. -/
structure AtConsole (stdin : Option ℕ → ℕ → Option UInt8) (s : Chatroom) :
    Prop where
  inputLine : s.run.server.mInputLine = true
  console : s.console.Inv (stdin none)
  announced : (s.saidBy none).map (·.val) =
    s.console.results.filter fun line => !stopWords.contains line

/-- Another step of `run` announces nothing. -/
theorem Serves.quiet {input : Server.Input} (h : Serves s input s')
    (hother : ∀ str, input ≠ .getInputLine str) :
    s'.saidBy none = s.saidBy none := by
  rw [h.saidBy]
  cases hspoken : s.run.spoken input with
  | none => exact List.append_nil _
  | some p =>
      obtain ⟨source, text⟩ := p
      rcases ServerRun.spoken_some hspoken with
        ⟨str, hline, -, -⟩ | ⟨i, c, io, -, -, -, rfl, -⟩
      · exact absurd hline (hother str)
      · exact List.append_nil _

theorem AtConsole.serve (h : s.AtConsole stdin)
    (hzero : ∀ p, stdin none p ≠ some 0) {str : Option CString}
    (hlines : s.console.call.1.lines = str.toList)
    (hs : Serves { s with console := s.console.call.2 } (.getInputLine str) s')
    (hconsole : s'.console = s.console.call.2) : s'.AtConsole stdin := by
  have hnext : s.run.next (.getInputLine str) = some s'.run := hs.run
  have hinput := (ServerRun.next_mInputLine hnext).trans h.inputLine
  have hcall : s'.console.Inv (stdin none) := by
    rw [hconsole, Console.State.call_snd]
    exact h.console.callerNext hzero
  refine ⟨hinput, hcall, ?_⟩
  have hsaid : s'.saidBy none = s.saidBy none ++
      ((s.run.spoken (.getInputLine str)).toList.filter
        (·.1 = none)).map (·.2) := hs.saidBy none
  rw [hsaid, hconsole, Console.State.call_results, hlines, List.map_append,
    h.announced, List.filter_append, ServerRun.spoken_getInputLine,
    h.inputLine, if_pos rfl]
  cases str with
  | none => rfl
  | some line =>
      have hword : isStopWord line = stopWords.contains line.val := rfl
      simp only [hword, Option.toList_some, List.map_cons, List.map_nil,
        List.filter_cons, List.filter_nil]
      cases stopWords.contains line.val <;> rfl

theorem atConsole_invariant (hzero : ∀ p, stdin none p ≠ some 0) :
    (chatroom stdin).Invariant (AtConsole stdin) where
  init := by
    rintro s ⟨⟨serverSocket, hrun⟩, hconsole, -, -, -, -, hscript, -⟩
    have hresults : s.console.results = [] := hconsole.2.2.2.2.2.2
    refine ⟨?_, (mailbox_invariant hzero).init _ hconsole, ?_⟩
    · rw [hrun]
      rfl
    · rw [saidBy, hscript, hresults]
      rfl
  step := by
    rintro s move s' - h hnext
    rcases next_cases hnext with
      ⟨-, rfl⟩ | ⟨k, input, c, -, -, -, hside⟩ | ⟨-, rfl⟩ | ⟨-, hlines, rfl⟩ |
      ⟨str, -, hlines, hserves, hconsole⟩ |
      ⟨input, hother, -, hserves, hconsole⟩
    · exact ⟨h.inputLine, h.console, h.announced⟩
    · obtain ⟨-, heq⟩ := Option.ite_none_right_eq_some.mp hside
      obtain rfl := Option.some.inj heq
      exact ⟨h.inputLine, h.console, h.announced⟩
    · refine ⟨h.inputLine, h.console.readerNext hzero, ?_⟩
      exact h.announced.trans (by rw [Console.State.readerNext_results])
    · refine ⟨h.inputLine, ?_, ?_⟩
      · show s.console.call.2.Inv (stdin none)
        rw [Console.State.call_snd]
        exact h.console.callerNext hzero
      · refine h.announced.trans ?_
        rw [Console.State.call_results, hlines, List.map_nil, List.append_nil]
    · exact h.serve hzero hlines hserves hconsole
    · refine ⟨(ServerRun.next_mInputLine hserves.run).trans h.inputLine, ?_, ?_⟩
      · rw [hconsole]
        exact h.console
      · rw [hserves.quiet hother, hconsole]
        exact h.announced

/-! ## Every run -/

/-- A quarter of its capacity is the most that waits in any transmit buffer
whenever something happens. -/
def Roomy (s : Chatroom) (_ : Move) : Prop := s.Uncongested

instance (s : Chatroom) (move : Move) : Decidable (Roomy s move) :=
  inferInstanceAs (Decidable (_ ∧ _))

theorem invariant (hzero : ∀ source p, stdin source p ≠ some 0) :
    ((chatroom stdin).restrict Roomy).Invariant (Inv stdin) where
  init _ h := Inv.init hzero h
  step := by
    rintro s move s' hs h ⟨hspare, hnext⟩
    rcases next_cases hnext with
      ⟨-, rfl⟩ | ⟨k, input, c, -, hk, hc, hside⟩ | ⟨-, rfl⟩ | ⟨-, -, rfl⟩ |
      ⟨str, -, hlines, hserves, hconsole⟩ | ⟨input, hother, -, hserves, -⟩
    · exact ⟨h.run, h.clients, h.clean, h.joined_le, h.plain, h.heard, h.linked⟩
    · exact h.client hzero hspare hk hc hside
    · exact ⟨h.run, h.clients, h.clean, h.joined_le, h.plain, h.heard, h.linked⟩
    · exact ⟨h.run, h.clients, h.clean, h.joined_le, h.plain, h.heard, h.linked⟩
    · have hall := (atConsole_invariant (hzero none)).holds hs.of_restrict
      have hcall := (hall.serve (hzero none) hlines hserves hconsole).console
      have h' : Inv stdin { s with console := s.console.call.2 } :=
        ⟨h.run, h.clients, h.clean, h.joined_le, h.plain, h.heard, h.linked⟩
      refine h'.serve hzero hspare hserves fun line heq => ?_
      cases heq
      refine hcall.plain (hzero none) ?_
      rw [hconsole, Console.State.call_results, hlines]
      exact List.mem_append_right _ List.mem_cons_self
    · exact h.serve hzero hspare hserves fun str heq => absurd heq (hother _)

end Chatroom

end Socketchat
