import Socketchat.Chat.Destructor
import Socketchat.Client.TestClient

/-!
# Leaving the chat

The loop of `main` ends with a stop word, and `delete ws` requests a close and
polls until it is done. If the transport does not fail and the timer does not
run out, the close is done when everything typed has been accepted, the stop
word last. Until then the connection is open, so nothing was sent in vain.
-/

namespace Socketchat.Chat.SocketChatImpl

open Foundation Buffer

variable {s : SocketChatImpl}

/-- A poll without a callback that closes the connection, and not because the
transport failed, leaves nothing in the transmit buffer. -/
theorem poll_none_empties (h : s.mReceiveBuffer.Valid)
    (hwords : Words s.mTransmitBuffer) (hlive : s.Live) (timeout : ℤ)
    (io : Answers)
    (hclosed : (s.poll none timeout io).1.mReadyState = .CLOSED)
    (hbroken : broken (s.poll none timeout io).2 = false) :
    (s.poll none timeout io).1.mTransmitBuffer.getSize = 0 := by
  have hfails := not_fails h hwords hlive none timeout io hbroken
  obtain ⟨u, es, -, hlive', -, -, -, -, heq⟩ :=
    poll_of_not_fails h hwords hlive none timeout io hfails
  rw [heq] at hclosed ⊢
  have hclosed : u.finishClosing.1.mReadyState = .CLOSED := hclosed
  show u.finishClosing.1.mTransmitBuffer.getSize = 0
  unfold finishClosing at hclosed ⊢
  by_cases hdone : u.mTransmitBuffer.getSize = 0 ∧ u.mReadyState = .CLOSING
  · rw [if_pos hdone]
    exact hdone.1
  · rw [if_neg hdone] at hclosed
    exact absurd hclosed hlive'.notClosed

end Socketchat.Chat.SocketChatImpl

namespace Socketchat.Client

open Foundation Buffer Chat Console

namespace TestClient

variable {c c' : TestClient} {stdin : ℕ → Option UInt8}

/-- What holds while no text has been cut: unless the transport has failed, the
connection is open until `close` is called, and is closed only with nothing
left to send. -/
structure Clean (c : TestClient) : Prop where
  whole : Whole c.ws.trace
  isOpen : broken c.ws.trace = false → c.phase ≠ .waiting →
    c.phase ≠ .ended → c.ws.chat.mReadyState = .OPEN
  flushed : broken c.ws.trace = false → c.ws.chat.mReadyState = .CLOSED →
    c.ws.chat.mTransmitBuffer.getSize = 0

theorem Clean.readLine (h : c.Clean) (hinv : c.Inv stdin)
    (hzero : ∀ p, stdin p ≠ some 0) (hphase : c.phase = .reading)
    (hspare : c.ws.chat.Uncongested) : c.readLine.Clean := by
  have hopen : broken c.ws.trace = false → c.ws.chat.mReadyState = .OPEN :=
    fun hb => h.isOpen hb (by simp [hphase]) (by simp [hphase])
  obtain ⟨socket, hreach⟩ := hinv.session
  rcases c.readLine_cases with ⟨data, hline, heq⟩ | ⟨-, phase, -, heq⟩
  · have hinv' := hinv.readLine hzero hphase
    rw [heq] at hinv' ⊢
    have hplain : Plain data := hinv'.plain hzero (by
      show data ∈ texts (c.ws.trace ++ (c.ws.chat.sendText (some data)).2)
      rw [texts_append]
      exact List.mem_append_right _ List.mem_cons_self)
    have hroom : c.ws.chat.mTransmitBuffer.getSize +
        3 * (data.val.length + 2) ≤ spareLimit := by
      have hlen := hplain.length_le
      have hquarter : DEFAULT_MAXIMUM_BUFFER_SIZE / 4 = 134217728 := by decide
      have hlimit : spareLimit = 268435456 := by decide
      unfold SocketChatImpl.Uncongested at hspare
      omega
    obtain ⟨hevents, hwhole⟩ := h.whole.sendText hreach hplain.free hroom
    have hbroken : broken (c.ws.call (.sendText (some data))).trace =
        broken c.ws.trace := by
      show broken (c.ws.trace ++ (c.ws.chat.sendText (some data)).2) = _
      rw [hevents, broken_append]
      exact Bool.or_false _
    refine ⟨hwhole, fun hb _ _ => hopen (hbroken ▸ hb), fun hb hclosed => ?_⟩
    have hstate : c.ws.chat.mReadyState = .CLOSED := hclosed
    rw [hopen (hbroken ▸ hb)] at hstate
    cases hstate
  · rw [heq]
    exact ⟨h.whole, fun hb _ _ => hopen hb, h.flushed⟩

theorem Clean.poll (h : c.Clean) (hinv : c.Inv stdin)
    (hphase : c.phase = .polling) (io : Answers) : (c.poll io).Clean := by
  obtain ⟨socket, hreach⟩ := hinv.session
  have hvalid := (session_inbound hreach).1
  have hsilent := SocketChatImpl.poll_silent hvalid
    SocketChatImpl.quiet_listener 1 io
  have hopen : broken (c.poll io).ws.trace = false →
      (c.poll io).ws.chat.mReadyState = .OPEN := by
    intro hb
    have hb : broken (c.ws.trace ++ _) = false := hb
    rw [broken_append, Bool.or_eq_false_iff] at hb
    exact SocketChatImpl.poll_open hvalid (session_words hreach)
      (h.isOpen hb.1 (by simp [hphase]) (by simp [hphase])) (fun _ => rfl) 1 io
      hb.2
  refine ⟨h.whole.silent hsilent, fun hb _ _ => hopen hb, fun hb hclosed => ?_⟩
  rw [hopen hb] at hclosed
  cases hclosed

theorem Clean.close (h : c.Clean) (hphase : c.phase = .closing) :
    c.close.Clean := by
  have hsilent := c.ws.chat.close_silent
  refine ⟨h.whole.silent hsilent, fun _ hfalse => absurd rfl hfalse,
    fun hb hclosed => ?_⟩
  have hb : broken (c.ws.trace ++ _) = false := hb
  rw [broken_append, Bool.or_eq_false_iff] at hb
  have hopen := h.isOpen hb.1 (by simp [hphase]) (by simp [hphase])
  have hclosed : c.ws.chat.close.1.mReadyState = .CLOSED := hclosed
  exact absurd hclosed (SocketChatImpl.close_notClosed (by simp [hopen]))

theorem Clean.wait (h : c.Clean) (hinv : c.Inv stdin) (io : Answers)
    (late : Bool) : (c.wait io late).Clean := by
  obtain ⟨socket, hreach⟩ := hinv.session
  have hvalid := (session_inbound hreach).1
  unfold TestClient.wait
  split
  · rename_i hlive
    have hsilent := SocketChatImpl.poll_silent hvalid
      SocketChatImpl.quiet_none 1 io
    refine ⟨h.whole.silent hsilent, ?_, fun hb hclosed => ?_⟩
    · cases late
      · exact fun _ hfalse => absurd rfl hfalse
      · exact fun _ _ hfalse => absurd rfl hfalse
    · have hb : broken (c.ws.trace ++ _) = false := hb
      rw [broken_append, Bool.or_eq_false_iff] at hb
      have hsocket : c.ws.chat.mSocket ≠ none := by
        rw [session_socket hreach]
        exact Option.some_ne_none _
      exact SocketChatImpl.poll_none_empties hvalid (session_words hreach)
        ⟨hsocket, hlive⟩ 1 io hclosed hb.2
  · exact ⟨h.whole, fun _ _ hfalse => absurd rfl hfalse, h.flushed⟩

theorem Clean.next (h : c.Clean) (hinv : c.Inv stdin)
    (hzero : ∀ p, stdin p ≠ some 0) (hspare : c.ws.chat.Uncongested)
    {input : Input} (hnext : c.next stdin input = some c') : c'.Clean := by
  rcases next_cases hnext with
    ⟨-, rfl⟩ | ⟨-, hphase, rfl⟩ | ⟨io, -, hphase, rfl⟩ | ⟨-, hphase, rfl⟩ |
    ⟨io, late, -, hphase, rfl⟩
  · exact ⟨h.whole, h.isOpen, h.flushed⟩
  · exact h.readLine hinv hzero hphase hspare
  · exact h.poll hinv hphase io
  · exact h.close hphase
  · exact h.wait hinv io late

end TestClient

/-- Whenever a client takes a step, at most a quarter of the capacity of its
transmit buffer is waiting to be sent. -/
def Roomy (c : TestClient) (_ : Input) : Prop := c.ws.chat.Uncongested

instance (c : TestClient) (input : Input) : Decidable (Roomy c input) :=
  inferInstanceAs (Decidable c.ws.chat.Uncongested)

theorem testClient_clean {socket : ℕ} {stdin : ℕ → Option UInt8}
    (hzero : ∀ p, stdin p ≠ some 0) :
    ((testClient socket stdin).restrict Roomy).Invariant TestClient.Clean where
  init := by
    rintro ⟨inputLine, keepRunning, ws, phase⟩ ⟨-, -, rfl, rfl⟩
    exact ⟨whole_nil, fun _ _ _ => rfl, fun _ hfalse => by cases hfalse⟩
  step := by
    rintro c input c' hc h ⟨hspare, hnext⟩
    exact h.next ((testClient_invariant hzero).holds hc.of_restrict) hzero
      hspare hnext

/-- **A client leaves with everything said.** If it has ended with its
connection closed and the transport has not failed, then what the transport
has accepted is every text sent, framed, and the last of these was the stop
word. -/
theorem client_leaves_with_everything_said {socket : ℕ}
    {stdin : ℕ → Option UInt8} (hzero : ∀ p, stdin p ≠ some 0) {c : TestClient}
    (hc : ((testClient socket stdin).restrict Roomy).Reachable c)
    (hended : c.phase = .ended) (hclosed : c.ws.chat.mReadyState = .CLOSED)
    (hbroken : broken c.ws.trace = false) :
    accepted c.ws.trace = frame ((texts c.ws.trace).map (·.val)) ∧
    ∃ said word, texts c.ws.trace = said ++ [word] ∧
      isStopWord word = true ∧ ∀ text ∈ said, isStopWord text = false := by
  have hinv := (testClient_invariant hzero).holds hc.of_restrict
  have h := (testClient_clean hzero).holds hc
  obtain ⟨socket, hreach⟩ := hinv.session
  constructor
  · obtain ⟨-, -, hplaced⟩ := h.whole.outbound hreach
    have hnil : c.ws.chat.mTransmitBuffer.getData = [] := by
      apply List.eq_nil_of_length_eq_zero
      rw [SimpleBuffer.length_getData, h.flushed hbroken hclosed]
    have hframed := placed_eq_frame h.whole.queued fun text htext => by
      have := h.whole.short text htext
      unfold shortLimit at this
      omega
    rw [← hframed, hplaced, hnil, List.append_nil]
  · have hstopped := hinv.stopped (by rw [hended]; rfl)
    have hrunning := hinv.running
    have hlast := hinv.last
    rw [hstopped] at hrunning
    cases htexts : texts c.ws.trace using List.reverseRecOn with
    | nil =>
        rw [htexts] at hrunning
        cases hrunning
    | append_singleton said word =>
        rw [htexts, List.dropLast_concat] at hlast
        rw [htexts, List.any_append, hlast] at hrunning
        refine ⟨said, word, rfl, by simpa using hrunning.symm, ?_⟩
        simpa using hlast

/-- `bye` is typed and sent in the destructor's first poll. -/
theorem client_leaves_with_everything_said_goodbye : ∃ c,
    ((testClient 0 goodbye).restrict Roomy).Reachable c ∧
    texts c.ws.trace = [cstring [98, 121, 101]] ∧
    accepted c.ws.trace = frame ((texts c.ws.trace).map (·.val)) := by
  let inputs := List.replicate 9 Input.reader ++
    List.replicate 9 .getInputLine ++
    [.poll ⟨[], []⟩, .close, .wait ⟨[], [.room 9]⟩ false, .wait ⟨[], []⟩ false]
  let next (c : TestClient) (input : Input) :=
    if Roomy c input then c.next goodbye input else none
  have hshape : (feed next (.start 0) inputs).map (fun c =>
      (c.phase, c.ws.chat.mReadyState, broken c.ws.trace,
        decide (texts c.ws.trace = [cstring [98, 121, 101]]))) =
      some (.ended, .CLOSED, false, true) := by
    decide +kernel
  obtain ⟨c, hfeed, hshape⟩ := Option.map_eq_some_iff.mp hshape
  obtain ⟨hended, hclosed, hbroken, htexts⟩ :
      c.phase = .ended ∧ c.ws.chat.mReadyState = .CLOSED ∧
        broken c.ws.trace = false ∧ _ = _ := by
    simpa only [Prod.mk.injEq, decide_eq_true_eq] using hshape
  have hc : ((testClient 0 goodbye).restrict Roomy).Reachable c :=
    System.reachable_feed
      (fun _ _ _ h => Option.ite_none_right_eq_some.mp h)
      (.of_init (start_init 0 goodbye)) hfeed
  exact ⟨c, hc, htexts, (client_leaves_with_everything_said goodbye_zero_free
    hc hended hclosed hbroken).1⟩

end Socketchat.Client
