import Socketchat.Chat.Link
import Socketchat.Console.Call

/-!
# `TestClient`: the chat client

The loop of `main` and the `delete ws` behind it, with the thread that reads
the console beside them. An iteration calls `getInputLine`, sends what it
returns and polls; `bye`, `exit` or `quit` is sent like any other line and ends
the loop after that poll. Everything from outside is an input: what the console
reader does next, what the transport answers in each poll, and whether the
destructor's timer has run out.
-/

namespace Socketchat.Client

open Foundation Chat Console

/-- `"bye"`, `"exit"` and `"quit"`. -/
def stopWords : List (List UInt8) :=
  [[98, 121, 101], [101, 120, 105, 116], [113, 117, 105, 116]]

/-- `strcmp` with each of them. -/
def isStopWord (data : CString) : Bool := stopWords.contains data.val

/-- What `main` does next. -/
inductive Phase where
  /-- In `inputLine->getInputLine()`. -/
  | reading
  /-- `ws->poll(&rd, 1)` -/
  | polling
  /-- `delete ws`, which begins with `close()`. -/
  | closing
  /-- In the loop of `~SocketChatImpl`. -/
  | waiting
  | ended
deriving DecidableEq

/-- The loop of `main` has ended. -/
def Phase.leaving : Phase → Bool
  | .reading => false
  | .polling => false
  | _ => true

/-- The variables of `main` and where it is. -/
structure TestClient where
  inputLine : Console.State
  keepRunning : Bool
  ws : Session
  phase : Phase

inductive Input where
  /-- The reader thread of `inputLine` takes a step. -/
  | reader
  | getInputLine
  | poll (io : Answers)
  | close
  /-- `late`: a second has passed since the timer was last read. -/
  | wait (io : Answers) (late : Bool)

namespace TestClient

variable (c : TestClient)

/-- The next step of `getInputLine`; once it has returned, what it returned is
compared with the stop words and sent. -/
def readLine : TestClient :=
  let r := c.inputLine.call
  match r.1 with
  | .running => { c with inputLine := r.2 }
  | .null => { c with inputLine := r.2, phase := .polling }
  | .line data =>
      { inputLine := r.2
        keepRunning := c.keepRunning && !isStopWord data
        ws := c.ws.call (.sendText (some data))
        phase := .polling }

/-- `rd` prints what it receives and calls nothing on the connection. -/
def poll (io : Answers) : TestClient :=
  { c with
    ws := c.ws.call (.poll (some fun _ => []) 1 io)
    phase := if c.keepRunning then .reading else .closing }

def close : TestClient :=
  { c with ws := c.ws.call .close, phase := .waiting }

/-- One iteration of the destructor's loop. -/
def wait (io : Answers) (late : Bool) : TestClient :=
  if c.ws.chat.mReadyState ≠ .CLOSED then
    { c with
      ws := c.ws.call (.poll none 1 io)
      phase := if late then .ended else .waiting }
  else
    { c with phase := .ended }

/-- The next step; `none` if `main` does not ask for this input. -/
def next (stdin : ℕ → Option UInt8) : Input → Option TestClient
  | .reader => some { c with inputLine := c.inputLine.readerNext stdin }
  | .getInputLine => if c.phase = .reading then some c.readLine else none
  | .poll io => if c.phase = .polling then some (c.poll io) else none
  | .close => if c.phase = .closing then some c.close else none
  | .wait io late => if c.phase = .waiting then some (c.wait io late) else none

/-- What a step shows of the connection. -/
def emitted (c' : TestClient) : List Event :=
  c'.ws.trace.drop c.ws.trace.length

/-- Where `main` is once the connect has succeeded. -/
def start (socket : ℕ) : TestClient :=
  { inputLine := ⟨.fresh MAX_INPUT, .fresh MAX_INPUT, false, .testing, .idle,
      0, []⟩
    keepRunning := true
    ws := ⟨.construct (some socket), []⟩
    phase := .reading }

end TestClient

/-- A client whose connect succeeded, with its console on this input. -/
def testClient (socket : ℕ) (stdin : ℕ → Option UInt8) :
    System TestClient Input where
  init c :=
    (mailbox stdin).init c.inputLine ∧ c.keepRunning = true ∧
      c.ws = ⟨.construct (some socket), []⟩ ∧ c.phase = .reading
  step c input c' := c.next stdin input = some c'

namespace TestClient

variable {c c' : TestClient} {stdin : ℕ → Option UInt8}

/-- **The steps of a client.** -/
theorem next_cases {input : Input} (h : c.next stdin input = some c') :
    (input = .reader ∧
      c' = { c with inputLine := c.inputLine.readerNext stdin }) ∨
    (input = .getInputLine ∧ c.phase = .reading ∧ c' = c.readLine) ∨
    (∃ io, input = .poll io ∧ c.phase = .polling ∧ c' = c.poll io) ∨
    (input = .close ∧ c.phase = .closing ∧ c' = c.close) ∨
    (∃ io late, input = .wait io late ∧ c.phase = .waiting ∧
      c' = c.wait io late) := by
  cases input with
  | reader => exact Or.inl ⟨rfl, (Option.some.inj h).symm⟩
  | getInputLine =>
      obtain ⟨hphase, hnext⟩ := Option.ite_none_right_eq_some.mp h
      exact Or.inr (Or.inl ⟨rfl, hphase, (Option.some.inj hnext).symm⟩)
  | poll io =>
      obtain ⟨hphase, hnext⟩ := Option.ite_none_right_eq_some.mp h
      exact Or.inr (Or.inr (Or.inl
        ⟨io, rfl, hphase, (Option.some.inj hnext).symm⟩))
  | close =>
      obtain ⟨hphase, hnext⟩ := Option.ite_none_right_eq_some.mp h
      exact Or.inr (Or.inr (Or.inr (Or.inl
        ⟨rfl, hphase, (Option.some.inj hnext).symm⟩)))
  | wait io late =>
      obtain ⟨hphase, hnext⟩ := Option.ite_none_right_eq_some.mp h
      exact Or.inr (Or.inr (Or.inr (Or.inr
        ⟨io, late, rfl, hphase, (Option.some.inj hnext).symm⟩)))

/-! ## What a step does to the connection -/

/-- The connection only goes on. -/
theorem next_trace {input : Input} (h : c.next stdin input = some c') :
    c'.ws.trace = c.ws.trace ++ c.emitted c' := by
  have hgoes : c.ws.trace <+: c'.ws.trace := by
    rcases next_cases h with
      ⟨-, rfl⟩ | ⟨-, -, rfl⟩ | ⟨io, -, -, rfl⟩ | ⟨-, -, rfl⟩ |
      ⟨io, late, -, -, rfl⟩
    · exact List.prefix_rfl
    · unfold readLine
      dsimp only
      split
      · exact List.prefix_rfl
      · exact List.prefix_rfl
      · exact List.prefix_append ..
    · exact List.prefix_append ..
    · exact List.prefix_append ..
    · unfold TestClient.wait
      split
      · exact List.prefix_append ..
      · exact List.prefix_rfl
  obtain ⟨es, hes⟩ := hgoes
  rw [emitted, ← hes, List.drop_left]

/-- A line is sent, or the connection is left alone. -/
theorem readLine_cases (c : TestClient) :
    (∃ data, c.inputLine.call.1 = .line data ∧
      c.readLine = ⟨c.inputLine.call.2, c.keepRunning && !isStopWord data,
        c.ws.call (.sendText (some data)), .polling⟩) ∨
    (c.inputLine.call.1.lines = [] ∧ ∃ phase,
      (phase = .polling ∨ phase = c.phase) ∧
      c.readLine = ⟨c.inputLine.call.2, c.keepRunning, c.ws, phase⟩) := by
  unfold readLine
  dsimp only
  cases c.inputLine.call.1 with
  | running => exact Or.inr ⟨rfl, c.phase, Or.inr rfl, rfl⟩
  | null => exact Or.inr ⟨rfl, .polling, Or.inl rfl, rfl⟩
  | line data => exact Or.inl ⟨data, rfl, rfl⟩

/-- What is typed is sent while the loop runs, and nothing else is. -/
structure Inv (stdin : ℕ → Option UInt8) (c : TestClient) : Prop where
  console : c.inputLine.Inv stdin
  session : ∃ socket, (session (some socket)).Reachable c.ws
  sent : (texts c.ws.trace).map (·.val) = c.inputLine.results
  running : c.keepRunning = !(texts c.ws.trace).any isStopWord
  last : (texts c.ws.trace).dropLast.any isStopWord = false
  reading : c.phase = .reading → c.keepRunning = true
  stopped : c.phase.leaving = true → c.keepRunning = false

theorem Inv.plain (h : c.Inv stdin) (hzero : ∀ p, stdin p ≠ some 0)
    {text : CString} (htext : text ∈ texts c.ws.trace) : Plain text :=
  h.console.plain hzero (h.sent ▸ List.mem_map_of_mem htext)

/-- A call that sends no text. -/
theorem Inv.silent (h : c.Inv stdin) {call : ApiCall} {phase : Phase}
    (hsilent : Silent (c.ws.chat.exec call).2)
    (hreading : phase = .reading → c.keepRunning = true)
    (hstopped : phase.leaving = true → c.keepRunning = false) :
    Inv stdin { c with ws := c.ws.call call, phase := phase } := by
  have htexts : texts (c.ws.call call).trace = texts c.ws.trace := by
    show texts (c.ws.trace ++ _) = _
    rw [texts_append, hsilent.texts_eq, List.append_nil]
  obtain ⟨socket, hreach⟩ := h.session
  exact
    { console := h.console
      session := ⟨socket, hreach.step rfl⟩
      sent := (congrArg (List.map _) htexts).trans h.sent
      running := h.running.trans (by rw [htexts])
      last := (by rw [htexts]; exact h.last)
      reading := hreading
      stopped := hstopped }

theorem Inv.poll (h : c.Inv stdin) (io : Answers) : (c.poll io).Inv stdin := by
  obtain ⟨socket, hreach⟩ := h.session
  refine h.silent (SocketChatImpl.poll_silent (session_inbound hreach).1
    SocketChatImpl.quiet_listener 1 io) ?_ ?_
  · cases c.keepRunning with
    | true => exact fun _ => rfl
    | false => exact fun hfalse => Phase.noConfusion hfalse
  · cases c.keepRunning with
    | true => exact fun hfalse => Bool.noConfusion hfalse
    | false => exact fun _ => rfl

theorem Inv.wait (h : c.Inv stdin) (hphase : c.phase = .waiting)
    (io : Answers) (late : Bool) : (c.wait io late).Inv stdin := by
  obtain ⟨socket, hreach⟩ := h.session
  have hstopped := h.stopped (by rw [hphase]; rfl)
  unfold TestClient.wait
  split
  · refine h.silent (SocketChatImpl.poll_silent (session_inbound hreach).1
      SocketChatImpl.quiet_none 1 io) ?_ fun _ => hstopped
    cases late <;> exact fun hfalse => Phase.noConfusion hfalse
  · exact
      { h with
        reading := fun hfalse => Phase.noConfusion hfalse
        stopped := fun _ => hstopped }

/-- A line is sent while `keepRunning` still holds, so no stop word was sent
before it. -/
theorem Inv.readLine (h : c.Inv stdin) (hzero : ∀ p, stdin p ≠ some 0)
    (hphase : c.phase = .reading) : c.readLine.Inv stdin := by
  have hconsole : c.inputLine.call.2.Inv stdin := by
    rw [Console.State.call_snd]
    exact h.console.callerNext hzero
  have hresults := c.inputLine.call_results
  have hrunning := h.running
  rw [h.reading hphase] at hrunning
  obtain ⟨socket, hreach⟩ := h.session
  rcases c.readLine_cases with ⟨data, hline, heq⟩ | ⟨hlines, phase, hgo, heq⟩
  · have htexts : texts (c.ws.call (.sendText (some data))).trace =
        texts c.ws.trace ++ [data] := texts_append ..
    have hnone : (texts c.ws.trace).any isStopWord = false := by
      simpa using hrunning.symm
    rw [heq]
    refine ⟨hconsole, ⟨socket, hreach.step rfl⟩, ?_, ?_, ?_, ?_, ?_⟩
    · rw [htexts, hresults, hline, List.map_append, h.sent]
      rfl
    · rw [htexts, List.any_append, hnone, h.reading hphase]
      simp
    · rw [htexts, List.dropLast_concat]
      exact hnone
    · exact fun hfalse => Phase.noConfusion hfalse
    · exact fun hfalse => Bool.noConfusion hfalse
  · rw [hlines, List.map_nil, List.append_nil] at hresults
    rw [heq]
    exact
      { console := hconsole
        session := h.session
        sent := h.sent.trans hresults.symm
        running := h.running
        last := h.last
        reading := fun _ => h.reading hphase
        stopped := by
          rcases hgo with rfl | rfl
          · exact fun hfalse => Bool.noConfusion hfalse
          · exact h.stopped }

theorem Inv.reader (h : c.Inv stdin) (hzero : ∀ p, stdin p ≠ some 0) :
    Inv stdin { c with inputLine := c.inputLine.readerNext stdin } :=
  { h with
    console := h.console.readerNext hzero
    sent := h.sent.trans (c.inputLine.readerNext_results stdin).symm }

theorem Inv.next (h : c.Inv stdin) (hzero : ∀ p, stdin p ≠ some 0)
    {input : Input} (hnext : c.next stdin input = some c') : c'.Inv stdin := by
  rcases next_cases hnext with
    ⟨-, rfl⟩ | ⟨-, hphase, rfl⟩ | ⟨io, -, -, rfl⟩ | ⟨-, hphase, rfl⟩ |
    ⟨io, late, -, hphase, rfl⟩
  · exact h.reader hzero
  · exact h.readLine hzero hphase
  · exact h.poll io
  · have hstopped := h.stopped (by rw [hphase]; rfl)
    exact h.silent c.ws.chat.close_silent
      (fun hfalse => Phase.noConfusion hfalse) fun _ => hstopped
  · exact h.wait hphase io late

end TestClient

theorem testClient_invariant {socket : ℕ} {stdin : ℕ → Option UInt8}
    (hzero : ∀ p, stdin p ≠ some 0) :
    (testClient socket stdin).Invariant (TestClient.Inv stdin) where
  init := by
    rintro ⟨inputLine, keepRunning, ws, phase⟩ ⟨hconsole, rfl, rfl, rfl⟩
    have hresults : inputLine.results = [] := hconsole.2.2.2.2.2.2
    exact
      { console := (mailbox_invariant hzero).init _ hconsole
        session := ⟨socket, .of_init rfl⟩
        sent := hresults.symm
        running := rfl
        last := rfl
        reading := fun _ => rfl
        stopped := fun hfalse => Bool.noConfusion hfalse }
  step := fun _ _ _ _ h hnext => h.next hzero hnext

/-- **A client sends what is typed.** At any time, in any interleaving with the
reader thread, the texts it has given to `sendText` are a first part of the
lines of the input, each once and in order. None but the last is a stop word,
and the loop runs on exactly as long as none is. -/
theorem client_sends_what_is_typed {socket : ℕ} {stdin : ℕ → Option UInt8}
    (hzero : ∀ p, stdin p ≠ some 0) {c : TestClient}
    (hc : (testClient socket stdin).Reachable c) :
    (∃ lines,
      (∀ n, c.inputLine.pos ≤ n → lines <+: (fgetsCut stdin n).done) ∧
      (texts c.ws.trace).map (·.val) = lines.map strip) ∧
    (∀ text ∈ (texts c.ws.trace).dropLast, isStopWord text = false) ∧
    (c.keepRunning = true ↔
      ∀ text ∈ texts c.ws.trace, isStopWord text = false) := by
  have h := (testClient_invariant hzero).holds hc
  obtain ⟨lines, hlines, hresults⟩ := h.console.results
  refine ⟨⟨lines, hlines, h.sent.trans hresults⟩, ?_, ?_⟩
  · simpa using h.last
  · rw [h.running]
    simp

/-- The line `b y e LF`, and then nothing. -/
def goodbye (p : ℕ) : Option UInt8 := [98, 121, 101, 10][p]?

theorem goodbye_zero_free (p : ℕ) : goodbye p ≠ some 0 := fun hp =>
  absurd (List.mem_of_getElem? hp) (by decide)

theorem start_init (socket : ℕ) (stdin : ℕ → Option UInt8) :
    (testClient socket stdin).init (.start socket) :=
  ⟨⟨rfl, rfl, rfl, rfl, rfl, rfl, rfl⟩, rfl, rfl, rfl⟩

/-- The line is read, handed over and sent, and the loop is about to end. -/
theorem client_sends_what_is_typed_goodbye : ∃ c,
    (testClient 0 goodbye).Reachable c ∧
    texts c.ws.trace = [cstring [98, 121, 101]] ∧
    (c.keepRunning = true ↔
      ∀ text ∈ texts c.ws.trace, isStopWord text = false) := by
  let inputs := List.replicate 9 Input.reader ++ List.replicate 9 .getInputLine
  have hshape : (feed (TestClient.next · goodbye) (.start 0) inputs).map
      (fun c => texts c.ws.trace) = some [cstring [98, 121, 101]] := by
    decide +kernel
  obtain ⟨c, hfeed, htexts⟩ := Option.map_eq_some_iff.mp hshape
  have hc : (testClient 0 goodbye).Reachable c :=
    System.reachable_feed (fun _ _ _ h => h)
      (.of_init (start_init 0 goodbye)) hfeed
  exact ⟨c, hc, htexts,
    (client_sends_what_is_typed goodbye_zero_free hc).2.2⟩

end Socketchat.Client
