import Socketchat.Chat.Loops

/-!
# The life of a connection

The ready state moves from OPEN to CLOSED, through CLOSING or not, and the
socket is closed at the one moment CLOSED is entered and not used afterwards.
A close that was requested waits for the transmit buffer: unless the transport
fails, it is empty when the socket is closed.
-/

namespace Socketchat.Chat

open Foundation Buffer

/-- The assignments to `mReadyState`. -/
def Event.moves : Event → List ReadyState
  | .ready state => [state]
  | _ => []

/-- A call of `receive`, `send` or `close` on the socket. -/
def Event.usesSocket : Event → Bool
  | .received _ => true
  | .receiveRefused _ => true
  | .sent _ => true
  | .sendRefused _ => true
  | .closeSocket => true
  | _ => false

def readyMoves (trace : List Event) : List ReadyState :=
  trace.flatMap Event.moves

@[simp] theorem readyMoves_append (tr tr' : List Event) :
    readyMoves (tr ++ tr') = readyMoves tr ++ readyMoves tr' :=
  List.flatMap_append

/-- A ready state, and a trace that may have led to it. -/
inductive Lifecycle : ReadyState → List Event → Prop
  | isOpen {tr : List Event} :
      readyMoves tr = [] → .closeSocket ∉ tr → Lifecycle .OPEN tr
  | closing {tr : List Event} :
      readyMoves tr = [.CLOSING] → .closeSocket ∉ tr → Lifecycle .CLOSING tr
  | closed {pre post : List Event} :
      readyMoves pre = [] ∨ readyMoves pre = [.CLOSING] →
      .closeSocket ∉ pre → readyMoves post = [] →
      (∀ e ∈ post, e.usesSocket = false) →
      Lifecycle .CLOSED (pre ++ .closeSocket :: .ready .CLOSED :: post)

namespace Lifecycle

variable {state : ReadyState} {tr es : List Event}

/-- Before CLOSED, the socket may be used but not closed. -/
theorem live (h : Lifecycle state tr) (hstate : state ≠ .CLOSED)
    (hmoves : readyMoves es = []) (hclose : .closeSocket ∉ es) :
    Lifecycle state (tr ++ es) := by
  cases h with
  | isOpen hm hc =>
      refine .isOpen (by rw [readyMoves_append, hm, hmoves]; rfl) ?_
      simp [hc, hclose]
  | closing hm hc =>
      refine .closing (by rw [readyMoves_append, hm, hmoves]; rfl) ?_
      simp [hc, hclose]
  | closed => exact absurd rfl hstate

/-- What leaves the socket and the state alone is possible at any time. -/
theorem quiet (h : Lifecycle state tr) (hmoves : readyMoves es = [])
    (hsocket : ∀ e ∈ es, e.usesSocket = false) :
    Lifecycle state (tr ++ es) := by
  have hclose : .closeSocket ∉ es := fun hin => by
    have hfalse := hsocket _ hin
    exact absurd hfalse (by decide)
  cases h with
  | isOpen hm hc => exact (Lifecycle.isOpen hm hc).live (by decide) hmoves hclose
  | closing hm hc =>
      exact (Lifecycle.closing hm hc).live (by decide) hmoves hclose
  | closed hm hc hpost huse =>
      rw [List.append_assoc, List.cons_append, List.cons_append]
      refine .closed hm hc ?_ ?_
      · rw [readyMoves_append, hpost, hmoves]
        rfl
      · intro e he
        rcases List.mem_append.mp he with he | he
        · exact huse e he
        · exact hsocket e he

/-- The socket is closed once, and CLOSED entered. -/
theorem close (h : Lifecycle state tr) (hstate : state ≠ .CLOSED)
    (hmoves : readyMoves es = []) (hclose : .closeSocket ∉ es) :
    Lifecycle .CLOSED (tr ++ (es ++ [.closeSocket, .ready .CLOSED])) := by
  have hlive := h.live hstate hmoves hclose
  rw [← List.append_assoc]
  generalize tr ++ es = tr' at hlive
  cases hlive with
  | isOpen hm hc => exact .closed (Or.inl hm) hc rfl (by simp)
  | closing hm hc => exact .closed (Or.inr hm) hc rfl (by simp)
  | closed => exact absurd rfl hstate

theorem act {s t : SocketChatImpl} (hact : SocketChatImpl.Act s es t)
    (h : Lifecycle s.mReadyState tr) :
    Lifecycle t.mReadyState (tr ++ es) := by
  cases hact with
  | move => exact h.quiet rfl (by simp)
  | receive _ _ hlive _ _ => exact h.live hlive.notClosed rfl (by simp)
  | receiveWait _ hlive _ => exact h.live hlive.notClosed rfl (by simp)
  | receiveBroken r hlive _ =>
      have hmoves : readyMoves [.receiveRefused r] = [] := rfl
      exact h.close hlive.notClosed hmoves (by simp)
  | send _ hlive _ => exact h.live hlive.notClosed rfl (by simp)
  | sendWait _ hlive _ => exact h.live hlive.notClosed rfl (by simp)
  | sendBroken r hlive _ =>
      have hmoves : readyMoves [.sendRefused r] = [] := rfl
      exact h.close hlive.notClosed hmoves (by simp)
  | finish hlive _ _ =>
      have hmoves : readyMoves [] = [] := rfl
      exact h.close hlive.notClosed hmoves (by simp)
  | deliver => exact h.quiet rfl (by simp [Event.usesSocket])
  | queue str =>
      exact h.quiet rfl (by simp [SocketChatImpl.sendText, Event.usesSocket])
  | requestClose hclosing hclosed =>
      generalize s.mReadyState = state at h hclosing hclosed
      cases h with
      | isOpen hm hc =>
          refine .closing ?_ (by simp [hc])
          rw [readyMoves_append, hm]
          rfl
      | closing => exact absurd rfl hclosing
      | closed => exact absurd rfl hclosed
  | rest timeout _ _ => exact h.quiet rfl (by simp [Event.usesSocket])

/-! ### What the trace shows -/

theorem moves (h : Lifecycle state tr) : (state, readyMoves tr) ∈
    [(.OPEN, []), (.CLOSING, [.CLOSING]), (.CLOSED, [.CLOSED]),
      (.CLOSED, [.CLOSING, .CLOSED])] := by
  cases h with
  | isOpen hm _ => simp [hm]
  | closing hm _ => simp [hm]
  | @closed pre post hm _ hpost _ =>
      have hend : readyMoves (.closeSocket :: .ready .CLOSED :: post) =
          .CLOSED :: readyMoves post := rfl
      rw [readyMoves_append, hend, hpost]
      rcases hm with hm | hm <;> simp [hm]

theorem notYetClosed (h : Lifecycle state tr) (hstate : state ≠ .CLOSED) :
    .closeSocket ∉ tr := by
  cases h with
  | isOpen _ hc => exact hc
  | closing _ hc => exact hc
  | closed => exact absurd rfl hstate

theorem closedOnce (h : Lifecycle .CLOSED tr) :
    ∃ pre post, tr = pre ++ .closeSocket :: .ready .CLOSED :: post ∧
      .closeSocket ∉ pre ∧ .CLOSED ∉ readyMoves pre ∧
      ∀ e ∈ post, e.usesSocket = false := by
  cases h with
  | closed hm hc _ hpost =>
      refine ⟨_, _, rfl, hc, ?_, hpost⟩
      rcases hm with hm | hm <;> simp [hm]

end Lifecycle

theorem session_lifecycle {socket : Option ℕ} {t : Session}
    (ht : (session socket).Reachable t) :
    Lifecycle t.chat.mReadyState t.trace :=
  (session_invariant (I := fun s tr => Lifecycle s.mReadyState tr)
    (.isOpen rfl (by simp)) (fun _ _ _ _ hact h => h.act hact) ht).2

namespace SocketChatImpl

variable {s : SocketChatImpl}

/-! ## Dispatching does not close -/

theorem close_notClosed (h : s.mReadyState ≠ .CLOSED) :
    s.close.1.mReadyState ≠ .CLOSED := by
  unfold close
  split
  · exact h
  · exact ReadyState.noConfusion

theorem react_notClosed (calls : List Call) :
    ∀ {s : SocketChatImpl}, s.mReadyState ≠ .CLOSED →
    (react s calls).1.mReadyState ≠ .CLOSED := by
  induction calls with
  | nil => exact fun h => h
  | cons call calls ih =>
      intro s h
      cases call with
      | sendText str => exact ih (s := (s.sendText str).1) h
      | close => exact ih (close_notClosed h)

theorem dispatchLoop_notClosed (callback : Callback) (fuel : ℕ) :
    ∀ {s : SocketChatImpl} (past : List CString), s.mReceiveBuffer.Valid →
    s.mReadyState ≠ .CLOSED →
    (s.dispatchLoop callback past fuel).1.mReadyState ≠ .CLOSED := by
  induction fuel with
  | zero => exact fun _ _ h => h
  | succ fuel ih =>
      intro s past hvalid h
      rw [dispatchLoop]
      rcases dispatchPass_spec hvalid callback past with
        ⟨hnone, -⟩ | ⟨seg, b, hb, -, -, hsome⟩
      · rw [hnone]
        exact h
      · have hkeep := react_receiveBuffer s b
            (callback (past ++ [cstring seg]))
        rw [hsome]
        refine ih _ (by rw [hkeep]; exact hb) ?_
        exact react_notClosed _ (s := { s with mReceiveBuffer := b }) h

theorem dispatch_notClosed (hvalid : s.mReceiveBuffer.Valid)
    (callback : Option Callback) (h : s.mReadyState ≠ .CLOSED) :
    (s.dispatch callback).1.mReadyState ≠ .CLOSED := by
  cases callback with
  | none => exact h
  | some callback => exact dispatchLoop_notClosed callback _ [] hvalid h

/-! ## A requested close flushes -/

/-- If a `poll` closes the connection without the transport failing, it does
so with an empty transmit buffer, and then dispatches. -/
theorem poll_finishes (h : s.mReceiveBuffer.Valid)
    (hwords : Words s.mTransmitBuffer) (hopen : s.mReadyState ≠ .CLOSED)
    (callback : Option Callback) (timeout : ℤ) (io : Answers)
    (hclosed : (s.poll callback timeout io).1.mReadyState = .CLOSED)
    (hbroken : broken (s.poll callback timeout io).2 = false) :
    s.Live ∧ s.transportFails io = false ∧
    ∃ (u : SocketChatImpl) (pre : List Event), activity.Emits s pre u ∧
      u.mReceiveBuffer.Valid ∧ u.mTransmitBuffer.getSize = 0 ∧
      u.mReceiveBuffer.getData =
        s.mReceiveBuffer.getData ++ (incoming s.mReceiveBuffer io.recvs).1 ∧
      (s.poll callback timeout io).2 = pre ++ .closeSocket ::
        .ready .CLOSED :: (u.disconnect.1.dispatch callback).2 := by
  have hsocket : s.mSocket ≠ none := by
    intro hnone
    have hpoll : s.poll callback timeout io = (s, []) := by
      simp [poll, hnone]
    rw [hpoll] at hclosed
    exact hopen hclosed
  have hlive : s.Live := ⟨hsocket, hopen⟩
  have hfails : s.transportFails io = false := by
    by_contra hyes
    rw [Bool.not_eq_false] at hyes
    obtain ⟨-, htrue, -⟩ :=
      poll_of_fails h hwords hlive callback timeout io hyes
    rw [hbroken] at htrue
    exact absurd htrue (by decide)
  obtain ⟨u, es, hemits, hlive', -, -, -, hdata, heq⟩ :=
    poll_of_not_fails h hwords hlive callback timeout io hfails
  have hvalid := activity_valid hemits h
  by_cases hdone : u.mTransmitBuffer.getSize = 0 ∧ u.mReadyState = .CLOSING
  · have hfinish : u.finishClosing = u.disconnect := by
      rw [finishClosing, if_pos hdone]
    refine ⟨hlive, hfails, u, es, hemits, hvalid, hdone.1, hdata, ?_⟩
    rw [heq, hfinish]
    rfl
  · -- otherwise nothing after the loops could have closed it
    have hstay : u.finishClosing = (u, []) := by
      rw [finishClosing, if_neg hdone]
    rw [heq, hstay] at hclosed
    exact absurd hclosed
      (dispatch_notClosed hvalid _ hlive'.notClosed)

end SocketChatImpl

end Socketchat.Chat
