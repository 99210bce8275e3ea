import Socketchat.Chat.Wsocket
import Socketchat.Console.Mailbox

/-!
# Calls of `getInputLine`

What the steps of the mailbox are to a program that calls `getInputLine` in a
loop: a call ends at its first step with a null pointer, or goes on until it
returns a string. The strings returned are the results of the mailbox, and each
is a line that fits on a screen: no line feed, at most 511 characters.
-/

namespace Socketchat.Console

open Foundation Chat

/-- What a step of a call of `getInputLine` comes to. -/
inductive CallResult where
  | running
  | null
  | line (str : CString)

/-- The lines returned. -/
def CallResult.lines : CallResult → List CString
  | .line str => [str]
  | _ => []

/-- A string from the console. -/
structure Plain (text : CString) : Prop where
  no_line_feed : (10 : UInt8) ∉ text.val
  length_le : text.val.length ≤ 511

namespace State

variable (s : State)

/-- The next step of a call of `getInputLine`, and what it comes to. -/
def call : CallResult × State :=
  match s.caller with
  | .idle => (if s.mHaveNewData then .running else .null, s.callerNext)
  | .returning => (.line (cstring (string s.mResultBuffer)), s.callerNext)
  | _ => (.running, s.callerNext)

theorem call_snd : s.call.2 = s.callerNext := by
  unfold call
  split <;> rfl

theorem cstring_string (m : Block UInt8) :
    (cstring (string m)).val = string m := by
  have hfree : (0 : UInt8) ∉ string m := fun h => by
    simpa using List.mem_takeWhile_imp h
  rw [cstring_of_zero_free hfree]

/-- The results are the lines returned. -/
theorem call_results :
    s.call.2.results = s.results ++ s.call.1.lines.map (·.val) := by
  unfold call
  cases hcaller : s.caller with
  | idle =>
      have hsame : s.callerNext.results = s.results := by
        simp only [callerNext, hcaller]
        split <;> rfl
      dsimp only
      rw [hsame]
      split <;> exact (List.append_nil _).symm
  | returning =>
      simp only [callerNext, hcaller, CallResult.lines, List.map_cons,
        List.map_nil, cstring_string]
  | copying i => simp [callerNext, hcaller, CallResult.lines]
  | stripping => simp [callerNext, hcaller, CallResult.lines]
  | releasing => simp [callerNext, hcaller, CallResult.lines]

/-- Only `getInputLine` returns lines. -/
theorem readerNext_results (stdin : ℕ → Option UInt8) :
    (s.readerNext stdin).results = s.results := by
  unfold readerNext
  split
  · split <;> rfl
  · rfl
  · split <;> rfl
  · rfl
  · rfl
  · rfl

/-! ## What is returned fits the buffer -/

theorem readerNext_mResultBuffer (stdin : ℕ → Option UInt8) :
    (s.readerNext stdin).mResultBuffer = s.mResultBuffer := by
  unfold readerNext
  split
  · split <;> rfl
  · rfl
  · split <;> rfl
  · rfl
  · rfl
  · rfl

theorem callerNext_size :
    s.callerNext.mResultBuffer.size = s.mResultBuffer.size := by
  unfold callerNext
  split
  · split <;> rfl
  · rfl
  · dsimp only
    split <;> rfl
  · rfl
  · rfl

theorem length_string_le (m : Block UInt8) : (string m).length ≤ m.size := by
  have htake := (List.takeWhile_sublist (· ≠ 0) (l := m.read 0 m.size)).length_le
  rw [Block.length_read] at htake
  exact htake

theorem call_length {str : CString} (h : str ∈ s.call.1.lines) :
    str.val.length ≤ s.mResultBuffer.size := by
  unfold call at h
  split at h
  · split at h
    · cases h
    · cases h
  · rw [List.mem_singleton.mp h, cstring_string]
    exact length_string_le s.mResultBuffer
  · cases h

variable {stdin : ℕ → Option UInt8} {s}

/-- **The results are lines of the input**, in order and without the line feeds
at their ends. -/
theorem Inv.results (h : s.Inv stdin) :
    ∃ lines, (∀ n, s.pos ≤ n → lines <+: (fgetsCut stdin n).done) ∧
      s.results = lines.map strip := by
  obtain ⟨-, -, out, ret, box, hout, hdone, -, -⟩ := h
  refine ⟨out, fun n hn => ?_, hout⟩
  refine List.IsPrefix.trans ?_ (fgetsCut_mono stdin hn)
  rw [hdone]
  exact List.prefix_append ..

theorem Inv.plain (h : s.Inv stdin) (hzero : ∀ p, stdin p ≠ some 0)
    {text : CString} (htext : text.val ∈ s.results) : Plain text := by
  obtain ⟨lines, hlines, hresults⟩ := h.results
  rw [hresults] at htext
  obtain ⟨x, hx, hstrip⟩ := List.mem_map.mp htext
  have hdone := (hlines s.pos (Nat.le_refl _)).subset hx
  obtain ⟨hne, hlen, -, hinner⟩ := line_of_mem hzero hdone
  have hmax : MAX_INPUT = 512 := rfl
  have hsub := (strip_sublist x).length_le
  refine ⟨?_, ?_⟩
  · rw [← hstrip]
    exact line_feed_notMem_strip hne hinner
  · rw [← hstrip]
    omega

end State

/-- A line has no delimiter in it. -/
theorem Plain.free {text : CString} (h : Plain text) :
    ¬ [(13 : UInt8), 10] <:+: text.val := fun hin =>
  h.no_line_feed (hin.subset (List.mem_cons_of_mem _ List.mem_cons_self))

end Socketchat.Console
