import Socketchat.Console.Handover

/-!
# The mailbox

What holds in every interleaving: `getInputLine` returns the lines of the input
in order, none of them twice, and neither side touches the input buffer while
the other one does.
-/

namespace Socketchat.Console

open Foundation

namespace State

variable {stdin : ℕ → Option UInt8} {s : State}

/-- A buffer that holds a line is measured inside its own cells. -/
theorem mem_range_strlen {m : Block UInt8} {x : List UInt8} (hx : Holds m x)
    (hfit : x.length < m.size) (hfree : (0 : UInt8) ∉ x) {i : ℕ}
    (hi : i ∈ List.range (strlen m + 1)) : i < m.size := by
  rw [List.mem_range, strlen, hx.string_eq hfit hfree] at hi
  omega

/-- The reader thread stays inside its buffer. -/
theorem Inv.readerCells_lt (h : s.Inv stdin) (hzero : ∀ p, stdin p ≠ some 0)
    {i : ℕ} (hi : i ∈ s.readerCells) : i < s.mInputBuffer.size := by
  obtain ⟨hinput, -, out, ret, box, -, hdone, hholds, -⟩ := h
  have hmax : MAX_INPUT = 512 := rfl
  have hline : ∀ x ∈ box, x.length < MAX_INPUT ∧ (0 : UInt8) ∉ x := by
    intro x hx
    have hmem : x ∈ (fgetsCut stdin s.pos).done := by
      rw [hdone]
      exact List.mem_append_right _ (List.mem_append_right _ hx)
    obtain ⟨-, hfit, hfree, -⟩ := line_of_mem hzero hmem
    exact ⟨hfit, hfree⟩
  unfold readerCells at hi
  cases hreader : s.reader with
  | testing =>
      simp only [hreader] at hi
      exact absurd hi List.not_mem_nil
  | clearing =>
      simp only [hreader, List.mem_singleton] at hi
      omega
  | reading n =>
      simp only [hreader, List.mem_singleton] at hi
      simp only [ReaderHolds, hreader] at hholds
      have hcur : (fgetsCut stdin s.pos).cur.length < MAX_INPUT - 1 :=
        (fgetsCut_proper stdin s.pos).cur_length
      omega
  | terminating n =>
      simp only [hreader, List.mem_singleton] at hi
      simp only [ReaderHolds, hreader] at hholds
      obtain ⟨-, -, x, rfl, hlen, -⟩ := hholds
      have hfit := (hline x List.mem_cons_self).1
      omega
  | measuring =>
      simp only [hreader] at hi
      simp only [ReaderHolds, hreader] at hholds
      obtain ⟨-, -, x, rfl, hx⟩ := hholds
      obtain ⟨hfit, hfree⟩ := hline x List.mem_cons_self
      exact mem_range_strlen hx (by omega) hfree hi
  | posting =>
      simp only [hreader] at hi
      exact absurd hi List.not_mem_nil

/-- `getInputLine` stays inside both buffers. -/
theorem Inv.callerCells_lt (h : s.Inv stdin) (hzero : ∀ p, stdin p ≠ some 0) :
    (∀ i ∈ s.callerCells, i < s.mInputBuffer.size) ∧
    ∀ i ∈ s.resultCells, i < s.mResultBuffer.size := by
  obtain ⟨hinput, hresult, out, ret, box, -, hdone, -, hcaller⟩ := h
  have hmax : MAX_INPUT = 512 := rfl
  have hline : ∀ x ∈ ret ++ box, x.length < MAX_INPUT ∧ (0 : UInt8) ∉ x ∧
      (strip x).length < MAX_INPUT ∧ (0 : UInt8) ∉ strip x := by
    intro x hx
    have hmem : x ∈ (fgetsCut stdin s.pos).done := by
      rw [hdone]
      exact List.mem_append_right _ hx
    obtain ⟨-, hfit, hfree, -⟩ := line_of_mem hzero hmem
    have hsub := strip_sublist x
    have hlen := hsub.length_le
    exact ⟨hfit, hfree, by omega, fun h0 => hfree (hsub.subset h0)⟩
  unfold callerCells resultCells
  cases hstep : s.caller with
  | idle =>
      exact ⟨fun i hi => absurd hi List.not_mem_nil,
        fun i hi => absurd hi List.not_mem_nil⟩
  | copying n =>
      simp only [CallerHolds, hstep] at hcaller
      obtain ⟨-, -, x, rfl, hn, -⟩ := hcaller
      have hfit := (hline x (by simp)).1
      simp only [List.mem_singleton]
      constructor
      · rintro i rfl
        omega
      · rintro i rfl
        omega
  | stripping =>
      simp only [CallerHolds, hstep] at hcaller
      obtain ⟨-, -, x, rfl, hx⟩ := hcaller
      obtain ⟨hfit, hfree, -, -⟩ := hline x (by simp)
      exact ⟨fun i hi => absurd hi List.not_mem_nil,
        fun i hi => mem_range_strlen hx (by omega) hfree hi⟩
  | releasing =>
      exact ⟨fun i hi => absurd hi List.not_mem_nil,
        fun i hi => absurd hi List.not_mem_nil⟩
  | returning =>
      simp only [CallerHolds, hstep] at hcaller
      obtain ⟨x, rfl, hx⟩ := hcaller
      obtain ⟨-, -, hfit, hfree⟩ := hline x (by simp)
      exact ⟨fun i hi => absurd hi List.not_mem_nil,
        fun i hi => mem_range_strlen hx (by omega) hfree hi⟩

/-- **The input buffer has one owner.** -/
theorem Inv.exclusive (h : s.Inv stdin) :
    s.readerCells = [] ∨ s.callerCells = [] := by
  obtain ⟨-, -, out, ret, box, -, -, hholds, hcaller⟩ := h
  cases hflag : s.mHaveNewData with
  | true =>
      have htesting := hholds.testing_of_flag hflag
      exact Or.inl (by simp only [readerCells, htesting])
  | false =>
      rcases hcaller.of_not_flag hflag with hstep | hstep
      · exact Or.inr (by simp only [callerCells, hstep])
      · exact Or.inr (by simp only [callerCells, hstep])

end State

theorem mailbox_invariant {stdin : ℕ → Option UInt8}
    (hzero : ∀ p, stdin p ≠ some 0) :
    (mailbox stdin).Invariant (State.Inv stdin) where
  init := by
    rintro s ⟨hinput, hresult, hflag, hreader, hcaller, hpos, hresults⟩
    refine ⟨hinput, hresult, [], [], [], hresults, ?_, ?_, ?_⟩
    · rw [hpos]
      rfl
    · simp [State.ReaderHolds, hreader, hflag, hpos, fgetsCut]
    · simp only [State.CallerHolds, hcaller]
  step := by
    rintro s thread s' - h rfl
    cases thread with
    | reader => exact h.readerNext hzero
    | caller => exact h.callerNext hzero

/-- **The mailbox loses nothing.** At any time the results are a first part of
the chunks `fgets` cuts the input into, without the line feeds at their ends,
and at most two of those cut so far are still on their way. No chunk is empty
or longer than 511 characters and no result holds a line feed; the two sides
are never both in the input buffer, and each stays inside its buffers. -/
theorem inputLine_loses_nothing {stdin : ℕ → Option UInt8}
    (hzero : ∀ p, stdin p ≠ some 0) {s : State}
    (hs : (mailbox stdin).Reachable s) :
    (∃ lines, (∀ n, s.pos ≤ n → lines <+: (fgetsCut stdin n).done) ∧
      s.results = lines.map strip ∧
      (fgetsCut stdin s.pos).done.length ≤ lines.length + 2) ∧
    (∀ x ∈ (fgetsCut stdin s.pos).done, x ≠ [] ∧ x.length ≤ 511) ∧
    (∀ line ∈ s.results, (10 : UInt8) ∉ line) ∧
    (s.readerCells = [] ∨ s.callerCells = []) ∧
    (∀ i ∈ s.readerCells ++ s.callerCells, i < s.mInputBuffer.size) ∧
    ∀ i ∈ s.resultCells, i < s.mResultBuffer.size := by
  have h := (mailbox_invariant hzero).holds hs
  obtain ⟨hcaller, hresult⟩ := h.callerCells_lt hzero
  obtain ⟨-, -, out, ret, box, hout, hdone, hholds, hcalls⟩ := id h
  refine ⟨⟨out, ?_, hout, ?_⟩, ?_, ?_, h.exclusive, ?_, hresult⟩
  · intro n hn
    refine List.IsPrefix.trans ?_ (fgetsCut_mono stdin hn)
    rw [hdone]
    exact List.prefix_append ..
  · have hbox := hholds.length_box_le
    have hret := hcalls.length_ret_le
    rw [hdone, List.length_append, List.length_append]
    omega
  · intro x hx
    have hchunk := (fgetsCut_proper stdin s.pos).done x hx
    exact ⟨hchunk.ne_nil, hchunk.length_le⟩
  · intro line hline
    rw [hout] at hline
    obtain ⟨x, hx, rfl⟩ := List.mem_map.mp hline
    obtain ⟨hne, -, -, hinner⟩ := line_of_mem hzero (n := s.pos) (x := x)
      (by rw [hdone]; exact List.mem_append_left _ hx)
    exact line_feed_notMem_strip hne hinner
  · intro i hi
    rcases List.mem_append.mp hi with hi | hi
    · exact h.readerCells_lt hzero hi
    · exact hcaller i hi

/-- The line `h i LF`, and then nothing. -/
def greeting (p : ℕ) : Option UInt8 := [104, 105, 10][p]?

/-- The reader thread hands the line over and `getInputLine` takes it. -/
theorem inputLine_loses_nothing_greeting : ∃ s, (mailbox greeting).Reachable s ∧
    s.results = [[104, 105]] ∧
    ∃ lines, (∀ n, s.pos ≤ n → lines <+: (fgetsCut greeting n).done) ∧
      s.results = lines.map strip ∧
      (fgetsCut greeting s.pos).done.length ≤ lines.length + 2 := by
  have hzero : ∀ p, greeting p ≠ some 0 := by
    intro p hp
    have hin := List.mem_of_getElem? hp
    exact absurd hin (by decide)
  let s₀ : State :=
    ⟨Block.fresh 512, Block.fresh 512, false, .testing, .idle, 0, []⟩
  let threads := List.replicate 8 Thread.reader ++ List.replicate 8 Thread.caller
  have hrun : (mailbox greeting).Reachable
      (threads.foldl (State.next greeting) s₀) :=
    ⟨s₀, threads, ⟨rfl, rfl, rfl, rfl, rfl, rfl, rfl⟩,
      System.run_foldl (fun _ _ => rfl) s₀ threads⟩
  have hresults : (threads.foldl (State.next greeting) s₀).results =
      [[104, 105]] := by decide +kernel
  exact ⟨_, hrun, hresults, (inputLine_loses_nothing hzero hrun).1⟩

end Socketchat.Console
