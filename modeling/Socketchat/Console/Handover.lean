import Socketchat.Console.InputLine

/-!
# The hand-over

The buffer belongs to the reader thread while the flag is down and to
`getInputLine` while it is up. At any time the chunks cut so far are those that
have been returned, at most one that `getInputLine` is about to return, and at
most one in the input buffer (`Inv`).
-/

namespace Socketchat.Console

open Foundation

/-! ## Strings in buffers -/

/-- The buffer holds this string and a terminator. -/
def Holds (m : Block UInt8) (x : List UInt8) : Prop :=
  m.read 0 (x.length + 1) = x ++ [0]

theorem holds_copy {m : Block UInt8} {x : List UInt8} {n : ℕ}
    (hlen : x.length = n) (hread : m.read 0 n = x) :
    Holds (m.copy n [0]) x := by
  have happend := m.read_copy_append n [0]
  rw [hread] at happend
  unfold Holds
  rw [hlen]
  exact happend

theorem Holds.read {m : Block UInt8} {x : List UInt8} (h : Holds m x) {i : ℕ}
    (hi : i ≤ x.length) : m.read 0 i = x.take i := by
  have htake := congrArg (List.take i) h
  rw [Block.read_take _ _ _ _ (by omega), List.take_append_of_le_length hi]
    at htake
  exact htake

theorem Holds.cell {m : Block UInt8} {x : List UInt8} (h : Holds m x) {i : ℕ}
    (hi : i ≤ x.length) : some (m.cell i) = (x ++ [0])[i]? := by
  have hget := congrArg (·[i]?) h
  simp only [Block.getElem?_read, if_pos (show i < x.length + 1 by omega),
    Nat.zero_add] at hget
  exact hget

/-- The string a buffer holds is the one in it. -/
theorem Holds.string_eq {m : Block UInt8} {x : List UInt8} (h : Holds m x)
    (hfit : x.length < m.size) (hzero : (0 : UInt8) ∉ x) : string m = x := by
  obtain ⟨k, hk⟩ := Nat.exists_eq_add_of_le (show x.length + 1 ≤ m.size from hfit)
  have hall : ∀ c ∈ x, decide (c ≠ 0) = true := by
    intro c hc
    have hne : c ≠ 0 := fun h0 => hzero (h0 ▸ hc)
    simpa using hne
  unfold string
  rw [hk, Block.read_append, h, List.append_assoc, List.takeWhile_append_of_pos
    hall]
  simp

/-! ## Who holds which chunk -/

namespace State

/-- What the reader thread has done to the chunk `cur` it is reading and to the
one in `mInputBuffer`, if there is one in `box`. -/
def ReaderHolds (s : State) (cur : List UInt8) (box : List (List UInt8)) :
    Prop :=
  match s.reader with
  | .testing => cur = [] ∧
      if s.mHaveNewData then ∃ x, box = [x] ∧ Holds s.mInputBuffer x
      else box = []
  | .clearing => s.mHaveNewData = false ∧ cur = [] ∧ box = []
  | .reading n => s.mHaveNewData = false ∧ box = [] ∧ cur.length = n ∧
      s.mInputBuffer.read 0 n = cur
  | .terminating n => s.mHaveNewData = false ∧ cur = [] ∧
      ∃ x, box = [x] ∧ x.length = n ∧ s.mInputBuffer.read 0 n = x
  | .measuring => s.mHaveNewData = false ∧ cur = [] ∧
      ∃ x, box = [x] ∧ Holds s.mInputBuffer x
  | .posting => s.mHaveNewData = false ∧ cur = [] ∧
      ∃ x, box = [x] ∧ Holds s.mInputBuffer x

/-- What `getInputLine` has done to the chunk in `box`, or to the one in `ret`
that it has taken from there. -/
def CallerHolds (s : State) (ret box : List (List UInt8)) : Prop :=
  match s.caller with
  | .idle => ret = []
  | .copying i => s.mHaveNewData = true ∧ ret = [] ∧
      ∃ x, box = [x] ∧ i ≤ x.length ∧ s.mResultBuffer.read 0 i = x.take i
  | .stripping => s.mHaveNewData = true ∧ ret = [] ∧
      ∃ x, box = [x] ∧ Holds s.mResultBuffer x
  | .releasing => s.mHaveNewData = true ∧ ret = [] ∧
      ∃ x, box = [x] ∧ Holds s.mResultBuffer (strip x)
  | .returning => ∃ x, ret = [x] ∧ Holds s.mResultBuffer (strip x)

/-- The chunks cut so far: the ones returned, the one `getInputLine` is about
to return and the one in `mInputBuffer`. -/
structure Inv (stdin : ℕ → Option UInt8) (s : State) : Prop where
  input_size : s.mInputBuffer.size = MAX_INPUT
  result_size : s.mResultBuffer.size = MAX_INPUT
  handover : ∃ out ret box, s.results = out.map strip ∧
    (fgetsCut stdin s.pos).done = out ++ (ret ++ box) ∧
    s.ReaderHolds (fgetsCut stdin s.pos).cur box ∧ s.CallerHolds ret box

variable {stdin : ℕ → Option UInt8} {s : State}

theorem ReaderHolds.testing_of_flag {cur : List UInt8}
    {box : List (List UInt8)} (h : s.ReaderHolds cur box)
    (hflag : s.mHaveNewData = true) : s.reader = .testing := by
  unfold ReaderHolds at h
  cases hreader : s.reader with
  | testing => rfl
  | _ =>
      simp only [hreader, hflag] at h
      exact absurd h.1 (by decide)

theorem CallerHolds.of_not_flag {ret box : List (List UInt8)}
    (h : s.CallerHolds ret box) (hflag : s.mHaveNewData = false) :
    s.caller = .idle ∨ s.caller = .returning := by
  unfold CallerHolds at h
  cases hcaller : s.caller with
  | idle => exact Or.inl rfl
  | returning => exact Or.inr rfl
  | _ =>
      simp only [hcaller, hflag] at h
      exact absurd h.1 (by decide)

/-- While the flag is down, what the reader thread does is nothing to
`getInputLine`. -/
theorem CallerHolds.frame {s' : State} {ret box box' : List (List UInt8)}
    (h : s.CallerHolds ret box) (hflag : s.mHaveNewData = false)
    (hcaller : s'.caller = s.caller)
    (hresult : s'.mResultBuffer = s.mResultBuffer) :
    s'.CallerHolds ret box' := by
  rcases h.of_not_flag hflag with hidle | hreturning
  · simpa only [CallerHolds, hcaller, hidle] using h
  · simpa only [CallerHolds, hcaller, hreturning, hresult] using h

end State

/-! ## The lines of an input -/

section Lines

variable {stdin : ℕ → Option UInt8}

theorem fgetsCut_succ (stdin : ℕ → Option UInt8) (n : ℕ) :
    fgetsCut stdin (n + 1) =
      (fgetsCut stdin n).feed (MAX_INPUT - 1) (fun c => c = 10) (stdin n) := by
  unfold fgetsCut
  rw [List.range_succ, List.map_append, List.map_singleton, chunks_snoc]

theorem fgetsCut_proper (stdin : ℕ → Option UInt8) (n : ℕ) :
    (fgetsCut stdin n).Proper (MAX_INPUT - 1) fun c => c = 10 :=
  chunks_proper (by decide) _

/-- What has been cut stays cut. -/
theorem fgetsCut_mono (stdin : ℕ → Option UInt8) {m n : ℕ} (h : m ≤ n) :
    (fgetsCut stdin m).done <+: (fgetsCut stdin n).done := by
  obtain ⟨k, rfl⟩ := Nat.exists_eq_add_of_le h
  unfold fgetsCut
  rw [List.range_add, List.map_append]
  exact chunks_prefix ..

/-- A line of an input without zeros. -/
theorem line_of_mem (hzero : ∀ p, stdin p ≠ some 0) {n : ℕ} {x : List UInt8}
    (hx : x ∈ (fgetsCut stdin n).done) :
    x ≠ [] ∧ x.length < MAX_INPUT ∧ (0 : UInt8) ∉ x ∧
      (10 : UInt8) ∉ x.dropLast := by
  have hchunk := (fgetsCut_proper stdin n).done x hx
  have hlen : x.length ≤ MAX_INPUT - 1 := hchunk.length_le
  have hmax : MAX_INPUT = 512 := rfl
  refine ⟨hchunk.ne_nil, by omega, fun h0 => ?_, fun h10 => ?_⟩
  · obtain ⟨p, -, hp⟩ := List.mem_map.mp (mem_of_mem_chunks hx h0)
    exact hzero p hp
  · exact absurd (hchunk.inner 10 h10) (by decide)

theorem strip_eq {x : List UInt8} (hne : x ≠ []) :
    strip x = if x.getLast hne = 10 then x.dropLast else x := by
  simp only [strip, List.getLast?_eq_some_getLast hne, Option.some.injEq]

theorem strip_sublist (x : List UInt8) : (strip x).Sublist x := by
  unfold strip
  split
  · exact List.dropLast_sublist x
  · exact .refl x

/-- Nothing but the last character can have been a line feed. -/
theorem line_feed_notMem_strip {x : List UInt8} (hne : x ≠ [])
    (hinner : (10 : UInt8) ∉ x.dropLast) : (10 : UInt8) ∉ strip x := by
  rw [strip_eq hne]
  split
  · exact hinner
  · rename_i hlast
    intro hin
    rw [← List.dropLast_append_getLast hne] at hin
    rcases List.mem_append.mp hin with hin | hin
    · exact hinner hin
    · exact hlast (List.mem_singleton.mp hin).symm

end Lines

/-! ## The steps of the reader thread -/

namespace State

variable {stdin : ℕ → Option UInt8} {s : State}

theorem ReaderHolds.reading {cur : List UInt8} {box : List (List UInt8)}
    (h : s.ReaderHolds cur box) {n : ℕ} (hreader : s.reader = .reading n) :
    s.mHaveNewData = false ∧ box = [] ∧ cur.length = n ∧
      s.mInputBuffer.read 0 n = cur := by
  simpa only [ReaderHolds, hreader] using h

/-- There is no character: a chunk that has been begun ends. -/
theorem Inv.read_none (h : s.Inv stdin) {n : ℕ} (hreader : s.reader = .reading n)
    (hchar : stdin s.pos = none) : (s.readerNext stdin).Inv stdin := by
  obtain ⟨hinput, hresult, out, ret, box, hout, hdone, hholds, hcaller⟩ := h
  obtain ⟨hflag, rfl, hlen, hread⟩ := hholds.reading hreader
  rw [List.append_nil] at hdone
  have hcut := fgetsCut_succ stdin s.pos
  have hnext : s.readerNext stdin =
      { s with
        reader := if n = 0 then .testing else .terminating n
        pos := s.pos + 1 } := by
    simp only [readerNext, hreader, hchar]
  rw [hnext]
  -- `fgets` returns null if there was no character at all
  by_cases hzero : n = 0
  · have hnil : (fgetsCut stdin s.pos).cur = [] :=
      List.eq_nil_of_length_eq_zero (hlen.trans hzero)
    rw [hchar, Cut.feed, if_pos hnil] at hcut
    refine ⟨hinput, hresult, out, ret, [], hout, ?_, ?_,
      hcaller.frame hflag rfl rfl⟩
    · rw [List.append_nil]
      exact (congrArg Cut.done hcut).trans hdone
    · simp only [ReaderHolds, if_pos hzero, hflag, hcut, hnil]
      simp
  · have hne : (fgetsCut stdin s.pos).cur ≠ [] := by
      intro hnil
      rw [hnil] at hlen
      exact hzero hlen.symm
    rw [hchar, Cut.feed, if_neg hne] at hcut
    refine ⟨hinput, hresult, out, ret, [(fgetsCut stdin s.pos).cur], hout,
      ?_, ?_, hcaller.frame hflag rfl rfl⟩
    · rw [← List.append_assoc, ← hdone]
      exact congrArg Cut.done hcut
    · simp only [ReaderHolds, if_neg hzero]
      exact ⟨hflag, congrArg Cut.cur hcut, _, rfl, hlen, hread⟩

/-- A character is read: it ends its chunk, or not. -/
theorem Inv.read_some (h : s.Inv stdin) {n : ℕ} (hreader : s.reader = .reading n)
    {c : UInt8} (hchar : stdin s.pos = some c) :
    (s.readerNext stdin).Inv stdin := by
  obtain ⟨hinput, hresult, out, ret, box, hout, hdone, hholds, hcaller⟩ := h
  obtain ⟨hflag, rfl, hlen, hread⟩ := hholds.reading hreader
  rw [List.append_nil] at hdone
  have hcut := fgetsCut_succ stdin s.pos
  have hnext : s.readerNext stdin =
      { s with
        mInputBuffer := s.mInputBuffer.copy n [c]
        reader := if c = 10 ∨ n + 1 = MAX_INPUT - 1 then
            .terminating (n + 1)
          else
            .reading (n + 1)
        pos := s.pos + 1 } := by
    simp only [readerNext, hreader, hchar]
  have hread' : (s.mInputBuffer.copy n [c]).read 0 (n + 1) =
      (fgetsCut stdin s.pos).cur ++ [c] := by
    have happend := s.mInputBuffer.read_copy_append n [c]
    rw [hread] at happend
    exact happend
  have hlen' : ((fgetsCut stdin s.pos).cur ++ [c]).length = n + 1 := by
    rw [List.length_append, hlen, List.length_singleton]
  rw [hnext]
  by_cases hends : c = 10 ∨ n + 1 = MAX_INPUT - 1
  · have hends' : decide (c = 10) = true ∨
        (fgetsCut stdin s.pos).cur.length + 1 = MAX_INPUT - 1 := by
      rw [hlen]
      simpa using hends
    rw [hchar, Cut.feed, if_pos hends'] at hcut
    refine ⟨hinput, hresult, out, ret, [(fgetsCut stdin s.pos).cur ++ [c]],
      hout, ?_, ?_, hcaller.frame hflag rfl rfl⟩
    · rw [← List.append_assoc, ← hdone]
      exact congrArg Cut.done hcut
    · simp only [ReaderHolds, if_pos hends]
      exact ⟨hflag, congrArg Cut.cur hcut, _, rfl, hlen', hread'⟩
  · have hgoes : ¬ (decide (c = 10) = true ∨
        (fgetsCut stdin s.pos).cur.length + 1 = MAX_INPUT - 1) := by
      rw [hlen]
      simpa using hends
    rw [hchar, Cut.feed, if_neg hgoes] at hcut
    refine ⟨hinput, hresult, out, ret, [], hout, ?_, ?_,
      hcaller.frame hflag rfl rfl⟩
    · rw [List.append_nil]
      exact (congrArg Cut.done hcut).trans hdone
    · simp only [ReaderHolds, if_neg hends, hcut]
      exact ⟨hflag, trivial, hlen', hread'⟩

/-- **The reader thread** keeps the invariant. -/
theorem Inv.readerNext (h : s.Inv stdin) (hzero : ∀ p, stdin p ≠ some 0) :
    (s.readerNext stdin).Inv stdin := by
  obtain ⟨hinput, hresult, out, ret, box, hout, hdone, hholds, hcaller⟩ := id h
  have hline : ∀ x ∈ box, x ≠ [] ∧ x.length < MAX_INPUT ∧ (0 : UInt8) ∉ x ∧
      (10 : UInt8) ∉ x.dropLast := by
    intro x hx
    refine line_of_mem hzero (n := s.pos) ?_
    rw [hdone]
    exact List.mem_append_right _ (List.mem_append_right _ hx)
  cases hreader : s.reader with
  | testing =>
      cases hflag : s.mHaveNewData with
      | true =>
          have hnext : s.readerNext stdin = s := by
            simp only [State.readerNext, hreader, hflag, if_pos]
          rw [hnext]
          exact h
      | false =>
          have hnext : s.readerNext stdin = { s with reader := .clearing } := by
            simp [State.readerNext, hreader, hflag]
          obtain ⟨hcur, hbox⟩ : (fgetsCut stdin s.pos).cur = [] ∧ box = [] := by
            simpa [ReaderHolds, hreader, hflag] using hholds
          rw [hnext]
          exact ⟨hinput, hresult, out, ret, box, hout, hdone,
            ⟨hflag, hcur, hbox⟩, hcaller.frame hflag rfl rfl⟩
  | clearing =>
      obtain ⟨hflag, hcur, hbox⟩ : s.mHaveNewData = false ∧
          (fgetsCut stdin s.pos).cur = [] ∧ box = [] := by
        simpa only [ReaderHolds, hreader] using hholds
      have hnext : s.readerNext stdin =
          { s with
            mInputBuffer := s.mInputBuffer.copy 0 [0]
            reader := .reading 0 } := by
        simp only [State.readerNext, hreader]
      rw [hnext]
      exact ⟨hinput, hresult, out, ret, box, hout, hdone,
        ⟨hflag, hbox, congrArg List.length hcur, hcur.symm⟩,
        hcaller.frame hflag rfl rfl⟩
  | reading n =>
      cases hchar : stdin s.pos with
      | none => exact h.read_none hreader hchar
      | some c => exact h.read_some hreader hchar
  | terminating n =>
      obtain ⟨hflag, hcur, x, hbox, hlen, hread⟩ :
          s.mHaveNewData = false ∧ (fgetsCut stdin s.pos).cur = [] ∧
            ∃ x, box = [x] ∧ x.length = n ∧ s.mInputBuffer.read 0 n = x := by
        simpa only [ReaderHolds, hreader] using hholds
      have hnext : s.readerNext stdin =
          { s with
            mInputBuffer := s.mInputBuffer.copy n [0]
            reader := .measuring } := by
        simp only [State.readerNext, hreader]
      rw [hnext]
      exact ⟨hinput, hresult, out, ret, box, hout, hdone,
        ⟨hflag, hcur, x, hbox, holds_copy hlen hread⟩,
        hcaller.frame hflag rfl rfl⟩
  | measuring =>
      obtain ⟨hflag, hcur, x, hbox, hx⟩ :
          s.mHaveNewData = false ∧ (fgetsCut stdin s.pos).cur = [] ∧
            ∃ x, box = [x] ∧ Holds s.mInputBuffer x := by
        simpa only [ReaderHolds, hreader] using hholds
      obtain ⟨hne, hfit, hfree, -⟩ := hline x (by simp [hbox])
      -- a chunk has characters and none of them is zero
      have hlen : strlen s.mInputBuffer ≠ 0 := by
        rw [strlen, hx.string_eq (by omega) hfree]
        exact fun hnil => hne (List.eq_nil_of_length_eq_zero hnil)
      have hnext : s.readerNext stdin = { s with reader := .posting } := by
        simp only [State.readerNext, hreader, if_pos hlen]
      rw [hnext]
      exact ⟨hinput, hresult, out, ret, box, hout, hdone,
        ⟨hflag, hcur, x, hbox, hx⟩, hcaller.frame hflag rfl rfl⟩
  | posting =>
      obtain ⟨hflag, hcur, x, hbox, hx⟩ :
          s.mHaveNewData = false ∧ (fgetsCut stdin s.pos).cur = [] ∧
            ∃ x, box = [x] ∧ Holds s.mInputBuffer x := by
        simpa only [ReaderHolds, hreader] using hholds
      have hnext : s.readerNext stdin =
          { s with mHaveNewData := true, reader := .testing } := by
        simp only [State.readerNext, hreader]
      rw [hnext]
      exact ⟨hinput, hresult, out, ret, box, hout, hdone,
        ⟨hcur, x, hbox, hx⟩, hcaller.frame hflag rfl rfl⟩

/-! ## The steps of `getInputLine` -/

/-- The chunk in the buffer while the flag is up. -/
theorem ReaderHolds.box_of_flag {cur : List UInt8} {box : List (List UInt8)}
    (h : s.ReaderHolds cur box) (hflag : s.mHaveNewData = true) :
    ∃ x, box = [x] ∧ Holds s.mInputBuffer x := by
  have htesting := h.testing_of_flag hflag
  simp only [ReaderHolds, htesting, hflag, if_true] at h
  exact h.2

/-- The line feed at the end is overwritten. -/
theorem holds_strip {m : Block UInt8} {x : List UInt8} (h : Holds m x)
    (hne : x ≠ []) :
    Holds (if x.length ≠ 0 ∧ m.cell (x.length - 1) = 10 then
      m.copy (x.length - 1) [0] else m) (strip x) := by
  have hpos : 0 < x.length := List.length_pos_iff.mpr hne
  have hlast : m.cell (x.length - 1) = x.getLast hne := by
    have hcell := h.cell (i := x.length - 1) (by omega)
    rw [List.getElem?_append_left (by omega), ← List.getLast?_eq_getElem?,
      List.getLast?_eq_some_getLast hne] at hcell
    exact Option.some.inj hcell
  rw [strip_eq hne, hlast]
  by_cases hfeed : x.getLast hne = 10
  · rw [if_pos ⟨by omega, hfeed⟩, if_pos hfeed]
    refine holds_copy (by simp) ?_
    rw [h.read (by omega), List.dropLast_eq_take]
  · rw [if_neg (fun hboth => hfeed hboth.2), if_neg hfeed]
    exact h

/-- `strcpy` copies one more character, and ends behind the terminator. -/
theorem Inv.copy (h : s.Inv stdin) (hzero : ∀ p, stdin p ≠ some 0) {i : ℕ}
    (hcopying : s.caller = .copying i) : s.callerNext.Inv stdin := by
  obtain ⟨hinput, hresult, out, ret, box, hout, hdone, hholds, hcaller⟩ := h
  obtain ⟨hflag, hret, x, hbox, hi, hread⟩ :
      s.mHaveNewData = true ∧ ret = [] ∧
        ∃ x, box = [x] ∧ i ≤ x.length ∧
          s.mResultBuffer.read 0 i = x.take i := by
    simpa only [CallerHolds, hcopying] using hcaller
  obtain ⟨x', hbox', hx⟩ := hholds.box_of_flag hflag
  obtain rfl : x = x' := by
    rw [hbox] at hbox'
    exact (List.cons.inj hbox').1
  have hfree : (0 : UInt8) ∉ x := by
    refine (line_of_mem hzero (n := s.pos) ?_).2.2.1
    simp [hdone, hbox]
  have hcell := hx.cell hi
  rcases Nat.lt_or_eq_of_le hi with hlt | rfl
  · rw [List.getElem?_append_left hlt, List.getElem?_eq_getElem hlt,
      Option.some.injEq] at hcell
    have hne : x[i] ≠ 0 := fun h0 => hfree (h0 ▸ List.getElem_mem hlt)
    have hnext : s.callerNext =
        { s with
          mResultBuffer := s.mResultBuffer.copy i [x[i]]
          caller := .copying (i + 1) } := by
      simp only [State.callerNext, hcopying, hcell, if_neg hne]
    have hread' : (s.mResultBuffer.copy i [x[i]]).read 0 (i + 1) =
        x.take (i + 1) := by
      have happend := s.mResultBuffer.read_copy_append i [x[i]]
      rw [hread, ← List.take_succ_eq_append_getElem hlt] at happend
      exact happend
    rw [hnext]
    exact ⟨hinput, hresult, out, ret, box, hout, hdone, hholds,
      ⟨hflag, hret, x, hbox, hlt, hread'⟩⟩
  · -- the terminator
    have hend : s.mInputBuffer.cell x.length = 0 := by simpa using hcell
    have hnext : s.callerNext =
        { s with
          mResultBuffer := s.mResultBuffer.copy x.length [0]
          caller := .stripping } := by
      simp only [State.callerNext, hcopying, hend, if_true]
    rw [hnext]
    refine ⟨hinput, hresult, out, ret, box, hout, hdone, hholds,
      ⟨hflag, hret, x, hbox, holds_copy rfl ?_⟩⟩
    rw [hread, List.take_length]

/-- **`getInputLine`** keeps the invariant. -/
theorem Inv.callerNext (h : s.Inv stdin) (hzero : ∀ p, stdin p ≠ some 0) :
    s.callerNext.Inv stdin := by
  obtain ⟨hinput, hresult, out, ret, box, hout, hdone, hholds, hcaller⟩ := id h
  have hline : ∀ x ∈ ret ++ box, x ≠ [] ∧ x.length < MAX_INPUT ∧
      (0 : UInt8) ∉ x ∧ (10 : UInt8) ∉ x.dropLast := by
    intro x hx
    refine line_of_mem hzero (n := s.pos) ?_
    rw [hdone]
    exact List.mem_append_right _ hx
  cases hstep : s.caller with
  | idle =>
      have hret : ret = [] := by
        simpa only [CallerHolds, hstep] using hcaller
      cases hflag : s.mHaveNewData with
      | true =>
          have hnext : s.callerNext = { s with caller := .copying 0 } := by
            simp only [State.callerNext, hstep, hflag, if_true]
          obtain ⟨x, hbox, -⟩ := hholds.box_of_flag hflag
          rw [hnext]
          exact ⟨hinput, hresult, out, ret, box, hout, hdone, hholds,
            ⟨hflag, hret, x, hbox, Nat.zero_le _, rfl⟩⟩
      | false =>
          have hnext : s.callerNext = s := by
            simp [State.callerNext, hstep, hflag]
          rw [hnext]
          exact h
  | copying i => exact h.copy hzero hstep
  | stripping =>
      obtain ⟨hflag, hret, x, hbox, hx⟩ : s.mHaveNewData = true ∧ ret = [] ∧
          ∃ x, box = [x] ∧ Holds s.mResultBuffer x := by
        simpa only [CallerHolds, hstep] using hcaller
      obtain ⟨hne, hfit, hfree, -⟩ := hline x (by simp [hbox])
      have hlen : strlen s.mResultBuffer = x.length := by
        rw [strlen, hx.string_eq (by omega) hfree]
      have hnext : s.callerNext =
          { s with
            mResultBuffer :=
              if x.length ≠ 0 ∧ s.mResultBuffer.cell (x.length - 1) = 10 then
                s.mResultBuffer.copy (x.length - 1) [0]
              else
                s.mResultBuffer
            caller := .releasing } := by
        simp only [State.callerNext, hstep, hlen]
      rw [hnext]
      refine ⟨hinput, ?_, out, ret, box, hout, hdone, hholds,
        ⟨hflag, hret, x, hbox, holds_strip hx hne⟩⟩
      dsimp only
      split
      · exact hresult
      · exact hresult
  | releasing =>
      obtain ⟨hflag, rfl, x, rfl, hx⟩ : s.mHaveNewData = true ∧ ret = [] ∧
          ∃ x, box = [x] ∧ Holds s.mResultBuffer (strip x) := by
        simpa only [CallerHolds, hstep] using hcaller
      have htesting := hholds.testing_of_flag hflag
      have hcur : (fgetsCut stdin s.pos).cur = [] := by
        simp only [ReaderHolds, htesting] at hholds
        exact hholds.1
      have hnext : s.callerNext =
          { s with mHaveNewData := false, caller := .returning } := by
        simp only [State.callerNext, hstep]
      rw [hnext]
      -- the reader thread may overwrite `mInputBuffer` from here on
      refine ⟨hinput, hresult, out, [x], [], hout, hdone, ?_, ⟨x, rfl, hx⟩⟩
      simp only [ReaderHolds, htesting]
      exact ⟨hcur, by simp⟩
  | returning =>
      obtain ⟨x, rfl, hx⟩ : ∃ x, ret = [x] ∧
          Holds s.mResultBuffer (strip x) := by
        simpa only [CallerHolds, hstep] using hcaller
      obtain ⟨hne, hfit, hfree, -⟩ := hline x (by simp)
      have hsub := strip_sublist x
      have hstring : string s.mResultBuffer = strip x := by
        have hlen := hsub.length_le
        exact hx.string_eq (by omega) fun h0 => hfree (hsub.subset h0)
      have hnext : s.callerNext =
          { s with caller := .idle, results := s.results ++ [strip x] } := by
        simp only [State.callerNext, hstep, hstring]
      rw [hnext]
      refine ⟨hinput, hresult, out ++ [x], [], box, ?_, ?_, hholds, rfl⟩
      · rw [List.map_append, List.map_singleton, hout]
      · rw [List.append_assoc]
        exact hdone

/-! ## What the invariant says -/

theorem ReaderHolds.length_box_le {cur : List UInt8}
    {box : List (List UInt8)} (h : s.ReaderHolds cur box) : box.length ≤ 1 := by
  unfold ReaderHolds at h
  split at h
  · obtain ⟨-, h⟩ := h
    split at h
    · obtain ⟨x, rfl, -⟩ := h
      exact Nat.le_refl 1
    · rw [h]
      exact Nat.zero_le 1
  · rw [h.2.2]
    exact Nat.zero_le 1
  · rw [h.2.1]
    exact Nat.zero_le 1
  · obtain ⟨-, -, x, rfl, -⟩ := h
    exact Nat.le_refl 1
  · obtain ⟨-, -, x, rfl, -⟩ := h
    exact Nat.le_refl 1
  · obtain ⟨-, -, x, rfl, -⟩ := h
    exact Nat.le_refl 1

theorem CallerHolds.length_ret_le {ret box : List (List UInt8)}
    (h : s.CallerHolds ret box) : ret.length ≤ 1 := by
  unfold CallerHolds at h
  split at h
  · rw [h]
    exact Nat.zero_le 1
  · rw [h.2.1]
    exact Nat.zero_le 1
  · rw [h.2.1]
    exact Nat.zero_le 1
  · rw [h.2.1]
    exact Nat.zero_le 1
  · obtain ⟨x, rfl, -⟩ := h
    exact Nat.le_refl 1

end State

end Socketchat.Console
