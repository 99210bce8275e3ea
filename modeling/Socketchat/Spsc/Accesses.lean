import Socketchat.Spsc.Lossless

/-!
# What one access means to the caller

A side that is inside `read` knows how much it has asked for, and a side that is
inside `write` what it has offered. `Within` and `Of` say so of every moment of
the call; `readerNext_reads` and `writerNext_writes` say what an access changes:
nothing that the other side's call rests on, and nothing that has been returned
or accepted before the last one.
-/

namespace Socketchat.Spsc

open Foundation

/-- Inside a `read` of at most `n` bytes. -/
def ReadStep.Within (n : ℕ) : ReadStep → Prop
  | .idle => True
  | .sizing maxLen => maxLen ≤ n
  | .sizingRead maxLen _ _ => maxLen ≤ n
  | .placing len => len ≤ n
  | .copying dest segs _ => dest.length + (segs.map (·.2)).sum ≤ n

/-- Inside a `write` of these bytes. -/
def WriteStep.Of (offered : List UInt8) : WriteStep → Prop
  | .idle => True
  | .sizing data => data = offered
  | .sizingRead data _ => data = offered
  | .placing data => data <+: offered
  | .copying data _ _ _ => data <+: offered

namespace State

variable {s s' : State}

/-- An access of a `read` of at most `n` bytes. Unless it is the last one, no
byte is returned. -/
structure Reads (n : ℕ) (s s' : State) (bytes : List UInt8) : Prop where
  writing : s'.writing = s.writing
  accepted : s'.accepted = s.accepted
  returned : s'.returned = s.returned ++ bytes
  length_le : bytes.length ≤ n
  within : s'.reading.Within n
  goes_on : s'.reading ≠ .idle → bytes = []

/-- An access of a `write` of these bytes. -/
structure Writes (offered : List UInt8) (s s' : State) (bytes : List UInt8) :
    Prop where
  reading : s'.reading = s.reading
  returned : s'.returned = s.returned
  accepted : s'.accepted = s.accepted ++ bytes
  inOrder : bytes <+: offered
  of : s'.writing.Of offered
  goes_on : s'.writing ≠ .idle → bytes = []

end State

/-! ## The other side's call -/

namespace State

variable (s : State) {s' : State}

theorem startWrite_reading (data : List UInt8) :
    (s.startWrite data).reading = s.reading := by
  unfold startWrite
  split <;> rfl

theorem startRead_writing (maxLen : ℕ) :
    (s.startRead maxLen).writing = s.writing := by
  unfold startRead
  split <;> rfl

variable {s}

theorem writerNext_reading (h : s.writerNext = some s') :
    s'.reading = s.reading := by
  unfold writerNext at h
  split at h
  · cases h
  · cases h
    rfl
  · dsimp only at h
    split at h
    · cases h
      rfl
    · cases h
      rfl
  · cases h
    rfl
  · cases h
    rfl
  · cases h
    rfl

theorem readerNext_writing (h : s.readerNext = some s') :
    s'.writing = s.writing := by
  unfold readerNext at h
  split at h
  · cases h
  · cases h
    rfl
  · dsimp only at h
    generalize (if s.reader.calcSize s.readIndex _ > _ then _ else _) = len at h
    split at h
    · cases h
      rfl
    · cases h
      rfl
  · cases h
    rfl
  · cases h
    rfl
  · cases h
    rfl

end State

/-! ## This side's call -/

section Accesses

variable {s s' : State}

theorem readerNext_reads {n : ℕ} (hn : n < 4294967296)
    (h : s.reading.Within n) (hstep : s.readerNext = some s') :
    ∃ bytes, State.Reads n s s' bytes := by
  rcases s with ⟨memory, writer, reader, writing, reading, accepted, returned⟩
  dsimp only at h
  have hquiet : ∀ r, ReadStep.Within n r → State.Reads n
      ⟨memory, writer, reader, writing, reading, accepted, returned⟩
      ⟨memory, writer, reader, writing, r, accepted, returned⟩ [] :=
    fun r hr => ⟨rfl, rfl, (List.append_nil _).symm, Nat.zero_le _, hr,
      fun _ => rfl⟩
  cases reading with
  | idle => exact absurd hstep (by simp [State.readerNext])
  | sizing maxLen =>
      cases hstep
      exact ⟨[], hquiet _ h⟩
  | sizingRead maxLen writeIndex seen =>
      have hle : maxLen ≤ n := h
      have hcut : ∀ size, (if size > maxLen then maxLen else size) ≤ n := by
        intro size
        split <;> omega
      by_cases hzero : (if reader.calcSize memory.header.mReadIndex
          writeIndex > maxLen then maxLen else reader.calcSize
            memory.header.mReadIndex writeIndex) = 0
      · have hsome := hstep.symm.trans (if_pos hzero)
        cases hsome
        exact ⟨[], hquiet _ trivial⟩
      · have hsome := hstep.symm.trans (if_neg hzero)
        cases hsome
        exact ⟨[], hquiet _ (hcut _)⟩
  | placing len =>
      have hle : len ≤ n := h
      cases hstep
      refine ⟨[], hquiet _ ?_⟩
      show 0 + _ ≤ n
      rw [SPSC.segments_sum _ _ (by omega), Nat.zero_add]
      exact hle
  | copying dest segs next =>
      have hle : dest.length + (segs.map (·.2)).sum ≤ n := h
      cases segs with
      | nil =>
          -- the store: the call returns what has been copied
          cases hstep
          exact ⟨dest, rfl, rfl, rfl, hle, trivial, fun h => absurd rfl h⟩
      | cons seg segs =>
          cases hstep
          refine ⟨[], hquiet _ ?_⟩
          show (dest ++ _).length + _ ≤ n
          rw [List.map_cons, List.sum_cons] at hle
          rw [List.length_append, Block.length_read]
          omega

theorem writerNext_writes {offered : List UInt8} (h : s.writing.Of offered)
    (hstep : s.writerNext = some s') :
    ∃ bytes, State.Writes offered s s' bytes := by
  rcases s with ⟨memory, writer, reader, writing, reading, accepted, returned⟩
  dsimp only at h
  have hquiet : ∀ memory' w, WriteStep.Of offered w → State.Writes offered
      ⟨memory, writer, reader, writing, reading, accepted, returned⟩
      ⟨memory', writer, reader, w, reading, accepted, returned⟩ [] :=
    fun _ w hw => ⟨rfl, rfl, (List.append_nil _).symm, List.nil_prefix, hw,
      fun _ => rfl⟩
  cases writing with
  | idle => exact absurd hstep (by simp [State.writerNext])
  | sizing data =>
      cases hstep
      exact ⟨[], hquiet _ _ h⟩
  | sizingRead data writeIndex =>
      have hdata : data = offered := h
      simp only [State.writerNext] at hstep
      split at hstep
      · cases hstep
        exact ⟨[], hquiet _ _ trivial⟩
      · cases hstep
        refine ⟨[], hquiet _ _ ?_⟩
        rw [← hdata]
        exact List.take_prefix ..
  | placing data =>
      cases hstep
      exact ⟨[], hquiet _ _ h⟩
  | copying data scan segs next =>
      cases segs with
      | nil =>
          cases hstep
          exact ⟨data, rfl, rfl, rfl, h, trivial, fun h => absurd rfl h⟩
      | cons seg segs =>
          cases hstep
          exact ⟨[], hquiet _ _ h⟩

end Accesses

/-! ## Where a call begins -/

section Start

variable {cap : ℕ} {s : State}

theorem Inv.startRead (h : Inv cap s) (maxLen : ℕ) :
    s.startRead maxLen = { s with reading := .sizing maxLen } ∧
      Inv cap (s.startRead maxLen) := by
  have heq : s.startRead maxLen = { s with reading := .sizing maxLen } := by
    rw [State.startRead, if_neg (by rw [h.attached.reader]; exact Bool.noConfusion)]
  rw [heq]
  exact ⟨rfl, h.attached, h.window, h.writing, trivial⟩

theorem Inv.startWrite (h : Inv cap s) (data : List UInt8) :
    s.startWrite data = { s with writing := .sizing data } ∧
      Inv cap (s.startWrite data) := by
  have heq : s.startWrite data = { s with writing := .sizing data } := by
    rw [State.startWrite, if_pos (by rw [h.attached.writer])]
  rw [heq]
  exact ⟨rfl, h.attached, h.window, trivial, h.reading⟩

end Start

end Socketchat.Spsc
