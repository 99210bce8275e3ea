import Socketchat.Spsc.Accesses
import Socketchat.Spsc.Capacity

/-!
# One side alone

A call of `read` or `write` needs nothing from the other side: with its accesses
alone it comes to its end, wherever the other side is in the middle of a call of
its own. `read` returns the first unread bytes, and `write` takes what fits.
-/

namespace Socketchat.Spsc

open Foundation

/-- The reader goes on alone, up to the end of its call. -/
inductive ReadRun : State → State → Prop
  | last {s s' : State} :
      s.readerNext = some s' → s'.reading = .idle → ReadRun s s'
  | step {s s' s'' : State} :
      s.readerNext = some s' → s'.reading ≠ .idle → ReadRun s' s'' →
      ReadRun s s''

/-- The writer goes on alone, up to the end of its call. -/
inductive WriteRun : State → State → Prop
  | last {s s' : State} :
      s.writerNext = some s' → s'.writing = .idle → WriteRun s s'
  | step {s s' s'' : State} :
      s.writerNext = some s' → s'.writing ≠ .idle → WriteRun s' s'' →
      WriteRun s s''

/-! ## The copying -/

section Copying

variable (memory : SharedMemory) (writer reader : SPSC) (writing : WriteStep)
  (reading : ReadStep) (accepted returned : List UInt8)

theorem copyOut_alone (segs : List (ℕ × ℕ)) (next : ℕ) :
    ∀ dest : List UInt8, ∃ s',
      ReadRun ⟨memory, writer, reader, writing, .copying dest segs next,
        accepted, returned⟩ s' ∧ s'.accepted = accepted ∧
      s'.reading = .idle ∧ ∃ bytes, s'.returned = returned ++ bytes ∧
        bytes.length = dest.length + (segs.map (·.2)).sum := by
  induction segs with
  | nil => exact fun dest => ⟨_, .last rfl rfl, rfl, rfl, dest, rfl, rfl⟩
  | cons seg segs ih =>
      obtain ⟨off, len⟩ := seg
      intro dest
      obtain ⟨s', hrun, haccepted, hidle, bytes, hreturned, hlen⟩ :=
        ih (dest ++ memory.base.read off len)
      refine ⟨s', .step rfl (by rintro ⟨⟩) hrun, haccepted, hidle, bytes, hreturned, ?_⟩
      rw [hlen, List.length_append, Block.length_read, List.map_cons,
        List.sum_cons, Nat.add_assoc]

theorem copyIn_alone (data : List UInt8) (segs : List (ℕ × ℕ)) (next : ℕ) :
    ∀ (memory : SharedMemory) (scan : List UInt8), ∃ s',
      WriteRun ⟨memory, writer, reader, .copying data scan segs next, reading,
        accepted, returned⟩ s' ∧ s'.returned = returned ∧
      s'.writing = .idle ∧ s'.accepted = accepted ++ data := by
  induction segs with
  | nil => exact fun memory scan => ⟨_, .last rfl rfl, rfl, rfl, rfl⟩
  | cons seg segs ih =>
      obtain ⟨off, len⟩ := seg
      intro memory scan
      obtain ⟨s', hrun, hrest⟩ :=
        ih { memory with base := memory.base.copy off (scan.take len) }
          (scan.drop len)
      exact ⟨s', .step rfl (by rintro ⟨⟩) hrun, hrest⟩

end Copying

/-- **A `read` always ends**, from wherever it is. -/
theorem readRun_exists {s : State} (hbusy : s.reading ≠ .idle) :
    ∃ s', ReadRun s s' := by
  rcases s with ⟨memory, writer, reader, writing, reading, accepted, returned⟩
  have hcopying : ∀ dest segs next, ∃ s', ReadRun ⟨memory, writer, reader,
      writing, .copying dest segs next, accepted, returned⟩ s' := by
    intro dest segs next
    obtain ⟨s', hrun, -⟩ := copyOut_alone memory writer reader writing accepted
      returned segs next dest
    exact ⟨s', hrun⟩
  have hplacing : ∀ len, ∃ s', ReadRun ⟨memory, writer, reader, writing,
      .placing len, accepted, returned⟩ s' := by
    intro len
    obtain ⟨s', hrun⟩ := hcopying [] _ _
    exact ⟨s', .step rfl (by rintro ⟨⟩) hrun⟩
  have hsizingRead : ∀ maxLen writeIndex seen, ∃ s', ReadRun ⟨memory, writer,
      reader, writing, .sizingRead maxLen writeIndex seen, accepted,
      returned⟩ s' := by
    intro maxLen writeIndex seen
    by_cases hzero : (if reader.calcSize memory.header.mReadIndex
        writeIndex > maxLen then maxLen else reader.calcSize
          memory.header.mReadIndex writeIndex) = 0
    · exact ⟨_, .last (if_pos hzero) rfl⟩
    · obtain ⟨s', hrun⟩ := hplacing _
      exact ⟨s', .step (if_neg hzero) (by rintro ⟨⟩) hrun⟩
  cases reading with
  | idle => exact absurd rfl hbusy
  | sizing maxLen =>
      obtain ⟨s', hrun⟩ := hsizingRead maxLen _ _
      exact ⟨s', .step rfl (by rintro ⟨⟩) hrun⟩
  | sizingRead maxLen writeIndex seen => exact hsizingRead ..
  | placing len => exact hplacing len
  | copying dest segs next => exact hcopying ..

/-- **A `write` always ends**, from wherever it is. -/
theorem writeRun_exists {s : State} (hbusy : s.writing ≠ .idle) :
    ∃ s', WriteRun s s' := by
  rcases s with ⟨memory, writer, reader, writing, reading, accepted, returned⟩
  have hcopying : ∀ data scan segs next, ∃ s', WriteRun ⟨memory, writer, reader,
      .copying data scan segs next, reading, accepted, returned⟩ s' := by
    intro data scan segs next
    obtain ⟨s', hrun, -⟩ := copyIn_alone writer reader reading accepted returned
      data segs next memory scan
    exact ⟨s', hrun⟩
  have hplacing : ∀ data, ∃ s', WriteRun ⟨memory, writer, reader,
      .placing data, reading, accepted, returned⟩ s' := by
    intro data
    obtain ⟨s', hrun⟩ := hcopying data data _ _
    exact ⟨s', .step rfl (by rintro ⟨⟩) hrun⟩
  have hsizingRead : ∀ data writeIndex, ∃ s', WriteRun ⟨memory, writer, reader,
      .sizingRead data writeIndex, reading, accepted, returned⟩ s' := by
    intro data writeIndex
    cases hroom : writer.writeLen (writer.calcSize memory.header.mReadIndex
        writeIndex) data.length with
    | none =>
        refine ⟨⟨memory, writer, reader, .idle, reading, accepted, returned⟩,
          .last ?_ rfl⟩
        simp [State.writerNext, State.readIndex, hroom]
    | some dataLen =>
        obtain ⟨s', hrun⟩ := hplacing (data.take dataLen)
        refine ⟨s', .step ?_ (by rintro ⟨⟩) hrun⟩
        simp [State.writerNext, State.readIndex, hroom]
  cases writing with
  | idle => exact absurd rfl hbusy
  | sizing data =>
      obtain ⟨s', hrun⟩ := hsizingRead data _
      exact ⟨s', .step rfl (by rintro ⟨⟩) hrun⟩
  | sizingRead data writeIndex => exact hsizingRead ..
  | placing data => exact hplacing data
  | copying data scan segs next => exact hcopying ..

/-! ## The calls -/

section Calls

variable {cap : ℕ} (hpos : 0 < cap) (hcap : cap < 4294967296) {s : State}

include hpos hcap

theorem ReadRun.inv {s' : State} (hrun : ReadRun s s') (h : Inv cap s) :
    Inv cap s' := by
  induction hrun with
  | last hstep _ => exact h.readerNext hpos hcap hstep
  | step hstep _ _ ih => exact ih (h.readerNext hpos hcap hstep)

theorem WriteRun.inv {s' : State} (hrun : WriteRun s s') (h : Inv cap s) :
    Inv cap s' := by
  induction hrun with
  | last hstep _ => exact h.writerNext hpos hcap hstep
  | step hstep _ _ ih => exact ih (h.writerNext hpos hcap hstep)

/-- **A `read` that is left alone** returns the first unread bytes. -/
theorem read_alone (h : Inv cap s) {maxLen : ℕ} (hmax : maxLen < 4294967296)
    (hcall : s.reading = .sizing maxLen) :
    ∃ s', ReadRun s s' ∧ s'.reading = .idle ∧
      s'.returned = s.returned ++ s.unread.take maxLen ∧
      s'.unread = s.unread.drop maxLen := by
  have hunread := h.unread_eq hpos hcap
  suffices hcall : ∃ s', ReadRun s s' ∧ s'.reading = .idle ∧
      s'.accepted = s.accepted ∧
      s'.returned = s.returned ++ s.unread.take maxLen by
    obtain ⟨s', hrun, hidle, haccepted, hreturned⟩ := hcall
    refine ⟨s', hrun, hidle, hreturned, ?_⟩
    rw [(hrun.inv hpos hcap h).unread_eq hpos hcap, haccepted, hreturned,
      List.length_append, ← List.drop_drop, ← hunread, List.length_take]
    rcases Nat.le_total maxLen s.unread.length with hle | hge
    · rw [Nat.min_eq_left hle]
    · rw [Nat.min_eq_right hge, List.drop_length,
        List.drop_eq_nil_of_le hge]
  rcases s with ⟨memory, writer, reader, writing, reading, accepted, returned⟩
  dsimp only at hcall hunread
  subst hcall
  have hload : Inv cap ⟨memory, writer, reader, writing,
      .sizingRead maxLen memory.header.mWriteIndex accepted.length, accepted,
      returned⟩ :=
    h.readerNext hpos hcap rfl
  have hsize := (hload.read_size hpos hcap rfl).1
  dsimp only [State.readIndex] at hsize
  have hlen : (if reader.calcSize memory.header.mReadIndex
      memory.header.mWriteIndex > maxLen then maxLen else reader.calcSize
        memory.header.mReadIndex memory.header.mWriteIndex) =
      min maxLen (accepted.drop returned.length).length := by
    rw [List.length_drop]
    split <;> omega
  rw [hunread]
  by_cases hempty : min maxLen (accepted.drop returned.length).length = 0
  · refine ⟨_, .step rfl (by rintro ⟨⟩) (.last (if_pos (hlen.trans hempty)) rfl), rfl,
      rfl, ?_⟩
    rw [List.take_eq_take_min, hempty, List.take_zero, List.append_nil]
  · have hplace : State.readerNext ⟨memory, writer, reader, writing,
        .sizingRead maxLen memory.header.mWriteIndex accepted.length, accepted,
        returned⟩ = some ⟨memory, writer, reader, writing,
        .placing (min maxLen (accepted.drop returned.length).length), accepted,
        returned⟩ :=
      (if_neg fun hzero => hempty (hlen.symm.trans hzero)).trans
        (congrArg (fun len => some (State.mk memory writer reader writing
          (.placing len) accepted returned)) hlen)
    obtain ⟨s', hrun, haccepted, hidle, bytes, hreturned, hbytes⟩ :=
      copyOut_alone memory writer reader writing accepted returned
        (reader.segments memory.header.mReadIndex
          (min maxLen (accepted.drop returned.length).length))
        (reader.nextIndex memory.header.mReadIndex
          (min maxLen (accepted.drop returned.length).length)) []
    have hall : ReadRun ⟨memory, writer, reader, writing, .sizing maxLen,
        accepted, returned⟩ s' :=
      .step rfl (by rintro ⟨⟩) (.step hplace (by rintro ⟨⟩) (.step rfl (by rintro ⟨⟩) hrun))
    refine ⟨s', hall, hidle, haccepted, ?_⟩
    rw [SPSC.segments_sum _ _ (by omega), List.length_nil,
      Nat.zero_add] at hbytes
    -- what has been returned in the end is a first part of what was accepted
    have hpre := (hall.inv hpos hcap h).window.inOrder
    rw [haccepted, hreturned] at hpre
    obtain ⟨rest, hrest⟩ := hpre
    rw [hreturned, List.take_eq_take_min, ← hbytes, ← hrest,
      List.append_assoc, List.drop_left, List.take_left]

/-- **A `write` that is left alone** takes what fits, and that leaves two bytes
of the ring free. -/
theorem write_alone (h : Inv cap s) {data : List UInt8}
    (hcall : s.writing = .sizing data) :
    ∃ s', WriteRun s s' ∧ s'.writing = .idle ∧
      s'.accepted = s.accepted ++ data.take (cap - s.unread.length - 2) ∧
      s'.unread = s.unread ++ data.take (cap - s.unread.length - 2) := by
  have hunread := h.unread_eq hpos hcap
  suffices hcall : ∃ s', WriteRun s s' ∧ s'.writing = .idle ∧
      s'.returned = s.returned ∧ s'.accepted =
        s.accepted ++ data.take (cap - s.unread.length - 2) by
    obtain ⟨s', hrun, hidle, hreturned, haccepted⟩ := hcall
    refine ⟨s', hrun, hidle, haccepted, ?_⟩
    rw [(hrun.inv hpos hcap h).unread_eq hpos hcap, haccepted, hreturned,
      List.drop_append_of_le_length h.window.le, ← hunread]
  have hwriter := h.attached.writer
  rcases s with ⟨memory, writer, reader, writing, reading, accepted, returned⟩
  dsimp only at hcall hunread hwriter
  subst hcall
  have hload : Inv cap ⟨memory, writer, reader,
      .sizingRead data memory.header.mWriteIndex, reading, accepted,
      returned⟩ :=
    h.writerNext hpos hcap rfl
  have hsize := hload.write_size hpos hcap rfl
  have hlt := h.window.lt hpos
  dsimp only [State.readIndex] at hsize hlt
  have hlen : (accepted.drop returned.length).length =
      writer.calcSize memory.header.mReadIndex memory.header.mWriteIndex := by
    rw [List.length_drop]
    omega
  have hcapacity : writer.mCapacity = cap := by rw [hwriter]
  have hsizeLe : writer.calcSize memory.header.mReadIndex
      memory.header.mWriteIndex ≤ writer.mCapacity := by omega
  have htake := SPSC.writeLen_eq (by omega) hsizeLe data.length
  rw [hcapacity] at htake
  rw [hunread, hlen]
  cases hroom : writer.writeLen (writer.calcSize memory.header.mReadIndex
      memory.header.mWriteIndex) data.length with
  | none =>
      rw [hroom] at htake
      have hfull : cap - writer.calcSize memory.header.mReadIndex
          memory.header.mWriteIndex - 1 = 0 := by
        by_contra hne
        rw [if_neg hne] at htake
        cases htake
      have hreturn : State.writerNext ⟨memory, writer, reader,
          .sizingRead data memory.header.mWriteIndex, reading, accepted,
          returned⟩ = some ⟨memory, writer, reader, .idle, reading, accepted,
          returned⟩ := by
        simp [State.writerNext, State.readIndex, hroom]
      refine ⟨_, .step rfl (by rintro ⟨⟩) (.last hreturn rfl), rfl, rfl, ?_⟩
      rw [show cap - writer.calcSize memory.header.mReadIndex
        memory.header.mWriteIndex - 2 = 0 by omega, List.take_zero,
        List.append_nil]
  | some dataLen =>
      rw [hroom] at htake
      have hdataLen : dataLen = min data.length (cap - writer.calcSize
          memory.header.mReadIndex memory.header.mWriteIndex - 2) := by
        split at htake
        · cases htake
        · exact Option.some.inj htake
      have hplace : State.writerNext ⟨memory, writer, reader,
          .sizingRead data memory.header.mWriteIndex, reading, accepted,
          returned⟩ = some ⟨memory, writer, reader,
          .placing (data.take dataLen), reading, accepted, returned⟩ := by
        simp [State.writerNext, State.readIndex, hroom]
      obtain ⟨s', hrun, hreturned, hidle, haccepted⟩ :=
        copyIn_alone writer reader reading accepted returned
          (data.take dataLen) _ _ memory (data.take dataLen)
      refine ⟨s', .step rfl (by rintro ⟨⟩) (.step hplace (by rintro ⟨⟩) (.step rfl (by rintro ⟨⟩) hrun)),
        hidle, hreturned, ?_⟩
      rw [haccepted, hdataLen, Nat.min_comm, ← List.take_eq_take_min]

end Calls

end Socketchat.Spsc
