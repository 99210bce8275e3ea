import Socketchat.Spsc.Indices

/-!
# The invariant of the shared-memory ring

Counted in bytes since the start, the ring is a window: the reader is at byte
`returned.length`, the writer at byte `accepted.length`, at least two cells
short of a full turn ahead. The indices are these counts taken around the
ring. Each side knows its own count and an earlier value of the other one's,
which only makes the part of the ring it works in smaller.
-/

namespace Socketchat.Spsc

open Foundation

/-- Both sides are attached to a ring of `cap` bytes. -/
structure Attached (cap : ℕ) (memory : SharedMemory) (writer reader : SPSC) :
    Prop where
  base : memory.base.size = cap
  writer : writer = ⟨true, cap, true⟩
  reader : reader = ⟨true, cap, false⟩

/-- The unread bytes are in the ring, and the indices delimit them. -/
structure Window (cap : ℕ) (memory : SharedMemory)
    (accepted returned : List UInt8) : Prop where
  readIndex : memory.header.mReadIndex = ringIndex cap returned.length
  writeIndex : memory.header.mWriteIndex = ringIndex cap accepted.length
  inOrder : returned <+: accepted
  room : accepted.length ≤ returned.length + (cap - 2)
  holds : Holds memory.base cap returned.length
    (accepted.drop returned.length)

/-- What the writer is in the middle of. -/
def Writing (cap : ℕ) (memory : SharedMemory)
    (accepted returned : List UInt8) : WriteStep → Prop
  | .idle => True
  | .sizing _ => True
  | .sizingRead _ writeIndex => writeIndex = memory.header.mWriteIndex
  | .placing data =>
      accepted.length + data.length ≤ returned.length + (cap - 2)
  | .copying data scan segs next => ∃ done,
      data = done ++ scan ∧
      accepted.length + data.length ≤ returned.length + (cap - 2) ∧
      Covers cap (accepted.length + done.length) segs scan.length ∧
      next = ringIndex cap (accepted.length + data.length) ∧
      Holds memory.base cap accepted.length done

/-- What the reader is in the middle of. -/
def Reading (cap : ℕ) (accepted returned : List UInt8) : ReadStep → Prop
  | .idle => True
  | .sizing _ => True
  | .sizingRead _ writeIndex seen =>
      writeIndex = ringIndex cap seen ∧ returned.length ≤ seen ∧
      seen ≤ accepted.length
  | .placing len => returned.length + len ≤ accepted.length
  | .copying dest segs next => ∃ n,
      returned.length + dest.length + n ≤ accepted.length ∧
      Covers cap (returned.length + dest.length) segs n ∧
      next = ringIndex cap (returned.length + dest.length + n) ∧
      dest <+: accepted.drop returned.length

structure Inv (cap : ℕ) (s : State) : Prop where
  attached : Attached cap s.memory s.writer s.reader
  window : Window cap s.memory s.accepted s.returned
  writing : Writing cap s.memory s.accepted s.returned s.writing
  reading : Reading cap s.accepted s.returned s.reading

section Parts

variable {cap : ℕ} {memory : SharedMemory} {accepted returned : List UInt8}

/-! ## The window -/

namespace Window

variable (h : Window cap memory accepted returned)

include h

theorem le : returned.length ≤ accepted.length := h.inOrder.length_le

theorem lt (hpos : 0 < cap) : accepted.length < returned.length + cap := by
  have hroom := h.room
  omega

theorem drop_length : returned.length +
    (accepted.drop returned.length).length = accepted.length := by
  rw [List.length_drop, Nat.add_sub_cancel' h.le]

theorem eq_append : accepted = returned ++ accepted.drop returned.length := by
  obtain ⟨rest, rfl⟩ := h.inOrder
  rw [List.drop_left]

/-- Copying to cells past the unread bytes. -/
theorem copy {T off : ℕ} {xs : List UInt8} (hseg : Segment cap T off xs.length)
    (hpast : accepted.length ≤ T)
    (hturn : T + xs.length ≤ returned.length + cap) :
    Window cap { memory with base := memory.base.copy off xs }
      accepted returned := by
  have hlen := h.drop_length
  have hholds := h.holds.copy_other hseg (by omega) hturn
  exact ⟨h.readIndex, h.writeIndex, h.inOrder, h.room, hholds⟩

/-- Publishing bytes that have been copied. -/
theorem publish {data : List UInt8} {next : ℕ}
    (hdata : Holds memory.base cap accepted.length data)
    (hroom : accepted.length + data.length ≤ returned.length + (cap - 2))
    (hnext : next = ringIndex cap (accepted.length + data.length)) :
    Window cap
      { memory with header := { memory.header with mWriteIndex := next } }
      (accepted ++ data) returned := by
  refine ⟨h.readIndex, ?_, h.inOrder.trans (List.prefix_append ..), ?_, ?_⟩
  · rw [List.length_append]
    exact hnext
  · rw [List.length_append]
    exact hroom
  · rw [List.drop_append_of_le_length h.le]
    apply h.holds.append
    rw [h.drop_length]
    exact hdata

/-- Giving back the cells of bytes that have been read. -/
theorem consume {dest : List UInt8} {next : ℕ}
    (hdest : dest <+: accepted.drop returned.length)
    (hnext : next = ringIndex cap (returned.length + dest.length)) :
    Window cap
      { memory with header := { memory.header with mReadIndex := next } }
      accepted (returned ++ dest) := by
  have hlen := hdest.length_le
  have hroom := h.room
  refine ⟨?_, h.writeIndex, ?_, ?_, ?_⟩
  · rw [List.length_append]
    exact hnext
  · rw [h.eq_append]
    exact (List.prefix_append_right_inj returned).mpr hdest
  · rw [List.length_append]
    omega
  · rw [List.length_append, ← List.drop_drop]
    exact h.holds.drop hlen

end Window

/-! ## What one side's store means to the other -/

/-- A reader that has looked at the ring does not mind that it fills up. -/
theorem Reading.append {r : ReadStep} (h : Reading cap accepted returned r)
    (hle : returned.length ≤ accepted.length) (data : List UInt8) :
    Reading cap (accepted ++ data) returned r := by
  have hlen : accepted.length ≤ (accepted ++ data).length := by
    rw [List.length_append]
    exact Nat.le_add_right ..
  cases r with
  | idle => trivial
  | sizing => trivial
  | sizingRead => exact ⟨h.1, h.2.1, h.2.2.trans hlen⟩
  | placing => exact Nat.le_trans h hlen
  | copying =>
      obtain ⟨n, hn, hcover, hnext, hdest⟩ := h
      refine ⟨n, hn.trans hlen, hcover, hnext, ?_⟩
      rw [List.drop_append_of_le_length hle]
      exact hdest.trans (List.prefix_append ..)

/-- A writer that has looked at the ring does not mind that it drains. -/
theorem Writing.consume {w : WriteStep}
    (h : Writing cap memory accepted returned w) (dest : List UInt8)
    (next : ℕ) :
    Writing cap
      { memory with header := { memory.header with mReadIndex := next } }
      accepted (returned ++ dest) w := by
  have hlen : returned.length + (cap - 2) ≤
      (returned ++ dest).length + (cap - 2) := by
    rw [List.length_append]
    omega
  cases w with
  | idle => trivial
  | sizing => trivial
  | sizingRead => exact h
  | placing => exact Nat.le_trans h hlen
  | copying =>
      obtain ⟨done, hdata, hfree, hrest⟩ := h
      exact ⟨done, hdata, hfree.trans hlen, hrest⟩

/-! ## Copying one segment -/

/-- The writer copies into cells past the unread bytes, so these stay. -/
theorem Writing.copySegment {data scan : List UInt8} {off len next : ℕ}
    {segs : List (ℕ × ℕ)} (hwin : Window cap memory accepted returned)
    (h : Writing cap memory accepted returned
      (.copying data scan ((off, len) :: segs) next)) :
    Window cap { memory with base := memory.base.copy off (scan.take len) }
      accepted returned ∧
    Writing cap { memory with base := memory.base.copy off (scan.take len) }
      accepted returned (.copying data (scan.drop len) segs next) := by
  obtain ⟨done, hdata, hfree, ⟨hseg, hlen, hrest⟩, hnext, hdone⟩ := h
  have hle := hwin.le
  have htake : (scan.take len).length = len := List.length_take_of_le hlen
  have hsplit := congrArg List.length hdata
  rw [List.length_append] at hsplit
  rw [← htake] at hseg
  refine ⟨hwin.copy hseg (Nat.le_add_right ..) (by omega),
    done ++ scan.take len, ?_, hfree, ?_, hnext, ?_⟩
  · rw [List.append_assoc, List.take_append_drop]
    exact hdata
  · rw [List.length_append, htake, List.length_drop, ← Nat.add_assoc]
    exact hrest
  · apply Holds.append
    · exact hdone.copy_other hseg (Nat.le_refl _) (by omega)
    · exact Holds.copy_self hseg

/-- The reader copies the next unread bytes behind those it has. -/
theorem Reading.copySegment {dest : List UInt8} {off len next : ℕ}
    {segs : List (ℕ × ℕ)} (hwin : Window cap memory accepted returned)
    (h : Reading cap accepted returned
      (.copying dest ((off, len) :: segs) next)) :
    Reading cap accepted returned
      (.copying (dest ++ memory.base.read off len) segs next) := by
  obtain ⟨n, hn, ⟨hseg, hlen, hrest⟩, hnext, hdest⟩ := h
  have hread : memory.base.read off len =
      ((accepted.drop returned.length).drop dest.length).take len := by
    apply (hwin.holds.drop hdest.length_le).read hseg
    rw [List.length_drop, List.length_drop]
    omega
  refine ⟨n - len, ?_, ?_, ?_, ?_⟩
  · rw [List.length_append, Block.length_read]
    omega
  · rw [List.length_append, Block.length_read, ← Nat.add_assoc]
    exact hrest
  · rw [List.length_append, Block.length_read, hnext]
    congr 1
    omega
  · rw [hread]
    nth_rewrite 1 [List.prefix_iff_eq_take.mp hdest]
    rw [← List.take_add]
    exact List.take_prefix _ _

end Parts

/-! ## The steps -/

section Steps

variable {cap : ℕ} {s s' : State}

theorem Inv.readIndex_eq (hinv : Inv cap s) :
    s.readIndex = ringIndex cap s.returned.length := hinv.window.readIndex

theorem Inv.writeIndex_eq (hinv : Inv cap s) :
    s.writeIndex = ringIndex cap s.accepted.length := hinv.window.writeIndex

variable (hpos : 0 < cap) (hcap : cap < 4294967296)

include hpos hcap

/-- The room computed from an old `mReadIndex` is still there. -/
theorem Inv.writeLen_room (hinv : Inv cap s) {data : List UInt8} {len : ℕ}
    (h : s.writer.writeLen (s.writer.calcSize s.readIndex s.writeIndex)
      data.length = some len) :
    s.accepted.length + (data.take len).length ≤
      s.returned.length + (cap - 2) := by
  have hmCap : s.writer.mCapacity = cap := by rw [hinv.attached.writer]
  have hle := hinv.window.le
  have hlt := hinv.window.lt hpos
  rw [hinv.readIndex_eq, hinv.writeIndex_eq] at h
  subst hmCap
  rw [SPSC.calcSize_ringIndex _ hpos hcap hle hlt] at h
  have hlen := SPSC.writeLen_le _ hcap (by omega) h
  rw [List.length_take]
  omega

/-- **Every step of `write` keeps the invariant.** -/
theorem Inv.writerNext (hinv : Inv cap s) (hstep : s.writerNext = some s') :
    Inv cap s' := by
  have hroom := @writeLen_room cap s hpos hcap hinv
  rcases s with ⟨memory, writer, reader, writing, reading, accepted, returned⟩
  obtain ⟨hatt, hwin, hwriting, hreading⟩ := hinv
  dsimp only at hroom hatt hwin hwriting hreading
  have hle := hwin.le
  have hwriter := hatt.writer
  cases writing with
  | idle => exact absurd hstep (by simp [State.writerNext])
  | sizing data =>
      simp only [State.writerNext, Option.some.injEq] at hstep
      subst hstep
      exact ⟨hatt, hwin, rfl, hreading⟩
  | sizingRead data writeIndex =>
      have hload : writeIndex = memory.header.mWriteIndex := hwriting
      subst hload
      simp only [State.writerNext] at hstep
      split at hstep
      · cases hstep
        exact ⟨hatt, hwin, trivial, hreading⟩
      · rename_i len hlen
        cases hstep
        exact ⟨hatt, hwin, hroom hlen, hreading⟩
  | placing data =>
      simp only [State.writerNext, Option.some.injEq] at hstep
      subst hstep
      have hfree : accepted.length + data.length ≤
        returned.length + (cap - 2) := hwriting
      have hlen : data.length ≤ cap := by omega
      refine ⟨hatt, hwin, ⟨[], rfl, hfree, ?_, ?_, Holds.nil⟩, hreading⟩
      · show Covers cap accepted.length
          (writer.segments memory.header.mWriteIndex data.length) data.length
        rw [hwin.writeIndex, hwriter]
        exact SPSC.segments_covers ⟨true, cap, true⟩ hpos hcap hlen
      · show writer.nextIndex memory.header.mWriteIndex data.length =
          ringIndex cap (accepted.length + data.length)
        rw [hwin.writeIndex, hwriter]
        exact SPSC.nextIndex_ringIndex ⟨true, cap, true⟩ hpos hcap hlen
  | copying data scan segs next =>
      cases segs with
      | nil =>
          simp only [State.writerNext, Option.some.injEq] at hstep
          subst hstep
          obtain ⟨done, hdata, hfree, hcover, hnext, hdone⟩ := hwriting
          -- the store: what has been copied becomes unread
          have hscan : scan = [] := List.eq_nil_of_length_eq_zero hcover
          rw [hscan, List.append_nil] at hdata
          subst hdata
          exact ⟨⟨hatt.base, hatt.writer, hatt.reader⟩,
            hwin.publish hdone hfree hnext, trivial,
            hreading.append hle data⟩
      | cons seg segs =>
          simp only [State.writerNext, Option.some.injEq] at hstep
          subst hstep
          obtain ⟨hwin', hwriting'⟩ := Writing.copySegment hwin hwriting
          exact ⟨⟨hatt.base, hatt.writer, hatt.reader⟩, hwin', hwriting',
            hreading⟩

/-- **Every step of `read` keeps the invariant.** -/
theorem Inv.readerNext (hinv : Inv cap s) (hstep : s.readerNext = some s') :
    Inv cap s' := by
  rcases s with ⟨memory, writer, reader, writing, reading, accepted, returned⟩
  obtain ⟨hatt, hwin, hwriting, hreading⟩ := hinv
  dsimp only at hatt hwin hwriting hreading
  have hle := hwin.le
  have hlt := hwin.lt hpos
  have hreader := hatt.reader
  cases reading with
  | idle => exact absurd hstep (by simp [State.readerNext])
  | sizing maxLen =>
      simp only [State.readerNext, Option.some.injEq] at hstep
      subst hstep
      exact ⟨hatt, hwin, hwriting, hwin.writeIndex, hle, Nat.le_refl _⟩
  | sizingRead maxLen writeIndex seen =>
      obtain ⟨hload, hseen, hold⟩ := hreading
      -- what was unread when `mWriteIndex` was loaded still is
      have hsize : reader.calcSize memory.header.mReadIndex writeIndex =
          seen - returned.length := by
        rw [hwin.readIndex, hload, hreader]
        exact SPSC.calcSize_ringIndex ⟨true, cap, false⟩ hpos hcap hseen
          (show seen < returned.length + cap by omega)
      simp only [State.readerNext, State.readIndex, hsize] at hstep
      have hmin : (if seen - returned.length > maxLen then maxLen
          else seen - returned.length) ≤ seen - returned.length := by
        split
        · exact Nat.le_of_lt ‹_›
        · exact Nat.le_refl _
      generalize (if seen - returned.length > maxLen then maxLen
        else seen - returned.length) = len at hstep hmin
      by_cases hempty : len = 0
      · rw [if_pos hempty] at hstep
        cases hstep
        exact ⟨hatt, hwin, hwriting, trivial⟩
      · rw [if_neg hempty] at hstep
        cases hstep
        have hunread : returned.length + len ≤ accepted.length := by omega
        exact ⟨hatt, hwin, hwriting, hunread⟩
  | placing len =>
      simp only [State.readerNext, Option.some.injEq] at hstep
      subst hstep
      have hunread : returned.length + len ≤ accepted.length := hreading
      refine ⟨hatt, hwin, hwriting, len, hunread, ?_, ?_, List.nil_prefix⟩
      · show Covers cap returned.length
          (reader.segments memory.header.mReadIndex len) len
        rw [hwin.readIndex, hreader]
        exact SPSC.segments_covers ⟨true, cap, false⟩ hpos hcap
          (show len ≤ cap by omega)
      · show reader.nextIndex memory.header.mReadIndex len =
          ringIndex cap (returned.length + len)
        rw [hwin.readIndex, hreader]
        exact SPSC.nextIndex_ringIndex ⟨true, cap, false⟩ hpos hcap
          (show len ≤ cap by omega)
  | copying dest segs next =>
      cases segs with
      | nil =>
          simp only [State.readerNext, Option.some.injEq] at hstep
          subst hstep
          obtain ⟨n, hn, hcover, hnext, hdest⟩ := hreading
          -- the store: what has been copied out is no longer unread
          have hdone : n = 0 := hcover
          subst hdone
          exact ⟨⟨hatt.base, hatt.writer, hatt.reader⟩,
            hwin.consume hdest hnext, hwriting.consume dest next, trivial⟩
      | cons seg segs =>
          simp only [State.readerNext, Option.some.injEq] at hstep
          subst hstep
          exact ⟨hatt, hwin, hwriting, Reading.copySegment hwin hreading⟩

end Steps

/-! ## Every run -/

section Init

variable {maxLen : ℕ} (h32 : 32 < maxLen) (hu : maxLen < 4294967296)

include h32 hu

theorem init_server (memory : SharedMemory) (isWriter : Bool) :
    SPSC.init memory maxLen isWriter true =
      (true, ⟨true, maxLen - 32, isWriter⟩,
        ⟨⟨cSharedMemoryVersion, maxLen, 0, 0, 0⟩, memory.base⟩) := by
  have hlen : maxLen > HEADER_SIZE := h32
  have hcap : sub32 maxLen HEADER_SIZE = maxLen - 32 :=
    sub32_of_le (Nat.le_of_lt h32) hu
  unfold SPSC.init
  rw [if_pos hlen, hcap]
  rfl

/-- A client attaches to what a server has initialised with its `maxLen`. -/
theorem init_client {memory : SharedMemory} (isWriter : Bool)
    (hversion : memory.header.mVersionNumber = cSharedMemoryVersion)
    (hsize : memory.header.mBufferSize = maxLen) :
    SPSC.init memory maxLen isWriter false =
      (true, ⟨true, maxLen - 32, isWriter⟩, memory) := by
  have hlen : maxLen > HEADER_SIZE := h32
  have hcap : sub32 maxLen HEADER_SIZE = maxLen - 32 :=
    sub32_of_le (Nat.le_of_lt h32) hu
  unfold SPSC.init
  rw [if_pos hlen, hcap]
  simp [hversion, hsize]

/-- After both have attached the ring is empty. -/
theorem spsc_init {s : State} (h : (spsc maxLen).init s) :
    Inv (maxLen - 32) s := by
  obtain ⟨memory, serverWrites, hsize, rfl⟩ := h
  have hbase : memory.base.size = maxLen - 32 := Nat.eq_sub_of_add_eq hsize
  have hwindow : Window (maxLen - 32)
      ⟨⟨cSharedMemoryVersion, maxLen, 0, 0, 0⟩, memory.base⟩ [] [] :=
    ⟨rfl, rfl, List.nil_prefix, Nat.zero_le _, Holds.nil⟩
  rw [init_server h32 hu, init_client h32 hu _ rfl rfl]
  cases serverWrites with
  | false => exact ⟨⟨hbase, rfl, rfl⟩, hwindow, trivial, trivial⟩
  | true => exact ⟨⟨hbase, rfl, rfl⟩, hwindow, trivial, trivial⟩

end Init

theorem spsc_invariant {maxLen : ℕ} (h32 : 32 < maxLen)
    (hu : maxLen < 4294967296) :
    (spsc maxLen).Invariant (Inv (maxLen - 32)) where
  init := fun s h => spsc_init h32 hu h
  step := by
    intro s action s' _ hinv hstep
    have hpos : 0 < maxLen - 32 := by omega
    have hcap : maxLen - 32 < 4294967296 := by omega
    cases action with
    | write data =>
        obtain ⟨-, -, rfl⟩ := hstep
        unfold State.startWrite
        split
        · exact ⟨hinv.attached, hinv.window, trivial, hinv.reading⟩
        · exact hinv
    | read len =>
        obtain ⟨-, -, rfl⟩ := hstep
        unfold State.startRead
        split
        · exact hinv
        · exact ⟨hinv.attached, hinv.window, hinv.writing, trivial⟩
    | writerStep => exact hinv.writerNext hpos hcap hstep
    | readerStep => exact hinv.readerNext hpos hcap hstep

theorem Inv.of_reachable {maxLen : ℕ} (h32 : 32 < maxLen)
    (hu : maxLen < 4294967296) {s : State} (hs : (spsc maxLen).Reachable s) :
    Inv (maxLen - 32) s :=
  (spsc_invariant h32 hu).holds hs

end Socketchat.Spsc
