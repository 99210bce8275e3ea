import Socketchat.Spsc.Lossless

/-!
# Whole calls of `read` and `write`

A call that the other side does not interrupt, as one function of the memory.
It is what the steps of the call amount to, and it says what the steps leave
out: a side that is not attached has no header to load from.
-/

namespace Socketchat.Spsc

open Foundation

namespace SPSC

variable (s : SPSC) (memory : SharedMemory)

/-- `size()`; `none` where it dereferences a null header. -/
def size : Option ℕ :=
  if s.attached then
    some (s.calcSize memory.header.mReadIndex memory.header.mWriteIndex)
  else
    none

/-- `capacity()`. -/
def room : Option ℕ := (s.size memory).map s.capacity

end SPSC

/-- The ring after these `memcpy` calls from `scan` on. -/
def copyIn (base : Block UInt8) (scan : List UInt8) :
    List (ℕ × ℕ) → Block UInt8
  | [] => base
  | (off, len) :: segs =>
      copyIn (base.copy off (scan.take len)) (scan.drop len) segs

/-- What these `memcpy` calls append to `dest`. -/
def copyOut (base : Block UInt8) (dest : List UInt8) :
    List (ℕ × ℕ) → List UInt8
  | [] => dest
  | (off, len) :: segs => copyOut base (dest ++ base.read off len) segs

theorem length_copyOut (base : Block UInt8) (dest : List UInt8)
    (segs : List (ℕ × ℕ)) : (copyOut base dest segs).length =
      dest.length + (segs.map (·.2)).sum := by
  induction segs generalizing dest with
  | nil => rfl
  | cons seg segs ih =>
      rw [copyOut, ih, List.length_append, Block.length_read, List.map_cons,
        List.sum_cons, Nat.add_assoc]

namespace SPSC

variable (s : SPSC) (memory : SharedMemory)

/-- `write`: how much it takes, and the memory then. -/
def write (data : List UInt8) : Option (ℕ × SharedMemory) :=
  if s.mIsWriter then
    (s.size memory).map fun size =>
      match s.writeLen size data.length with
      | none => (0, memory)
      | some dataLen =>
          let data := data.take dataLen
          let writeIndex := memory.header.mWriteIndex
          let segs := s.segments writeIndex data.length
          let next := s.nextIndex writeIndex data.length
          (data.length,
            { header := { memory.header with mWriteIndex := next }
              base := copyIn memory.base data segs })
  else
    some (0, memory)

/-- `read`: the bytes it returns, and the memory then. -/
def read (maxLen : ℕ) : Option (List UInt8 × SharedMemory) :=
  if s.mIsWriter then
    some ([], memory)
  else
    (s.size memory).map fun size =>
      let len := if size > maxLen then maxLen else size
      if len = 0 then
        ([], memory)
      else
        let readIndex := memory.header.mReadIndex
        let next := s.nextIndex readIndex len
        (copyOut memory.base [] (s.segments readIndex len),
          { memory with header := { memory.header with mReadIndex := next } })

def incrementSequenceNumber : SharedMemory :=
  if s.attached then
    { memory with header :=
      { memory.header with
        mSequenceNumber := add32 memory.header.mSequenceNumber 1 } }
  else
    memory

def getSequenceNumber : ℕ :=
  if s.attached then memory.header.mSequenceNumber else 0

/-! ## Where they dereference a null header -/

theorem size_eq_some {size : ℕ} :
    s.size memory = some size ↔ s.attached = true ∧
      s.calcSize memory.header.mReadIndex memory.header.mWriteIndex = size := by
  unfold SPSC.size
  cases s.attached <;> simp

theorem size_eq_none : s.size memory = none ↔ s.attached = false := by
  unfold SPSC.size
  cases s.attached <;> simp

theorem write_eq_none (data : List UInt8) :
    s.write memory data = none ↔ s.mIsWriter = true ∧ s.attached = false := by
  unfold write
  cases s.mIsWriter with
  | false => simp
  | true => simp [size_eq_none]

theorem read_eq_none (maxLen : ℕ) :
    s.read memory maxLen = none ↔
      s.mIsWriter = false ∧ s.attached = false := by
  unfold read
  cases s.mIsWriter with
  | false => simp [size_eq_none]
  | true => simp

/-- `read` gives as many bytes as there are, but no more than it is asked
for. -/
theorem read_length {len size : ℕ} (hreader : s.mIsWriter = false)
    (hsize : s.size memory = some size) (h32 : size < 4294967296)
    {bytes : List UInt8} {memory' : SharedMemory}
    (hread : s.read memory len = some (bytes, memory')) :
    bytes.length = min len size := by
  unfold read at hread
  rw [hreader, if_neg Bool.false_ne_true, hsize, Option.map_some] at hread
  dsimp only at hread
  have hmin : (if size > len then len else size) = min len size := by
    split <;> omega
  rw [hmin] at hread
  by_cases hzero : min len size = 0
  · rw [if_pos hzero] at hread
    obtain ⟨rfl, -⟩ := Prod.mk.inj (Option.some.inj hread)
    exact hzero.symm
  · rw [if_neg hzero] at hread
    obtain ⟨rfl, -⟩ := Prod.mk.inj (Option.some.inj hread)
    rw [length_copyOut, segments_sum s _ (by omega)]
    exact Nat.zero_add _

/-- What `init` checks: room for more than the header, and for a client what
the server has written there. -/
def Accepts (maxLen : ℕ) (isServer : Bool) : Prop :=
  HEADER_SIZE < maxLen ∧ (isServer = true ∨
    (memory.header.mVersionNumber = cSharedMemoryVersion ∧
      memory.header.mBufferSize = maxLen))

instance (maxLen : ℕ) (isServer : Bool) :
    Decidable (Accepts memory maxLen isServer) :=
  inferInstanceAs (Decidable (_ ∧ _))

theorem init_mIsWriter (maxLen : ℕ) (isWriter isServer : Bool) :
    (init memory maxLen isWriter isServer).2.1.mIsWriter = isWriter := by
  unfold init
  split
  · dsimp only
    split
    · rfl
    · split
      · rfl
      · rfl
  · rfl

theorem init_attached (maxLen : ℕ) (isWriter isServer : Bool) :
    (init memory maxLen isWriter isServer).2.1.attached = true ↔
      Accepts memory maxLen isServer := by
  unfold init Accepts
  by_cases hlen : HEADER_SIZE < maxLen
  · rw [if_pos hlen]
    cases isServer with
    | true => simp [hlen]
    | false =>
        by_cases hversion :
            memory.header.mVersionNumber = cSharedMemoryVersion
        · by_cases hsize : memory.header.mBufferSize = maxLen
          · simp [hlen, hversion, hsize]
          · simp [hversion, hsize]
        · simp [hversion]
  · rw [if_neg hlen]
    simp [hlen]

end SPSC

/-! ## A call as the run of its steps -/

section Steps

variable {maxLen : ℕ} {s : State}

theorem copyIn_reachable {data scan : List UInt8} {segs : List (ℕ × ℕ)}
    {next : ℕ} (hs : (spsc maxLen).Reachable
      { s with writing := .copying data scan segs next }) :
    (spsc maxLen).Reachable
      { s with
        memory :=
          { header := { s.memory.header with mWriteIndex := next }
            base := copyIn s.memory.base scan segs }
        writing := .idle
        accepted := s.accepted ++ data } := by
  induction segs generalizing s scan with
  | nil => exact hs.step (show (spsc maxLen).step _ .writerStep _ from rfl)
  | cons seg segs ih =>
      obtain ⟨off, len⟩ := seg
      have hcopied := hs.step (show (spsc maxLen).step _ .writerStep
        { s.setBase (s.memory.base.copy off (scan.take len)) with
          writing := .copying data (scan.drop len) segs next } from rfl)
      exact ih hcopied

theorem copyOut_reachable {dest : List UInt8} {segs : List (ℕ × ℕ)}
    {next : ℕ} (hs : (spsc maxLen).Reachable
      { s with reading := .copying dest segs next }) :
    (spsc maxLen).Reachable
      { s.setReadIndex next with
        reading := .idle
        returned := s.returned ++ copyOut s.memory.base dest segs } := by
  induction segs generalizing dest with
  | nil => exact hs.step (show (spsc maxLen).step _ .readerStep _ from rfl)
  | cons seg segs ih =>
      obtain ⟨off, len⟩ := seg
      have hcopied := hs.step (show (spsc maxLen).step _ .readerStep
        { s with reading :=
          .copying (dest ++ s.memory.base.read off len) segs next } from rfl)
      exact ih hcopied

/-- **`write` is a run of the writer.** -/
theorem write_reachable (hs : (spsc maxLen).Reachable s)
    (hidle : s.writing = .idle) {data : List UInt8}
    (hlen : data.length < 4294967296) {n : ℕ} {memory : SharedMemory}
    (hwrite : s.writer.write s.memory data = some (n, memory)) :
    (spsc maxLen).Reachable
      { s with memory := memory, accepted := s.accepted ++ data.take n } := by
  rcases s with ⟨m, writer, reader, writing, reading, accepted, returned⟩
  dsimp only at hidle hwrite ⊢
  subst hidle
  unfold SPSC.write at hwrite
  split at hwrite
  · rename_i hwriter
    obtain ⟨size, hsize, hwrite⟩ := Option.map_eq_some_iff.mp hwrite
    obtain ⟨-, rfl⟩ := (writer.size_eq_some m).mp hsize
    have hstart := hs.step (show (spsc maxLen).step _ (.write data)
      ⟨m, writer, reader, .sizing data, reading, accepted, returned⟩ from
      ⟨rfl, hlen, by simp [State.startWrite, hwriter]⟩)
    have hload := hstart.step (show (spsc maxLen).step _ .writerStep
      ⟨m, writer, reader, .sizingRead data m.header.mWriteIndex, reading,
        accepted, returned⟩ from rfl)
    cases hroom : writer.writeLen
      (writer.calcSize m.header.mReadIndex m.header.mWriteIndex)
      data.length with
    | none =>
      simp only [hroom, Prod.mk.injEq] at hwrite
      obtain ⟨rfl, rfl⟩ := hwrite
      have hreturn := hload.step (show (spsc maxLen).step _ .writerStep
        ⟨m, writer, reader, .idle, reading, accepted, returned⟩ from by
          simp [spsc, State.writerNext, State.readIndex, hroom])
      simpa using hreturn
    | some dataLen =>
      simp only [hroom, Prod.mk.injEq] at hwrite
      obtain ⟨rfl, rfl⟩ := hwrite
      have hplace := hload.step (show (spsc maxLen).step _ .writerStep
        ⟨m, writer, reader, .placing (data.take dataLen), reading, accepted,
          returned⟩ from by
          simp [spsc, State.writerNext, State.readIndex, hroom])
      have hcopy := hplace.step (show (spsc maxLen).step _ .writerStep _
        from rfl)
      have hdone := copyIn_reachable (s := ⟨m, writer, reader, .idle, reading,
        accepted, returned⟩) hcopy
      have htaken : data.take (data.take dataLen).length =
          data.take dataLen := by
        rw [List.length_take, ← List.take_eq_take_min]
      rw [htaken]
      exact hdone
  · cases hwrite
    simpa using hs

/-- **`read` is a run of the reader.** -/
theorem read_reachable (hs : (spsc maxLen).Reachable s)
    (hidle : s.reading = .idle) {len : ℕ} (hlen : len < 4294967296)
    {bytes : List UInt8} {memory : SharedMemory}
    (hread : s.reader.read s.memory len = some (bytes, memory)) :
    (spsc maxLen).Reachable
      { s with memory := memory, returned := s.returned ++ bytes } := by
  rcases s with ⟨m, writer, reader, writing, reading, accepted, returned⟩
  dsimp only at hidle hread ⊢
  subst hidle
  unfold SPSC.read at hread
  split at hread
  · cases hread
    simpa using hs
  · rename_i hreader
    obtain ⟨size, hsize, hread⟩ := Option.map_eq_some_iff.mp hread
    obtain ⟨-, rfl⟩ := (reader.size_eq_some m).mp hsize
    have hstart := hs.step (show (spsc maxLen).step _ (.read len)
      ⟨m, writer, reader, writing, .sizing len, accepted, returned⟩ from
      ⟨rfl, hlen, by simp [State.startRead, hreader]⟩)
    have hload := hstart.step (show (spsc maxLen).step _ .readerStep
      ⟨m, writer, reader, writing,
        .sizingRead len m.header.mWriteIndex accepted.length, accepted,
        returned⟩ from rfl)
    by_cases hempty : (if reader.calcSize m.header.mReadIndex
        m.header.mWriteIndex > len then len else reader.calcSize
          m.header.mReadIndex m.header.mWriteIndex) = 0
    · simp only [hempty, if_true, Prod.mk.injEq] at hread
      obtain ⟨rfl, rfl⟩ := hread
      have hreturn := hload.step (show (spsc maxLen).step _ .readerStep
        ⟨m, writer, reader, writing, .idle, accepted, returned⟩ from
          if_pos hempty)
      simpa using hreturn
    · simp only [hempty, if_false, Prod.mk.injEq] at hread
      obtain ⟨rfl, rfl⟩ := hread
      have hplace := hload.step (show (spsc maxLen).step _ .readerStep
        ⟨m, writer, reader, writing, .placing _, accepted, returned⟩ from
          if_neg hempty)
      have hcopy := hplace.step (show (spsc maxLen).step _ .readerStep _
        from rfl)
      exact copyOut_reachable (s := ⟨m, writer, reader, writing, .idle,
        accepted, returned⟩) hcopy

/-- **What a whole `read` gives**: the first of the bytes accepted and not yet
returned, as many as there are up to `len`. -/
theorem read_gives (h32 : HEADER_SIZE < maxLen) (hu : maxLen < 4294967296)
    (hs : (spsc maxLen).Reachable s) (hidle : s.reading = .idle) {len : ℕ}
    (hlen : len < 4294967296) : ∃ memory, s.reader.read s.memory len =
      some ((s.accepted.drop s.returned.length).take len, memory) := by
  have hinv := Inv.of_reachable h32 hu hs
  have hpos : 0 < maxLen - HEADER_SIZE := Nat.sub_pos_of_lt h32
  have hcap : maxLen - HEADER_SIZE < 4294967296 :=
    Nat.lt_of_le_of_lt (Nat.sub_le ..) hu
  have hcount := hinv.size_eq hpos hcap
  have hdrop := List.length_drop (l := s.accepted) (i := s.returned.length)
  have hreader : s.reader.mIsWriter = false := by rw [hinv.attached.reader]
  have hsize : s.reader.size s.memory = some s.size := by
    rw [SPSC.size_eq_some]
    exact ⟨hinv.attached.reader ▸ rfl, rfl⟩
  have hlt : s.size < 4294967296 := by
    have hwindow := hinv.window.lt hpos
    omega
  cases hread : s.reader.read s.memory len with
  | none =>
      -- the reader is attached, so it has a header to load from
      have hnot := ((s.reader.read_eq_none s.memory len).mp hread).2
      rw [hinv.attached.reader] at hnot
      cases hnot
  | some r =>
      obtain ⟨bytes, memory⟩ := r
      refine ⟨memory, congrArg (fun x => some (x, memory)) ?_⟩
      have hs' := read_reachable hs hidle hlen hread
      obtain ⟨rest, hrest⟩ := (Inv.of_reachable h32 hu hs').window.inOrder
      have hbytes := s.reader.read_length s.memory hreader hsize hlt hread
      have hcut : s.accepted.drop s.returned.length = bytes ++ rest := by
        have hrest : s.returned ++ bytes ++ rest = s.accepted := hrest
        rw [← hrest, List.append_assoc, List.drop_left]
      rw [hcut] at hdrop ⊢
      rw [List.length_append] at hdrop
      rcases Nat.le_total len s.size with hle | hle
      · exact (List.take_left' (by omega)).symm
      · have hnone : rest = [] := List.eq_nil_of_length_eq_zero (by omega)
        rw [hnone, List.append_nil, List.take_of_length_le (by omega)]

end Steps

end Socketchat.Spsc
