import Socketchat.Spsc.Calls

/-!
# What `write` takes of what `capacity()` reports

Both keep a byte back, and `write` computes with what `capacity()` has kept
back already. So a whole `write` takes one byte less than `capacity()` has
reported, as soon as it has that many to take.
-/

namespace Socketchat.Spsc

open Foundation

namespace SPSC

variable (s : SPSC)

/-- `write` takes as much of its data as `capacity()` reports before it; so
what does not fit leaves one byte of the ring unused, and some room is enough
to get on. -/
def TakesCapacity (memory : SharedMemory) (data : List UInt8) : Prop :=
  ∃ room n memory', s.room memory = some room ∧
    s.write memory data = some (n, memory') ∧
    n = min data.length room ∧
    (room ≤ data.length →
      ∃ size, s.size memory' = some size ∧ size + 1 = s.mCapacity) ∧
    (0 < room → data ≠ [] → 0 < n)

variable {s} (hcap : s.mCapacity < 4294967296) {size : ℕ}
  (hsize : size ≤ s.mCapacity)

include hcap hsize

theorem capacity_eq : s.capacity size = s.mCapacity - size - 1 := by
  unfold capacity
  rw [sub32_of_le hsize hcap]
  dsimp only
  split
  · omega
  · rfl

theorem writeLen_eq (dataLen : ℕ) : s.writeLen size dataLen =
    if s.mCapacity - size - 1 = 0 then none
    else some (min dataLen (s.mCapacity - size - 2)) := by
  unfold writeLen
  rw [capacity_eq hcap hsize]
  dsimp only
  split
  · rfl
  · congr 1
    split <;> omega

end SPSC

section Runs

variable {maxLen : ℕ} (h32 : HEADER_SIZE < maxLen) (hu : maxLen < 4294967296)
  {s : State} (hs : (spsc maxLen).Reachable s)

include h32 hu hs

/-- `size()` counts the bytes accepted and not yet returned, and is less than
the space of the ring. -/
theorem size_accepted : s.size + s.returned.length = s.accepted.length ∧
    s.size < maxLen - HEADER_SIZE := by
  have hpos : 0 < maxLen - HEADER_SIZE := Nat.sub_pos_of_lt h32
  have hcap : maxLen - HEADER_SIZE < 4294967296 :=
    Nat.lt_of_le_of_lt (Nat.sub_le ..) hu
  have hinv : Inv (maxLen - HEADER_SIZE) s := Inv.of_reachable h32 hu hs
  generalize maxLen - HEADER_SIZE = cap at hpos hcap hinv ⊢
  have hle := hinv.window.le
  have hlt := hinv.window.lt hpos
  have hsize := hinv.size_eq hpos hcap
  omega

/-- Both sides compute the same `size()`. -/
theorem writer_size : s.writer.size s.memory = some s.size := by
  have hatt := (Inv.of_reachable h32 hu hs).attached
  unfold SPSC.size State.size State.readIndex State.writeIndex
  rw [hatt.writer, hatt.reader]
  rfl

theorem size_lt_capacity : s.writer.mCapacity < 4294967296 ∧
    s.size < s.writer.mCapacity := by
  have hcap : maxLen - HEADER_SIZE < 4294967296 :=
    Nat.lt_of_le_of_lt (Nat.sub_le ..) hu
  rw [(Inv.of_reachable h32 hu hs).attached.writer]
  exact ⟨hcap, (size_accepted h32 hu hs).2⟩

theorem writer_room :
    s.writer.room s.memory = some (s.writer.mCapacity - s.size - 1) := by
  obtain ⟨hcap, hsize⟩ := size_lt_capacity h32 hu hs
  unfold SPSC.room
  rw [writer_size h32 hu hs, Option.map_some,
    SPSC.capacity_eq hcap (Nat.le_of_lt hsize)]

/-- **What a whole `write` takes**: all but two bytes of the ring get
filled. -/
theorem write_takes (data : List UInt8) : ∃ memory,
    s.writer.write s.memory data =
      some (min data.length (s.writer.mCapacity - s.size - 2), memory) := by
  obtain ⟨hcap, hsize⟩ := size_lt_capacity h32 hu hs
  have hwriter : s.writer.mIsWriter = true := by
    rw [(Inv.of_reachable h32 hu hs).attached.writer]
  unfold SPSC.write
  rw [if_pos hwriter, writer_size h32 hu hs, Option.map_some]
  dsimp only
  rw [SPSC.writeLen_eq hcap (Nat.le_of_lt hsize)]
  by_cases hfull : s.writer.mCapacity - s.size - 1 = 0
  · rw [if_pos hfull, show s.writer.mCapacity - s.size - 2 = 0 by omega,
      Nat.min_zero]
    exact ⟨_, rfl⟩
  · rw [if_neg hfull]
    refine ⟨_, congrArg some (Prod.ext ?_ rfl)⟩
    show (data.take _).length = _
    rw [List.length_take]
    omega

variable (hidle : s.writing = .idle)

include hidle

/-- What is taken is what the ring then holds more. -/
theorem write_size {data : List UInt8} (hlen : data.length < 4294967296)
    {n : ℕ} {memory : SharedMemory}
    (hwrite : s.writer.write s.memory data = some (n, memory)) :
    s.writer.size memory = some (s.size + min n data.length) := by
  have hs' := write_reachable hs hidle hlen hwrite
  have hsize := (size_accepted h32 hu hs).1
  have hsize' := (size_accepted h32 hu hs').1
  have hwriter := writer_size h32 hu hs'
  dsimp only at hsize' hwriter
  rw [List.length_append, List.length_take] at hsize'
  rw [hwriter]
  congr 1
  omega

/-- **Main result.** A whole `write` that the reader does not interrupt,
whatever it is in the middle of, takes what `capacity()` has reported exactly
when nothing but the last byte is free or its data leaves two bytes free. -/
theorem write_takesCapacity_iff (data : List UInt8)
    (hlen : data.length < 4294967296) :
    s.writer.TakesCapacity s.memory data ↔
      s.writer.mCapacity ≤ s.size + 1 ∨
        s.size + data.length + 2 ≤ s.writer.mCapacity := by
  obtain ⟨-, hlt⟩ := size_lt_capacity h32 hu hs
  have hroom := writer_room h32 hu hs
  obtain ⟨memory, hwrite⟩ := write_takes h32 hu hs data
  have hsize := write_size h32 hu hs hidle hlen hwrite
  constructor
  · rintro ⟨room, n, memory', hroom', hwrite', hn, -, -⟩
    rw [hroom] at hroom'
    rw [hwrite] at hwrite'
    cases hroom'
    cases hwrite'
    omega
  · intro hcond
    refine ⟨_, _, _, hroom, hwrite, by omega, fun hfull => ?_, ?_⟩
    · exact ⟨_, hsize, by omega⟩
    · intro hpos hdata
      have hne : 0 < data.length := List.length_pos_of_ne_nil hdata
      omega

end Runs

/-- A ring to which both sides have attached and nothing else. -/
theorem exists_empty {maxLen : ℕ} (h32 : HEADER_SIZE < maxLen)
    (hu : maxLen < 4294967296) : ∃ s, (spsc maxLen).Reachable s ∧
      s.writing = .idle ∧ s.reading = .idle ∧ s.size = 0 ∧
      s.writer.mCapacity = maxLen - HEADER_SIZE := by
  have hs : (spsc maxLen).Reachable _ :=
    .of_init ⟨⟨⟨0, 0, 0, 0, 0⟩, ⟨maxLen - HEADER_SIZE, fun _ => 0⟩⟩, true,
      Nat.sub_add_cancel (Nat.le_of_lt h32), rfl⟩
  refine ⟨_, hs, rfl, rfl, ?_, ?_⟩
  · exact (size_accepted h32 hu hs).1
  · rw [(Inv.of_reachable h32 hu hs).attached.writer]
    rfl

/-- A ring of forty bytes takes three. -/
theorem write_takesCapacity_three : ∃ s, (spsc 72).Reachable s ∧
    s.writer.TakesCapacity s.memory [1, 2, 3] := by
  have h32 : HEADER_SIZE < 72 := by decide
  have hu : 72 < 4294967296 := by decide
  obtain ⟨s, hs, hidle, -, hsize, hcap⟩ := exists_empty h32 hu
  refine ⟨s, hs, (write_takesCapacity_iff h32 hu hs hidle [1, 2, 3]
    (by decide)).mpr (.inr ?_)⟩
  rw [hsize, hcap]
  decide

/-- In a ring of two bytes `capacity()` reports one, and `write` takes
none. -/
theorem write_takes_none : ∃ s, (spsc 34).Reachable s ∧
    s.writing = .idle ∧ s.reading = .idle ∧ s.size = 0 ∧
    s.writer.room s.memory = some 1 ∧
    (∃ memory, s.writer.write s.memory [7] = some (0, memory)) ∧
    ¬ s.writer.TakesCapacity s.memory [7] := by
  have h32 : HEADER_SIZE < 34 := by decide
  have hu : 34 < 4294967296 := by decide
  obtain ⟨s, hs, hwriting, hreading, hsize, hcap⟩ := exists_empty h32 hu
  have hroom := writer_room h32 hu hs
  obtain ⟨memory, hwrite⟩ := write_takes h32 hu hs [7]
  rw [hsize, hcap] at hroom hwrite
  refine ⟨s, hs, hwriting, hreading, hsize, hroom, ⟨memory, hwrite⟩, ?_⟩
  rintro ⟨room, n, memory', hroom', hwrite', hn, -, -⟩
  rw [hroom] at hroom'
  rw [hwrite] at hwrite'
  cases hroom'
  cases hwrite'
  exact absurd hn (by decide)

end Socketchat.Spsc
