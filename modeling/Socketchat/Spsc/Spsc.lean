import Socketchat.Foundation.Ring
import Socketchat.Foundation.Transition
import Socketchat.Foundation.Word32

/-!
# `SPSC`: the shared-memory ring

One writer and one reader share a header with two indices and a ring of bytes.
`read` and `write` are split where the other side can act: at each load of an
index, at each `memcpy` and at the store of the own index. What lies between
two of these is local and computed at once.
-/

namespace Socketchat.Spsc

open Foundation

def cSharedMemoryVersion : ℕ := 100

/-- `sizeof(SharedMemoryHeader)`: eight 32-bit words. -/
def HEADER_SIZE : ℕ := 32

structure SharedMemoryHeader where
  mVersionNumber : ℕ
  mBufferSize : ℕ
  mReadIndex : ℕ
  mWriteIndex : ℕ
  mSequenceNumber : ℕ

/-- The shared memory: the header, and the ring behind it. -/
structure SharedMemory where
  header : SharedMemoryHeader
  base : Block UInt8

/-- The fields of one side; `attached` says that its pointers are not null. -/
structure SPSC where
  attached : Bool
  mCapacity : ℕ
  mIsWriter : Bool

namespace SPSC

def init (memory : SharedMemory) (maxLen : ℕ) (isWriter isServer : Bool) :
    Bool × SPSC × SharedMemory :=
  if maxLen > HEADER_SIZE then
    let mCapacity := sub32 maxLen HEADER_SIZE
    if isServer then
      (true, ⟨true, mCapacity, isWriter⟩,
        { memory with header :=
          { mVersionNumber := cSharedMemoryVersion
            mBufferSize := maxLen
            mReadIndex := 0
            mWriteIndex := 0
            mSequenceNumber := 0 } })
    else if memory.header.mVersionNumber ≠ cSharedMemoryVersion ∨
        memory.header.mBufferSize ≠ maxLen then
      (false, ⟨false, mCapacity, isWriter⟩, memory)
    else
      (true, ⟨true, mCapacity, isWriter⟩, memory)
  else
    (false, ⟨false, 0, isWriter⟩, memory)

variable (s : SPSC)

def calcSize (readIndex writeIndex : ℕ) : ℕ :=
  if writeIndex ≥ readIndex then
    sub32 writeIndex readIndex
  else
    sub32 (add32 writeIndex s.mCapacity) readIndex

/-- `capacity()`, once `size()` has been computed. -/
def capacity (size : ℕ) : ℕ :=
  let avail := sub32 s.mCapacity size
  if avail ≤ 1 then 0 else avail - 1

/-- How many of `dataLen` bytes `write` takes; `none` where it returns at
once. -/
def writeLen (size dataLen : ℕ) : Option ℕ :=
  let avail := s.capacity size
  if avail = 0 then
    none
  else
    let avail := avail - 1
    some (if avail < dataLen then avail else dataLen)

/-- The `memcpy` calls for `len` bytes of the ring from an index on: one, or
one up to the top and one from the bottom. -/
def segments (index len : ℕ) : List (ℕ × ℕ) :=
  let availTop := sub32 s.mCapacity index
  if len ≤ availTop then
    [(index, len)]
  else
    let remainder := sub32 len availTop
    (if availTop ≠ 0 then [(index, availTop)] else []) ++
      (if remainder ≠ 0 then [(0, remainder)] else [])

/-- The index stored after `len` bytes. -/
def nextIndex (index len : ℕ) : ℕ :=
  let availTop := sub32 s.mCapacity index
  if len ≤ availTop then add32 index len else sub32 len availTop

end SPSC

/-! ## The steps of `write` and `read` -/

/-- What a `write` does next. -/
inductive WriteStep where
  | idle
  /-- `size()` loads `mWriteIndex`, -/
  | sizing (data : List UInt8)
  /-- then `mReadIndex`. -/
  | sizingRead (data : List UInt8) (writeIndex : ℕ)
  /-- `mWriteIndex` is loaded again; `data` has been cut to what is taken. -/
  | placing (data : List UInt8)
  /-- The `memcpy` calls left, from `scan` on, and then the store. -/
  | copying (data scan : List UInt8) (segs : List (ℕ × ℕ)) (next : ℕ)

/-- What a `read` does next; `seen` counts the bytes accepted when
`mWriteIndex` was loaded, for the proofs only. -/
inductive ReadStep where
  | idle
  | sizing (maxLen : ℕ)
  | sizingRead (maxLen writeIndex seen : ℕ)
  | placing (len : ℕ)
  | copying (dest : List UInt8) (segs : List (ℕ × ℕ)) (next : ℕ)

/-- The shared memory, both sides, and the bytes `write` has accepted and
`read` has returned so far. -/
structure State where
  memory : SharedMemory
  writer : SPSC
  reader : SPSC
  writing : WriteStep
  reading : ReadStep
  accepted : List UInt8
  returned : List UInt8

namespace State

variable (s : State)

def readIndex : ℕ := s.memory.header.mReadIndex
def writeIndex : ℕ := s.memory.header.mWriteIndex

def setBase (base : Block UInt8) : State :=
  { s with memory := { s.memory with base := base } }

def setWriteIndex (i : ℕ) : State :=
  { s with memory :=
    { s.memory with header := { s.memory.header with mWriteIndex := i } } }

def setReadIndex (i : ℕ) : State :=
  { s with memory :=
    { s.memory with header := { s.memory.header with mReadIndex := i } } }

/-- `write` up to its first load. -/
def startWrite (data : List UInt8) : State :=
  if s.writer.mIsWriter then { s with writing := .sizing data } else s

def startRead (maxLen : ℕ) : State :=
  if s.reader.mIsWriter then s else { s with reading := .sizing maxLen }

/-- The writer's next step; `none` outside `write`. -/
def writerNext : Option State :=
  match s.writing with
  | .idle => none
  | .sizing data => some { s with writing := .sizingRead data s.writeIndex }
  | .sizingRead data writeIndex =>
      let size := s.writer.calcSize s.readIndex writeIndex
      match s.writer.writeLen size data.length with
      | none => some { s with writing := .idle }
      | some dataLen => some { s with writing := .placing (data.take dataLen) }
  | .placing data =>
      let segs := s.writer.segments s.writeIndex data.length
      let next := s.writer.nextIndex s.writeIndex data.length
      some { s with writing := .copying data data segs next }
  | .copying data scan ((off, len) :: segs) next =>
      let base := s.memory.base.copy off (scan.take len)
      some { s.setBase base with
        writing := .copying data (scan.drop len) segs next }
  | .copying data _ [] next =>
      some { s.setWriteIndex next with
        writing := .idle, accepted := s.accepted ++ data }

/-- The reader's next step; `none` outside `read`. -/
def readerNext : Option State :=
  match s.reading with
  | .idle => none
  | .sizing maxLen =>
      some { s with
        reading := .sizingRead maxLen s.writeIndex s.accepted.length }
  | .sizingRead maxLen writeIndex _ =>
      let len := s.reader.calcSize s.readIndex writeIndex
      let len := if len > maxLen then maxLen else len
      if len = 0 then
        some { s with reading := .idle }
      else
        some { s with reading := .placing len }
  | .placing len =>
      let segs := s.reader.segments s.readIndex len
      let next := s.reader.nextIndex s.readIndex len
      some { s with reading := .copying [] segs next }
  | .copying dest ((off, len) :: segs) next =>
      some { s with
        reading := .copying (dest ++ s.memory.base.read off len) segs next }
  | .copying dest [] next =>
      some { s.setReadIndex next with
        reading := .idle, returned := s.returned ++ dest }

end State

inductive Action where
  | write (data : List UInt8)
  | read (maxLen : ℕ)
  | writerStep
  | readerStep

/-- One side attaches as the server and the other one to what it has
initialised; then the calls of both interleave step by step. -/
def spsc (maxLen : ℕ) : System State Action where
  init s := ∃ (memory : SharedMemory) (serverWrites : Bool),
    memory.base.size + HEADER_SIZE = maxLen ∧
    let server := SPSC.init memory maxLen serverWrites true
    let client := SPSC.init server.2.2 maxLen (!serverWrites) false
    s = { memory := client.2.2
          writer := if serverWrites then server.2.1 else client.2.1
          reader := if serverWrites then client.2.1 else server.2.1
          writing := .idle
          reading := .idle
          accepted := []
          returned := [] }
  step s action s' :=
    match action with
    | .write data => s.writing = .idle ∧ data.length < 4294967296 ∧
        s' = s.startWrite data
    | .read maxLen => s.reading = .idle ∧ maxLen < 4294967296 ∧
        s' = s.startRead maxLen
    | .writerStep => s.writerNext = some s'
    | .readerStep => s.readerNext = some s'

/-! ## What is going on in the ring -/

/-- The `memcpy` calls left. -/
def WriteStep.segs : WriteStep → List (ℕ × ℕ)
  | .copying _ _ segs _ => segs
  | _ => []

def ReadStep.segs : ReadStep → List (ℕ × ℕ)
  | .copying _ segs _ => segs
  | _ => []

/-- A cell of one of these segments. -/
def InSegs (segs : List (ℕ × ℕ)) (cell : ℕ) : Prop :=
  ∃ seg ∈ segs, ∃ i < seg.2, cell = seg.1 + i

namespace State

variable (s : State)

/-- All `memcpy` calls of the `write` that is copying, done or not. -/
def writeSegs : List (ℕ × ℕ) :=
  match s.writing with
  | .copying data _ _ _ => s.writer.segments s.writeIndex data.length
  | _ => []

/-- `size()`. -/
def size : ℕ := s.reader.calcSize s.readIndex s.writeIndex

/-- The cells that hold unread bytes. -/
def Unread (cell : ℕ) : Prop :=
  ∃ i < s.size, cell = (s.readIndex + i) % s.memory.base.size

/-- The unread bytes. -/
def unread : List UInt8 :=
  (List.range s.size).map fun i =>
    s.memory.base.cell ((s.readIndex + i) % s.memory.base.size)

end State

end Socketchat.Spsc
