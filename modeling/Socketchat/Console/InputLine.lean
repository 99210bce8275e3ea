import Socketchat.Foundation.Block
import Socketchat.Foundation.Chunks
import Socketchat.Foundation.Transition

/-!
# `InputLine`: the console mailbox

A thread reads lines from `stdin` into one buffer, and `getInputLine` takes
them from there. The flag `mHaveNewData` hands the buffer over; the mutex is
taken on one side only and excludes nobody. Both sides are split into single
accesses to the flag and to the cells of the buffers.
-/

namespace Socketchat.Console

open Foundation

def MAX_INPUT : ℕ := 512

/-- What the reader thread does next. -/
inductive ReaderStep where
  /-- `if (!mHaveNewData)` -/
  | testing
  /-- `mInputBuffer[0] = 0` -/
  | clearing
  /-- In `fgets`, which has stored `n` characters. -/
  | reading (n : ℕ)
  /-- `fgets` ends, and stores a terminator behind them. -/
  | terminating (n : ℕ)
  /-- `strlen(mInputBuffer)` -/
  | measuring
  /-- `mHaveNewData = true` -/
  | posting
deriving DecidableEq

/-- What `getInputLine` does next. -/
inductive CallerStep where
  /-- The next call begins with `if (mHaveNewData)`. -/
  | idle
  /-- In `strcpy`, which has copied `i` characters. -/
  | copying (i : ℕ)
  /-- A line feed at the end is cut off. -/
  | stripping
  /-- `mHaveNewData = false` -/
  | releasing
  | returning
deriving DecidableEq

/-- The string a buffer holds; one without a terminator goes on to the end of
the buffer. -/
def string (m : Block UInt8) : List UInt8 :=
  (m.read 0 m.size).takeWhile (· ≠ 0)

def strlen (m : Block UInt8) : ℕ := (string m).length

/-- The fields of `InputLineImpl`, without `mExit`, which only the destructor
sets, and what its two sides do next; how much of `stdin` has been read, and the
results that were not null so far. -/
structure State where
  mInputBuffer : Block UInt8
  mResultBuffer : Block UInt8
  mHaveNewData : Bool
  reader : ReaderStep
  caller : CallerStep
  pos : ℕ
  results : List (List UInt8)

namespace State

/-- The reader thread's next step. `stdin` gives a character or says that there
is none, which ends a chunk and, as the first thing, makes `fgets` return
null. -/
def readerNext (stdin : ℕ → Option UInt8) (s : State) : State :=
  match s.reader with
  | .testing => if s.mHaveNewData then s else { s with reader := .clearing }
  | .clearing =>
      { s with
        mInputBuffer := s.mInputBuffer.copy 0 [0]
        reader := .reading 0 }
  | .reading n =>
      match stdin s.pos with
      | none =>
          { s with
            reader := if n = 0 then .testing else .terminating n
            pos := s.pos + 1 }
      | some c =>
          { s with
            mInputBuffer := s.mInputBuffer.copy n [c]
            reader := if c = 10 ∨ n + 1 = MAX_INPUT - 1 then
                .terminating (n + 1)
              else
                .reading (n + 1)
            pos := s.pos + 1 }
  | .terminating n =>
      { s with
        mInputBuffer := s.mInputBuffer.copy n [0]
        reader := .measuring }
  | .measuring =>
      { s with
        reader := if strlen s.mInputBuffer ≠ 0 then .posting else .testing }
  | .posting => { s with mHaveNewData := true, reader := .testing }

/-- The next step of `getInputLine`. -/
def callerNext (s : State) : State :=
  match s.caller with
  | .idle => if s.mHaveNewData then { s with caller := .copying 0 } else s
  | .copying i =>
      let c := s.mInputBuffer.cell i
      { s with
        mResultBuffer := s.mResultBuffer.copy i [c]
        caller := if c = 0 then .stripping else .copying (i + 1) }
  | .stripping =>
      let len := strlen s.mResultBuffer
      { s with
        mResultBuffer :=
          if len ≠ 0 ∧ s.mResultBuffer.cell (len - 1) = 10 then
            s.mResultBuffer.copy (len - 1) [0]
          else
            s.mResultBuffer
        caller := .releasing }
  | .releasing => { s with mHaveNewData := false, caller := .returning }
  | .returning =>
      { s with
        caller := .idle
        results := s.results ++ [string s.mResultBuffer] }

/-- The cells of `mInputBuffer` the reader thread's next step touches. -/
def readerCells (s : State) : List ℕ :=
  match s.reader with
  | .testing => []
  | .clearing => [0]
  | .reading n => [n]
  | .terminating n => [n]
  | .measuring => List.range (strlen s.mInputBuffer + 1)
  | .posting => []

/-- The cells of `mInputBuffer` the next step of `getInputLine` touches. -/
def callerCells (s : State) : List ℕ :=
  match s.caller with
  | .copying i => [i]
  | _ => []

/-- The cells of `mResultBuffer` it touches. -/
def resultCells (s : State) : List ℕ :=
  match s.caller with
  | .copying i => [i]
  | .stripping => List.range (strlen s.mResultBuffer + 1)
  | .returning => List.range (strlen s.mResultBuffer + 1)
  | _ => []

end State

inductive Thread where
  | reader
  | caller
deriving DecidableEq

def State.next (stdin : ℕ → Option UInt8) (s : State) : Thread → State
  | .reader => s.readerNext stdin
  | .caller => s.callerNext

/-- The mailbox on this input, from the constructor on; the steps of the two
sides interleave in any order. -/
def mailbox (stdin : ℕ → Option UInt8) : System State Thread where
  init s :=
    s.mInputBuffer.size = MAX_INPUT ∧ s.mResultBuffer.size = MAX_INPUT ∧
    s.mHaveNewData = false ∧ s.reader = .testing ∧ s.caller = .idle ∧
    s.pos = 0 ∧ s.results = []
  step s thread s' := s' = s.next stdin thread

/-! ## The lines of an input -/

/-- What `fgets` cuts the first `n` items of the input into: a chunk ends with a
line feed, at 511 characters or where there is no character. -/
def fgetsCut (stdin : ℕ → Option UInt8) (n : ℕ) : Cut UInt8 :=
  chunks (MAX_INPUT - 1) (fun c => c = 10) ((List.range n).map stdin)

/-- A line without the line feed at its end. -/
def strip (x : List UInt8) : List UInt8 :=
  if x.getLast? = some 10 then x.dropLast else x

end Socketchat.Console
