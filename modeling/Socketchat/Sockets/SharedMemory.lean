import Socketchat.Chat.Wsocket
import Socketchat.Spsc.Calls

/-!
# `WsocketSharedMemory`

A transport over two mapped files, each with a ring in it: one carries what the
server writes, the other what the client writes. The other process changes
both files at any time, so every call is given what they hold when it is
made.
-/

namespace Socketchat.Sockets

open Foundation Chat Spsc

/-- `"sharedserver"`. -/
def SHARED_SERVER : List UInt8 :=
  [115, 104, 97, 114, 101, 100, 115, 101, 114, 118, 101, 114]

/-- `"sharedclient"`. -/
def SHARED_CLIENT : List UInt8 :=
  [115, 104, 97, 114, 101, 100, 99, 108, 105, 101, 110, 116]

/-- What the two files hold. -/
structure SharedFiles where
  server : SharedMemory
  client : SharedMemory

/-- The fields of `WsocketSharedMemory`; of a mapped file its size, and `none`
for a null pointer. -/
structure WsocketSharedMemory where
  mFirst : Bool
  mSequenceNumber : ℕ
  mIsServer : Bool
  mReader : SPSC
  mWriter : SPSC
  mServerFile : Option ℕ
  mClientFile : Option ℕ

namespace WsocketSharedMemory

/-- The constructor; `createMemoryMap` has returned these files. -/
def construct (hostName : CString) (mServerFile mClientFile : Option ℕ)
    (files : SharedFiles) : WsocketSharedMemory × SharedFiles :=
  let mIsServer := decide (hostName.val = SHARED_SERVER)
  match mServerFile, mClientFile with
  | some serverSize, some clientSize =>
      if mIsServer then
        let writer := SPSC.init files.server (toU32 serverSize) true true
        let reader := SPSC.init files.client (toU32 clientSize) false true
        (⟨true, 0, mIsServer, reader.2.1, writer.2.1, mServerFile,
          mClientFile⟩, ⟨writer.2.2, reader.2.2⟩)
      else
        let writer := SPSC.init files.client (toU32 clientSize) true false
        let reader := SPSC.init files.server (toU32 serverSize) false false
        (⟨true, 0, mIsServer, reader.2.1, writer.2.1, mServerFile,
          mClientFile⟩,
          ⟨reader.2.2, writer.2.1.incrementSequenceNumber writer.2.2⟩)
  | _, _ =>
      -- an `SPSC` that `init` has not been called on
      let untouched : SPSC := ⟨false, 0, true⟩
      (⟨true, 0, mIsServer, untouched, untouched, mServerFile, mClientFile⟩,
        files)

variable (s : WsocketSharedMemory) (files : SharedFiles)

def isValid : Bool := s.mServerFile.isSome && s.mClientFile.isSome

/-- The memory `mReader` points to, -/
def readFile : SharedMemory :=
  if s.mIsServer then files.client else files.server

/-- and the one `mWriter` points to. -/
def writeFile : SharedMemory :=
  if s.mIsServer then files.server else files.client

/-- The return code, the bytes stored at `dest` and the memory read from;
`none` where a null header is dereferenced. -/
def receive (maxLen : ℕ) : Option (ℤ × List UInt8 × SharedMemory) :=
  (s.mReader.read (s.readFile files) maxLen).map fun r =>
    (if r.1.length > 0 then toI32 r.1.length else -1, r.1, r.2)

/-- The return code and the memory written to. -/
def send (data : List UInt8) : Option (ℤ × SharedMemory) :=
  (s.mWriter.write (s.writeFile files) data).map fun r =>
    (if r.1 > 0 then toI32 r.1 else -1, r.2)

/-- Whether `this` is returned. -/
def pollServer : Bool × WsocketSharedMemory :=
  let sequenceNumber := s.mReader.getSequenceNumber (s.readFile files)
  if s.mIsServer ∧ sequenceNumber ≠ s.mSequenceNumber ∧ s.mFirst then
    (true, { s with mSequenceNumber := sequenceNumber, mFirst := false })
  else
    (false, s)

end WsocketSharedMemory

/-- `none` for a null pointer. -/
def createSocketSharedMemory (hostName : CString)
    (mServerFile mClientFile : Option ℕ) (files : SharedFiles) :
    Option WsocketSharedMemory × SharedFiles :=
  let ret := WsocketSharedMemory.construct hostName mServerFile mClientFile
    files
  (if ret.1.isValid then some ret.1 else none, ret.2)

/-! ## Calls -/

inductive SharedCall where
  | receive (maxLen : ℕ)
  | send (data : List UInt8)
  | pollServer

namespace WsocketSharedMemory

/-- The socket after a call with the files as they are then. What the call
itself leaves in them is left out: at the next call they can hold
anything. -/
def perform (s : WsocketSharedMemory) :
    SharedFiles × SharedCall → Option WsocketSharedMemory
  | (files, .receive maxLen) => (s.receive files maxLen).map fun _ => s
  | (files, .send data) => (s.send files data).map fun _ => s
  | (files, .pollServer) => some (s.pollServer files).2

/-- Both rings have a header, -/
def Initialised (s : WsocketSharedMemory) : Prop :=
  s.mReader.attached = true ∧ s.mWriter.attached = true

/-- and no sequence of calls dereferences a null one. -/
def Usable (s : WsocketSharedMemory) : Prop :=
  ∀ calls : List (SharedFiles × SharedCall), (calls.foldlM perform s).isSome

/-- The reader reads and the writer writes. -/
structure Directed (s : WsocketSharedMemory) : Prop where
  reader : s.mReader.mIsWriter = false
  writer : s.mWriter.mIsWriter = true

variable {s : WsocketSharedMemory}

/-- `pollServer` asks the header only where there is one. -/
theorem pollServer_rings (files : SharedFiles) :
    (s.pollServer files).2.mReader = s.mReader ∧
      (s.pollServer files).2.mWriter = s.mWriter := by
  unfold pollServer
  dsimp only
  split
  · exact ⟨rfl, rfl⟩
  · exact ⟨rfl, rfl⟩

theorem receive_eq_none (hdir : s.Directed) (files : SharedFiles)
    (maxLen : ℕ) :
    s.receive files maxLen = none ↔ s.mReader.attached = false := by
  unfold receive
  rw [Option.map_eq_none_iff, SPSC.read_eq_none]
  simp [hdir.reader]

theorem send_eq_none (hdir : s.Directed) (files : SharedFiles)
    (data : List UInt8) :
    s.send files data = none ↔ s.mWriter.attached = false := by
  unfold send
  rw [Option.map_eq_none_iff, SPSC.write_eq_none]
  simp [hdir.writer]

/-- One call on a socket whose rings have their headers. -/
theorem Initialised.perform (hinit : s.Initialised) (hdir : s.Directed)
    (call : SharedFiles × SharedCall) :
    ∃ s', s.perform call = some s' ∧ s'.Initialised ∧ s'.Directed := by
  obtain ⟨files, call⟩ := call
  obtain ⟨hreader, hwriter⟩ := hinit
  cases call with
  | receive maxLen =>
      have hsome : s.receive files maxLen ≠ none := by
        rw [Ne, receive_eq_none hdir, hreader]
        decide
      obtain ⟨r, hr⟩ := Option.ne_none_iff_exists'.mp hsome
      refine ⟨s, ?_, ⟨hreader, hwriter⟩, hdir⟩
      show (s.receive files maxLen).map (fun _ => s) = some s
      rw [hr]
      rfl
  | send data =>
      have hsome : s.send files data ≠ none := by
        rw [Ne, send_eq_none hdir, hwriter]
        decide
      obtain ⟨r, hr⟩ := Option.ne_none_iff_exists'.mp hsome
      refine ⟨s, ?_, ⟨hreader, hwriter⟩, hdir⟩
      show (s.send files data).map (fun _ => s) = some s
      rw [hr]
      rfl
  | pollServer =>
      obtain ⟨hreader', hwriter'⟩ := pollServer_rings (s := s) files
      refine ⟨_, rfl, ⟨?_, ?_⟩, ?_, ?_⟩
      · rw [hreader', hreader]
      · rw [hwriter', hwriter]
      · rw [hreader', hdir.reader]
      · rw [hwriter', hdir.writer]

/-- **Both headers are there exactly when no sequence of calls misses one.** -/
theorem initialised_iff_usable (hdir : s.Directed) :
    s.Initialised ↔ s.Usable := by
  constructor
  · intro hinit calls
    induction calls generalizing s with
    | nil => rfl
    | cons call calls ih =>
        obtain ⟨s', hcall, hinit', hdir'⟩ := hinit.perform hdir call
        rw [List.foldlM_cons, hcall]
        exact ih hdir' hinit'
  · intro husable
    have hnone : ∀ (files : SharedFiles) (call : SharedCall),
        s.perform (files, call) ≠ none := by
      intro files call hcall
      have hsome := husable [(files, call)]
      rw [List.foldlM_cons, hcall] at hsome
      exact absurd hsome (by decide)
    have memory : SharedMemory := ⟨⟨0, 0, 0, 0, 0⟩, ⟨0, fun _ => 0⟩⟩
    have files : SharedFiles := ⟨memory, memory⟩
    constructor
    · have hreceive := hnone files (.receive 0)
      simpa [WsocketSharedMemory.perform, receive_eq_none hdir] using hreceive
    · have hsend := hnone files (.send [])
      simpa [WsocketSharedMemory.perform, send_eq_none hdir] using hsend

/-! ## The constructor -/

section Construct

variable (hostName : CString) (files : SharedFiles)

theorem construct_directed (serverSize clientSize : ℕ) :
    (construct hostName (some serverSize) (some clientSize)
      files).1.Directed := by
  unfold construct
  dsimp only
  split
  · exact ⟨SPSC.init_mIsWriter .., SPSC.init_mIsWriter ..⟩
  · exact ⟨SPSC.init_mIsWriter .., SPSC.init_mIsWriter ..⟩

theorem construct_initialised (serverSize clientSize : ℕ) :
    (construct hostName (some serverSize) (some clientSize)
      files).1.Initialised ↔
      SPSC.Accepts files.server (toU32 serverSize)
          (decide (hostName.val = SHARED_SERVER)) ∧
        SPSC.Accepts files.client (toU32 clientSize)
          (decide (hostName.val = SHARED_SERVER)) := by
  unfold construct Initialised
  by_cases hserver : hostName.val = SHARED_SERVER
  · simp only [hserver, decide_true, if_true, SPSC.init_attached]
    exact And.comm
  · simp only [hserver, decide_false, Bool.false_eq_true, if_false,
      SPSC.init_attached]

theorem construct_isValid (mServerFile mClientFile : Option ℕ) :
    (construct hostName mServerFile mClientFile files).1.isValid =
      (mServerFile.isSome && mClientFile.isSome) := by
  unfold construct isValid
  cases mServerFile with
  | none => rfl
  | some serverSize =>
      cases mClientFile with
      | none => rfl
      | some clientSize =>
          dsimp only
          split
          · rfl
          · rfl

end Construct

end WsocketSharedMemory

/-- What `createSocketSharedMemory` returns is a socket with both its rings
initialised, on which no call dereferences a null header. -/
def UsableOrAbsent (hostName : CString) (mServerFile mClientFile : Option ℕ)
    (files : SharedFiles) : Prop :=
  ∀ s, (createSocketSharedMemory hostName mServerFile mClientFile files).1 =
    some s → s.Initialised ∧ s.Usable

/-- **Main result.** The socket is usable or absent exactly when a file is
missing or `init` accepts both. -/
theorem createSocketSharedMemory_usableOrAbsent_iff (hostName : CString)
    (mServerFile mClientFile : Option ℕ) (files : SharedFiles) :
    UsableOrAbsent hostName mServerFile mClientFile files ↔
      ∀ serverSize ∈ mServerFile, ∀ clientSize ∈ mClientFile,
        SPSC.Accepts files.server (toU32 serverSize)
            (decide (hostName.val = SHARED_SERVER)) ∧
          SPSC.Accepts files.client (toU32 clientSize)
            (decide (hostName.val = SHARED_SERVER)) := by
  have hvalid := WsocketSharedMemory.construct_isValid hostName files
    mServerFile mClientFile
  unfold UsableOrAbsent createSocketSharedMemory
  dsimp only
  rw [hvalid]
  constructor
  · rintro h serverSize rfl clientSize rfl
    have hinit := (h _ rfl).1
    exact (WsocketSharedMemory.construct_initialised ..).mp hinit
  · intro h s hs
    cases mServerFile with
    | none => exact absurd hs (by simp)
    | some serverSize =>
        cases mClientFile with
        | none => exact absurd hs (by simp)
        | some clientSize =>
            have hinit := (WsocketSharedMemory.construct_initialised ..).mpr
              (h serverSize rfl clientSize rfl)
            have hdir := WsocketSharedMemory.construct_directed hostName files
              serverSize clientSize
            cases hs
            exact ⟨hinit,
              (WsocketSharedMemory.initialised_iff_usable hdir).mp hinit⟩

/-- Two files of sixteen kilobytes that no server has initialised: the client
gets a socket, and its first `receive` and `send` have no header. -/
theorem createSocketSharedMemory_zeroed :
    let zeroed : SharedMemory := ⟨⟨0, 0, 0, 0, 0⟩, ⟨16352, fun _ => 0⟩⟩
    let files : SharedFiles := ⟨zeroed, zeroed⟩
    (∃ s, (createSocketSharedMemory ⟨SHARED_CLIENT, by decide⟩ (some 16384)
        (some 16384) files).1 = some s ∧
      s.receive files 4096 = none ∧ s.send files [7] = none) ∧
    ¬ UsableOrAbsent ⟨SHARED_CLIENT, by decide⟩ (some 16384) (some 16384)
      files := by
  intro zeroed files
  have hcreate : ∃ s, (createSocketSharedMemory ⟨SHARED_CLIENT, by decide⟩
      (some 16384) (some 16384) files).1 = some s ∧
      s.mReader.attached = false ∧ s.receive files 4096 = none ∧
      s.send files [7] = none :=
    ⟨_, rfl, by with_unfolding_all rfl, by with_unfolding_all rfl,
      by with_unfolding_all rfl⟩
  obtain ⟨s, hs, hreader, hreceive, hsend⟩ := hcreate
  refine ⟨⟨s, hs, hreceive, hsend⟩, fun h => ?_⟩
  have hinit := (h s hs).1.1
  rw [hreader] at hinit
  exact absurd hinit (by decide)

end Socketchat.Sockets
