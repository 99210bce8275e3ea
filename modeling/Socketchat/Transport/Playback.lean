import Socketchat.Chat.Loops
import Socketchat.Foundation.File

/-!
# `WsocketPlayback`

A transport that reads what it returns from a file: a return code, a `maxLen`
and, if the code is positive, as many bytes. Each of the three reads can come up
short, and none of the checks changes what is returned.
-/

namespace Socketchat.Transport

open Foundation Buffer Chat

/-- The fields of `WsocketPlayback`; `mPlaybackFile` is `none` for a null
pointer. -/
structure WsocketPlayback where
  mPlaybackFile : Option File

/-- The return code that comes next in a file with four bytes left. -/
def announced (f : File) : ℤ := toI32 (littleEndian (f.rest.take 4))

/-- What an item cut short leaves in an `int32_t` that was `-1`, where `fread`
stores the bytes there are. -/
def overlay (item : List UInt8) : ℤ :=
  toI32 (littleEndian (item ++ List.replicate (4 - item.length) 255))

namespace WsocketPlayback

/-- What is returned and the bytes stored at `dest`. `torn` is what a return
code cut short leaves in `ret`: C does not say. The assertion that `ret` is at
most `maxLen` precedes the test. -/
def receive (torn : List UInt8 → ℤ) (p : WsocketPlayback) (maxLen : ℕ) :
    ℤ × List UInt8 × WsocketPlayback :=
  match p.mPlaybackFile with
  | none => (-1, [], p)
  | some f =>
      let r := f.read 4
      if r.1 then
        let ret := toI32 (littleEndian r.2.1)
        let r' := r.2.2.read 4
        if r'.1 ∧ 0 < ret ∧ ret ≤ toI32 maxLen then
          let r'' := r'.2.2.read ret.toNat
          (ret, r''.2.1, ⟨some r''.2.2⟩)
        else
          (ret, [], ⟨some r'.2.2⟩)
      else
        (if r.2.1 = [] then -1 else torn r.2.1, [], ⟨some r.2.2⟩)

variable {torn : List UInt8 → ℤ} {p : WsocketPlayback} {f : File} {maxLen : ℕ}

/-- Less than a return code is left. -/
theorem receive_short (hp : p.mPlaybackFile = some f)
    (hshort : f.rest.length < 4) :
    p.receive torn maxLen =
      (if f.rest = [] then -1 else torn f.rest, [],
        ⟨some (f.read 4).2.2⟩) := by
  have hnot : ¬ 4 ≤ f.rest.length := Nat.not_le.mpr hshort
  have hall : f.rest.take 4 = f.rest := List.take_of_length_le (by omega)
  simp only [receive, hp, File.read_whole, File.read_item, decide_eq_true_eq,
    if_neg hnot, hall]

/-- A return code, and then no bytes that are read. -/
theorem receive_bare (hp : p.mPlaybackFile = some f)
    (hcode : 4 ≤ f.rest.length)
    (hnot : ¬ (8 ≤ f.rest.length ∧ 0 < announced f ∧
      announced f ≤ toI32 maxLen)) :
    p.receive torn maxLen =
      (announced f, [], ⟨some ((f.read 4).2.2.read 4).2.2⟩) := by
  have hnot' : ¬ (4 ≤ f.rest.length - 4 ∧ 0 < announced f ∧
      announced f ≤ toI32 maxLen) := by
    rintro ⟨hlen, hrest⟩
    exact hnot ⟨by omega, hrest⟩
  unfold announced at hnot' ⊢
  simp only [receive, hp, File.read_whole, File.read_item, File.rest_read,
    List.length_drop, decide_eq_true_eq, if_pos hcode, if_neg hnot']

/-- A return code, and then as many bytes as it says, or what there is of
them. -/
theorem receive_record (hp : p.mPlaybackFile = some f)
    (hhead : 8 ≤ f.rest.length) (hpos : 0 < announced f)
    (hfits : announced f ≤ toI32 maxLen) :
    p.receive torn maxLen =
      (announced f, (f.rest.drop 8).take (announced f).toNat,
        ⟨some (((f.read 4).2.2.read 4).2.2.read
          (announced f).toNat).2.2⟩) := by
  have hcode : 4 ≤ f.rest.length := by omega
  have hbody : 4 ≤ f.rest.length - 4 ∧ 0 < announced f ∧
      announced f ≤ toI32 maxLen := ⟨by omega, hpos, hfits⟩
  unfold announced at hbody ⊢
  simp only [receive, hp, File.read_whole, File.read_item, File.rest_read,
    List.length_drop, List.drop_drop, decide_eq_true_eq, if_pos hcode,
    if_pos hbody]

end WsocketPlayback

/-! ## The contract of `receive` -/

/-- What `Wsocket` promises of one `receive`: nothing was received, or the
return code counts the bytes of the file stored at `dest`. -/
def ReceiveContract (torn : List UInt8 → ℤ) (p : WsocketPlayback)
    (maxLen : ℕ) : Prop :=
  let r := p.receive torn maxLen
  r.1 ≤ 0 ∨ ∃ (f : File) (n : ℕ), p.mPlaybackFile = some f ∧ r.1 = n ∧
    1 ≤ n ∧ n ≤ maxLen ∧ r.2.1.length = n ∧ r.2.1 <:+: f.content

/-- What is left of a file announces no bytes, or a record that fits and is
all there. -/
def HoldsRecord (torn : List UInt8 → ℤ) (f : File) (maxLen : ℕ) : Prop :=
  f.rest = [] ∨ (f.rest.length < 4 ∧ torn f.rest ≤ 0) ∨
    (4 ≤ f.rest.length ∧ (announced f ≤ 0 ∨
      (announced f ≤ toI32 maxLen ∧ 8 + announced f ≤ f.rest.length)))

namespace WsocketPlayback

variable {torn : List UInt8 → ℤ} {p : WsocketPlayback} {f : File} {maxLen : ℕ}

theorem receiveContract_iff (hp : p.mPlaybackFile = some f) :
    ReceiveContract torn p maxLen ↔ HoldsRecord torn f maxLen := by
  unfold ReceiveContract HoldsRecord
  by_cases hcode : 4 ≤ f.rest.length
  · have hne : f.rest ≠ [] := by
      intro hnil
      rw [hnil] at hcode
      exact absurd hcode (by decide)
    by_cases hbody : 8 ≤ f.rest.length ∧ 0 < announced f ∧
        announced f ≤ toI32 maxLen
    · obtain ⟨hhead, hpos, hfits⟩ := hbody
      have hmax := toI32_le maxLen
      rw [receive_record hp hhead hpos hfits]
      simp only [List.length_take, List.length_drop]
      constructor
      · rintro (hneg | ⟨-, n, -, hn, -, -, hlen, -⟩)
        · omega
        · exact Or.inr (Or.inr ⟨hcode, Or.inr ⟨hfits, by omega⟩⟩)
      · intro hwhole
        have hall : 8 + announced f ≤ f.rest.length := by
          rcases hwhole with hnil | ⟨hlt, -⟩ | ⟨-, hneg | ⟨-, hall⟩⟩
          · exact absurd hnil hne
          · omega
          · omega
          · exact hall
        refine Or.inr ⟨f, (announced f).toNat, hp, by omega, by omega, by omega,
          by omega, f.infix_content ?_⟩
        exact (List.take_prefix ..).isInfix.trans (List.drop_suffix ..).isInfix
    · rw [receive_bare hp hcode hbody]
      constructor
      · rintro (hneg | ⟨-, n, -, hn, hone, -, hlen, -⟩)
        · exact Or.inr (Or.inr ⟨hcode, Or.inl hneg⟩)
        · -- a positive code, and nothing has been stored
          rw [← hlen] at hone
          exact absurd hone (by simp)
      · rintro (hnil | ⟨hlt, -⟩ | ⟨-, hneg | ⟨hfits, hall⟩⟩)
        · exact absurd hnil hne
        · omega
        · exact Or.inl hneg
        · refine Or.inl ?_
          by_contra hpos
          exact hbody ⟨by omega, by omega, hfits⟩
  · rw [receive_short hp (by omega)]
    by_cases hnil : f.rest = []
    · simp [hnil]
    · rw [if_neg hnil]
      constructor
      · rintro (hneg | ⟨-, n, -, hn, hone, -, hlen, -⟩)
        · exact Or.inr (Or.inl ⟨by omega, hneg⟩)
        · rw [← hlen] at hone
          exact absurd hone (by simp)
      · rintro (hnil' | ⟨-, hneg⟩ | ⟨hlen, -⟩)
        · exact absurd hnil' hnil
        · exact Or.inl hneg
        · exact absurd hlen hcode

end WsocketPlayback

/-! ## What `poll` makes of it -/

/-- One pass of the receive loop of `poll`, on a transport whose `receive`
returns `ret` and stores `stored`; `transient` is `wouldBlock() ||
inProgress()`. -/
def receivePassOn (s : SocketChatImpl) (ret : ℤ) (stored : List UInt8)
    (transient : Bool) : Bool × SocketChatImpl :=
  match s.mReceiveBuffer.confirmCapacity DEFAULT_MAX_READ_SIZE with
  | (none, b) => (false, { s with mReceiveBuffer := b })
  | (some rbuffer, b) =>
      let b := b.store rbuffer stored
      let s := { s with mReceiveBuffer := b }
      if ret < 0 ∧ transient then
        (false, s)
      else if ret ≤ 0 then
        (false, s.disconnect.1)
      else
        (true, { s with
          mReceiveBuffer := (b.addBuffer none (toU32 ret.toNat)).2 })

/-- A return code that counts the bytes stored is an answer of a transport that
keeps the contract. -/
theorem receivePassOn_bytes (s : SocketChatImpl) {x : UInt8} {xs : List UInt8}
    (hlen : (x :: xs).length ≤ DEFAULT_MAX_READ_SIZE) (transient : Bool) :
    receivePassOn s ((x :: xs).length : ℤ) (x :: xs) transient =
      ((s.receivePass (.bytes x xs)).1,
        (s.receivePass (.bytes x xs)).2.1) := by
  have hword : DEFAULT_MAX_READ_SIZE < 4294967296 := by decide
  have htake : (x :: xs).take DEFAULT_MAX_READ_SIZE = x :: xs :=
    List.take_of_length_le hlen
  have hpos : 0 < (x :: xs).length := Nat.succ_pos _
  have hneg : ¬ (((x :: xs).length : ℤ) < 0 ∧ transient = true) := by omega
  have hzero : ¬ ((x :: xs).length : ℤ) ≤ 0 := by omega
  have hcount : toU32 ((x :: xs).length : ℤ).toNat = (x :: xs).length := by
    rw [Int.toNat_natCast]
    exact toU32_of_lt (by omega)
  unfold receivePassOn SocketChatImpl.receivePass
  rcases s.mReceiveBuffer.confirmCapacity DEFAULT_MAX_READ_SIZE with
    ⟨addr, b⟩
  cases addr with
  | none => rfl
  | some rbuffer => simp only [htake, if_neg hneg, if_neg hzero, hcount]

/-- After a positive return code, whatever connection calls `receive`, its
receive buffer has grown by exactly the bytes stored. -/
def PollCommits (torn : List UInt8 → ℤ) (p : WsocketPlayback) : Prop :=
  ∀ s : SocketChatImpl, s.mReceiveBuffer.Valid →
    s.mReceiveBuffer.HasRoom DEFAULT_MAX_READ_SIZE →
    let r := p.receive torn DEFAULT_MAX_READ_SIZE
    0 < r.1 → (receivePassOn s r.1 r.2.1 true).2.mReceiveBuffer.getData =
      s.mReceiveBuffer.getData ++ r.2.1

theorem ReceiveContract.pollCommits {torn : List UInt8 → ℤ}
    {p : WsocketPlayback}
    (h : ReceiveContract torn p DEFAULT_MAX_READ_SIZE) : PollCommits torn p := by
  intro s hvalid hroom r hpos
  rcases h with hneg | ⟨f, n, -, hret, hone, hmax, hlen, -⟩
  · exact absurd hpos (Int.not_lt.mpr hneg)
  · have hstored : r.2.1 ≠ [] := by
      intro hnil
      have hzero : (0 : ℕ) = n := by
        rw [← hlen]
        exact (congrArg List.length hnil).symm
      omega
    obtain ⟨x, xs, hxs⟩ := List.exists_cons_of_ne_nil hstored
    have hcons : (x :: xs).length = n := by
      rw [← hxs]
      exact hlen
    have hcode : r.1 = ((x :: xs).length : ℤ) := by
      rw [hcons]
      exact hret
    obtain ⟨-, hdata, hpass⟩ :=
      SocketChatImpl.receivePass_bytes hvalid hroom x xs
    rw [hcode, hxs, receivePassOn_bytes s (by omega), hpass]
    refine hdata.trans ?_
    rw [List.take_of_length_le (by omega)]

/-- **Playback keeps the contract** of `receive`, and `poll` commits only what
was read, exactly where what is left of the file announces no bytes, or a record
that fits and is all there. -/
theorem playback_contract_iff (torn : List UInt8 → ℤ) (p : WsocketPlayback)
    (maxLen : ℕ) :
    (ReceiveContract torn p maxLen ∧
      (maxLen = DEFAULT_MAX_READ_SIZE → PollCommits torn p)) ↔
    ∀ f, p.mPlaybackFile = some f → HoldsRecord torn f maxLen := by
  cases hp : p.mPlaybackFile with
  | none =>
      have hreturn : (p.receive torn maxLen).1 = -1 := by
        simp only [WsocketPlayback.receive, hp]
      have hcontract : ReceiveContract torn p maxLen :=
        Or.inl (by rw [hreturn]; decide)
      refine iff_of_true ⟨hcontract, ?_⟩ fun f hf => absurd hf (by simp)
      rintro rfl
      exact hcontract.pollCommits
  | some f =>
      constructor
      · rintro ⟨hcontract, -⟩ f' hf'
        obtain rfl : f = f' := Option.some.inj hf'
        exact (WsocketPlayback.receiveContract_iff hp).mp hcontract
      · intro hholds
        have hcontract : ReceiveContract torn p maxLen :=
          (WsocketPlayback.receiveContract_iff hp).mpr (hholds f rfl)
        refine ⟨hcontract, ?_⟩
        rintro rfl
        exact hcontract.pollCommits

/-- A file cut short after two of the five bytes it announces. -/
def cutShort : File := .openRead [5, 0, 0, 0, 0, 16, 0, 0, 97, 98]

/-- `receive` returns five and stores two bytes, and `poll` commits three that
were never read. -/
theorem playback_returns_unread :
    let p : WsocketPlayback := ⟨some cutShort⟩
    (p.receive overlay DEFAULT_MAX_READ_SIZE).1 = 5 ∧
    (p.receive overlay DEFAULT_MAX_READ_SIZE).2.1 = [97, 98] ∧
    (receivePassOn (.construct (some 0)) 5 [97, 98] true).2.mReceiveBuffer.getSize
      = 5 ∧
    ¬ ReceiveContract overlay p DEFAULT_MAX_READ_SIZE := by
  intro p
  have hcode : (p.receive overlay DEFAULT_MAX_READ_SIZE).1 = 5 := by
    decide +kernel
  have hstored : (p.receive overlay DEFAULT_MAX_READ_SIZE).2.1 = [97, 98] := by
    decide +kernel
  refine ⟨hcode, hstored, by decide +kernel, ?_⟩
  rintro (hneg | ⟨f, n, -, hret, -, -, hlen, -⟩)
  · rw [hcode] at hneg
    exact absurd hneg (by decide)
  · rw [hcode] at hret
    rw [hstored] at hlen
    have htwo : 2 = n := hlen
    omega

end Socketchat.Transport
