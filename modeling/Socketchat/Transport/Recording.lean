import Socketchat.Transport.Playback
import Socketchat.Chat.Decoding

/-!
# Recording and playing back

With `SAVE_RECEIVE` defined, `WsocketImpl::receive` writes what it has received
to a file; the return code and `maxLen` in front of it are commented out there,
and expected by `WsocketPlayback`. A call that plays back a record takes eight
bytes more from the file than the recorder has written for it.
-/

namespace Socketchat.Transport

open Foundation Chat

/-- The fields of `WsocketImpl` that `receive` uses; the file is what has been
written to it. -/
structure WsocketImpl where
  mSocket : ℤ
  mReceiveFile : Option (List UInt8)

/-- A successful receive: at least one and at most `maxLen` bytes. -/
structure Receipt where
  maxLen : ℕ
  bytes : List UInt8
  ne_nil : bytes ≠ []
  length_le : bytes.length ≤ maxLen

namespace WsocketImpl

/-- `recv` is what the function of this name returns and what it stores at
`dest`. -/
def receive (w : WsocketImpl) (recv : ℤ × List UInt8) :
    ℤ × List UInt8 × WsocketImpl :=
  let r := if w.mSocket ≠ 0 then recv else (-1, [])
  let w := if 0 < r.1 then
      { w with mReceiveFile := w.mReceiveFile.map (· ++ r.2.take r.1.toNat) }
    else
      w
  (r.1, r.2, w)

/-- The socket after these receives. -/
def record (w : WsocketImpl) (receipts : List Receipt) : WsocketImpl :=
  receipts.foldl
    (fun w c => (w.receive ((c.bytes.length : ℤ), c.bytes)).2.2) w

variable {w : WsocketImpl} {content : List UInt8}

theorem receive_receipt (hsocket : w.mSocket ≠ 0) (c : Receipt) :
    w.receive ((c.bytes.length : ℤ), c.bytes) =
      ((c.bytes.length : ℤ), c.bytes,
        { w with mReceiveFile := w.mReceiveFile.map (· ++ c.bytes) }) := by
  have hpos : (0 : ℤ) < c.bytes.length :=
    Int.natCast_pos.mpr (List.length_pos_iff.mpr c.ne_nil)
  simp only [receive, if_pos hsocket, if_pos hpos, Int.toNat_natCast,
    List.take_length]

/-- **The recording** is the bytes received, one after the other. -/
theorem record_mReceiveFile : ∀ {receipts : List Receipt} {w : WsocketImpl}
    {content : List UInt8}, w.mSocket ≠ 0 → w.mReceiveFile = some content →
    (w.record receipts).mReceiveFile =
      some (content ++ receipts.flatMap (·.bytes))
  | [], _, _, _, hfile => by
      rw [List.flatMap_nil, List.append_nil]
      exact hfile
  | c :: receipts, w, content, hsocket, hfile => by
      have hnext : (w.receive ((c.bytes.length : ℤ), c.bytes)).2.2.mReceiveFile
          = some (content ++ c.bytes) := by
        rw [receive_receipt hsocket, hfile]
        rfl
      have hopen : (w.receive ((c.bytes.length : ℤ), c.bytes)).2.2.mSocket
          ≠ 0 := by
        rw [receive_receipt hsocket]
        exact hsocket
      rw [List.flatMap_cons, ← List.append_assoc]
      exact record_mReceiveFile hopen hnext

end WsocketImpl

/-! ## Playing back -/

namespace WsocketPlayback

/-- What `receive` returns and stores, call after call. -/
def playAll (torn : List UInt8 → ℤ) :
    WsocketPlayback → List ℕ → List (ℤ × List UInt8) × WsocketPlayback
  | p, [] => ([], p)
  | p, maxLen :: maxLens =>
      let r := p.receive torn maxLen
      let r' := playAll torn r.2.2 maxLens
      ((r.1, r.2.1) :: r'.1, r'.2)

variable {torn : List UInt8 → ℤ} {p : WsocketPlayback} {f : File} {maxLen : ℕ}

/-- A call that stores bytes takes eight more than it stores. -/
theorem receive_takes (hp : p.mPlaybackFile = some f)
    (hstored : (p.receive torn maxLen).2.1 ≠ []) :
    ∃ f', (p.receive torn maxLen).2.2.mPlaybackFile = some f' ∧
      f'.rest.length + 8 + (p.receive torn maxLen).2.1.length =
        f.rest.length := by
  by_cases hcode : 4 ≤ f.rest.length
  · by_cases hbody : 8 ≤ f.rest.length ∧ 0 < announced f ∧
        announced f ≤ toI32 maxLen
    · obtain ⟨hhead, hpos, hfits⟩ := hbody
      rw [receive_record hp hhead hpos hfits]
      refine ⟨_, rfl, ?_⟩
      simp only [File.rest_read, List.length_drop, List.length_take]
      omega
    · rw [receive_bare hp hcode hbody] at hstored
      exact absurd rfl hstored
  · rw [receive_short hp (by omega)] at hstored
    exact absurd rfl hstored

/-- Calls that play back receipts take eight bytes more for each. -/
theorem playAll_takes : ∀ {receipts : List Receipt} {p : WsocketPlayback}
    {f : File}, p.mPlaybackFile = some f →
    (p.playAll torn (receipts.map (·.maxLen))).1 =
      receipts.map (fun c => ((c.bytes.length : ℤ), c.bytes)) →
    8 * receipts.length + (receipts.flatMap (·.bytes)).length ≤ f.rest.length
  | [], _, _, _, _ => Nat.zero_le _
  | c :: receipts, p, f, hp, hplay => by
      obtain ⟨hfirst, hrest⟩ := List.cons.inj hplay
      have hbytes : (p.receive torn c.maxLen).2.1 = c.bytes :=
        (Prod.mk.inj hfirst).2
      have hstored : (p.receive torn c.maxLen).2.1 ≠ [] := hbytes ▸ c.ne_nil
      obtain ⟨f', hp', htakes⟩ := receive_takes hp hstored
      -- the file loses the return code and `maxLen` as well
      have ih := playAll_takes hp' hrest
      rw [hbytes] at htakes
      rw [List.flatMap_cons, List.length_append, List.length_cons]
      omega

/-- At the end of the file nothing is received. -/
theorem playAll_end : ∀ {maxLens : List ℕ} {p : WsocketPlayback} {f : File},
    p.mPlaybackFile = some f → f.rest = [] →
    ∀ r ∈ (p.playAll torn maxLens).1, r.1 = -1
  | [], _, _, _, _ => fun _ hr => absurd hr List.not_mem_nil
  | maxLen :: maxLens, p, f, hp, hend => by
      have hcall : p.receive torn maxLen =
          (-1, [], ⟨some (f.read 4).2.2⟩) := by
        rw [receive_short hp (by simp [hend]), if_pos hend]
      have hend' : (f.read 4).2.2.rest = [] := by
        rw [File.rest_read, hend, List.drop_nil]
      intro r hr
      simp only [playAll, hcall] at hr
      rcases List.mem_cons.mp hr with rfl | hr
      · rfl
      · exact playAll_end (p := ⟨some (f.read 4).2.2⟩) rfl hend' r hr

end WsocketPlayback

/-- Playback of the file `w` has written undoes the recording: the same return
codes and bytes, then `-1` for ever, and so the same messages. -/
structure Undoes (torn : List UInt8 → ℤ) (p : WsocketPlayback)
    (receipts : List Receipt) : Prop where
  same : (p.playAll torn (receipts.map (·.maxLen))).1 =
    receipts.map fun c => ((c.bytes.length : ℤ), c.bytes)
  ends : ∀ maxLens, ∀ r ∈ ((p.playAll torn
    (receipts.map (·.maxLen))).2.playAll torn maxLens).1, r.1 = -1
  messages : (unframe ((p.playAll torn
      (receipts.map (·.maxLen))).1.flatMap (·.2))).1.map cstring =
    (unframe (receipts.flatMap (·.bytes))).1.map cstring

/-- **Playback undoes a recording** only if nothing has been recorded. -/
theorem playback_undoes_recording_iff (torn : List UInt8 → ℤ)
    {w : WsocketImpl} (hsocket : w.mSocket ≠ 0)
    (hfile : w.mReceiveFile = some []) (receipts : List Receipt) :
    Undoes torn ⟨(w.record receipts).mReceiveFile.map File.openRead⟩
      receipts ↔ receipts = [] := by
  rw [WsocketImpl.record_mReceiveFile hsocket hfile, List.nil_append,
    Option.map_some]
  constructor
  · intro h
    have htakes := WsocketPlayback.playAll_takes
      (f := .openRead (receipts.flatMap (·.bytes))) rfl h.same
    rw [File.rest_openRead] at htakes
    exact List.eq_nil_of_length_eq_zero (by omega)
  · rintro rfl
    exact ⟨rfl, fun maxLens => WsocketPlayback.playAll_end rfl rfl, rfl⟩

/-- `h i CR LF`. -/
def greeting : Receipt := ⟨4096, [104, 105, 13, 10], by decide, by decide⟩

/-- A connected socket with an empty file. -/
theorem playback_undoes_recording_iff_empty :
    let w : WsocketImpl := ⟨3, some []⟩
    Undoes overlay ⟨(w.record []).mReceiveFile.map File.openRead⟩ [] ∧
      ¬ Undoes overlay
        ⟨(w.record [greeting, greeting]).mReceiveFile.map File.openRead⟩
        [greeting, greeting] := by
  intro w
  have hsocket : w.mSocket ≠ 0 := by decide
  refine ⟨?_, fun h => ?_⟩
  · exact (playback_undoes_recording_iff overlay hsocket rfl []).mpr rfl
  · have hnil := (playback_undoes_recording_iff overlay hsocket rfl
      [greeting, greeting]).mp h
    cases hnil

/-- One greeting of four bytes: they are taken for the return code, and nothing
is stored. -/
theorem playback_mistakes_payload :
    let w : WsocketImpl := ⟨3, some []⟩
    let p : WsocketPlayback :=
      ⟨(w.record [greeting]).mReceiveFile.map File.openRead⟩
    (p.playAll overlay [4096]).1 = [(168651112, [])] ∧
      ¬ Undoes overlay p [greeting] := by
  intro w p
  have hplayed : (p.playAll overlay [4096]).1 = [(168651112, [])] := by
    decide +kernel
  refine ⟨hplayed, fun h => ?_⟩
  have hsame : [((168651112 : ℤ), ([] : List UInt8))] =
      [((4 : ℤ), [104, 105, 13, 10])] := hplayed.symm.trans h.same
  exact absurd hsame (by decide)

end Socketchat.Transport
