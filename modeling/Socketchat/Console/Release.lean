import Socketchat.Console.Mailbox

/-!
# `InputLine` is released

The destructor sets `mExit`, detaches the reader thread and frees the object.
It does not wait for the thread, which looks at `mExit` only at the head of its
loop: a thread that has not looked in between goes on with an object that is
gone. From every state in which `release` can be called the scheduler can bring
about either.
-/

namespace Socketchat.Console

open Foundation

/-- Where the reader thread's loop is. -/
inductive LoopStep where
  /-- `while (!mExit)` -/
  | head
  | body
  | ended
deriving DecidableEq

/-- What the destructor does next. -/
inductive DestructorStep where
  /-- `mExit = true`, once `release` is called. -/
  | exiting
  /-- `mThread->detach()` and `delete mThread`. -/
  | detaching
  /-- The memory of the object is given back. -/
  | freeing
  | done
deriving DecidableEq

/-- The fields of `InputLineImpl`, where its reader thread and its destructor
are, and whether the thread has used the object after it was freed. -/
structure InputLineImpl where
  mailbox : State
  mExit : Bool
  loop : LoopStep
  destructor : DestructorStep
  used : Bool

inductive ObjectStep where
  | reader
  /-- A step of `getInputLine`. -/
  | caller
  | destructor
deriving DecidableEq

namespace InputLineImpl

/-- The reader thread's next step reads or writes a field. Where there is no
character, `fgets` leaves its buffer alone. -/
def touches (stdin : ℕ → Option UInt8) (o : InputLineImpl) : Bool :=
  match o.loop with
  | .head => true
  | .body =>
      match o.mailbox.reader with
      | .reading _ => (stdin o.mailbox.pos).isSome
      | _ => true
  | .ended => false

/-- A step of the reader thread inside its loop. -/
def bodyNext (stdin : ℕ → Option UInt8) (o : InputLineImpl) : InputLineImpl :=
  let s := o.mailbox.readerNext stdin
  { o with
    mailbox := s
    loop := if s.reader = .testing then .head else .body }

/-- The reader thread's next step. What comes of using a freed object is not
defined; all that is said is that it has been used. -/
def readerNext (stdin : ℕ → Option UInt8) (o : InputLineImpl) :
    Option InputLineImpl :=
  if o.destructor = .done ∧ o.touches stdin = true then
    some { o with used := true }
  else
    match o.loop with
    | .head => some { o with loop := if o.mExit then .ended else .body }
    | .body => some (o.bodyNext stdin)
    | .ended => none

/-- The next step of `getInputLine`, which nobody calls after `release`. -/
def callerNext (o : InputLineImpl) : Option InputLineImpl :=
  if o.destructor = .exiting then
    some { o with mailbox := o.mailbox.callerNext }
  else
    none

/-- The next step of the destructor; it begins when no call is underway. -/
def destructorNext (o : InputLineImpl) : Option InputLineImpl :=
  match o.destructor with
  | .exiting =>
      if o.mailbox.caller = .idle then
        some { o with mExit := true, destructor := .detaching }
      else
        none
  | .detaching => some { o with destructor := .freeing }
  | .freeing => some { o with destructor := .done }
  | .done => none

def next (stdin : ℕ → Option UInt8) (o : InputLineImpl) :
    ObjectStep → Option InputLineImpl
  | .reader => o.readerNext stdin
  | .caller => o.callerNext
  | .destructor => o.destructorNext

end InputLineImpl

/-- The object from its constructor to what its reader thread does after its
destructor; the steps of the two threads interleave in any order. -/
def inputLine (stdin : ℕ → Option UInt8) : System InputLineImpl ObjectStep where
  init o :=
    (mailbox stdin).init o.mailbox ∧ o.mExit = false ∧ o.loop = .head ∧
    o.destructor = .exiting ∧ o.used = false
  step o k o' := o.next stdin k = some o'

namespace InputLineImpl

variable {stdin : ℕ → Option UInt8} {o o' : InputLineImpl}

/-! ## What a step does -/

/-- **The steps of the reader thread.** -/
theorem reader_cases (h : o.readerNext stdin = some o') :
    (o.destructor = .done ∧ o.touches stdin = true ∧
      o' = { o with used := true }) ∨
    (o.destructor ≠ .done ∧ o.loop = .head ∧
      o' = { o with loop := if o.mExit then .ended else .body }) ∨
    (o.loop = .body ∧ o' = o.bodyNext stdin) := by
  unfold readerNext at h
  split at h
  · rename_i hboth
    exact Or.inl ⟨hboth.1, hboth.2, (Option.some.inj h).symm⟩
  · rename_i hnot
    cases hloop : o.loop with
    | head =>
        rw [hloop] at h
        refine Or.inr (Or.inl ⟨fun hdone => hnot ⟨hdone, ?_⟩, rfl,
          (Option.some.inj h).symm⟩)
        simp only [touches, hloop]
    | body =>
        rw [hloop] at h
        exact Or.inr (Or.inr ⟨rfl, (Option.some.inj h).symm⟩)
    | ended =>
        rw [hloop] at h
        cases h

/-- **The steps of the destructor.** -/
theorem destructor_cases (h : o.destructorNext = some o') :
    (o.destructor = .exiting ∧ o.mailbox.caller = .idle ∧
      o' = { o with mExit := true, destructor := .detaching }) ∨
    (o.destructor = .detaching ∧ o' = { o with destructor := .freeing }) ∨
    (o.destructor = .freeing ∧ o' = { o with destructor := .done }) := by
  unfold destructorNext at h
  cases hstep : o.destructor with
  | exiting =>
      rw [hstep] at h
      obtain ⟨hidle, heq⟩ := Option.ite_none_right_eq_some.mp h
      exact Or.inl ⟨rfl, hidle, (Option.some.inj heq).symm⟩
  | detaching =>
      rw [hstep] at h
      exact Or.inr (Or.inl ⟨rfl, (Option.some.inj h).symm⟩)
  | freeing =>
      rw [hstep] at h
      exact Or.inr (Or.inr ⟨rfl, (Option.some.inj h).symm⟩)
  | done =>
      rw [hstep] at h
      cases h

/-! ## The invariant -/

/-- Until it is freed the object is a mailbox; a thread ends only once `mExit`
has been set, and then has not used a freed object. -/
structure Inv (stdin : ℕ → Option UInt8) (o : InputLineImpl) : Prop where
  mailbox : o.destructor ≠ .done → (Console.mailbox stdin).Reachable o.mailbox
  mExit : o.mExit = true ↔ o.destructor ≠ .exiting
  ended : o.loop = .ended → o.mExit = true ∧ o.used = false
  used : o.used = true → o.destructor = .done

/-- An object that is there has not been used after its end. -/
theorem Inv.unused (h : o.Inv stdin) (hlive : o.destructor ≠ .done) :
    o.used = false :=
  Bool.eq_false_iff.mpr fun hused => hlive (h.used hused)

/-- **A step of the reader thread.** -/
theorem Inv.reader (h : o.Inv stdin) (hnext : o.readerNext stdin = some o') :
    o'.Inv stdin := by
  rcases reader_cases hnext with ⟨hdone, htouch, rfl⟩ | ⟨hlive, -, rfl⟩ |
    ⟨hbody, rfl⟩
  · refine ⟨h.mailbox, h.mExit, fun hended => ?_, fun _ => hdone⟩
    have hended : o.loop = .ended := hended
    simp only [touches, hended] at htouch
    cases htouch
  · refine ⟨h.mailbox, h.mExit, fun hended => ?_, h.used⟩
    refine ⟨?_, h.unused hlive⟩
    cases hexit : o.mExit with
    | true => rfl
    | false =>
        rw [hexit] at hended
        cases hended
  · refine ⟨fun hlive => ?_, h.mExit, fun hended => ?_, h.used⟩
    · exact (h.mailbox hlive).step (k := .reader) rfl
    · simp only [bodyNext] at hended
      split at hended
      · cases hended
      · cases hended

/-- **A step of the destructor.** -/
theorem Inv.destructor (h : o.Inv stdin) (hnext : o.destructorNext = some o') :
    o'.Inv stdin := by
  rcases destructor_cases hnext with ⟨hstep, -, rfl⟩ | ⟨hstep, rfl⟩ |
    ⟨hstep, rfl⟩
  · have hne : o.destructor ≠ .done := by simp [hstep]
    refine ⟨fun _ => h.mailbox hne, by simp, fun _ => ⟨rfl, h.unused hne⟩, ?_⟩
    exact fun hused => absurd (h.used hused) hne
  · have hne : o.destructor ≠ .done := by simp [hstep]
    refine ⟨fun _ => h.mailbox hne, ?_, h.ended, ?_⟩
    · simp [h.mExit, hstep]
    · exact fun hused => absurd (h.used hused) hne
  · refine ⟨fun hne => absurd rfl hne, ?_, h.ended, fun _ => rfl⟩
    simp [h.mExit, hstep]

theorem inv_holds (ho : (inputLine stdin).Reachable o) : o.Inv stdin := by
  have hinv : (inputLine stdin).Invariant (Inv stdin) := by
    constructor
    case init =>
      rintro o ⟨hmailbox, hexit, hloop, hdestructor, hused⟩
      refine ⟨fun _ => .of_init hmailbox, ?_, fun h => ?_, fun h => ?_⟩
      · simp [hexit, hdestructor]
      · rw [hloop] at h
        cases h
      · rw [hused] at h
        cases h
    case step =>
      rintro o k o' - h hstep
      cases k with
      | reader => exact h.reader hstep
      | caller =>
          obtain ⟨hexiting, heq⟩ := Option.ite_none_right_eq_some.mp hstep
          obtain rfl := Option.some.inj heq
          refine ⟨fun hlive => ?_, h.mExit, h.ended, h.used⟩
          exact (h.mailbox hlive).step (k := .caller) rfl
      | destructor => exact h.destructor hstep
  exact hinv.holds ho

/-! ## A thread that has ended -/

theorem ended_run {ks : List ObjectStep}
    (hrun : (inputLine stdin).Run o ks o') (hended : o.loop = .ended) :
    o'.loop = .ended := by
  induction hrun with
  | nil => exact hended
  | @snoc u v ks k hrun hstep ih =>
      have hended : u.loop = .ended := ih
      cases k with
      | reader =>
          rcases reader_cases hstep with ⟨-, -, rfl⟩ | ⟨-, hhead, -⟩ |
            ⟨hbody, -⟩
          · exact hended
          · rw [hhead] at hended
            cases hended
          · rw [hbody] at hended
            cases hended
      | caller =>
          obtain ⟨-, heq⟩ := Option.ite_none_right_eq_some.mp hstep
          rw [← Option.some.inj heq]
          exact hended
      | destructor =>
          rcases destructor_cases hstep with ⟨-, -, rfl⟩ | ⟨-, rfl⟩ | ⟨-, rfl⟩
          · exact hended
          · exact hended
          · exact hended

/-! ## A thread that has not -/

theorem readerNext_of_touches (hdone : o.destructor = .done)
    (htouch : o.touches stdin = true) :
    o.readerNext stdin = some { o with used := true } :=
  if_pos ⟨hdone, htouch⟩

/-- It uses the freed object in its next step or in the one after that. -/
theorem used_of_done (hdone : o.destructor = .done) (hloop : o.loop ≠ .ended) :
    ((o.next stdin .reader).bind fun u => u.next stdin .reader).map (·.used) =
      some true := by
  simp only [next]
  cases htouch : o.touches stdin with
  | true =>
      let u : InputLineImpl := { o with used := true }
      have hagain : u.touches stdin = true := htouch
      rw [readerNext_of_touches hdone htouch, Option.bind_some,
        readerNext_of_touches (o := u) hdone hagain]
      rfl
  | false =>
      -- `fgets` has found that there is no character, and stores nothing yet
      obtain ⟨n, hbody, hreader, hnone⟩ : ∃ n, o.loop = .body ∧
          o.mailbox.reader = .reading n ∧ stdin o.mailbox.pos = none := by
        unfold touches at htouch
        split at htouch
        · cases htouch
        · rename_i hbody
          split at htouch
          · rename_i n hreader
            exact ⟨n, hbody, hreader, Option.not_isSome_iff_eq_none.mp
              (by simp [htouch])⟩
          · cases htouch
        · rename_i hended
          exact absurd hended hloop
      have hnext : o.readerNext stdin = some (o.bodyNext stdin) := by
        unfold readerNext
        rw [if_neg (by simp [htouch]), hbody]
      have hthen : (o.bodyNext stdin).touches stdin = true := by
        by_cases hn : n = 0
        · simp [touches, bodyNext, State.readerNext, hreader, hnone, hn]
        · simp [touches, bodyNext, State.readerNext, hreader, hnone, hn]
      have hgone : (o.bodyNext stdin).destructor = .done := hdone
      rw [hnext, Option.bind_some, readerNext_of_touches hgone hthen]
      rfl

/-! ## A destructor that waits -/

/-- So many steps at most until the reader thread is at the end of the body. -/
def remaining (s : State) : ℕ :=
  match s.reader with
  | .testing => if s.mHaveNewData then 1 else MAX_INPUT + 4
  | .clearing => MAX_INPUT + 3
  | .reading n => MAX_INPUT + 2 - n
  | .terminating _ => 3
  | .measuring => 2
  | .posting => 1

theorem remaining_le (s : State) : remaining s ≤ MAX_INPUT + 4 := by
  have hmax : MAX_INPUT = 512 := rfl
  unfold remaining
  split
  · split <;> omega
  all_goals omega

/-- `fgets` stops before its buffer is full. -/
def Bounded (s : State) : Prop := ∀ n, s.reader = .reading n → n + 1 < MAX_INPUT

theorem bounded_readerNext {s : State} (h : Bounded s) :
    Bounded (s.readerNext stdin) := by
  have hmax : MAX_INPUT = 512 := rfl
  intro n hn
  unfold State.readerNext at hn
  cases hreader : s.reader with
  | testing =>
      simp only [hreader] at hn
      split at hn
      · exact h n hn
      · cases hn
  | clearing =>
      simp only [hreader] at hn
      obtain rfl := ReaderStep.reading.inj hn
      omega
  | reading k =>
      have hk := h k hreader
      cases hc : stdin s.pos with
      | none =>
          simp only [hreader, hc] at hn
          split at hn
          · cases hn
          · cases hn
      | some c =>
          simp only [hreader, hc] at hn
          split at hn
          · cases hn
          · obtain rfl := ReaderStep.reading.inj hn
            omega
  | terminating k =>
      simp only [hreader] at hn
      cases hn
  | measuring =>
      simp only [hreader] at hn
      split at hn
      · cases hn
      · cases hn
  | posting =>
      simp only [hreader] at hn
      cases hn

theorem callerNext_reader (s : State) : s.callerNext.reader = s.reader := by
  unfold State.callerNext
  split
  · split <;> rfl
  all_goals rfl

theorem bounded_holds {s : State} (hs : (Console.mailbox stdin).Reachable s) :
    Bounded s := by
  have hinv : (Console.mailbox stdin).Invariant Bounded := by
    constructor
    case init =>
      rintro s ⟨-, -, -, hreader, -⟩ n hn
      rw [hreader] at hn
      cases hn
    case step =>
      rintro s thread s' - h rfl
      cases thread with
      | reader => exact bounded_readerNext h
      | caller => exact fun n hn => h n (callerNext_reader s ▸ hn)
  exact hinv.holds hs

theorem remaining_pos {s : State} (h : Bounded s) : 1 ≤ remaining s := by
  have hmax : MAX_INPUT = 512 := rfl
  cases hreader : s.reader with
  | testing =>
      simp only [remaining, hreader]
      split <;> omega
  | reading n =>
      have hn := h n hreader
      simp only [remaining, hreader]
      omega
  | _ => simp [remaining, hreader]

/-- **A step of the body** is its last one or leaves fewer. -/
theorem remaining_lt {s : State} (hs : (Console.mailbox stdin).Reachable s) :
    (s.readerNext stdin).reader = .testing ∨
      remaining (s.readerNext stdin) < remaining s := by
  have hmax : MAX_INPUT = 512 := rfl
  cases hreader : s.reader with
  | testing =>
      cases hflag : s.mHaveNewData with
      | true => exact Or.inl (by simp [State.readerNext, hreader, hflag])
      | false =>
          exact Or.inr (by simp [State.readerNext, remaining, hreader, hflag])
  | clearing =>
      exact Or.inr (by simp [State.readerNext, remaining, hreader])
  | reading n =>
      have hn := bounded_holds hs n hreader
      have hnow : remaining s = MAX_INPUT + 2 - n := by
        simp only [remaining, hreader]
      cases hc : stdin s.pos with
      | none =>
          by_cases hzero : n = 0
          · exact Or.inl (by simp [State.readerNext, hreader, hc, hzero])
          · have hnext : remaining (s.readerNext stdin) = 3 := by
              simp [State.readerNext, remaining, hreader, hc, hzero]
            omega
      | some c =>
          by_cases hlast : c = 10 ∨ n + 1 = MAX_INPUT - 1
          · have hnext : remaining (s.readerNext stdin) = 3 := by
              simp [State.readerNext, remaining, hreader, hc, hlast]
            omega
          · have hnext : remaining (s.readerNext stdin) =
                MAX_INPUT + 2 - (n + 1) := by
              simp [State.readerNext, remaining, hreader, hc, hlast]
            omega
  | terminating n =>
      exact Or.inr (by simp [State.readerNext, remaining, hreader])
  | measuring =>
      by_cases hlen : strlen s.mInputBuffer ≠ 0
      · exact Or.inr (by simp [State.readerNext, remaining, hreader, hlen])
      · exact Or.inl (by simp [State.readerNext, hreader, hlen])
  | posting => exact Or.inl (by simp [State.readerNext, hreader])

theorem readerNext_of_body (hlive : o.destructor ≠ .done)
    (hbody : o.loop = .body) :
    o.readerNext stdin = some (o.bodyNext stdin) := by
  unfold readerNext
  rw [if_neg fun h => hlive h.1, hbody]

/-- The reader thread gets to the end of the body by steps of its own. -/
theorem body_ends (hlive : o.destructor ≠ .done) (hbody : o.loop = .body)
    (hmailbox : (Console.mailbox stdin).Reachable o.mailbox) :
    ∃ n o', n ≤ remaining o.mailbox ∧
      (inputLine stdin).Run o (List.replicate n .reader) o' ∧
      o'.loop = .head ∧ o'.mExit = o.mExit ∧ o'.destructor = o.destructor := by
  induction hm : remaining o.mailbox using Nat.strong_induction_on
      generalizing o with
  | _ m ih =>
      have hstep : (inputLine stdin).step o .reader (o.bodyNext stdin) :=
        readerNext_of_body hlive hbody
      have hone := (System.Run.nil o).snoc hstep
      by_cases hlast : (o.mailbox.readerNext stdin).reader = .testing
      · have hpos := remaining_pos (bounded_holds hmailbox)
        exact ⟨1, o.bodyNext stdin, hm ▸ hpos, hone, if_pos hlast, rfl, rfl⟩
      · have hlower := (remaining_lt hmailbox).resolve_left hlast
        rw [hm] at hlower
        obtain ⟨n, o', hn, hrun, hrest⟩ := ih _ hlower hlive
          (o := o.bodyNext stdin) (if_neg hlast)
          (hmailbox.step (k := .reader) rfl) rfl
        refine ⟨n + 1, o', by omega, ?_, hrest⟩
        rw [List.replicate_succ]
        exact hone.trans hrun

/-- A thread that reads `mExit` once it is set ends. -/
theorem head_ends (hlive : o.destructor ≠ .done) (hhead : o.loop = .head)
    (hexit : o.mExit = true) : ∃ o', (inputLine stdin).Run o [.reader] o' ∧
      o'.loop = .ended ∧ o'.destructor = o.destructor := by
  have hstep : (inputLine stdin).step o .reader { o with loop := .ended } := by
    show o.readerNext stdin = _
    unfold readerNext
    rw [if_neg fun h => hlive h.1, hhead, hexit]
    rfl
  exact ⟨_, (System.Run.nil o).snoc hstep, rfl, rfl⟩

/-- **A thread that is given time** between the first and the last step of the
destructor ends. -/
theorem Inv.ends (h : o.Inv stdin) (hexit : o.mExit = true)
    (hlive : o.destructor ≠ .done) :
    ∃ n o', n ≤ MAX_INPUT + 5 ∧
      (inputLine stdin).Run o (List.replicate n .reader) o' ∧
      o'.loop = .ended ∧ o'.destructor = o.destructor := by
  cases hloop : o.loop with
  | head =>
      obtain ⟨v, hrun, hv⟩ := head_ends hlive hloop hexit
      exact ⟨1, v, by omega, hrun, hv⟩
  | body =>
      obtain ⟨n, u, hn, hrun, hu, huexit, hudestructor⟩ :=
        body_ends hlive hloop (h.mailbox hlive)
      rw [← hudestructor] at hlive
      obtain ⟨v, hlast, hv, hvdestructor⟩ := head_ends hlive hu (huexit ▸ hexit)
      have hle := remaining_le o.mailbox
      refine ⟨n + 1, v, by omega, ?_, hv, hvdestructor.trans hudestructor⟩
      rw [List.replicate_succ']
      exact hrun.trans hlast
  | ended => exact ⟨0, o, Nat.zero_le _, .nil o, hloop, rfl⟩

/-! ## `release` -/

theorem step_exiting (hexiting : o.destructor = .exiting)
    (hidle : o.mailbox.caller = .idle) :
    (inputLine stdin).step o .destructor
      { o with mExit := true, destructor := .detaching } := by
  show o.destructorNext = _
  unfold destructorNext
  rw [hexiting]
  exact if_pos hidle

theorem run_detaching (hdetaching : o.destructor = .detaching) :
    (inputLine stdin).Run o [.destructor, .destructor]
      { o with destructor := .done } := by
  let u : InputLineImpl := { o with destructor := .freeing }
  have hdetach : (inputLine stdin).step o .destructor u := by
    show o.destructorNext = _
    unfold destructorNext
    rw [hdetaching]
  have hfree : (inputLine stdin).step u .destructor
      { o with destructor := .done } := rfl
  exact ((System.Run.nil o).snoc hdetach).snoc hfree

end InputLineImpl

/-- **Main result.** Until it is freed, the object is the mailbox that the
reader thread and `getInputLine` share. A thread whose loop has ended, which is
after the destructor has set `mExit`, never uses the freed object; any other one
uses it in one of its next two steps. Whenever `release` is called both can
happen: a destructor that is not interrupted is followed by such a use, and one
that lets the thread take a few steps after setting `mExit` is not. -/
theorem inputLine_release {stdin : ℕ → Option UInt8} {o : InputLineImpl}
    (ho : (inputLine stdin).Reachable o) :
    (o.destructor ≠ .done →
      (mailbox stdin).Reachable o.mailbox ∧ o.used = false) ∧
    (o.loop = .ended → o.mExit = true ∧
      ∀ ks o', (inputLine stdin).Run o ks o' → o'.used = false) ∧
    (o.destructor = .done → o.loop ≠ .ended →
      ((o.next stdin .reader).bind fun u => u.next stdin .reader).map (·.used) =
        some true) ∧
    (o.destructor = .exiting → o.mailbox.caller = .idle →
      (∃ o', (inputLine stdin).Run o
        [.destructor, .destructor, .destructor, .reader, .reader] o' ∧
        o'.used = true) ∧
      ∃ n o', n ≤ MAX_INPUT + 5 ∧ (inputLine stdin).Run o
        (.destructor :: List.replicate n .reader ++ [.destructor, .destructor])
        o' ∧ o'.destructor = .done ∧ o'.loop = .ended) := by
  have h := InputLineImpl.inv_holds ho
  refine ⟨fun hlive => ⟨h.mailbox hlive, h.unused hlive⟩,
    fun hended => ⟨(h.ended hended).1, fun ks o' hrun => ?_⟩,
    InputLineImpl.used_of_done, fun hexiting hidle => ?_⟩
  · have hstays := InputLineImpl.ended_run hrun hended
    exact ((InputLineImpl.inv_holds (hrun.reachable ho)).ended hstays).2
  · let u : InputLineImpl := { o with mExit := true, destructor := .detaching }
    have hfirst : (inputLine stdin).step o .destructor u :=
      InputLineImpl.step_exiting hexiting hidle
    have hset : (inputLine stdin).Run o [.destructor] u :=
      (System.Run.nil o).snoc hfirst
    constructor
    · -- nothing had set `mExit` before, so the loop has not ended
      let v : InputLineImpl := { u with destructor := .done }
      have hloop : v.loop ≠ .ended := fun hended =>
        h.mExit.mp (h.ended hended).1 hexiting
      have hrest : (inputLine stdin).Run u [.destructor, .destructor] v :=
        InputLineImpl.run_detaching rfl
      obtain ⟨w, hw, hused⟩ := Option.map_eq_some_iff.mp
        (InputLineImpl.used_of_done (o := v) rfl hloop)
      obtain ⟨x, hx, hxw⟩ := Option.bind_eq_some_iff.mp hw
      exact ⟨w, ((hset.trans hrest).snoc hx).snoc hxw, hused⟩
    · have hu := InputLineImpl.inv_holds (ho.step hfirst)
      have hlive : u.destructor ≠ .done := DestructorStep.noConfusion
      obtain ⟨n, v, hn, hrun, hended, hstep⟩ := hu.ends rfl hlive
      exact ⟨n, _, hn, (hset.trans hrun).trans
        (InputLineImpl.run_detaching hstep), rfl, hended⟩

/-- The line `h i LF` is read and taken, the thread waits for another one, and
the object is released. -/
theorem inputLine_release_greeting : ∃ o, (inputLine greeting).Reachable o ∧
    o.mailbox.results = [[104, 105]] ∧ o.mailbox.reader = .reading 0 ∧
    ∃ o', (inputLine greeting).Run o
      [.destructor, .destructor, .destructor, .reader, .reader] o' ∧
      o'.used = true := by
  let o₀ : InputLineImpl := ⟨⟨Block.fresh 512, Block.fresh 512, false, .testing,
    .idle, 0, []⟩, false, .head, .exiting, false⟩
  have hinit : (inputLine greeting).init o₀ :=
    ⟨⟨rfl, rfl, rfl, rfl, rfl, rfl, rfl⟩, rfl, rfl, rfl, rfl⟩
  let steps := List.replicate 9 ObjectStep.reader ++
    List.replicate 8 ObjectStep.caller ++ List.replicate 3 ObjectStep.reader
  have hstate : (feed (fun o k => o.next greeting k) o₀ steps).map
      (fun o => (o.mailbox.results, o.mailbox.reader, o.mailbox.caller,
        o.destructor)) =
      some ([[104, 105]], .reading 0, .idle, .exiting) := by
    decide +kernel
  obtain ⟨o, hfeed, hall⟩ := Option.map_eq_some_iff.mp hstate
  simp only [Prod.mk.injEq] at hall
  obtain ⟨hresults, hreader, hcaller, hdestructor⟩ := hall
  have ho : (inputLine greeting).Reachable o :=
    System.reachable_feed (fun _ _ _ h => h) (.of_init hinit) hfeed
  exact ⟨o, ho, hresults, hreader,
    ((inputLine_release ho).2.2.2 hdestructor hcaller).1⟩

end Socketchat.Console
