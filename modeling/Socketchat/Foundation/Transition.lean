import Mathlib.Data.List.Forall2
import Mathlib.Data.List.Induction
import Mathlib.Tactic.Common

/-!
# Labelled transition systems

One notion of system for every component: a set of initial states and a
labelled step relation. A *run* is a finite sequence of labelled steps; a
state is *reachable* when some run from an initial state ends in it. The rules
every development below uses are the invariant rule (`Invariant.holds`), its
form for a system whose labels are lists of events (`Emits.preserves`), and the
lifting of a step-by-step refinement to whole runs (`Refinement.run`). Where
every step is a function of its label, a condition on the steps of a run is a
condition `Along` its labels.
-/

namespace Socketchat.Foundation

/-- A labelled transition system with states `σ` and labels `κ`. -/
structure System (σ : Type*) (κ : Type*) where
  init : σ → Prop
  step : σ → κ → σ → Prop

namespace System

variable {σ κ : Type*} {S : System σ κ}

/-- `S.Run s ks t`: the labels `ks`, taken in order, lead from `s` to `t`. -/
inductive Run (S : System σ κ) : σ → List κ → σ → Prop
  | nil (s : σ) : Run S s [] s
  | snoc {s t u : σ} {ks : List κ} {k : κ} :
      Run S s ks t → S.step t k u → Run S s (ks ++ [k]) u

/-- Some run from an initial state ends in `t`. -/
def Reachable (S : System σ κ) (t : σ) : Prop :=
  ∃ s ks, S.init s ∧ S.Run s ks t

theorem Reachable.of_init {s : σ} (h : S.init s) : S.Reachable s :=
  ⟨s, [], h, .nil s⟩

theorem Reachable.step {s t : σ} {k : κ} (hs : S.Reachable s)
    (h : S.step s k t) : S.Reachable t := by
  obtain ⟨s₀, ks, h₀, hrun⟩ := hs
  exact ⟨s₀, ks ++ [k], h₀, hrun.snoc h⟩

theorem Run.reachable {s t : σ} {ks : List κ} (hrun : S.Run s ks t)
    (hs : S.Reachable s) : S.Reachable t := by
  induction hrun with
  | nil => exact hs
  | snoc _ hstep ih => exact ih.step hstep

/-- A predicate that holds initially and that every step out of a reachable
state preserves. -/
structure Invariant (S : System σ κ) (P : σ → Prop) : Prop where
  init : ∀ s, S.init s → P s
  step : ∀ s k t, S.Reachable s → P s → S.step s k t → P t

/-- **The invariant rule.** -/
theorem Invariant.holds {P : σ → Prop} (hP : S.Invariant P) {t : σ}
    (ht : S.Reachable t) : P t := by
  obtain ⟨s, ks, hs, hrun⟩ := ht
  induction hrun with
  | nil => exact hP.init _ hs
  | snoc hrun hstep ih =>
      exact hP.step _ _ _ (hrun.reachable (.of_init hs)) ih hstep

theorem Run.trans {s t u : σ} {ks js : List κ} (hst : S.Run s ks t)
    (htu : S.Run t js u) : S.Run s (ks ++ js) u := by
  induction htu with
  | nil =>
      rw [List.append_nil]
      exact hst
  | snoc _ hstep ih =>
      rw [← List.append_assoc]
      exact ih.snoc hstep

/-! ## Fewer steps -/

/-- The system with only those of its steps that meet a condition on the state
and the label. -/
def restrict (S : System σ κ) (P : σ → κ → Prop) : System σ κ where
  init := S.init
  step s k t := P s k ∧ S.step s k t

theorem Reachable.of_restrict {P : σ → κ → Prop} {t : σ}
    (ht : (S.restrict P).Reachable t) : S.Reachable t := by
  obtain ⟨s, ks, hs, hrun⟩ := ht
  induction hrun with
  | nil => exact .of_init hs
  | snoc _ hstep ih => exact ih.step hstep.2

theorem Reachable.restrict_mono {P Q : σ → κ → Prop}
    (hPQ : ∀ s k, P s k → Q s k) {t : σ} (ht : (S.restrict P).Reachable t) :
    (S.restrict Q).Reachable t := by
  obtain ⟨s, ks, hs, hrun⟩ := ht
  induction hrun with
  | nil => exact .of_init hs
  | snoc _ hstep ih => exact ih.step ⟨hPQ _ _ hstep.1, hstep.2⟩

/-! ## Systems that emit events -/

section Emits

variable {ε : Type*} {E : System σ (List ε)} {s t u : σ} {es es' : List ε}

/-- Some run from `s` to `t` emits the events `es`, step after step. -/
def Emits (E : System σ (List ε)) (s : σ) (es : List ε) (t : σ) : Prop :=
  ∃ ks, E.Run s ks t ∧ ks.flatten = es

theorem Emits.refl (s : σ) : E.Emits s [] s := ⟨[], .nil s, rfl⟩

theorem Emits.single (h : E.step s es t) : E.Emits s es t :=
  ⟨[es], (Run.nil s).snoc h, by simp⟩

theorem Emits.trans (hst : E.Emits s es t) (htu : E.Emits t es' u) :
    E.Emits s (es ++ es') u := by
  obtain ⟨ks, hks, rfl⟩ := hst
  obtain ⟨js, hjs, rfl⟩ := htu
  exact ⟨ks ++ js, hks.trans hjs, List.flatten_append⟩

/-- **The invariant rule for traces.** What every step preserves of a state
and the events so far, a run preserves. -/
theorem Emits.preserves {I : σ → List ε → Prop}
    (hstep : ∀ s es t tr, E.step s es t → I s tr → I t (tr ++ es))
    (h : E.Emits s es t) (tr : List ε) (hI : I s tr) : I t (tr ++ es) := by
  obtain ⟨ks, hrun, rfl⟩ := h
  induction hrun with
  | nil => simpa using hI
  | snoc _ hk ih =>
      rw [List.flatten_concat, ← List.append_assoc]
      exact hstep _ _ _ _ hk ih

end Emits

end System

/-- A functional refinement: reachable concrete states are read as abstract
ones by `abs`, labels by `lab`, and every concrete step is an abstract step. -/
structure Refinement {σ κ τ ι : Type*} (C : System σ κ) (A : System τ ι)
    (abs : σ → τ) (lab : σ → κ → ι) : Prop where
  init : ∀ s, C.init s → A.init (abs s)
  step : ∀ s k t, C.Reachable s → C.step s k t →
    A.step (abs s) (lab s k) (abs t)

/-- **Refinement lifts to runs.** A concrete run is an abstract run, label by
label. -/
theorem Refinement.run {σ κ τ ι : Type*} {C : System σ κ}
    {A : System τ ι} {abs : σ → τ} {lab : σ → κ → ι}
    (h : Refinement C A abs lab) {s t : σ} {ks : List κ} (hs : C.init s)
    (hrun : C.Run s ks t) :
    ∃ js, List.Forall₂ (fun k j => ∃ u, j = lab u k) ks js ∧
      A.Run (abs s) js (abs t) := by
  induction hrun with
  | nil => exact ⟨[], .nil, .nil _⟩
  | snoc hrun hstep ih =>
      rename_i u v ks k
      obtain ⟨js, hlab, harun⟩ := ih
      have hlast : List.Forall₂ (fun k j => ∃ u, j = lab u k) [k] [lab u k] :=
        .cons ⟨u, rfl⟩ .nil
      exact ⟨js ++ [lab u k], List.rel_append hlab hlast,
        harun.snoc (h.step _ _ _ (hrun.reachable (.of_init hs)) hstep)⟩

theorem Refinement.reachable {σ κ τ ι : Type*} {C : System σ κ}
    {A : System τ ι} {abs : σ → τ} {lab : σ → κ → ι}
    (h : Refinement C A abs lab) {t : σ} (ht : C.Reachable t) :
    A.Reachable (abs t) := by
  obtain ⟨s, ks, hs, hrun⟩ := ht
  obtain ⟨js, -, harun⟩ := h.run hs hrun
  exact ⟨abs s, js, h.init s hs, harun⟩

/-! ## History variables -/

section Recording

variable {σ κ η : Type*} (S : System σ κ) (record : η → σ → κ → η) (blank : η)

/-- `S` with a variable in which `record` notes what happens. No step reads
it. -/
def System.recording : System (σ × η) κ where
  init p := S.init p.1 ∧ p.2 = blank
  step p k q := S.step p.1 k q.1 ∧ q.2 = record p.2 p.1 k

theorem System.recording_refines :
    Refinement (S.recording record blank) S Prod.fst (fun _ k => k) where
  init _ h := h.1
  step _ _ _ _ h := h.1

/-- **Taking notes restricts nothing.** -/
theorem System.Reachable.recorded {s : σ} (h : S.Reachable s) :
    ∃ x, (S.recording record blank).Reachable (s, x) := by
  obtain ⟨s₀, ks, h₀, hrun⟩ := h
  induction hrun with
  | nil => exact ⟨blank, .of_init ⟨h₀, rfl⟩⟩
  | snoc _ hstep ih =>
      obtain ⟨x, hx⟩ := ih
      exact ⟨_, hx.step ⟨hstep, rfl⟩⟩

end Recording

/-! ## Runs of a function -/

/-- Where every label has a step, all lists of labels are runs. -/
theorem System.run_foldl {σ κ : Type*} {S : System σ κ} {exec : σ → κ → σ}
    (hexec : ∀ s k, S.step s k (exec s k)) (s : σ) (ks : List κ) :
    S.Run s ks (ks.foldl exec s) := by
  induction ks using List.reverseRecOn with
  | nil => exact .nil s
  | append_singleton ks k ih =>
      rw [List.foldl_concat]
      exact ih.snoc (hexec _ k)

/-- A partial step function on a list of labels. -/
def feed {σ κ : Type*} (next : σ → κ → Option σ) (s : σ) : List κ → Option σ
  | [] => some s
  | k :: ks => (next s k).bind fun t => feed next t ks

/-- Where it is defined, it is a run. -/
theorem System.reachable_feed {σ κ : Type*} {S : System σ κ}
    {next : σ → κ → Option σ} (hnext : ∀ s k t, next s k = some t → S.step s k t) :
    ∀ {ks : List κ} {s t : σ}, S.Reachable s → feed next s ks = some t →
      S.Reachable t
  | [], _, _, hs, h => Option.some.inj h ▸ hs
  | k :: _, s, _, hs, h => by
      obtain ⟨u, hu, hrest⟩ := Option.bind_eq_some_iff.mp h
      exact System.reachable_feed hnext (hs.step (hnext s k u hu)) hrest

section Along

variable {σ κ : Type*} {exec : σ → κ → σ} {I : σ → Prop} {P Q R : σ → κ → Prop}

/-- `P` holds of every step of the run of `exec` from `s` on these labels. -/
def Along (exec : σ → κ → σ) (P : σ → κ → Prop) : σ → List κ → Prop
  | _, [] => True
  | s, k :: ks => P s k ∧ Along exec P (exec s k) ks

instance Along.decidable [∀ s k, Decidable (P s k)] :
    ∀ (ks : List κ) (s : σ), Decidable (Along exec P s ks)
  | [], _ => .isTrue trivial
  | k :: ks, s =>
      have := Along.decidable ks (exec s k)
      inferInstanceAs (Decidable (P s k ∧ Along exec P (exec s k) ks))

/-- **The invariant rule along a run.** -/
theorem Along.holds (hstep : ∀ s k, I s → P s k → I (exec s k)) :
    ∀ {ks : List κ} {s : σ}, I s → Along exec P s ks → I (ks.foldl exec s)
  | [], _, hI, _ => hI
  | k :: ks, s, hI, h => by
      rw [List.foldl_cons]
      exact Along.holds hstep (hstep s k hI h.1) h.2

theorem Along.mono (hPQ : ∀ s k, P s k → Q s k) :
    ∀ {ks : List κ} {s : σ}, Along exec P s ks → Along exec Q s ks
  | [], _, _ => trivial
  | k :: _, s, h => ⟨hPQ s k h.1, Along.mono hPQ h.2⟩

theorem Along.and :
    ∀ {ks : List κ} {s : σ}, Along exec P s ks → Along exec Q s ks →
      Along exec (fun s k => P s k ∧ Q s k) s ks
  | [], _, _, _ => trivial
  | _ :: _, _, hP, hQ => ⟨⟨hP.1, hQ.1⟩, Along.and hP.2 hQ.2⟩

theorem Along.append :
    ∀ {ks js : List κ} {s : σ}, Along exec P s (ks ++ js) ↔
      Along exec P s ks ∧ Along exec P (ks.foldl exec s) js
  | [], _, _ => ⟨fun h => ⟨trivial, h⟩, fun h => h.2⟩
  | k :: ks, js, s => by
      rw [List.cons_append, List.foldl_cons]
      constructor
      · rintro ⟨hhead, hrest⟩
        have hboth := Along.append.mp hrest
        exact ⟨⟨hhead, hboth.1⟩, hboth.2⟩
      · rintro ⟨⟨hhead, hks⟩, hjs⟩
        exact ⟨hhead, Along.append.mpr ⟨hks, hjs⟩⟩

theorem Along.last :
    ∀ {ks : List κ} {k : κ} {s : σ}, Along exec P s (ks ++ [k]) →
      P (ks.foldl exec s) k
  | [], _, _, h => h.1
  | j :: ks, k, s, h => by
      have hrest : Along exec P (exec s j) (ks ++ [k]) := h.2
      rw [List.foldl_cons]
      exact hrest.last

/-- A condition on the labels alone. -/
theorem Along.of_forall {p : κ → Prop} :
    ∀ {ks : List κ} {s : σ}, (∀ k ∈ ks, p k) →
      Along exec (fun _ k => p k) s ks
  | [], _, _ => trivial
  | k :: _, _, h => ⟨h k List.mem_cons_self,
      Along.of_forall fun j hj => h j (List.mem_cons_of_mem k hj)⟩

/-- **Exactness along a run.** In a run whose steps meet `R`, two conditions
that agree under an invariant, and of which one keeps it, hold of the same
runs. -/
theorem along_iff (hiff : ∀ s k, I s → R s k → (P s k ↔ Q s k))
    (hstep : ∀ s k, I s → R s k → Q s k → I (exec s k)) :
    ∀ {ks : List κ} {s : σ}, I s → Along exec R s ks →
      (Along exec P s ks ↔ Along exec Q s ks)
  | [], _, _, _ => Iff.rfl
  | k :: _, s, hI, hR => by
      have hhead := hiff s k hI hR.1
      constructor
      · rintro ⟨hP, hrest⟩
        have hQ := hhead.mp hP
        have hI' := hstep s k hI hR.1 hQ
        exact ⟨hQ, (along_iff hiff hstep hI' hR.2).mp hrest⟩
      · rintro ⟨hQ, hrest⟩
        have hI' := hstep s k hI hR.1 hQ
        exact ⟨hhead.mpr hQ, (along_iff hiff hstep hI' hR.2).mpr hrest⟩

end Along

end Socketchat.Foundation
