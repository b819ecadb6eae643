/-
Pools of threads that share one state and take turns.

A `System` says what the operations do and what the labelled blocks are; a
`State` of it is the shared world and, for every thread, the program it still has
to run. One step of thread `t` performs the operation at the head of `t`'s
program, or jumps: a program that returns `some l` continues with the block `l`,
one that returns `none` is finished. So a `while` loop of the source is a block
that ends by returning its own label.

`step` computes, which is what a concrete schedule is checked with (`exec`); the
properties are about `Steps`, the reflexive transitive closure of the steps a
side condition `ok` lets through.
-/
import NetworkApplication.Program
import Mathlib.Logic.Relation

set_option autoImplicit false

namespace NetworkApplication.Pool

open NetworkApplication.Program

/-- An interface with a semantics, a set of threads and a set of labelled blocks. -/
structure System where
  sig : Signature
  Exn : Type
  Tid : Type
  Label : Type
  World : Type
  Choice : Type
  decTid : DecidableEq Tid
  sem : Tid → (o : sig.Op) → Choice → World → Option (sig.Res o × World)
  block : Label → Prog sig Exn (Option Label)

namespace System

variable (S : System)

instance : DecidableEq S.Tid := S.decTid

/-- What a thread still has to do. -/
abbrev Code := Prog S.sig S.Exn (Option S.Label)

/-- The shared world and every thread's remaining program. -/
structure State where
  world : S.World
  threads : S.Tid → S.Code

variable {S}

/-- One step of thread `t` with the environment's choice `c`. -/
def step (s : S.State) (t : S.Tid) (c : S.Choice) : Option S.State :=
  match s.threads t with
  | .pure (some l) => some { s with threads := Function.update s.threads t (S.block l) }
  | .op o k =>
    match S.sem t o c s.world with
    | some (r, w) => some { world := w, threads := Function.update s.threads t (k r) }
    | none => none
  | _ => none

/-- A schedule: which thread moves, and what the environment chooses for it. -/
def exec (s : S.State) : List (S.Tid × S.Choice) → Option S.State
  | [] => some s
  | (t, c) :: rest => (step s t c).bind (fun s' => exec s' rest)

/-- One step that the side condition `ok` lets through. -/
def Step (ok : S.State → S.Tid → S.Choice → Prop) (s s' : S.State) : Prop :=
  ∃ t c, ok s t c ∧ step s t c = some s'

/-- Any number of steps, each let through by `ok`. -/
def Steps (ok : S.State → S.Tid → S.Choice → Prop) : S.State → S.State → Prop :=
  Relation.ReflTransGen (Step ok)

/-- Every step of a schedule satisfies `ok`, as far as the schedule goes. -/
def Along (ok : S.State → S.Tid → S.Choice → Prop) : S.State → List (S.Tid × S.Choice) → Prop
  | _, [] => True
  | s, (t, c) :: rest => ok s t c ∧ ∀ s', step s t c = some s' → Along ok s' rest

/-- No side condition. -/
def anyStep : S.State → S.Tid → S.Choice → Prop := fun _ _ _ => True

/-- The two ways a thread can move. -/
theorem step_cases {s s' : S.State} {t : S.Tid} {c : S.Choice} (h : step s t c = some s') :
    (∃ l, s.threads t = .pure (some l) ∧
      s' = { s with threads := Function.update s.threads t (S.block l) }) ∨
    (∃ o k r w, s.threads t = .op o k ∧ S.sem t o c s.world = some (r, w) ∧
      s' = { world := w, threads := Function.update s.threads t (k r) }) := by
  unfold step at h
  split at h
  · next l hl =>
    exact .inl ⟨l, hl, by simpa using h.symm⟩
  · next o k hk =>
    split at h
    · next r w hsem =>
      exact .inr ⟨o, k, r, w, hk, hsem, by simpa using h.symm⟩
    · cases h
  · cases h

theorem step_jump {s : S.State} {t : S.Tid} {l : S.Label} (c : S.Choice)
    (h : s.threads t = .pure (some l)) :
    step s t c = some { s with threads := Function.update s.threads t (S.block l) } := by
  simp only [step, h]

theorem step_op {s : S.State} {t : S.Tid} {o : S.sig.Op} {k : S.sig.Res o → S.Code}
    {c : S.Choice} {r : S.sig.Res o} {w : S.World}
    (h : s.threads t = .op o k) (hsem : S.sem t o c s.world = some (r, w)) :
    step s t c = some { world := w, threads := Function.update s.threads t (k r) } := by
  simp only [step, h, hsem]

/-- A thread other than the one that moves keeps its program. -/
theorem step_other {s s' : S.State} {t u : S.Tid} {c : S.Choice} (h : step s t c = some s')
    (hu : u ≠ t) : s'.threads u = s.threads u := by
  rcases step_cases h with ⟨l, -, rfl⟩ | ⟨o, k, r, w, -, -, rfl⟩ <;>
    exact Function.update_of_ne hu _ _

/-- A thread that is not scheduled keeps its program. -/
theorem exec_other {s s' : S.State} {sched : List (S.Tid × S.Choice)} {u : S.Tid}
    (h : exec s sched = some s') (hu : ∀ tc ∈ sched, u ≠ tc.1) :
    s'.threads u = s.threads u := by
  induction sched generalizing s with
  | nil =>
    simp only [exec, Option.some.injEq] at h
    rw [h]
  | cons tc rest ih =>
    obtain ⟨t, c⟩ := tc
    simp only [exec, Option.bind_eq_some_iff] at h
    obtain ⟨s₁, hstep, hrest⟩ := h
    rw [ih hrest (fun tc' htc => hu tc' (List.mem_cons_of_mem _ htc))]
    exact step_other hstep (hu (t, c) (List.mem_cons_self ..))

theorem Steps.refl {ok : S.State → S.Tid → S.Choice → Prop} (s : S.State) : Steps ok s s :=
  Relation.ReflTransGen.refl

theorem Steps.tail {ok : S.State → S.Tid → S.Choice → Prop} {s₁ s₂ s₃ : S.State}
    (h : Steps ok s₁ s₂) {t : S.Tid} {c : S.Choice} (hok : ok s₂ t c)
    (hs : step s₂ t c = some s₃) : Steps ok s₁ s₃ :=
  Relation.ReflTransGen.tail h ⟨t, c, hok, hs⟩

theorem Steps.trans {ok : S.State → S.Tid → S.Choice → Prop} {s₁ s₂ s₃ : S.State}
    (h : Steps ok s₁ s₂) (h' : Steps ok s₂ s₃) : Steps ok s₁ s₃ :=
  Relation.ReflTransGen.trans h h'

theorem Steps.mono {ok ok' : S.State → S.Tid → S.Choice → Prop}
    (hok : ∀ s t c, ok s t c → ok' s t c) {s s' : S.State} (h : Steps ok s s') :
    Steps ok' s s' := by
  induction h with
  | refl => exact Steps.refl _
  | tail _ hlast ih =>
    obtain ⟨t, c, h, hs⟩ := hlast
    exact ih.tail (hok _ _ _ h) hs

/-- **Run rule.** What holds at the start and is kept by every step that `ok` lets
through holds in every state of every such run. -/
theorem Steps.invariant {ok : S.State → S.Tid → S.Choice → Prop} {I : S.State → Prop}
    (hstep : ∀ s t c s', I s → ok s t c → step s t c = some s' → I s')
    {s s' : S.State} (h : Steps ok s s') (hs : I s) : I s' := by
  induction h with
  | refl => exact hs
  | tail _ hlast ih =>
    obtain ⟨t, c, hok, hst⟩ := hlast
    exact hstep _ t c _ ih hok hst

/-- Two side conditions that agree in every state an invariant allows agree along
every schedule. -/
theorem along_congr {ok ok' : S.State → S.Tid → S.Choice → Prop} {I : S.State → Prop}
    (hstep : ∀ s t c s', I s → ok s t c → step s t c = some s' → I s')
    (hok : ∀ s t c, I s → (ok s t c ↔ ok' s t c)) {s : S.State} (hs : I s)
    (sched : List (S.Tid × S.Choice)) : Along ok s sched ↔ Along ok' s sched := by
  induction sched generalizing s with
  | nil => exact Iff.rfl
  | cons tc rest ih =>
    obtain ⟨t, c⟩ := tc
    constructor
    · rintro ⟨h, hrest⟩
      exact ⟨(hok s t c hs).mp h, fun s' hs' => (ih (hstep s t c s' hs h hs')).mp (hrest s' hs')⟩
    · rintro ⟨h, hrest⟩
      have h' := (hok s t c hs).mpr h
      exact ⟨h', fun s' hs' => (ih (hstep s t c s' hs h' hs')).mpr (hrest s' hs')⟩

theorem along_cons {ok : S.State → S.Tid → S.Choice → Prop} {s s' : S.State} {t : S.Tid}
    {c : S.Choice} {rest : List (S.Tid × S.Choice)} (hok : ok s t c) (hs : step s t c = some s')
    (hrest : Along ok s' rest) : Along ok s ((t, c) :: rest) := by
  refine ⟨hok, fun s₁ hs₁ => ?_⟩
  rw [hs] at hs₁
  obtain rfl := Option.some.inj hs₁
  exact hrest

/-- Two conditions on the steps of a schedule. -/
theorem along_and {ok ok' : S.State → S.Tid → S.Choice → Prop} {s : S.State}
    {sched : List (S.Tid × S.Choice)} (h : Along ok s sched) (h' : Along ok' s sched) :
    Along (fun s t c => ok s t c ∧ ok' s t c) s sched := by
  induction sched generalizing s with
  | nil => trivial
  | cons tc rest ih => exact ⟨⟨h.1, h'.1⟩, fun s₁ hs₁ => ih (h.2 s₁ hs₁) (h'.2 s₁ hs₁)⟩

/-- A schedule that goes through, with every step let through, is a run. -/
theorem steps_of_along {ok : S.State → S.Tid → S.Choice → Prop}
    {sched : List (S.Tid × S.Choice)} {s s' : S.State} (h : exec s sched = some s')
    (hok : Along ok s sched) : Steps ok s s' := by
  induction sched generalizing s with
  | nil =>
    simp only [exec, Option.some.injEq] at h
    subst h
    exact Steps.refl _
  | cons tc rest ih =>
    obtain ⟨t, c⟩ := tc
    simp only [exec, Option.bind_eq_some_iff] at h
    obtain ⟨s₁, hstep, hrest⟩ := h
    have hfirst : Steps ok s s₁ := Steps.tail (Steps.refl s) hok.1 hstep
    exact hfirst.trans (ih hrest (hok.2 s₁ hstep))

/-- The test `good` answers yes for every step of a schedule. -/
def checks (good : S.State → S.Tid → S.Choice → Bool) : S.State → List (S.Tid × S.Choice) → Bool
  | _, [] => true
  | s, (t, c) :: rest => good s t c && match step s t c with
    | some s' => checks good s' rest
    | none => true

/-- A side condition that a test decides can be computed along a schedule. -/
theorem along_of_checks {ok : S.State → S.Tid → S.Choice → Prop}
    {good : S.State → S.Tid → S.Choice → Bool} (hgood : ∀ s t c, good s t c = true → ok s t c)
    {s : S.State} {sched : List (S.Tid × S.Choice)} (h : checks good s sched = true) :
    Along ok s sched := by
  induction sched generalizing s with
  | nil => trivial
  | cons tc rest ih =>
    obtain ⟨t, c⟩ := tc
    rw [checks, Bool.and_eq_true] at h
    refine ⟨hgood s t c h.1, fun s' hs' => ih ?_⟩
    rw [hs'] at h
    exact h.2

/-- A schedule that goes through is a run. -/
theorem steps_of_exec {ok : S.State → S.Tid → S.Choice → Prop}
    {sched : List (S.Tid × S.Choice)} {s s' : S.State} (h : exec s sched = some s')
    (hok : ∀ s, ∀ tc ∈ sched, ok s tc.1 tc.2) : Steps ok s s' := by
  induction sched generalizing s with
  | nil =>
    simp only [exec, Option.some.injEq] at h
    subst h
    exact Steps.refl _
  | cons tc rest ih =>
    obtain ⟨t, c⟩ := tc
    simp only [exec, Option.bind_eq_some_iff] at h
    obtain ⟨s₁, hstep, hrest⟩ := h
    have hfirst : Steps ok s s₁ :=
      Steps.tail (Steps.refl s) (hok s (t, c) (List.mem_cons_self ..)) hstep
    exact hfirst.trans (ih hrest (fun s' tc' htc => hok s' tc' (List.mem_cons_of_mem _ htc)))

end System

end NetworkApplication.Pool
