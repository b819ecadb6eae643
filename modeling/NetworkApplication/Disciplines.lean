/-
Disciplines: what a thread knows, and what it may do with it.

A `Discipline` says which operations a thread that knows `f` may perform, which results
it may see and what it knows behind each. `Follows` says that a program keeps to it,
whatever it sees, and knows enough at its end. Nothing of the shared state is in either,
so a function is checked by going through its body once.

What the knowledge means is said once for the whole pool, by an invariant that relates
what the threads know to the world. It has to be kept by every single operation that is
allowed; then it holds in every state of a run (`Disciplined.run_rule`), with every thread
still keeping to its discipline.
-/
import NetworkApplication.Pool

set_option autoImplicit false

namespace NetworkApplication.Disciplines

open NetworkApplication.Program NetworkApplication.Pool

/-- The operations that are allowed to who knows an `F`, what may be seen of them, and
what is known behind them. -/
structure Discipline (E : Signature) (F : Type) where
  Allowed : F → E.Op → Prop
  Possible : F → (o : E.Op) → E.Res o → Prop
  next : F → (o : E.Op) → E.Res o → F
  Crash : F → Prop

section Follows

variable {E : Signature} {F ε α β : Type} (D : Discipline E F)

/-- The program keeps to the discipline, and ends in `post` or throws in `exn`. -/
def Follows (post : α → F → Prop) (exn : ε → F → Prop) : F → Prog E ε α → Prop
  | f, .pure a => post a f
  | f, .throw e => exn e f
  | f, .crash => D.Crash f
  | f, .op o k => D.Allowed f o ∧ ∀ r, D.Possible f o r → Follows post exn (D.next f o r) (k r)

variable {D} {post post' : α → F → Prop} {exn exn' : ε → F → Prop} {f : F}

/-- One operation and what follows it. -/
theorem Follows.step {o : E.Op} {k : E.Res o → Prog E ε α} (ho : D.Allowed f o)
    (hk : ∀ r, D.Possible f o r → Follows D post exn (D.next f o r) (k r)) :
    Follows D post exn f (Prog.perform o >>= k) := ⟨ho, hk⟩

/-- One operation. -/
theorem Follows.call {o : E.Op} {post : E.Res o → F → Prop} (ho : D.Allowed f o)
    (hk : ∀ r, D.Possible f o r → post r (D.next f o r)) :
    Follows D post exn f (Prog.perform o) := ⟨ho, hk⟩

/-- **Consequence rule.** -/
theorem Follows.mono {p : Prog E ε α} (h : Follows D post exn f p)
    (hpost : ∀ a f, post a f → post' a f) (hexn : ∀ e f, exn e f → exn' e f) :
    Follows D post' exn' f p := by
  induction p generalizing f with
  | pure a => exact hpost a f h
  | throw e => exact hexn e f h
  | crash => exact h
  | op o k ih => exact ⟨h.1, fun r hr => ih r (h.2 r hr)⟩

/-- **Sequencing rule.** -/
theorem Follows.bind {p : Prog E ε α} {g : α → Prog E ε β} {post : β → F → Prop}
    {M : α → F → Prop} (hp : Follows D M exn f p)
    (hg : ∀ a f, M a f → Follows D post exn f (g a)) : Follows D post exn f (p >>= g) := by
  induction p generalizing f with
  | pure a => exact hg a f hp
  | throw e => exact hp
  | crash => exact hp
  | op o k ih => exact ⟨hp.1, fun r hr => ih r (hp.2 r hr)⟩

/-- Rule for `try`/`catch`. -/
theorem Follows.tryCatch {p : Prog E ε α} {h : ε → Prog E ε α} {X : ε → F → Prop}
    (hp : Follows D post X f p) (hh : ∀ e f, X e f → Follows D post exn f (h e)) :
    Follows D post exn f (p.tryCatch h) := by
  induction p generalizing f with
  | pure a => exact hp
  | throw e => exact hh e f hp
  | crash => exact hp
  | op o k ih => exact ⟨hp.1, fun r hr => ih r (hp.2 r hr)⟩

/-- Rule for `if` without `else`. -/
theorem Follows.when {b : Bool} {p : Prog E ε Unit} {post : Unit → F → Prop}
    (htrue : b = true → Follows D post exn f p) (hfalse : b = false → post () f) :
    Follows D post exn f (Prog.when b p) := by
  cases b with
  | true => exact htrue rfl
  | false => exact hfalse rfl

end Follows

/-! ## From threads to runs -/

/-- A pool whose threads keep to disciplines: what has to be known at each label and at
the end of a thread, and an invariant of what the threads know and the world. The
condition `ok` is about an operation that a thread performs. -/
structure Disciplined (S : System) (F : Type) where
  rules : S.Tid → Discipline S.sig F
  loop : S.Tid → S.Label → F → Prop
  fin : S.Tid → F → Prop
  ok : S.Tid → S.sig.Op → S.Choice → S.World → Prop
  inv : (S.Tid → F) → S.World → Prop
  block_follows : ∀ t l f, loop t l f →
    Follows (rules t) (fun next f => match next with
      | some l' => loop t l' f
      | none => fin t f) (fun _ f => fin t f) f (S.block l)
  keeps : ∀ (fs : S.Tid → F) t o c r w w', inv fs w → (rules t).Allowed (fs t) o → ok t o c w →
    S.sem t o c w = some (r, w') →
    (rules t).Possible (fs t) o r ∧ inv (Function.update fs t ((rules t).next (fs t) o r)) w'

namespace Disciplined

variable {S : System} {F : Type} (K : Disciplined S F)

/-- What is known where thread `t` goes on or ends. -/
def next (t : S.Tid) : Option S.Label → F → Prop
  | some l, f => K.loop t l f
  | none, f => K.fin t f

/-- Thread `t`, which knows `f`, keeps to its discipline. -/
def Keeps (t : S.Tid) (f : F) (p : S.Code) : Prop :=
  Follows (K.rules t) (K.next t) (fun _ f => K.fin t f) f p

/-- The threads know `fs` and keep to their disciplines, and the invariant holds. -/
structure Holds (s : S.State) (fs : S.Tid → F) : Prop where
  inv : K.inv fs s.world
  keeps : ∀ t, K.Keeps t (fs t) (s.threads t)

/-- The step is one that the condition lets through. -/
def Allows (s : S.State) (t : S.Tid) (c : S.Choice) : Prop :=
  ∀ o k, s.threads t = .op o k → K.ok t o c s.world

variable {K}

/-- A thread goes on at a label. -/
theorem Holds.jump {s : S.State} {fs : S.Tid → F} (h : K.Holds s fs) {t : S.Tid} {l : S.Label}
    (hl : s.threads t = .pure (some l)) :
    K.Holds { s with threads := Function.update s.threads t (S.block l) } fs := by
  have hloop := h.keeps t
  rw [hl] at hloop
  refine ⟨h.inv, fun u => ?_⟩
  by_cases hu : u = t
  · subst hu
    simp only [Function.update_self]
    refine (K.block_follows u l (fs u) hloop).mono (fun next f hnext => ?_) (fun _ _ h => h)
    cases next with
    | some l' => exact hnext
    | none => exact hnext
  · simp only [Function.update_of_ne hu]
    exact h.keeps u

/-- A thread performs an operation. -/
theorem Holds.operate {s : S.State} {fs : S.Tid → F} (h : K.Holds s fs) {t : S.Tid} {o : S.sig.Op}
    {k : S.sig.Res o → S.Code} {c : S.Choice} {r : S.sig.Res o} {w : S.World}
    (hk : s.threads t = .op o k) (hok : K.ok t o c s.world) (hsem : S.sem t o c s.world = some (r, w)) :
    (K.rules t).Allowed (fs t) o ∧ (K.rules t).Possible (fs t) o r ∧
      K.Holds { world := w, threads := Function.update s.threads t (k r) }
        (Function.update fs t ((K.rules t).next (fs t) o r)) := by
  have hfollows := h.keeps t
  rw [hk] at hfollows
  obtain ⟨hpossible, hinv⟩ := K.keeps fs t o c r s.world w h.inv hfollows.1 hok hsem
  refine ⟨hfollows.1, hpossible, hinv, fun u => ?_⟩
  by_cases hu : u = t
  · subst hu
    simp only [Function.update_self]
    exact hfollows.2 r hpossible
  · simp only [Function.update_of_ne hu]
    exact h.keeps u

/-- **Step rule.** -/
theorem step_rule {s s' : S.State} {t : S.Tid} {c : S.Choice} {fs : S.Tid → F}
    (h : K.Holds s fs) (hok : K.Allows s t c) (hs : System.step s t c = some s') :
    ∃ f, K.Holds s' (Function.update fs t f) := by
  rcases System.step_cases hs with ⟨l, hl, rfl⟩ | ⟨o, k, r, w, hk, hsem, rfl⟩
  · refine ⟨fs t, ?_⟩
    rw [Function.update_eq_self]
    exact h.jump hl
  · exact ⟨_, (h.operate hk (hok o k hk) hsem).2.2⟩

/-- **Run rule.** -/
theorem run_rule {ok : S.State → S.Tid → S.Choice → Prop} (hok : ∀ s t c, ok s t c → K.Allows s t c)
    {s s' : S.State} (hrun : System.Steps ok s s') (h : ∃ fs, K.Holds s fs) :
    ∃ fs, K.Holds s' fs := by
  refine hrun.invariant (I := fun s => ∃ fs, K.Holds s fs) ?_ h
  rintro s t c s' ⟨fs, hfs⟩ hstep hs
  obtain ⟨f, hf⟩ := step_rule hfs (hok s t c hstep) hs
  exact ⟨_, hf⟩

/-- **A thread that cannot move** in one of the ways that count is at its end, or in an operation that
does not go through. -/
theorem Holds.waits {s : S.State} {fs : S.Tid → F} (h : K.Holds s fs) {t : S.Tid}
    (counts : S.Choice → Prop) {c : S.Choice} (hc : counts c) (hcrash : ¬ (K.rules t).Crash (fs t))
    (hstuck : ∀ c, counts c → System.step s t c = none) : K.fin t (fs t) ∨
      ∃ o, (K.rules t).Allowed (fs t) o ∧ ∀ c, counts c → S.sem t o c s.world = none := by
  have hkeeps := h.keeps t
  cases hp : s.threads t with
  | pure next =>
    rw [hp] at hkeeps
    cases next with
    | none => exact .inl hkeeps
    | some l =>
      have hstep := hstuck c hc
      rw [System.step_jump c hp] at hstep
      cases hstep
  | throw e =>
    rw [hp] at hkeeps
    exact .inl hkeeps
  | crash =>
    rw [hp] at hkeeps
    exact absurd hkeeps hcrash
  | op o k =>
    rw [hp] at hkeeps
    refine .inr ⟨o, hkeeps.1, fun c hc => ?_⟩
    cases hsem : S.sem t o c s.world with
    | none => rfl
    | some x =>
      have hstep := hstuck c hc
      rw [System.step_op hp hsem] at hstep
      cases hstep

/-- **A thread that moves** goes on at a label, or performs an operation that it is allowed. -/
theorem Holds.moves {s s' : S.State} {fs : S.Tid → F} (h : K.Holds s fs) {t : S.Tid} {c : S.Choice}
    (hs : System.step s t c = some s') : (∃ l, K.loop t l (fs t) ∧ s'.world = s.world) ∨
      ∃ o r, (K.rules t).Allowed (fs t) o ∧ S.sem t o c s.world = some (r, s'.world) := by
  have hkeeps := h.keeps t
  rcases System.step_cases hs with ⟨l, hl, rfl⟩ | ⟨o, k, r, w, hk, hsem, rfl⟩
  · rw [hl] at hkeeps
    exact .inl ⟨l, hkeeps, rfl⟩
  · rw [hk] at hkeeps
    exact .inr ⟨o, r, hkeeps.1, hsem⟩

variable (K)

/-- **Strengthening.** An invariant of its own on top of those there are, kept by the
operations that a further condition lets through. -/
def strengthen (ok : S.Tid → S.sig.Op → S.Choice → S.World → Prop)
    (inv : (S.Tid → F) → S.World → Prop)
    (hinv : ∀ (fs : S.Tid → F) t o c r w w', K.inv fs w →
      K.inv (Function.update fs t ((K.rules t).next (fs t) o r)) w' → inv fs w →
      (K.rules t).Allowed (fs t) o → (K.rules t).Possible (fs t) o r → ok t o c w →
      S.sem t o c w = some (r, w') →
      inv (Function.update fs t ((K.rules t).next (fs t) o r)) w') : Disciplined S F :=
  { K with
    ok := fun t o c w => K.ok t o c w ∧ ok t o c w
    inv := fun fs w => K.inv fs w ∧ inv fs w
    keeps := by
      rintro fs t o c r w w' ⟨hK, h⟩ ho hok hsem
      obtain ⟨hpossible, hK'⟩ := K.keeps fs t o c r w w' hK ho hok.1 hsem
      exact ⟨hpossible, hK', hinv fs t o c r w w' hK hK' h ho hpossible hok.2 hsem⟩ }

end Disciplined

end NetworkApplication.Disciplines
