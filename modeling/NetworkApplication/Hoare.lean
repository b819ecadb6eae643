/-
Weakest preconditions of programs that run on their own.

`wp sem post exn p w` says what holds however `p` ends when it is started in `w`:
`post` where it returns and `exn` where it throws, for every choice of the
environment. It asks nothing of a run that has crashed or that an operation
blocks, so it is a partial-correctness condition; `post_of_runs` says what it means
for the runs of the program.

The rules are the usual ones, by recursion on the program tree. They let a function
be specified once, with `wp` of its own name in the conclusion, and its callers
cite that. `twp` is the same for programs that have to return.

What a program reports may depend on what its operations have returned, and not only on
the state it ends in. `logged` is the semantics that keeps a log of that; a
specification that does not look at the log holds with it (`wp_logged`).
-/
import NetworkApplication.Program

set_option autoImplicit false

namespace NetworkApplication.Program.Prog

variable {E : Signature} {ε α β C W : Type}
variable (sem : (o : E.Op) → C → W → Option (E.Res o × W))

/-- The weakest precondition of a program. -/
def wp (post : α → W → Prop) (exn : ε → W → Prop) : Prog E ε α → W → Prop
  | .pure a, w => post a w
  | .throw e, w => exn e w
  | .crash, _ => True
  | .op o k, w => ∀ c r w₁, sem o c w = some (r, w₁) → wp post exn (k r) w₁

variable {sem} {post post' : α → W → Prop} {exn exn' : ε → W → Prop} {w : W}

@[simp] theorem wp_pure (a : α) : wp sem post exn (Prog.pure a) w ↔ post a w := Iff.rfl

@[simp] theorem wp_throw (e : ε) : wp sem post exn (Prog.throw e : Prog E ε α) w ↔ exn e w :=
  Iff.rfl

/-- **Consequence rule.** -/
theorem wp_mono {p : Prog E ε α} (h : wp sem post exn p w) (hpost : ∀ a w, post a w → post' a w)
    (hexn : ∀ e w, exn e w → exn' e w) : wp sem post' exn' p w := by
  induction p generalizing w with
  | pure a => exact hpost a w h
  | throw e => exact hexn e w h
  | crash => exact h
  | op o k ih => exact fun c r w₁ hsem => ih r (h c r w₁ hsem)

/-- **Sequencing rule.** -/
theorem wp_bind {p : Prog E ε α} {f : α → Prog E ε β} {post : β → W → Prop}
    (h : wp sem (fun a w₁ => wp sem post exn (f a) w₁) exn p w) : wp sem post exn (p >>= f) w := by
  induction p generalizing w with
  | pure a => exact h
  | throw e => exact h
  | crash => exact h
  | op o k ih => exact fun c r w₁ hsem => ih r (h c r w₁ hsem)

/-- Rule for `try`/`catch`. -/
theorem wp_tryCatch {p : Prog E ε α} {h : ε → Prog E ε α}
    (hp : wp sem post (fun e w₁ => wp sem post exn (h e) w₁) p w) :
    wp sem post exn (p.tryCatch h) w := by
  induction p generalizing w with
  | pure a => exact hp
  | throw e => exact hp
  | crash => exact hp
  | op o k ih => exact fun c r w₁ hsem => ih r (hp c r w₁ hsem)

/-- Rule for `if` without `else`. -/
theorem wp_when {b : Bool} {p : Prog E ε Unit} {post : Unit → W → Prop}
    (htrue : b = true → wp sem post exn p w) (hfalse : b = false → post () w) :
    wp sem post exn (Prog.when b p) w := by
  cases b with
  | true => exact htrue rfl
  | false => exact hfalse rfl

/-- **Soundness**: what `wp` promises holds at the end of every run that returns. -/
theorem post_of_runs {p : Prog E ε α} {a : α} {w' : W} (h : wp sem post exn p w)
    (hrun : Runs sem p w (.ok a) w') : post a w' := by
  induction p generalizing w with
  | pure b =>
    obtain ⟨hb, rfl⟩ := hrun
    obtain rfl := Outcome.ok.inj hb
    exact h
  | throw e => cases hrun.1
  | crash => cases hrun.1
  | op o k ih =>
    obtain ⟨c, r, w₁, hsem, hrest⟩ := hrun
    exact ih r (h c r w₁ hsem) hrest

/-! ## Logs -/

/-- What the operations of a run have returned, in their order. -/
abbrev Log (E : Signature) := List (Σ o : E.Op, E.Res o)

/-- The semantics that keeps a log. -/
def logged (sem : (o : E.Op) → C → W → Option (E.Res o × W)) :
    (o : E.Op) → C → W × Log E → Option (E.Res o × (W × Log E)) :=
  fun o c x => (sem o c x.1).map (fun y => (y.1, (y.2, x.2 ++ [⟨o, y.1⟩])))

theorem logged_eq_some {o : E.Op} {c : C} {r : E.Res o} {x x₁ : W × Log E}
    (h : logged sem o c x = some (r, x₁)) :
    sem o c x.1 = some (r, x₁.1) ∧ x₁.2 = x.2 ++ [⟨o, r⟩] := by
  obtain ⟨⟨r', w₁⟩, hsem, heq⟩ := Option.map_eq_some_iff.mp h
  obtain ⟨rfl, rfl⟩ := Prod.mk.inj heq
  exact ⟨hsem, rfl⟩

/-- Every run has a log. -/
theorem runs_logged {p : Prog E ε α} {out : Outcome ε α} {w' : W} (h : Runs sem p w out w')
    (log : Log E) : ∃ log', Runs (logged sem) p (w, log) out (w', log') := by
  induction p generalizing w log with
  | pure a => exact ⟨log, h.1, by rw [h.2]⟩
  | throw e => exact ⟨log, h.1, by rw [h.2]⟩
  | crash => exact ⟨log, h.1, by rw [h.2]⟩
  | op o k ih =>
    obtain ⟨c, r, w₁, hsem, hrest⟩ := h
    obtain ⟨log', hrun⟩ := ih r hrest (log ++ [⟨o, r⟩])
    refine ⟨log', c, r, (w₁, log ++ [⟨o, r⟩]), ?_, hrun⟩
    rw [logged, hsem]
    rfl

/-- A log changes nothing, and only grows. -/
theorem wp_logged {p : Prog E ε α} (h : wp sem post exn p w) (log : Log E) :
    wp (logged sem) (fun a x => post a x.1 ∧ log <+: x.2) (fun e x => exn e x.1 ∧ log <+: x.2)
      p (w, log) := by
  induction p generalizing w log with
  | pure a => exact ⟨h, List.prefix_rfl⟩
  | throw e => exact ⟨h, List.prefix_rfl⟩
  | crash => exact h
  | op o k ih =>
    intro c r x hsem
    obtain ⟨hsem, hlog⟩ := logged_eq_some hsem
    obtain ⟨w₁, log₁⟩ := x
    obtain rfl : log₁ = log ++ [⟨o, r⟩] := hlog
    have hbegins : log <+: log ++ [⟨o, r⟩] := List.prefix_append ..
    exact wp_mono (ih r (h c r w₁ hsem) _) (fun _ _ h => ⟨h.1, hbegins.trans h.2⟩)
      (fun _ _ h => ⟨h.1, hbegins.trans h.2⟩)

/-! ## Total correctness

`twp sem post p w` says besides that there is an end: no operation on the way is blocked,
nothing is thrown and nothing crashes, whatever the environment chooses. -/

/-- The weakest precondition of a program that has to return. -/
def twp (sem : (o : E.Op) → C → W → Option (E.Res o × W)) (post : α → W → Prop) :
    Prog E ε α → W → Prop
  | .pure a, w => post a w
  | .throw _, _ | .crash, _ => False
  | .op o k, w => (∃ c r w₁, sem o c w = some (r, w₁)) ∧
      ∀ c r w₁, sem o c w = some (r, w₁) → twp sem post (k r) w₁

/-- **Consequence rule.** -/
theorem twp_mono {p : Prog E ε α} (h : twp sem post p w) (hpost : ∀ a w, post a w → post' a w) :
    twp sem post' p w := by
  induction p generalizing w with
  | pure a => exact hpost a w h
  | throw e => exact h.elim
  | crash => exact h.elim
  | op o k ih => exact ⟨h.1, fun c r w₁ hsem => ih r (h.2 c r w₁ hsem)⟩

/-- **Sequencing rule.** -/
theorem twp_bind {p : Prog E ε α} {f : α → Prog E ε β} {post : β → W → Prop}
    (h : twp sem (fun a w₁ => twp sem post (f a) w₁) p w) : twp sem post (p >>= f) w := by
  induction p generalizing w with
  | pure a => exact h
  | throw e => exact h.elim
  | crash => exact h.elim
  | op o k ih => exact ⟨h.1, fun c r w₁ hsem => ih r (h.2 c r w₁ hsem)⟩

/-- An operation that the environment has no choice in. -/
theorem twp_go [Inhabited C] {o : E.Op} {k : E.Res o → Prog E ε α} {r : E.Res o} {w₁ : W}
    (hsem : ∀ c, sem o c w = some (r, w₁)) (hk : twp sem post (k r) w₁) :
    twp sem post (perform o >>= k) w := by
  refine ⟨⟨default, r, w₁, hsem default⟩, fun c r' w' h => ?_⟩
  rw [hsem c, Option.some.injEq, Prod.mk.injEq] at h
  obtain ⟨rfl, rfl⟩ := h
  exact hk

/-- Rule for `try`/`catch`: a program that returns is not handled. -/
theorem twp_tryCatch {p : Prog E ε α} {h : ε → Prog E ε α} (hp : twp sem post p w) :
    twp sem post (p.tryCatch h) w := by
  induction p generalizing w with
  | pure a => exact hp
  | throw e => exact hp.elim
  | crash => exact hp.elim
  | op o k ih => exact ⟨hp.1, fun c r w₁ hsem => ih r (hp.2 c r w₁ hsem)⟩

/-- **Soundness**: there is a run, and every run returns in `post`. -/
theorem runs_of_twp {p : Prog E ε α} (h : twp sem post p w) :
    (∃ out w', Runs sem p w out w') ∧
      ∀ out w', Runs sem p w out w' → ∃ a, out = .ok a ∧ post a w' := by
  induction p generalizing w with
  | pure a =>
    refine ⟨⟨.ok a, w, rfl, rfl⟩, fun out w' hrun => ?_⟩
    obtain ⟨rfl, rfl⟩ := hrun
    exact ⟨a, rfl, h⟩
  | throw e => exact h.elim
  | crash => exact h.elim
  | op o k ih =>
    obtain ⟨⟨c, r, w₁, hsem⟩, hall⟩ := h
    constructor
    · obtain ⟨⟨out, w', hrun⟩, -⟩ := ih r (hall c r w₁ hsem)
      exact ⟨out, w', c, r, w₁, hsem, hrun⟩
    · rintro out w' ⟨c', r', w₁', hsem', hrun⟩
      exact (ih r' (hall c' r' w₁' hsem')).2 out w' hrun

end NetworkApplication.Program.Prog
