/-
Programs among other threads.

Between two operations of a program the other threads run, and they may do to the shared
state whatever `others` says. `Among sem others R p w` says that `p`, whose first operation
finds the state `w`, changes the state with every operation as `R` allows, and that it does
not run into undefined behaviour, whatever the environment chooses and whatever the other
threads do in between.

`among_of_allOps` gets it from the operations one by one; then no assumption about the
other threads is needed. The remaining rules take it apart: a sequence that is `Among` is so in
its first part, and behind every run of its first part.
-/
import NetworkApplication.Program

set_option autoImplicit false

namespace NetworkApplication.Program.Prog

variable {E : Signature} {ε α β C W : Type}
variable (sem : (o : E.Op) → C → W → Option (E.Res o × W)) (others R : W → W → Prop)

/-- Every operation of the program changes the state as `R` allows. -/
def Among : Prog E ε α → W → Prop
  | .crash, _ => False
  | .op o k, w => ∀ c r w₁, sem o c w = some (r, w₁) →
      R w w₁ ∧ ∀ w₂, others w₁ w₂ → Among (k r) w₂
  | _, _ => True

variable {sem others R}

/-- **Frame rule.** If every operation of the program changes the state as `R` allows
wherever it is performed, the other threads do not matter. -/
theorem among_of_allOps {Q : E.Op → Prop}
    (hQ : ∀ o c r w w₁, Q o → sem o c w = some (r, w₁) → R w w₁) {p : Prog E ε α}
    (hp : p.AllOps Q) (hcrash : p.CrashFree) (w : W) : Among sem others R p w := by
  induction p generalizing w with
  | pure a => trivial
  | throw e => trivial
  | crash => exact hcrash
  | op o k ih =>
    intro c r w₁ hsem
    exact ⟨hQ o c r w w₁ hp.1 hsem, fun w₂ _ => ih r (hp.2 r) (hcrash r) w₂⟩

/-- The first part of a sequence. -/
theorem Among.first {p : Prog E ε α} {f : α → Prog E ε β} {w : W}
    (h : Among sem others R (p >>= f) w) : Among sem others R p w := by
  induction p generalizing w with
  | pure a => trivial
  | throw e => trivial
  | crash => exact h
  | op o k ih =>
    intro c r w₁ hsem
    obtain ⟨hR, hrest⟩ := h c r w₁ hsem
    exact ⟨hR, fun w₂ hw₂ => ih r (hrest w₂ hw₂)⟩

/-- A program with a handler around it. -/
theorem Among.unhandled {p : Prog E ε α} {h : ε → Prog E ε α} {w : W}
    (hp : Among sem others R (p.tryCatch h) w) : Among sem others R p w := by
  induction p generalizing w with
  | pure a => trivial
  | throw e => trivial
  | crash => exact hp
  | op o k ih =>
    intro c r w₁ hsem
    obtain ⟨hR, hrest⟩ := hp c r w₁ hsem
    exact ⟨hR, fun w₂ hw₂ => ih r (hrest w₂ hw₂)⟩

/-- What is behind a run of the first part, if the other threads may keep still. -/
theorem Among.rest {p : Prog E ε α} {f : α → Prog E ε β} {w w₁ : W} {a : α}
    (hstill : ∀ w, others w w) (h : Among sem others R (p >>= f) w)
    (hrun : Runs sem p w (.ok a) w₁) : Among sem others R (f a) w₁ := by
  induction p generalizing w with
  | pure b =>
    obtain ⟨hb, rfl⟩ := hrun
    obtain rfl := Outcome.ok.inj hb
    exact h
  | throw e => cases hrun.1
  | crash => cases hrun.1
  | op o k ih =>
    obtain ⟨c, r, w₂, hsem, hrest⟩ := hrun
    exact ih r ((h c r w₂ hsem).2 w₂ (hstill w₂)) hrest

end NetworkApplication.Program.Prog
