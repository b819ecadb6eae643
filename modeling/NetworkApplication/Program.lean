/-
Programs over an interface of operations.

A program of type `Prog E ε α` is a finite tree: it returns a value, throws a
C++-style exception, has run into undefined behaviour (`crash`), or performs one
operation of the interface `E` and continues with the operation's result. It is
the usual free monad over an interface, so a function of the source is written
as a `do` block whose lines are the source's lines, and nothing is said there
about what the operations do.

What the operations do is a *semantics*: a function that takes an operation, a
choice made by the environment (which error code, how many bytes, which random
number) and the shared state, and returns the operation's result and the next
state, or `none` where the operation cannot complete with that choice (it
blocks, or the choice is not one the environment has). Keeping the choice
explicit is what lets one program be run sequentially (`Runs`, `run`) and
interleaved with others (`Pool.lean`).

Loops are not programs: a program is finite. A loop of the source is a labelled
block that ends in a jump, and the jump is interpreted in `Pool.lean`.
-/
import Mathlib.Logic.Function.Basic

set_option autoImplicit false

namespace NetworkApplication.Program

/-- An interface: the operations a program may perform and the type of the
result each one gives back. -/
structure Signature where
  Op : Type
  Res : Op → Type

/-- A program over the interface `E` that may throw an `ε` and returns an `α`. -/
inductive Prog (E : Signature) (ε α : Type) where
  | pure (a : α)
  | throw (e : ε)
  | crash
  | op (o : E.Op) (k : E.Res o → Prog E ε α)

/-- How a program ends. -/
inductive Outcome (ε α : Type) where
  | ok (a : α)
  | thrown (e : ε)
  | crashed
  deriving DecidableEq

namespace Prog

variable {E : Signature} {ε α β γ : Type}

/-- Sequencing: exceptions and undefined behaviour end the whole program. -/
def bind : Prog E ε α → (α → Prog E ε β) → Prog E ε β
  | .pure a, f => f a
  | .throw e, _ => .throw e
  | .crash, _ => .crash
  | .op o k, f => .op o (fun r => (k r).bind f)

instance : Monad (Prog E ε) where
  pure := Prog.pure
  bind := Prog.bind

theorem id_map' (p : Prog E ε α) : id <$> p = p := by
  induction p with
  | pure a => rfl
  | throw e => rfl
  | crash => rfl
  | op o k ih => exact congrArg (Prog.op o) (funext ih)

theorem bind_assoc' (p : Prog E ε α) (f : α → Prog E ε β) (g : β → Prog E ε γ) :
    p >>= f >>= g = p >>= fun a => f a >>= g := by
  induction p with
  | pure a => rfl
  | throw e => rfl
  | crash => rfl
  | op o k ih => exact congrArg (Prog.op o) (funext ih)

instance : LawfulMonad (Prog E ε) :=
  LawfulMonad.mk' (Prog E ε) id_map' (fun _ _ => rfl) bind_assoc'

/-- Perform one operation and return its result. -/
def perform (o : E.Op) : Prog E ε (E.Res o) := .op o .pure

/-- `try { p } catch (const std::exception& e) { h(e) }`. -/
def tryCatch : Prog E ε α → (ε → Prog E ε α) → Prog E ε α
  | .pure a, _ => .pure a
  | .throw e, h => h e
  | .crash, _ => .crash
  | .op o k, h => .op o (fun r => (k r).tryCatch h)

/-- `if(b) { p }`. -/
def when (b : Bool) (p : Prog E ε Unit) : Prog E ε Unit := if b then p else .pure ()

@[simp] theorem when_true (p : Prog E ε Unit) : when true p = p := rfl

@[simp] theorem when_false (p : Prog E ε Unit) : when false p = .pure () := rfl

@[simp] theorem pure_eq (a : α) : (Pure.pure a : Prog E ε α) = .pure a := rfl

@[simp] theorem pure_bind' (a : α) (f : α → Prog E ε β) : (Prog.pure a >>= f) = f a := rfl

@[simp] theorem throw_bind (e : ε) (f : α → Prog E ε β) :
    (Prog.throw e >>= f) = .throw e := rfl

@[simp] theorem crash_bind (f : α → Prog E ε β) :
    ((Prog.crash : Prog E ε α) >>= f) = .crash := rfl

@[simp] theorem op_bind (o : E.Op) (k : E.Res o → Prog E ε α) (f : α → Prog E ε β) :
    (Prog.op o k >>= f) = .op o (fun r => k r >>= f) := rfl

@[simp] theorem perform_bind (o : E.Op) (f : E.Res o → Prog E ε β) :
    ((perform o : Prog E ε _) >>= f) = .op o f := rfl

@[simp] theorem tryCatch_pure (a : α) (h : ε → Prog E ε α) :
    (Prog.pure a).tryCatch h = .pure a := rfl

@[simp] theorem tryCatch_op (o : E.Op) (k : E.Res o → Prog E ε α) (h : ε → Prog E ε α) :
    (Prog.op o k).tryCatch h = .op o (fun r => (k r).tryCatch h) := rfl

/-! ## Programs that cannot crash -/

/-- No path through the program ends in undefined behaviour. -/
def CrashFree : Prog E ε α → Prop
  | .crash => False
  | .op _ k => ∀ r, CrashFree (k r)
  | _ => True

theorem CrashFree.bind {p : Prog E ε α} {f : α → Prog E ε β} (hp : CrashFree p)
    (hf : ∀ a, CrashFree (f a)) : CrashFree (p >>= f) := by
  induction p with
  | pure a => exact hf a
  | throw e => trivial
  | crash => exact hp.elim
  | op o k ih => exact fun r => ih r (hp r)

theorem CrashFree.tryCatch {p : Prog E ε α} {h : ε → Prog E ε α} (hp : CrashFree p)
    (hh : ∀ e, CrashFree (h e)) : CrashFree (p.tryCatch h) := by
  induction p with
  | pure a => trivial
  | throw e => exact hh e
  | crash => exact hp.elim
  | op o k ih => exact fun r => ih r (hp r)

theorem CrashFree.when {b : Bool} {p : Prog E ε Unit} (hp : CrashFree p) :
    CrashFree (Prog.when b p) := by
  cases b with
  | true => exact hp
  | false => trivial

/-- Every path through the program ends in a value. -/
def Returns : Prog E ε α → Prop
  | .pure _ => True
  | .op _ k => ∀ r, Returns (k r)
  | _ => False

theorem Returns.bind {p : Prog E ε α} {f : α → Prog E ε β} (hp : Returns p)
    (hf : ∀ a, Returns (f a)) : Returns (p >>= f) := by
  induction p with
  | pure a => exact hf a
  | throw e => exact hp.elim
  | crash => exact hp.elim
  | op o k ih => exact fun r => ih r (hp r)

theorem Returns.when {b : Bool} {p : Prog E ε Unit} (hp : Returns p) :
    Returns (Prog.when b p) := by
  cases b with
  | true => exact hp
  | false => trivial

/-- Every value the program can return satisfies `Q`. -/
def Ends (Q : α → Prop) : Prog E ε α → Prop
  | .pure a => Q a
  | .op _ k => ∀ r, Ends Q (k r)
  | _ => True

theorem Ends.bind {Q : β → Prop} {p : Prog E ε α} {f : α → Prog E ε β}
    (hf : ∀ a, Ends Q (f a)) : Ends Q (p >>= f) := by
  induction p with
  | pure a => exact hf a
  | throw e => trivial
  | crash => trivial
  | op o k ih => exact fun r => ih r

theorem Ends.tryCatch {Q : α → Prop} {p : Prog E ε α} {h : ε → Prog E ε α} (hp : Ends Q p)
    (hh : ∀ e, Ends Q (h e)) : Ends Q (p.tryCatch h) := by
  induction p with
  | pure a => exact hp
  | throw e => exact hh e
  | crash => trivial
  | op o k ih => exact fun r => ih r (hp r)

/-! ## Properties that composition keeps

A property of programs that holds of single operations, of values and of exceptions, and
is kept by sequencing and by handlers, holds of every function that is built from these;
the functions are gone through once, for any such property. -/

/-- The property `Q` is compositional, and holds of the operations in `Allowed`. -/
structure Compositional (Q : {α : Type} → Prog E ε α → Prop) (Allowed : E.Op → Prop) : Prop where
  pure : ∀ {α : Type} (a : α), Q (Prog.pure a : Prog E ε α)
  throw : ∀ {α : Type} (e : ε), Q (Prog.throw e : Prog E ε α)
  call : ∀ o, Allowed o → Q (perform o : Prog E ε (E.Res o))
  bind : ∀ {α β : Type} {p : Prog E ε α} {f : α → Prog E ε β}, Q p → (∀ a, Q (f a)) →
    Q (p >>= f)
  tryCatch : ∀ {α : Type} {p : Prog E ε α} {h : ε → Prog E ε α}, Q p → (∀ e, Q (h e)) →
    Q (p.tryCatch h)

theorem Compositional.when {Q : {α : Type} → Prog E ε α → Prop} {Allowed : E.Op → Prop}
    (hQ : Compositional Q Allowed) {b : Bool} {p : Prog E ε Unit} (hp : Q p) :
    Q (Prog.when b p) := by
  cases b with
  | true => exact hp
  | false => exact hQ.pure ()

theorem Compositional.mono {Q : {α : Type} → Prog E ε α → Prop} {Allowed Allowed' : E.Op → Prop}
    (hQ : Compositional Q Allowed) (h : ∀ o, Allowed' o → Allowed o) :
    Compositional Q Allowed' :=
  { hQ with call := fun o ho => hQ.call o (h o ho) }

theorem compositional_crashFree (Allowed : E.Op → Prop) :
    Compositional (E := E) (ε := ε) CrashFree Allowed where
  pure := fun _ => trivial
  throw := fun _ => trivial
  call := fun _ _ _ => trivial
  bind := CrashFree.bind
  tryCatch := CrashFree.tryCatch

/-- Every operation the program can perform satisfies `R`. -/
def AllOps (R : E.Op → Prop) : Prog E ε α → Prop
  | .op o k => R o ∧ ∀ r, AllOps R (k r)
  | _ => True

theorem AllOps.bind {R : E.Op → Prop} {p : Prog E ε α} {f : α → Prog E ε β} (hp : AllOps R p)
    (hf : ∀ a, AllOps R (f a)) : AllOps R (p >>= f) := by
  induction p with
  | pure a => exact hf a
  | throw e => trivial
  | crash => trivial
  | op o k ih => exact ⟨hp.1, fun r => ih r (hp.2 r)⟩

theorem AllOps.tryCatch {R : E.Op → Prop} {p : Prog E ε α} {h : ε → Prog E ε α}
    (hp : AllOps R p) (hh : ∀ e, AllOps R (h e)) : AllOps R (p.tryCatch h) := by
  induction p with
  | pure a => trivial
  | throw e => exact hh e
  | crash => trivial
  | op o k ih => exact ⟨hp.1, fun r => ih r (hp.2 r)⟩

theorem compositional_allOps (R : E.Op → Prop) :
    Compositional (E := E) (ε := ε) (fun p => AllOps R p) R where
  pure := fun _ => trivial
  throw := fun _ => trivial
  call := fun _ ho => ⟨ho, fun _ => trivial⟩
  bind := AllOps.bind
  tryCatch := AllOps.tryCatch

/-! ## Interpretation

An operation of one interface as a program over another, as when an abstract operation
is replaced by the function that implements it. -/

/-- Replace every operation by the program `h` gives for it. -/
def interp {F : Signature} (h : (o : E.Op) → Prog F ε (E.Res o)) : Prog E ε α → Prog F ε α
  | .pure a => .pure a
  | .throw e => .throw e
  | .crash => .crash
  | .op o k => h o >>= fun r => interp h (k r)

theorem Ends.interp {F : Signature} {Q : α → Prop} {h : (o : E.Op) → Prog F ε (E.Res o)}
    {p : Prog E ε α} (hp : Ends Q p) : Ends Q (p.interp h) := by
  induction p with
  | pure a => exact hp
  | throw e => trivial
  | crash => trivial
  | op o k ih => exact Ends.bind (fun r => ih r (hp r))

theorem AllOps.interp {F : Signature} {R : E.Op → Prop} {R' : F.Op → Prop}
    {h : (o : E.Op) → Prog F ε (E.Res o)} (hh : ∀ o, R o → AllOps R' (h o)) {p : Prog E ε α}
    (hp : AllOps R p) : AllOps R' (p.interp h) := by
  induction p with
  | pure a => trivial
  | throw e => trivial
  | crash => trivial
  | op o k ih => exact (hh o hp.1).bind (fun r => ih r (hp.2 r))

/-! ## Running a program on its own

`Runs` is the big step of a program that no other thread disturbs: it quantifies
over every choice of the environment. `run` is the same with the choices made by
a function of the operation and the state, and it computes. -/

section Sequential

variable {C W : Type}
variable (sem : (o : E.Op) → C → W → Option (E.Res o × W))

/-- `Runs sem p w out w'`: some choices of the environment take `p` from `w` to
the end `out` in `w'`. -/
def Runs : Prog E ε α → W → Outcome ε α → W → Prop
  | .pure a, w, out, w' => out = .ok a ∧ w' = w
  | .throw e, w, out, w' => out = .thrown e ∧ w' = w
  | .crash, w, out, w' => out = .crashed ∧ w' = w
  | .op o k, w, out, w' => ∃ c r w₁, sem o c w = some (r, w₁) ∧ Runs (k r) w₁ out w'

/-- Run `p` with the choices that `env` makes; `none` where the semantics refuses
one of them. -/
def run (env : E.Op → W → C) : Prog E ε α → W → Option (Outcome ε α × W)
  | .pure a, w => some (.ok a, w)
  | .throw e, w => some (.thrown e, w)
  | .crash, w => some (.crashed, w)
  | .op o k, w =>
    match sem o (env o w) w with
    | none => none
    | some (r, w₁) => run env (k r) w₁

variable {sem}

@[simp] theorem runs_pure (a : α) (w w' : W) (out : Outcome ε α) :
    Runs sem (Prog.pure a) w out w' ↔ out = .ok a ∧ w' = w := Iff.rfl

@[simp] theorem runs_throw (e : ε) (w w' : W) (out : Outcome ε α) :
    Runs sem (Prog.throw e) w out w' ↔ out = .thrown e ∧ w' = w := Iff.rfl

@[simp] theorem runs_crash (w w' : W) (out : Outcome ε α) :
    Runs sem Prog.crash w out w' ↔ out = .crashed ∧ w' = w := Iff.rfl

@[simp] theorem run_pure (env : E.Op → W → C) (a : α) (w : W) :
    run sem env (Prog.pure a : Prog E ε α) w = some (.ok a, w) := rfl

@[simp] theorem run_throw (env : E.Op → W → C) (e : ε) (w : W) :
    run sem env (Prog.throw e : Prog E ε α) w = some (.thrown e, w) := rfl

theorem run_op (env : E.Op → W → C) (o : E.Op) (k : E.Res o → Prog E ε α) {w w₁ : W}
    {r : E.Res o} (h : sem o (env o w) w = some (r, w₁)) :
    run sem env (Prog.op o k) w = run sem env (k r) w₁ := by
  simp only [run, h]

/-- A sequence goes on with its second part only if the first returns. -/
theorem run_bind (env : E.Op → W → C) (p : Prog E ε α) (f : α → Prog E ε β) (w : W) :
    run sem env (p >>= f) w = (run sem env p w).bind (fun (out, w₁) => match out with
      | .ok a => run sem env (f a) w₁
      | .thrown e => some (.thrown e, w₁)
      | .crashed => some (.crashed, w₁)) := by
  induction p generalizing w with
  | pure a => rfl
  | throw e => rfl
  | crash => rfl
  | op o k ih =>
    simp only [op_bind, run]
    cases sem o (env o w) w with
    | none => rfl
    | some next => exact ih next.1 next.2

/-- A handler is run only if the program throws. -/
theorem run_tryCatch (env : E.Op → W → C) (p : Prog E ε α) (h : ε → Prog E ε α) (w : W) :
    run sem env (p.tryCatch h) w = (run sem env p w).bind (fun (out, w₁) => match out with
      | .ok a => some (.ok a, w₁)
      | .thrown e => run sem env (h e) w₁
      | .crashed => some (.crashed, w₁)) := by
  induction p generalizing w with
  | pure a => rfl
  | throw e => rfl
  | crash => rfl
  | op o k ih =>
    simp only [tryCatch_op, run]
    cases sem o (env o w) w with
    | none => rfl
    | some next => exact ih next.1 next.2

/-- Running a sequence whose first part returns. -/
theorem run_bind_ok {env : E.Op → W → C} {p : Prog E ε α} {f : α → Prog E ε β} {w w₁ : W}
    {a : α} (h : run sem env p w = some (.ok a, w₁)) :
    run sem env (p >>= f) w = run sem env (f a) w₁ := by
  rw [run_bind, h, Option.bind_some]

/-- Running a sequence whose first part throws. -/
theorem run_bind_thrown {env : E.Op → W → C} {p : Prog E ε α} {f : α → Prog E ε β} {w w₁ : W}
    {e : ε} (h : run sem env p w = some (.thrown e, w₁)) :
    run sem env (p >>= f) w = some (.thrown e, w₁) := by
  rw [run_bind, h, Option.bind_some]

/-- A program that returns is not changed by a handler around it. -/
theorem run_tryCatch_ok {env : E.Op → W → C} {p : Prog E ε α} {h : ε → Prog E ε α} {w w₁ : W}
    {a : α} (hp : run sem env p w = some (.ok a, w₁)) :
    run sem env (p.tryCatch h) w = some (.ok a, w₁) := by
  rw [run_tryCatch, hp, Option.bind_some]

/-- What a program throws goes to the handler around it. -/
theorem run_tryCatch_thrown {env : E.Op → W → C} {p : Prog E ε α} {h : ε → Prog E ε α} {w w₁ : W}
    {e : ε} (hp : run sem env p w = some (.thrown e, w₁)) :
    run sem env (p.tryCatch h) w = run sem env (h e) w₁ := by
  rw [run_tryCatch, hp, Option.bind_some]

/-- What `run` computes is one of the things that can happen. -/
theorem runs_of_run {env : E.Op → W → C} {p : Prog E ε α} {w w' : W} {out : Outcome ε α}
    (h : run sem env p w = some (out, w')) : Runs sem p w out w' := by
  induction p generalizing w with
  | pure a => simp only [run, Option.some.injEq, Prod.mk.injEq] at h
              exact ⟨h.1.symm, h.2.symm⟩
  | throw e => simp only [run, Option.some.injEq, Prod.mk.injEq] at h
               exact ⟨h.1.symm, h.2.symm⟩
  | crash => simp only [run, Option.some.injEq, Prod.mk.injEq] at h
             exact ⟨h.1.symm, h.2.symm⟩
  | op o k ih =>
    simp only [run] at h
    cases hsem : sem o (env o w) w with
    | none => simp [hsem] at h
    | some rw₁ =>
      obtain ⟨r, w₂⟩ := rw₁
      simp only [hsem] at h
      exact ⟨env o w, r, w₂, hsem, ih r h⟩

end Sequential

end Prog

end NetworkApplication.Program
