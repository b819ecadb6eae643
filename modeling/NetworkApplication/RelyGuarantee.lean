/-
A rely/guarantee logic for pools.

A `Contract` fixes, for one system, what every thread promises and relies on:

* `inv`, an invariant of the shared world that every operation keeps;
* `rely t`, what the other threads may do to the world between two operations of
  thread `t`;
* `before`, what a thread has to know to perform an operation;
* `guar`, what one operation does to the world and to the thread's `Local`, an
  auxiliary value that exists in the proofs only (what the thread still owes, how
  far it has got) and is never read by a program.

`Safe` says that a program keeps the contract from a given world, whatever the
environment chooses and however the other threads interfere, and ends in its
postcondition. Functions are specified one at a time and composed with
`Safe.bind`; blocks that jump are composed with `Contract.run_rule`, which turns
per-thread safety into an invariant of every run of the pool.
-/
import NetworkApplication.Pool

set_option autoImplicit false

namespace NetworkApplication.RelyGuarantee

open NetworkApplication.Program NetworkApplication.Pool

/-- What the threads of a system promise each other. -/
structure Contract (S : System) where
  Local : Type
  inv : S.World → Prop
  rely : S.Tid → S.World → S.World → Prop
  before : S.Tid → S.sig.Op → Local → S.World → Prop
  guar : S.Tid → S.sig.Op → S.World → Local → S.World → Local → Prop
  ok : S.Tid → S.sig.Op → S.Choice → S.World → Prop
  crash : S.Tid → Prop
  rely_refl : ∀ t w, rely t w w
  rely_trans : ∀ t w₁ w₂ w₃, rely t w₁ w₂ → rely t w₂ w₃ → rely t w₁ w₃
  rely_of_guar : ∀ t u o w l w' l', t ≠ u → inv w → guar t o w l w' l' → rely u w w'

variable {S : System} (K : Contract S)

section Safe

variable {α β : Type}

/-- `Safe K t post exn p l w`: from world `w`, with auxiliary value `l`, thread
`t` can run `p` under the contract `K`; it returns only where `post` holds and
throws only where `exn` does. -/
def Safe (t : S.Tid) (post : α → K.Local → S.World → Prop)
    (exn : S.Exn → K.Local → S.World → Prop) :
    Prog S.sig S.Exn α → K.Local → S.World → Prop
  | .pure a, l, w => ∀ w', K.rely t w w' → K.inv w' → post a l w'
  | .throw e, l, w => ∀ w', K.rely t w w' → K.inv w' → exn e l w'
  | .crash, _, _ => K.crash t
  | .op o k, l, w => ∀ w₁, K.rely t w w₁ → K.inv w₁ →
      K.before t o l w₁ ∧
      ∀ c r w₂, K.ok t o c w₁ → S.sem t o c w₁ = some (r, w₂) →
        ∃ l', K.guar t o w₁ l w₂ l' ∧ K.inv w₂ ∧ Safe t post exn (k r) l' w₂

variable {K} {t : S.Tid} {post : α → K.Local → S.World → Prop}
  {exn : S.Exn → K.Local → S.World → Prop}

/-- Safety survives what the other threads do. -/
theorem Safe.interfere {p : Prog S.sig S.Exn α} {l : K.Local} {w w₁ : S.World}
    (h : Safe K t post exn p l w) (hr : K.rely t w w₁) : Safe K t post exn p l w₁ := by
  cases p with
  | pure a => exact fun w' hr' hi => h w' (K.rely_trans _ _ _ _ hr hr') hi
  | throw e => exact fun w' hr' hi => h w' (K.rely_trans _ _ _ _ hr hr') hi
  | crash => exact h
  | op o k => exact fun w' hr' hi => h w' (K.rely_trans _ _ _ _ hr hr') hi

/-- Weakening of both postconditions. -/
theorem Safe.weaken {post' : α → K.Local → S.World → Prop}
    {exn' : S.Exn → K.Local → S.World → Prop} {p : Prog S.sig S.Exn α} {l : K.Local}
    {w : S.World} (h : Safe K t post exn p l w)
    (hpost : ∀ a l w, K.inv w → post a l w → post' a l w)
    (hexn : ∀ e l w, K.inv w → exn e l w → exn' e l w) : Safe K t post' exn' p l w := by
  induction p generalizing l w with
  | pure a => exact fun w' hr hi => hpost _ _ _ hi (h w' hr hi)
  | throw e => exact fun w' hr hi => hexn _ _ _ hi (h w' hr hi)
  | crash => exact h
  | op o k ih =>
    intro w₁ hr hi
    obtain ⟨hbefore, hnext⟩ := h w₁ hr hi
    refine ⟨hbefore, fun c r w₂ hok hsem => ?_⟩
    obtain ⟨l', hg, hi', hk⟩ := hnext c r w₂ hok hsem
    exact ⟨l', hg, hi', ih r hk⟩

/-- **Sequencing rule.** -/
theorem Safe.bind {p : Prog S.sig S.Exn α} {f : α → Prog S.sig S.Exn β} {l : K.Local}
    {w : S.World} {post' : β → K.Local → S.World → Prop} (hi : K.inv w)
    (hp : Safe K t post exn p l w)
    (hf : ∀ a l w, K.inv w → post a l w → Safe K t post' exn (f a) l w) :
    Safe K t post' exn (p >>= f) l w := by
  induction p generalizing l w with
  | pure a => exact hf _ _ _ hi (hp w (K.rely_refl _ _) hi)
  | throw e => exact hp
  | crash => exact hp
  | op o k ih =>
    intro w₁ hr hi₁
    obtain ⟨hbefore, hnext⟩ := hp w₁ hr hi₁
    refine ⟨hbefore, fun c r w₂ hok hsem => ?_⟩
    obtain ⟨l', hg, hi₂, hk⟩ := hnext c r w₂ hok hsem
    exact ⟨l', hg, hi₂, ih r hi₂ hk⟩

/-- Rule for `try`/`catch`: the handler starts where the exception was thrown. -/
theorem Safe.tryCatch {p : Prog S.sig S.Exn α} {h : S.Exn → Prog S.sig S.Exn α}
    {exn' : S.Exn → K.Local → S.World → Prop} {l : K.Local} {w : S.World} (hi : K.inv w)
    (hp : Safe K t post exn p l w)
    (hh : ∀ e l w, K.inv w → exn e l w → Safe K t post exn' (h e) l w) :
    Safe K t post exn' (p.tryCatch h) l w := by
  induction p generalizing l w with
  | pure a => exact hp
  | throw e => exact hh _ _ _ hi (hp w (K.rely_refl _ _) hi)
  | crash => exact hp
  | op o k ih =>
    intro w₁ hr hi₁
    obtain ⟨hbefore, hnext⟩ := hp w₁ hr hi₁
    refine ⟨hbefore, fun c r w₂ hok hsem => ?_⟩
    obtain ⟨l', hg, hi₂, hk⟩ := hnext c r w₂ hok hsem
    exact ⟨l', hg, hi₂, ih r hi₂ hk⟩

/-- A returned value is safe when its postcondition is stable. -/
theorem Safe.ret {a : α} {l : K.Local} {w : S.World}
    (h : ∀ w', K.rely t w w' → K.inv w' → post a l w') :
    Safe K t post exn (Pure.pure a) l w := h

end Safe

/-! ## From threads to runs -/

/-- The thread specifications of a pool: a loop invariant for every label, what a
finished thread leaves, and a relation between the auxiliary values of all
threads and the world. -/
structure Proof where
  loop : S.Tid → S.Label → K.Local → S.World → Prop
  fin : S.Tid → K.Local → S.World → Prop
  global : (S.Tid → K.Local) → S.World → Prop
  block_safe : ∀ t l a w, K.inv w → loop t l a w →
    Safe K t (fun next a w => match next with
      | some l' => loop t l' a w
      | none => fin t a w) (fun _ a w => fin t a w) (S.block l) a w
  global_step : ∀ (ls : S.Tid → K.Local) t o w w' a', K.inv w → K.inv w' → global ls w →
    K.before t o (ls t) w → K.guar t o w (ls t) w' a' → global (Function.update ls t a') w'

variable {K} (R : Proof K)

/-- The postcondition of a thread's whole program. -/
def Proof.next (t : S.Tid) : Option S.Label → K.Local → S.World → Prop
  | some l, a, w => R.loop t l a w
  | none, a, w => R.fin t a w

/-- Thread `t` may go on with `p`. -/
def Proof.Runnable (t : S.Tid) (p : S.Code) (a : K.Local) (w : S.World) : Prop :=
  Safe K t (R.next t) (fun _ => R.fin t) p a w

/-- The invariant of the pool: the world's invariant, every thread safe with its
own auxiliary value, and the auxiliary values related to the world. -/
structure Proof.Holds (s : S.State) (ls : S.Tid → K.Local) : Prop where
  inv : K.inv s.world
  runnable : ∀ t, R.Runnable t (s.threads t) (ls t) s.world
  global : R.global ls s.world

/-- The steps the contract speaks about: an operation's choice is allowed. -/
def Contract.Allows (K : Contract S) (s : S.State) (t : S.Tid) (c : S.Choice) : Prop :=
  ∀ o k, s.threads t = .op o k → K.ok t o c s.world

/-- **Step rule.** An allowed step keeps the pool's invariant, and what the moving
thread does is what it guarantees. -/
theorem Proof.step_rule {s s' : S.State} {t : S.Tid} {c : S.Choice} {ls : S.Tid → K.Local}
    (h : R.Holds s ls) (hok : K.Allows s t c) (hs : System.step s t c = some s') :
    ∃ a', R.Holds s' (Function.update ls t a') ∧
      (s'.world = s.world ∧ a' = ls t ∨
        ∃ o k, s.threads t = .op o k ∧ K.before t o (ls t) s.world ∧
          K.guar t o s.world (ls t) s'.world a') := by
  rcases System.step_cases hs with ⟨l, hl, rfl⟩ | ⟨o, k, r, w, hk, hsem, rfl⟩
  · have hloop : R.loop t l (ls t) s.world := by
      have := h.runnable t
      rw [hl] at this
      exact this s.world (K.rely_refl _ _) h.inv
    refine ⟨ls t, ⟨h.inv, fun u => ?_, ?_⟩, .inl ⟨rfl, rfl⟩⟩
    · rw [Function.update_eq_self]
      by_cases hu : u = t
      · subst hu
        simp only [Function.update_self]
        refine (R.block_safe u l (ls u) s.world h.inv hloop).weaken ?_ (fun _ _ _ _ h => h)
        intro next a w _ hn
        cases next <;> exact hn
      · simp only [Function.update_of_ne hu]
        exact h.runnable u
    · rw [Function.update_eq_self]
      exact h.global
  · have hrun := h.runnable t
    rw [hk] at hrun
    obtain ⟨hbefore, hnext⟩ := hrun s.world (K.rely_refl _ _) h.inv
    obtain ⟨a', hg, hi, hsafe⟩ := hnext c r w (hok o k hk) hsem
    refine ⟨a', ⟨hi, fun u => ?_, ?_⟩, .inr ⟨o, k, hk, hbefore, hg⟩⟩
    · by_cases hu : u = t
      · subst hu
        simp only [Function.update_self]
        exact hsafe
      · simp only [Function.update_of_ne hu]
        exact (h.runnable u).interfere (K.rely_of_guar t u o _ _ _ _ (Ne.symm hu) h.inv hg)
    · exact R.global_step ls t o _ _ a' h.inv hi h.global hbefore hg

/-- **Run rule.** In every run whose steps the contract allows, the pool's
invariant holds in every state reached. -/
theorem Proof.run_rule {ok : S.State → S.Tid → S.Choice → Prop}
    (hallow : ∀ s t c, ok s t c → K.Allows s t c) {s s' : S.State}
    (hrun : System.Steps ok s s') (h : ∃ ls, R.Holds s ls) : ∃ ls, R.Holds s' ls := by
  refine hrun.invariant (I := fun s => ∃ ls, R.Holds s ls) ?_ h
  rintro s t c s' ⟨ls, hls⟩ hok hs
  obtain ⟨a', ha', -⟩ := R.step_rule hls (hallow _ _ _ hok) hs
  exact ⟨_, ha'⟩

end NetworkApplication.RelyGuarantee
