/-
Pools that come to rest.

A program is a finite tree, so a thread that goes on for ever goes round a loop for ever. A pool comes
to rest, then, if every round has to be paid for out of something that runs out. A `Meter` says what
that is: the fuel, which no operation makes more, and which of the threads have paid for their next
round. A thread that comes back to its label has paid; the operation it opens the round with uses that
up. In between, only finitely many operations go by without fuel being burnt, since each of finitely
many threads has a finite program (`Meter.acc_own`).

The order on the programs of all threads is that of the hydra: one of them is replaced by what is left
of it.
-/
import NetworkApplication.Disciplines
import Mathlib.Logic.Hydra

set_option autoImplicit false

namespace NetworkApplication.Program

/-- What is left of a program behind its first operation. -/
def Prog.Behind {E : Signature} {ε α : Type} (p q : Prog E ε α) : Prop :=
  ∃ o k r, q = .op o k ∧ p = k r

/-- A program is finite. -/
theorem Prog.wellFounded_behind {E : Signature} {ε α : Type} :
    WellFounded (Prog.Behind (E := E) (ε := ε) (α := α)) := by
  refine ⟨fun q => ?_⟩
  induction q with
  | pure a | throw e | crash =>
    refine Acc.intro _ ?_
    rintro p ⟨o, k, r, hq, -⟩
    cases hq
  | op o k ih =>
    refine Acc.intro _ ?_
    rintro p ⟨o', k', r, hq, rfl⟩
    obtain ⟨rfl, hk⟩ := Prog.op.inj hq
    obtain rfl := eq_of_heq hk
    exact ih r

end NetworkApplication.Program

namespace NetworkApplication.Pool

/-- **What goes on unless it is at rest** comes to rest, if it cannot go on for ever. -/
theorem rests_of_acc {X : Type} {R : X → X → Prop} (rest : X → Prop) {run : ℕ → X} (h : Acc R (run 0))
    (hrun : ∀ k, rest (run k) ∨ R (run (k + 1)) (run k)) : ∃ k, rest (run k) := by
  obtain ⟨x, hx⟩ : ∃ x, run 0 = x := ⟨_, rfl⟩
  rw [hx] at h
  induction h generalizing run with
  | intro x _ ih =>
    rcases hrun 0 with hrest | hstep
    · exact ⟨0, hrest⟩
    · rw [hx] at hstep
      have hlater : ∃ k, rest (run (k + 1)) := ih (run 1) hstep (fun k => hrun (k + 1)) rfl
      obtain ⟨k, hk⟩ := hlater
      exact ⟨k + 1, hk⟩

/-- A schedule that goes through is the beginning of a run that stays where the schedule ends. -/
theorem System.run_of_exec {S : System} {ok : S.State → S.Tid → S.Choice → Prop} {s s' : S.State}
    {sched : List (S.Tid × S.Choice)} (hexec : System.exec s sched = some s')
    (hok : System.Along ok s sched) : ∃ run : ℕ → S.State, run 0 = s ∧
      ∀ k, (run k = s' ∧ run (k + 1) = s') ∨ System.Step ok (run k) (run (k + 1)) := by
  induction sched generalizing s with
  | nil =>
    obtain rfl : s = s' := Option.some.inj hexec
    exact ⟨fun _ => s, rfl, fun _ => .inl ⟨rfl, rfl⟩⟩
  | cons tc rest ih =>
    obtain ⟨t, c⟩ := tc
    simp only [System.exec, Option.bind_eq_some_iff] at hexec
    obtain ⟨s₁, hstep, hrest⟩ := hexec
    obtain ⟨run, hstart, hrun⟩ := ih hrest (hok.2 s₁ hstep)
    refine ⟨fun k => k.casesOn s run, rfl, fun k => ?_⟩
    cases k with
    | zero => exact .inr ⟨t, c, hok.1, hstep.trans (congrArg some hstart.symm)⟩
    | succ k => exact hrun k

end NetworkApplication.Pool

namespace NetworkApplication.Disciplines

open NetworkApplication.Program NetworkApplication.Pool Relation

variable {S : System} {F α : Type}

/-- What a round costs in a pool whose threads keep to `K`. The steps that `counts` lets through are
those that the pool takes by itself; `inv` is what has to be known besides for `K` to let them through. -/
structure Meter (K : Disciplined S F) (α : Type) [Preorder α] where
  counts : S.Tid → S.Choice → Prop
  inv : (S.Tid → F) → S.World → Prop
  fuel : (S.Tid → F) → S.World → α
  paid : S.Tid → F → Prop
  active : S.World → Finset S.Tid
  Opens : S.sig.Op → Prop
  opens : ∀ t l f c, counts t c → K.loop t l f → ∃ o k, S.block l = .op o k ∧ Opens o
  jumps : ∀ fs t l c w, K.inv fs w → counts t c → K.loop t l (fs t) → paid t (fs t) ∧ t ∈ active w
  admits : ∀ fs t o c r w w', K.inv fs w → inv fs w → (K.rules t).Allowed (fs t) o → counts t c →
    S.sem t o c w = some (r, w') → K.ok t o c w
  keeps : ∀ fs t o c r w w', K.inv fs w → inv fs w → (K.rules t).Allowed (fs t) o → counts t c →
    S.sem t o c w = some (r, w') → inv (Function.update fs t ((K.rules t).next (fs t) o r)) w'
  burns : ∀ fs t o c r w w', K.inv fs w → (K.rules t).Allowed (fs t) o →
    (K.rules t).Possible (fs t) o r → counts t c → S.sem t o c w = some (r, w') →
    fuel (Function.update fs t ((K.rules t).next (fs t) o r)) w' < fuel fs w ∨
      fuel (Function.update fs t ((K.rules t).next (fs t) o r)) w' = fuel fs w ∧
      active w' = active w ∧ t ∈ active w ∧
      (paid t ((K.rules t).next (fs t) o r) ↔ paid t (fs t)) ∧ ¬ (paid t (fs t) ∧ Opens o)

namespace Meter

variable {K : Disciplined S F} [Preorder α] (M : Meter K α)

/-- The step is one of the pool's own. -/
def Own (s s' : S.State) : Prop := System.Step (fun _ t c => M.counts t c) s s'

open Classical in
/-- Where a thread that has paid is in its round: in front of the label, at it, or behind it. -/
noncomputable def place : S.Code → Nat
  | .pure (some _) => 1
  | .op o _ => if M.Opens o then 0 else 2
  | _ => 2

open Classical in
/-- What stands for a thread in the order. -/
noncomputable def standing (s : S.State) (fs : S.Tid → F) (t : S.Tid) : Nat × S.Code :=
  (if M.paid t (fs t) then M.place (s.threads t) else 0, s.threads t)

/-- One thread is nearer to its end than another is. -/
def Nearer : Nat × S.Code → Nat × S.Code → Prop := Prod.Lex (· < ·) Prog.Behind

/-- The fuel, and how far the active threads are. -/
noncomputable def measure (s : S.State) (fs : S.Tid → F) : α × Multiset (Nat × S.Code) :=
  (M.fuel fs s.world, (M.active s.world).val.map (M.standing s fs))

/-- The fuel has been burnt, or a thread is nearer to its end. -/
def Less : α × Multiset (Nat × S.Code) → α × Multiset (Nat × S.Code) → Prop :=
  Prod.Lex (· < ·) (CutExpand Nearer)

theorem wellFounded_less [WellFoundedLT α] : WellFounded (Less (S := S) (α := α)) :=
  WellFounded.prod_lex wellFounded_lt
    (WellFounded.cutExpand (WellFounded.prod_lex wellFounded_lt Prog.wellFounded_behind))

variable {M}

theorem place_le (M : Meter K α) (p : S.Code) : M.place p ≤ 2 := by
  unfold place
  split
  · exact Nat.le_succ 1
  · split
    · exact Nat.zero_le 2
    · exact le_rfl
  · exact le_rfl

/-- One element of a family goes down. -/
theorem cutExpand_of_update {ι β : Type} {r : β → β → Prop} {A : Finset ι} {e e' : ι → β} {t : ι}
    (ht : t ∈ A) (hother : ∀ u ≠ t, e' u = e u) (hless : r (e' t) (e t)) :
    CutExpand r (A.val.map e') (A.val.map e) := by
  obtain ⟨rest, hrest⟩ := Multiset.exists_cons_of_mem (Finset.mem_def.mp ht)
  have hnodup := A.nodup
  rw [hrest, Multiset.nodup_cons] at hnodup
  have hsame : rest.map e' = rest.map e := by
    refine Multiset.map_congr rfl (fun u hu => hother u ?_)
    rintro rfl
    exact hnodup.1 hu
  rw [hrest, Multiset.map_cons, Multiset.map_cons, hsame, ← Multiset.singleton_add,
    ← Multiset.singleton_add]
  exact cutExpand_single_add hless _

/-- **Every step of its own** brings the pool nearer to its rest. -/
theorem step {s s' : S.State} {fs : S.Tid → F} (h : K.Holds s fs) (hinv : M.inv fs s.world)
    (hs : M.Own s s') : ∃ fs', K.Holds s' fs' ∧ M.inv fs' s'.world ∧
      Less (M.measure s' fs') (M.measure s fs) := by
  obtain ⟨t, c, hc, hs⟩ := hs
  have hother : ∀ (fs' : S.Tid → F) (s' : S.State), (∀ u ≠ t, fs' u = fs u) →
      (∀ u ≠ t, s'.threads u = s.threads u) → ∀ u ≠ t, M.standing s' fs' u = M.standing s fs u := by
    intro fs' s' hfs hthreads u hu
    rw [standing, standing, hfs u hu, hthreads u hu]
  have hkeeps := h.keeps t
  rcases System.step_cases hs with ⟨l, hl, rfl⟩ | ⟨o, k, r, w, hk, hsem, rfl⟩
  · -- the thread has paid, and goes from its label to the opening of the round
    rw [hl] at hkeeps
    obtain ⟨hpaid, hactive⟩ := M.jumps fs t l c s.world h.inv hc hkeeps
    obtain ⟨o, k, hblock, hopens⟩ := M.opens t l (fs t) c hc hkeeps
    refine ⟨fs, h.jump hl, hinv, Prod.Lex.right _ (cutExpand_of_update hactive
      (hother fs _ (fun _ _ => rfl) (fun u hu => Function.update_of_ne hu _ _)) (Prod.Lex.left _ _ ?_))⟩
    simp only [if_pos hpaid, Function.update_self, hl, hblock, place, if_pos hopens]
    exact Nat.one_pos
  · rw [hk] at hkeeps
    have hok := M.admits fs t o c r s.world w h.inv hinv hkeeps.1 hc hsem
    obtain ⟨hallowed, hpossible, hholds⟩ := h.operate hk hok hsem
    refine ⟨_, hholds, M.keeps fs t o c r s.world w h.inv hinv hallowed hc hsem, ?_⟩
    rcases M.burns fs t o c r s.world w h.inv hallowed hpossible hc hsem with
      hless | ⟨hsame, hactives, hactive, hpaid, hopens⟩
    · exact Prod.Lex.left _ _ hless
    · unfold measure
      rw [hsame, hactives]
      refine Prod.Lex.right _ (cutExpand_of_update hactive
        (hother _ _ (fun u hu => Function.update_of_ne hu _ _) (fun u hu => Function.update_of_ne hu _ _)) ?_)
      have hbehind : Prog.Behind (k r) (s.threads t) := ⟨o, k, r, hk, rfl⟩
      have hpaid : M.paid t (Function.update fs t ((K.rules t).next (fs t) o r) t) ↔ M.paid t (fs t) := by
        rw [Function.update_self]
        exact hpaid
      have hthreads : ({ world := w, threads := Function.update s.threads t (k r) } : S.State).threads t
          = k r := Function.update_self ..
      rw [standing, standing, hthreads]
      by_cases hp : M.paid t (fs t)
      · -- a thread that has paid is in front of its label, and stays there until it is at it
        have htwo : M.place (s.threads t) = 2 := by
          rw [hk, place, if_neg (fun ho => hopens ⟨hp, ho⟩)]
        rw [if_pos (hpaid.mpr hp), if_pos hp, htwo]
        rcases Nat.lt_or_eq_of_le (M.place_le (k r)) with hlt | heq
        · exact Prod.Lex.left _ _ hlt
        · rw [heq]
          exact Prod.Lex.right _ hbehind
      · rw [if_neg (fun hpaid' => hp (hpaid.mp hpaid')), if_neg hp]
        exact Prod.Lex.right _ hbehind

/-- **The pool comes to rest**: there is no infinite sequence of steps of its own. -/
theorem acc_own [WellFoundedLT α] {s : S.State} {fs : S.Tid → F} (h : K.Holds s fs)
    (hinv : M.inv fs s.world) : Acc (fun s₂ s₁ => M.Own s₁ s₂) s := by
  obtain ⟨x, hx⟩ : ∃ x, M.measure s fs = x := ⟨_, rfl⟩
  induction x using (wellFounded_less (S := S) (α := α)).induction generalizing s fs with
  | _ x ih =>
    refine Acc.intro s (fun s₂ hs => ?_)
    obtain ⟨fs₂, h₂, hinv₂, hless⟩ := step h hinv hs
    rw [hx] at hless
    exact ih _ hless h₂ hinv₂ rfl

end Meter

end NetworkApplication.Disciplines
