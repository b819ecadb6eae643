/-
Loops of labelled blocks that run on their own.

A program is finite, so a loop is a block that ends in a jump: it returns the label of the block
to go on with, or none. `Pool.lean` interleaves such loops. Here one runs alone, and the question
is whether it comes to its end: whatever the environment chooses, no block is stuck and after so
many blocks there is no next one.

There is a rule for either answer. A loop ends if every block makes a number smaller, and it does
not if from every state of some set there is a block into that set.
-/
import NetworkApplication.Hoare

set_option autoImplicit false

namespace NetworkApplication.Program.Prog

variable {E : Signature} {ε C W Label : Type}

section

variable (sem : (o : E.Op) → C → W → Option (E.Res o × W)) (block : Label → Prog E ε (Option Label))
  (post : W → Prop)

/-- Whatever is chosen, the loop ends in `post` after at most so many blocks. -/
def endsWithin : Nat → Label → W → Prop
  | 0, _, _ => False
  | n + 1, l, w => twp sem (fun next w' => match next with
      | none => post w'
      | some l' => endsWithin n l' w') (block l) w

/-- The loop ends in `post`. -/
def LoopEnds (l : Label) (w : W) : Prop := ∃ n, endsWithin sem block post n l w

end

variable {sem : (o : E.Op) → C → W → Option (E.Res o × W)} {block : Label → Prog E ε (Option Label)}
  {post : W → Prop}

theorem endsWithin_succ {n : Nat} {l : Label} {w : W} (h : endsWithin sem block post n l w) :
    endsWithin sem block post (n + 1) l w := by
  induction n generalizing l w with
  | zero => exact h.elim
  | succ n ih =>
    refine twp_mono h (fun next w' hnext => ?_)
    cases next with
    | none => exact hnext
    | some l' => exact ih hnext

theorem endsWithin_mono {n k : Nat} {l : Label} {w : W} (hnk : n ≤ k)
    (h : endsWithin sem block post n l w) : endsWithin sem block post k l w := by
  induction hnk with
  | refl => exact h
  | step _ ih => exact endsWithin_succ ih

/-- **Variant rule.** Every block makes the number smaller or ends the loop. -/
theorem endsWithin_of_variant {I : Nat → Label → W → Prop}
    (hstep : ∀ n l w, I n l w → twp sem (fun next w' => match next with
      | none => post w'
      | some l' => ∃ k < n, I k l' w') (block l) w)
    {n : Nat} {l : Label} {w : W} (h : I n l w) : endsWithin sem block post (n + 1) l w := by
  induction n using Nat.strongRecOn generalizing l w with
  | ind n ih =>
    refine twp_mono (hstep n l w h) (fun next w' hnext => ?_)
    cases next with
    | none => exact hnext
    | some l' =>
      obtain ⟨k, hk, hI⟩ := hnext
      exact endsWithin_mono hk (ih k hk hI)

/-- **Rule for loops without an end.** From every state in `I` some block leads back into `I`. -/
theorem not_loopEnds {I : Label → W → Prop}
    (hstep : ∀ l w, I l w → ∃ l' w', Runs sem (block l) w (.ok (some l')) w' ∧ I l' w')
    {l : Label} {w : W} (h : I l w) : ¬ LoopEnds sem block post l w := by
  rintro ⟨n, hends⟩
  induction n generalizing l w with
  | zero => exact hends
  | succ n ih =>
    obtain ⟨l', w', hrun, hI⟩ := hstep l w h
    obtain ⟨next, hnext, hrest⟩ := (runs_of_twp hends).2 _ _ hrun
    obtain rfl := Outcome.ok.inj hnext
    exact ih hI hrest

end NetworkApplication.Program.Prog
