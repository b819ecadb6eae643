/-
Two disciplines for one pool.

What threads know of one thing and what they know of another are two bodies of knowledge, and each
is easier to keep straight alone: the functions are gone through once for either. But the second
may stand on the first. That an operation keeps the second invariant may need what the first says
about the world, before the operation and behind it. A `Companion` is a discipline for the threads
of a pool that keep to one already; with it the threads keep to both (`together`).
-/
import NetworkApplication.Disciplines

set_option autoImplicit false

namespace NetworkApplication.Disciplines

open NetworkApplication.Program NetworkApplication.Pool

section Follows

variable {E : Signature} {F G ε α : Type}

/-- Both disciplines. -/
def Discipline.both (D : Discipline E F) (D' : Discipline E G) : Discipline E (F × G) where
  Allowed := fun f o => D.Allowed f.1 o ∧ D'.Allowed f.2 o
  Possible := fun f o r => D.Possible f.1 o r ∧ D'.Possible f.2 o r
  next := fun f o r => (D.next f.1 o r, D'.next f.2 o r)
  Crash := fun f => D.Crash f.1 ∧ D'.Crash f.2

variable {D : Discipline E F} {D' : Discipline E G}

/-- A program that keeps to either keeps to both. -/
theorem Follows.both {post : α → F → Prop} {post' : α → G → Prop} {exn : ε → F → Prop}
    {exn' : ε → G → Prop} {p : Prog E ε α} {f : F} {g : G} (h : Follows D post exn f p)
    (h' : Follows D' post' exn' g p) :
    Follows (D.both D') (fun a x => post a x.1 ∧ post' a x.2) (fun e x => exn e x.1 ∧ exn' e x.2)
      (f, g) p := by
  induction p generalizing f g with
  | pure a => exact ⟨h, h'⟩
  | throw e => exact ⟨h, h'⟩
  | crash => exact ⟨h, h'⟩
  | op o k ih => exact ⟨⟨h.1, h'.1⟩, fun r hr => ih r (h.2 r hr.1) (h'.2 r hr.2)⟩

/-- **Knowledge inside knowledge.** A program that keeps to a discipline keeps to any that allows
as much to who knows the same and more. -/
theorem Follows.embed {ι : F → G} (hallowed : ∀ f o, D.Allowed f o → D'.Allowed (ι f) o)
    (hpossible : ∀ f o r, D.Allowed f o → D'.Possible (ι f) o r → D.Possible f o r)
    (hnext : ∀ f o r, D.Allowed f o → D'.next (ι f) o r = ι (D.next f o r))
    (hcrash : ∀ f, D.Crash f → D'.Crash (ι f)) {post : α → F → Prop} {post' : α → G → Prop}
    {exn : ε → F → Prop} {exn' : ε → G → Prop} (hpost : ∀ a f, post a f → post' a (ι f))
    (hexn : ∀ e f, exn e f → exn' e (ι f)) {p : Prog E ε α} {f : F} (h : Follows D post exn f p) :
    Follows D' post' exn' (ι f) p := by
  induction p generalizing f with
  | pure a => exact hpost a f h
  | throw e => exact hexn e f h
  | crash => exact hcrash f h
  | op o k ih =>
    refine ⟨hallowed f o h.1, fun r hr => ?_⟩
    rw [hnext f o r h.1]
    exact ih r (h.2 r (hpossible f o r h.1 hr))

end Follows

variable {S : System} {F G : Type}

/-- A discipline for the threads of a pool that keep to `K`. What one operation does to its
invariant may be said with the help of the invariant of `K`. -/
structure Companion (K : Disciplined S F) (G : Type) where
  rules : S.Tid → Discipline S.sig G
  loop : S.Tid → S.Label → G → Prop
  fin : S.Tid → G → Prop
  ok : S.Tid → S.sig.Op → S.Choice → S.World → Prop
  inv : (S.Tid → G) → S.World → Prop
  block_follows : ∀ t l g, loop t l g →
    Follows (rules t) (fun next g => match next with
      | some l' => loop t l' g
      | none => fin t g) (fun _ g => fin t g) g (S.block l)
  keeps : ∀ (fs : S.Tid → F) (gs : S.Tid → G) t o c r w w', K.inv fs w →
    K.inv (Function.update fs t ((K.rules t).next (fs t) o r)) w' → inv gs w →
    (K.rules t).Allowed (fs t) o → (K.rules t).Possible (fs t) o r → (rules t).Allowed (gs t) o →
    ok t o c w → S.sem t o c w = some (r, w') →
    (rules t).Possible (gs t) o r ∧ inv (Function.update gs t ((rules t).next (gs t) o r)) w'

namespace Companion

variable {K : Disciplined S F} (C : Companion K G)

/-- What is known where thread `t` goes on or ends. -/
def next (t : S.Tid) : Option S.Label → G → Prop
  | some l, g => C.loop t l g
  | none, g => C.fin t g

/-- Thread `t`, which knows `g`, keeps to its discipline. -/
def Keeps (t : S.Tid) (g : G) (p : S.Code) : Prop :=
  Follows (C.rules t) (C.next t) (fun _ g => C.fin t g) g p

/-- What each of two bodies of knowledge becomes when one thread learns something. -/
theorem update_both (fs : S.Tid → F × G) (t : S.Tid) (x : F × G) :
    (fun u => (Function.update fs t x u).1) = Function.update (fun u => (fs u).1) t x.1 ∧
    (fun u => (Function.update fs t x u).2) = Function.update (fun u => (fs u).2) t x.2 :=
  ⟨Function.comp_update Prod.fst fs t x, Function.comp_update Prod.snd fs t x⟩

/-- The threads keep to both. -/
def together : Disciplined S (F × G) where
  rules := fun t => (K.rules t).both (C.rules t)
  loop := fun t l f => K.loop t l f.1 ∧ C.loop t l f.2
  fin := fun t f => K.fin t f.1 ∧ C.fin t f.2
  ok := fun t o c w => K.ok t o c w ∧ C.ok t o c w
  inv := fun fs w => K.inv (fun t => (fs t).1) w ∧ C.inv (fun t => (fs t).2) w
  block_follows := by
    rintro t l ⟨f, g⟩ ⟨hf, hg⟩
    refine (Follows.both (K.block_follows t l f hf) (C.block_follows t l g hg)).mono
      (fun next x hx => ?_) (fun _ _ h => h)
    cases next with
    | some l' => exact hx
    | none => exact hx
  keeps := by
    rintro fs t o c r w w' ⟨hK, hC⟩ ⟨ho, ho'⟩ ⟨hok, hok'⟩ hsem
    obtain ⟨hpossible, hK'⟩ := K.keeps (fun t => (fs t).1) t o c r w w' hK ho hok hsem
    obtain ⟨hpossible', hC'⟩ := C.keeps (fun t => (fs t).1) (fun t => (fs t).2) t o c r w w' hK hK'
      hC ho hpossible ho' hok' hsem
    refine ⟨⟨hpossible, hpossible'⟩, ?_⟩
    rw [(update_both fs t _).1, (update_both fs t _).2]
    exact ⟨hK', hC'⟩

variable {C}

/-- A pool that keeps to `K`, and whose threads keep to the companion. -/
theorem holds_together {s : S.State} {fs : S.Tid → F} {gs : S.Tid → G} (h : K.Holds s fs)
    (hinv : C.inv gs s.world) (hkeeps : ∀ t, C.Keeps t (gs t) (s.threads t)) :
    C.together.Holds s (fun t => (fs t, gs t)) := by
  refine ⟨⟨h.inv, hinv⟩, fun t => ?_⟩
  refine (Follows.both (h.keeps t) (hkeeps t)).mono (fun next x hx => ?_) (fun _ _ h => h)
  cases next with
  | some l => exact hx
  | none => exact hx

end Companion

end NetworkApplication.Disciplines
