/-
History variables.

What a property speaks of is not always in the state: what has come in over a whole run, say, when
the program keeps only what it has not read yet. A history takes it down. Every operation adds to
the history, and none looks at it, so a system with a history runs as the system does without
(`exec_recorded`), and every invariant of the one is an invariant of the other. What is shown of
the states and histories of the recorded system is then true of the schedules of the system itself.
-/
import NetworkApplication.Disciplines

set_option autoImplicit false

namespace NetworkApplication.Histories

open NetworkApplication.Program NetworkApplication.Pool NetworkApplication.Disciplines

section

variable (S : System) (H : Type) (note : S.Tid → S.sig.Op → S.Choice → S.World → H → H)

/-- The system with a history, to which `note` adds what an operation does. -/
abbrev recorded : System where
  sig := S.sig
  Exn := S.Exn
  Tid := S.Tid
  Label := S.Label
  World := S.World × H
  Choice := S.Choice
  decTid := S.decTid
  sem := fun t o c w => (S.sem t o c w.1).map (fun x => (x.1, (x.2, note t o c w.1 w.2)))
  block := S.block

end

variable {S : System} {H F : Type} {note : S.Tid → S.sig.Op → S.Choice → S.World → H → H}

/-- A state and its history. -/
def with_ (note : S.Tid → S.sig.Op → S.Choice → S.World → H → H) (s : S.State) (h : H) :
    (recorded S H note).State := ⟨(s.world, h), s.threads⟩

/-- What a step adds to the history. -/
def noted (note : S.Tid → S.sig.Op → S.Choice → S.World → H → H) (s : S.State) (t : S.Tid)
    (c : S.Choice) (h : H) : H :=
  match s.threads t with
  | .op o _ => note t o c s.world h
  | _ => h

/-- What a schedule adds to it. -/
def history (note : S.Tid → S.sig.Op → S.Choice → S.World → H → H) :
    S.State → List (S.Tid × S.Choice) → H → H
  | _, [], h => h
  | s, (t, c) :: rest, h =>
    match System.step s t c with
    | some s' => history note s' rest (noted note s t c h)
    | none => h

/-- A step is a step with its history. -/
theorem step_recorded {s s' : S.State} {t : S.Tid} {c : S.Choice} (hstep : System.step s t c = some s')
    (h : H) : System.step (with_ note s h) t c = some (with_ note s' (noted note s t c h)) := by
  rcases System.step_cases hstep with ⟨l, hl, rfl⟩ | ⟨o, k, r, w, hk, hsem, rfl⟩
  · have hjump : (with_ note s h).threads t = .pure (some l) := hl
    refine (System.step_jump (S := recorded S H note) c hjump).trans ?_
    rw [noted, hl]
    rfl
  · have hop : (with_ note s h).threads t = .op o k := hk
    have hrecorded : (recorded S H note).sem t o c (with_ note s h).world
        = some (r, (w, note t o c s.world h)) := by
      show (S.sem t o c s.world).map _ = _
      rw [hsem]
      rfl
    refine (System.step_op (S := recorded S H note) hop hrecorded).trans ?_
    rw [noted, hk]
    rfl

/-- A step that cannot be made cannot be made with a history. -/
theorem step_none_recorded {s : S.State} {t : S.Tid} {c : S.Choice} (hstep : System.step s t c = none)
    (h : H) : System.step (with_ note s h) t c = none := by
  cases hnext : System.step (with_ note s h) t c with
  | none => rfl
  | some s' =>
    rcases System.step_cases hnext with ⟨l, hl, rfl⟩ | ⟨o, k, r, w, hk, hsem, rfl⟩
    · have hjump : s.threads t = .pure (some l) := hl
      rw [System.step_jump c hjump] at hstep
      cases hstep
    · obtain ⟨⟨r₁, w₁⟩, hact, -⟩ := Option.map_eq_some_iff.mp hsem
      have hop : s.threads t = .op o k := hk
      rw [System.step_op hop hact] at hstep
      cases hstep

/-- **A history changes nothing**: a schedule goes through with it as without it. -/
theorem exec_recorded {s s' : S.State} {sched : List (S.Tid × S.Choice)}
    (hexec : System.exec s sched = some s') (h : H) :
    System.exec (with_ note s h) sched = some (with_ note s' (history note s sched h)) := by
  induction sched generalizing s h with
  | nil =>
    obtain rfl : s = s' := Option.some.inj hexec
    rfl
  | cons tc rest ih =>
    obtain ⟨t, c⟩ := tc
    simp only [System.exec, Option.bind_eq_some_iff] at hexec
    obtain ⟨s₁, hstep, hrest⟩ := hexec
    simp only [System.exec, step_recorded hstep h, Option.bind_some, history, hstep]
    exact ih hrest _

/-- What is asked of the steps of a schedule is asked of them with their histories. -/
theorem along_recorded {ok : S.State → S.Tid → S.Choice → Prop} {s s' : S.State}
    {sched : List (S.Tid × S.Choice)} (hexec : System.exec s sched = some s')
    (hok : System.Along ok s sched) (h : H) :
    System.Along (fun (r : (recorded S H note).State) t c => ok ⟨r.world.1, r.threads⟩ t c)
      (with_ note s h) sched := by
  induction sched generalizing s h with
  | nil => trivial
  | cons tc rest ih =>
    obtain ⟨t, c⟩ := tc
    simp only [System.exec, Option.bind_eq_some_iff] at hexec
    obtain ⟨s₁, hstep, hrest⟩ := hexec
    exact System.along_cons hok.1 (step_recorded hstep h) (ih hrest (hok.2 s₁ hstep) _)

/-- A schedule that goes through is a run of the recorded system. -/
theorem steps_recorded {ok : S.State → S.Tid → S.Choice → Prop} {s s' : S.State}
    {sched : List (S.Tid × S.Choice)} (hexec : System.exec s sched = some s')
    (hok : System.Along ok s sched) (h : H) :
    System.Steps (fun (r : (recorded S H note).State) t c => ok ⟨r.world.1, r.threads⟩ t c)
      (with_ note s h) (with_ note s' (history note s sched h)) :=
  System.steps_of_along (exec_recorded hexec h) (along_recorded hexec hok h)

/-- The disciplines of a pool are kept with a history. -/
def disciplined (note : S.Tid → S.sig.Op → S.Choice → S.World → H → H) (K : Disciplined S F) :
    Disciplined (recorded S H note) F where
  rules := K.rules
  loop := K.loop
  fin := K.fin
  ok := fun t o c w => K.ok t o c w.1
  inv := fun fs w => K.inv fs w.1
  block_follows := by
    intro t l f hl
    refine (K.block_follows t l f hl).mono (fun next f hnext => ?_) (fun _ _ h => h)
    cases next with
    | some l' => exact hnext
    | none => exact hnext
  keeps := by
    intro fs t o c r w w' hinv ho hok hsem
    obtain ⟨⟨r₁, w₁⟩, hact, heq⟩ := Option.map_eq_some_iff.mp hsem
    obtain ⟨rfl, rfl⟩ := Prod.mk.inj heq
    exact K.keeps fs t o c r₁ w.1 w₁ hinv ho hok hact

/-- Who keeps to them keeps to them. -/
theorem holds_recorded {K : Disciplined S F} {s : S.State} {fs : S.Tid → F} (hs : K.Holds s fs)
    (h : H) : (disciplined note K).Holds (with_ note s h) fs := by
  refine ⟨hs.inv, fun t => (hs.keeps t).mono (fun next f hnext => ?_) (fun _ _ h => h)⟩
  cases next with
  | some l => exact hnext
  | none => exact hnext

end NetworkApplication.Histories
