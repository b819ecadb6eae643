/-
Operations on a session that is not there.

Three calls take an id that may not be in the map: `write` and `disconnect` of a
user, and the accept loop's own `disconnect(ID)`, whose only guard is the size of
the map. `write` looks at the pointer it gets; `disconnect` does not, and calls
through it.

The result is about whole schedules of a started server, with any number of user
threads, with or without a `stop`, with any settings: every step is safe if and
only if no step is the look-up of a `disconnect` whose id is missing. The other
functions cannot crash at all, so what has to be carried through a run is that a
thread's remaining program can crash at such a look-up only (`Guarded`).

The two runs at the end fail: an operator names an id that is not there, and the
accept loop refuses a client that it has not accepted.
-/
import NetworkApplication.Composition

set_option autoImplicit false

namespace NetworkApplication.MissingSession

open NetworkApplication.Program NetworkApplication.Pool NetworkApplication.Composition
  SegmentServer

variable {P : Platform} {server : SegmentServer} {ids : Nat → UInt64}

/-! ## The functions that cannot crash -/

theorem crashFree_call (o : Op) : (call o).CrashFree := fun _ => trivial

/-- Being unable to crash is kept by composition and asks nothing of an operation, so the
functions of a session and of the server's threads are crash-free by `Composition.lean`. -/
theorem crashFree {Allowed : Op → Prop} :
    Prog.Compositional (E := Net) (fun p : NetProg _ => p.CrashFree) Allowed :=
  Prog.compositional_crashFree (E := Net) (ε := Exception) Allowed

/-! ## The programs of the threads -/

/-- A program that can crash only where it calls `disconnect` with an id that is
missing when it does. -/
inductive Guarded (server : SegmentServer) : NetProg (Option ServerLabel) → Prop where
  | crashFree {p : NetProg (Option ServerLabel)} (h : p.CrashFree) : Guarded server p
  | disconnect (id : UInt64) {rest : Unit → NetProg (Option ServerLabel)}
      (h : (rest ()).CrashFree) : Guarded server (server.disconnect id >>= rest)
  | op (o : Op) {k : o.Res → NetProg (Option ServerLabel)} (h : ∀ r, Guarded server (k r)) :
      Guarded server (Prog.op (E := Net) o k)

theorem Guarded.bind {α : Type} {p : NetProg α} {f : α → NetProg (Option ServerLabel)}
    (hp : p.CrashFree) (hf : ∀ a, Guarded server (f a)) : Guarded server (p >>= f) := by
  induction p with
  | pure a => exact hf a
  | throw e => exact .crashFree trivial
  | crash => exact hp.elim
  | op o k ih => exact .op o (fun r => ih r (hp r))

/-- `disconnect` is a look-up, and a crash if it finds nothing. -/
theorem disconnect_eq (id : UInt64) (rest : Unit → NetProg (Option ServerLabel)) :
    server.disconnect id >>= rest
      = Prog.op (E := Net) (.mapGet id.toUInt32) (fun r => match r with
          | some ptr => (server.session ptr).disconnect >>= rest
          | none => Prog.crash) := by
  refine congrArg (Prog.op (E := Net) (.mapGet id.toUInt32)) (funext fun r => ?_)
  cases r <;> rfl

theorem Guarded.not_crash {p : NetProg (Option ServerLabel)} (h : Guarded server p) :
    p ≠ Prog.crash := by
  cases h with
  | crashFree h =>
    rintro rfl
    exact h
  | disconnect id h =>
    rw [disconnect_eq]
    nofun
  | op o h => nofun

theorem guarded_keepOrRefuse (ID : UInt64) : Guarded server (server.keepOrRefuse ID) := by
  have hkeep : Guarded server (keep ID) := by
    refine .bind (crashFree_call _) (fun _ => ?_)
    exact .bind (Prog.CrashFree.when (crashFree_call _)) (fun _ => .crashFree trivial)
  unfold keepOrRefuse
  split
  · exact hkeep
  · refine .bind (crashFree_call _) (fun count => ?_)
    split
    · exact .disconnect ID trivial
    · exact hkeep

/-- Every block of a server is guarded. -/
theorem guarded_block (l : ServerLabel) : Guarded server (server.block P l) := by
  cases l with
  | acceptLoop =>
    refine .bind (crashFree_call _) (fun isWork => ?_)
    split
    · refine .bind (crashFree_call _) (fun ID => ?_)
      exact .bind (of_addSession crashFree server _) (fun _ => guarded_keepOrRefuse ID)
    · exact .crashFree (Prog.CrashFree.bind (crashFree_call _) (fun _ => trivial))
  | sessionWork n ptr => exact .crashFree (of_sessionWork crashFree server n ptr)
  | flushMain => exact .crashFree (of_flushMain crashFree)
  | flushWorkers n => exact .crashFree (of_flushWorkers crashFree n)
  | userLoop =>
    refine .bind (crashFree_call _) (fun command => ?_)
    cases command with
    | disconnect id => exact .disconnect id trivial
    | write id data =>
      have hwrite : (server.write P id data).CrashFree := of_serverWrite crashFree server id data
      exact .crashFree (hwrite.bind (fun _ => trivial))
    | sessionDisconnect => exact .crashFree trivial
    | sessionWrite m => exact .crashFree trivial
  | networkLoop => exact .crashFree (of_networkLoop crashFree)

/-! ## Runs -/

/-- Every thread of a started server is guarded. -/
theorem guarded_started (usage : Usage) (t : Thread) :
    Guarded server ((server.started P ids usage).threads t) := by
  cases t with
  | main => exact .crashFree trivial
  | control =>
    show Guarded server (if usage.stops then server.stop else .pure none)
    split
    · exact .crashFree (of_stop crashFree server)
    · exact .crashFree trivial
  | reader n =>
    refine .crashFree (Prog.CrashFree.bind (crashFree_call _) (fun id => ?_))
    refine Prog.CrashFree.bind (crashFree_call _) (fun found => ?_)
    cases found with
    | none => exact of_taskDone crashFree n
    | some ptr => trivial
  | user n =>
    show Guarded server (if usage.operates then .pure (some .userLoop) else .pure none)
    split <;> exact .crashFree trivial
  | network => exact .crashFree trivial

/-- The step of thread `t` is not the look-up of a `disconnect` whose id is missing.
It speaks of the state before the step only. -/
def Finds (P : Platform) (server : SegmentServer) (ids : Nat → UInt64)
    (s : (server.system P ids).State) (t : Thread) (_ : Choice) : Prop :=
  ∀ id rest, s.threads t = (server.disconnect id >>= rest) →
    (s.world.getSession id.toUInt32).isSome = true

/-- The step of thread `t` uses no null pointer, and if it is the look-up of a
`disconnect` or a `write` whose id is missing, the call returns with the state
unchanged. -/
def StepSafe (P : Platform) (server : SegmentServer) (ids : Nat → UInt64)
    (s : (server.system P ids).State) (t : Thread) (c : Choice) : Prop :=
  ∀ s', System.step s t c = some s' → s'.threads t ≠ .crash ∧
    ∀ id rest, (s.threads t = (server.disconnect id >>= rest) ∨
        ∃ data, s.threads t = (server.write P id data >>= rest)) →
      s.world.getSession id.toUInt32 = none → s'.world = s.world ∧ s'.threads t = rest ()

/-- `write` is a look-up, and nothing more if it finds nothing. -/
theorem write_eq (id : UInt64) (data : List UInt8)
    (rest : Unit → NetProg (Option ServerLabel)) :
    server.write P id data >>= rest
      = Prog.op (E := Net) (.mapGet id.toUInt32) (fun r => match r with
          | some ptr => (server.session ptr).write P (some (messageOf data)) >>= rest
          | none => rest ()) := by
  refine congrArg (Prog.op (E := Net) (.mapGet id.toUInt32)) (funext fun r => ?_)
  cases r <;> rfl

/-- What the moving thread goes on with is guarded, if its step finds. -/
theorem guarded_next {p : NetProg (Option ServerLabel)} {o : Op}
    {k : o.Res → NetProg (Option ServerLabel)} {c : Choice} {w w' : World} {r : o.Res}
    (hp : p = Prog.op (E := Net) o k) (hg : Guarded server p)
    (hsem : sem ids o c w = some (r, w'))
    (hfinds : ∀ id rest, p = (server.disconnect id >>= rest) →
      (w.getSession id.toUInt32).isSome = true) : Guarded server (k r) := by
  cases hg with
  | crashFree h =>
    subst hp
    exact .crashFree (h r)
  | op o' h =>
    cases hp
    exact h r
  | disconnect id h =>
    have hsome := hfinds id _ rfl
    rw [disconnect_eq] at hp
    cases hp
    simp only [sem, Option.some.injEq, Prod.mk.injEq] at hsem
    obtain ⟨rfl, -⟩ := hsem
    cases hget : w.getSession id.toUInt32 with
    | none =>
      rw [hget] at hsome
      cases hsome
    | some ptr =>
      exact .crashFree (Prog.CrashFree.bind (of_disconnect crashFree (callbacks_session crashFree server ptr))
        (fun _ => h))

/-- **Step lemma.** A step that finds keeps every thread guarded. -/
theorem guarded_step {s s' : (server.system P ids).State} {t : Thread} {c : Choice}
    (h : ∀ u, Guarded server (s.threads u)) (hfinds : Finds P server ids s t c)
    (hstep : System.step s t c = some s') : ∀ u, Guarded server (s'.threads u) := by
  intro u
  by_cases hu : u = t
  · subst hu
    rcases System.step_cases hstep with ⟨l, -, rfl⟩ | ⟨o, k, r, w, hk, hsem, rfl⟩
    · simp only [Function.update_self]
      exact guarded_block l
    · simp only [Function.update_self]
      exact guarded_next hk (h u) hsem hfinds
  · rw [System.step_other hstep hu]
    exact h u

/-- In a state whose threads are guarded, a step is safe exactly if it finds. -/
theorem stepSafe_iff_finds {s : (server.system P ids).State} {t : Thread} {c : Choice}
    (h : ∀ u, Guarded server (s.threads u)) :
    Finds P server ids s t c ↔ StepSafe P server ids s t c := by
  constructor
  · intro hfinds s' hstep
    refine ⟨(guarded_step h hfinds hstep t).not_crash, fun id rest hcall hnone => ?_⟩
    rcases hcall with hdisconnect | ⟨data, hwrite⟩
    · have hsome := hfinds id rest hdisconnect
      rw [hnone] at hsome
      cases hsome
    · rw [write_eq] at hwrite
      have hsem : (server.system P ids).sem t (.mapGet id.toUInt32) c s.world
          = some (none, s.world) := by
        rw [← hnone]
        rfl
      rw [System.step_op hwrite hsem, Option.some.injEq] at hstep
      subst hstep
      exact ⟨rfl, Function.update_self ..⟩
  · intro hsafe id rest hdisconnect
    cases hget : s.world.getSession id.toUInt32 with
    | some ptr => rfl
    | none =>
      rw [disconnect_eq] at hdisconnect
      have hsem : (server.system P ids).sem t (.mapGet id.toUInt32) c s.world
          = some (none, s.world) := by
        rw [← hget]
        rfl
      obtain ⟨hcrash, -⟩ := hsafe _ (System.step_op hdisconnect hsem)
      exact absurd (Function.update_self ..) hcrash

/-- Along a schedule from a guarded state the steps are safe exactly if they find. -/
theorem along_stepSafe_iff {s : (server.system P ids).State}
    (h : ∀ u, Guarded server (s.threads u)) (sched : List (Thread × Choice)) :
    System.Along (Finds P server ids) s sched ↔ System.Along (StepSafe P server ids) s sched :=
  System.along_congr (I := fun s => ∀ u, Guarded server (s.threads u))
    (fun _ _ _ _ h hfinds hstep => guarded_step h hfinds hstep)
    (fun _ _ _ h => stepSafe_iff_finds h) h sched

/-- **No operation dereferences a missing session, as long as no `disconnect` is called
for one**: along every schedule of a started server, whatever its settings and
whatever its user does, every step is safe if and only if no step is the look-up of
a `disconnect`, the accept loop's or the user's, whose id is not in the map. A `write`
may be called with any id. -/
theorem steps_safe_iff_finds (P : Platform) (server : SegmentServer) (ids : Nat → UInt64)
    (usage : Usage) (sched : List (Thread × Choice)) :
    System.Along (StepSafe P server ids) (server.started P ids usage) sched
      ↔ System.Along (Finds P server ids) (server.started P ids usage) sched :=
  (along_stepSafe_iff (guarded_started usage) sched).symm

/-! ## Two runs that crash -/

/-- No thread has crashed at the end of a schedule whose steps all find. -/
theorem not_crash_of_along {s s' : (server.system P ids).State} {sched : List (Thread × Choice)}
    (h : ∀ u, Guarded server (s.threads u)) (halong : System.Along (Finds P server ids) s sched)
    (hexec : System.exec s sched = some s') (t : Thread) : s'.threads t ≠ .crash := by
  induction sched generalizing s with
  | nil =>
    simp only [System.exec, Option.some.injEq] at hexec
    subst hexec
    exact (h t).not_crash
  | cons tc rest ih =>
    simp only [System.exec, Option.bind_eq_some_iff] at hexec
    obtain ⟨s₁, hstep, hrest⟩ := hexec
    obtain ⟨hfinds, hnext⟩ := halong
    exact ih (guarded_step h hfinds hstep) (hnext s₁ hstep) hrest

/-- A server without `multiConnect`, and one with it. -/
def strictServer : SegmentServer := ⟨false, 7, false⟩

def openServer : SegmentServer := ⟨true, 7, false⟩

/-- An operator asks to disconnect session `5` before any client has come. -/
def operatorRun : List (Thread × Choice) :=
  [(.user 0, .go), (.user 0, .command (.disconnect 5)), (.user 0, .go)]

/-- One client is served, the next is refused, and then an accept fails. -/
def failedAcceptRun : List (Thread × Choice) :=
  keptClient 0 ++ refusedClient 1
    ++ (acceptCompletes 2 .operation_aborted ++ mainSteps 4)

/-- **Both callers of `disconnect` reach the null pointer**: the operator's run crashes
in the user's thread, and the accept loop's own call crashes when an accept fails
while two entries are in the map. -/
theorem disconnect_uses_null :
    ¬ System.Along (StepSafe jsonPlatform openServer UInt64.ofNat)
        (openServer.started jsonPlatform UInt64.ofNat ⟨false, true⟩) operatorRun ∧
      ¬ System.Along (StepSafe jsonPlatform strictServer UInt64.ofNat)
        (strictServer.started jsonPlatform UInt64.ofNat ⟨true, false⟩) failedAcceptRun := by
  constructor
  · intro halong
    obtain ⟨s', hexec, hcrash⟩ : ∃ s', System.exec
        (openServer.started jsonPlatform UInt64.ofNat ⟨false, true⟩) operatorRun = some s' ∧
          s'.threads (.user 0) = .crash := ⟨_, rfl, rfl⟩
    have hfinds := (along_stepSafe_iff (guarded_started ⟨false, true⟩) operatorRun).mpr halong
    exact not_crash_of_along (guarded_started _) hfinds hexec (.user 0) hcrash
  · intro halong
    obtain ⟨s', hexec, hcrash⟩ : ∃ s', System.exec
        (strictServer.started jsonPlatform UInt64.ofNat ⟨true, false⟩) failedAcceptRun = some s' ∧
          s'.threads .main = .crash := ⟨_, rfl, rfl⟩
    have hfinds := (along_stepSafe_iff (guarded_started ⟨true, false⟩) failedAcceptRun).mpr halong
    exact not_crash_of_along (guarded_started _) hfinds hexec .main hcrash

end NetworkApplication.MissingSession
