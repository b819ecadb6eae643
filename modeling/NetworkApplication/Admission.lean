/-
Who is served.

A session is read by the worker that was created for its id, and one worker at most is
created for an id, so no session is read twice, however the accepts, the errors and the
operators come in between. With `multiConnect` every client that is let in while the
server works gets its worker. Without it the accept loop counts the entries of the map
behind a registration, and whom it serves hangs on the count: a worker is created only
where one entry at most was seen, and no entry comes in but through the accept loop. So
of the sessions in the map one at most has a worker, and one at most an open socket, but
for the client that is not decided about (`Undecided`).
-/
import NetworkApplication.Shutdown
import NetworkApplication.MissingSession

set_option autoImplicit false

namespace NetworkApplication.Admission

open NetworkApplication.Program NetworkApplication.Pool NetworkApplication.Disciplines
open SegmentServer Registry
open Shutdown (after)

/-! ## Sessions, workers and readers -/

/-- The session is in the map. -/
def Mapped (w : World) (p : SessionPtr) : Prop := w.getSession p.sessionID = some p

/-- Worker `n` was created for the id. -/
def WorksFor (w : World) (n : Nat) (id : UInt32) : Prop :=
  ∃ W : UInt64, w.sessionWorkers[n]? = some W ∧ UInt64.toUInt32 W = id

/-- A worker was created for the id. -/
def HasWorker (w : World) (id : UInt32) : Prop := ∃ W ∈ w.sessionWorkers, UInt64.toUInt32 W = id

/-- The thread is reading from the socket `a`, or about to. -/
def Reading (a : Nat) : NetProg (Option ServerLabel) → Prop
  | .op (.read b _) _ => b = a
  | _ => False

/-- The accept loop is at its head. -/
def AtHead (server : SegmentServer) (q : NetProg (Option ServerLabel)) : Prop :=
  q = .pure (some .acceptLoop) ∨ q = server.acceptLoop

variable {ids : Nat → UInt64} {P : Platform} {server : SegmentServer} {usage : Usage}
  {t u : Thread} {f : Facts} {fs : Thread → Facts} {w w' : World} {p q : SessionPtr} {ID : UInt64}

theorem Mapped.registered (hw : Consistent ids w) (hp : Mapped w p) : p ∈ w.registered :=
  (hw.sessionMap _ p hp).1

/-- Two workers of one id are one. -/
theorem worker_unique {n m : Nat} {id : UInt32} (hw : Consistent ids w) (hn : WorksFor w n id)
    (hm : WorksFor w m id) : n = m := by
  obtain ⟨W, hW, rfl⟩ := hn
  obtain ⟨W', hW', hid⟩ := hm
  have hsame : (w.sessionWorkers.map UInt64.toUInt32)[n]? = (w.sessionWorkers.map UInt64.toUInt32)[m]? := by
    rw [List.getElem?_map, List.getElem?_map, hW, hW', Option.map_some, Option.map_some, hid]
  have hlt : n < (w.sessionWorkers.map UInt64.toUInt32).length := by
    rw [List.length_map]
    exact (List.getElem?_eq_some_iff.mp hW).1
  exact (List.getElem?_inj hlt hw.distinctWorkers).mp hsame

/-- A worker of the id has a number. -/
theorem HasWorker.works {id : UInt32} (h : HasWorker w id) : ∃ n, WorksFor w n id := by
  obtain ⟨W, hW, hid⟩ := h
  obtain ⟨n, hn⟩ := List.mem_iff_getElem?.mp hW
  exact ⟨n, W, hn, hid⟩

/-- An id that has a worker has exactly one. -/
theorem HasWorker.unique {id : UInt32} (hw : Consistent ids w) (h : HasWorker w id) :
    ∃! n, WorksFor w n id := by
  obtain ⟨n, hn⟩ := h.works
  exact ⟨n, hn, fun m hm => worker_unique hw hm hn⟩

/-! ## What becomes of a run -/

theorem later_refl (w : World) : Later w w :=
  ⟨fun _ h => h, fun _ _ h => h, fun _ _ h => h, fun _ _ h => h, fun _ h => h⟩

theorem later_trans {w'' : World} (h : Later w w') (h' : Later w' w'') : Later w w'' where
  registered := fun p hp => h'.registered p (h.registered p hp)
  gone := fun p hp hgone => h'.gone p (h.registered p hp) (h.gone p hp hgone)
  shut := fun p hp hshut => h'.shut p (h.registered p hp) (h.shut p hp hshut)
  workers := fun n W hW => h'.workers n W (h.workers n W hW)
  finished := fun n hn => h'.finished n (h.finished n hn)

/-- A thread of a server that keeps to the disciplines goes on or ends as they say. -/
theorem follows {s : (server.system P ids).State} (h : (disciplined P server ids usage).Holds s fs)
    (t : Thread) : Follows (rules server usage t) (atNext usage t) (fun _ f => atEnd usage t f)
      (fs t) (s.threads t) := by
  refine (h.keeps t).mono (fun next f hnext => ?_) (fun _ _ h => h)
  cases next with
  | some l => exact hnext
  | none => exact hnext

/-- What holds of sessions in a state holds in every later one. -/
theorem later_run {s s' : (server.system P ids).State}
    (h : (disciplined P server ids usage).Holds s fs) (hrun : System.Steps (freshID P) s s') :
    ∃ fs', (disciplined P server ids usage).Holds s' fs' ∧ Later s.world s'.world := by
  let bounded := (disciplined P server ids usage).strengthen (fun _ _ _ _ => True)
    (fun _ w => Later s.world w)
    (fun _ t _ _ _ _ _ hK _ hlater ho _ _ hsem =>
      later_trans hlater (moves hK.1 (hK.2 t) ho hsem).2.later)
  have hstart : bounded.Holds s fs := ⟨⟨h.inv, later_refl _⟩, h.keeps⟩
  obtain ⟨fs', hinv, hkeeps⟩ := Disciplined.run_rule (K := bounded)
    (fun _ _ _ hfresh o k hk => ⟨hfresh o k hk, trivial⟩) hrun ⟨fs, hstart⟩
  exact ⟨fs', ⟨hinv.1, hkeeps⟩, hinv.2⟩

/-- Every state of a run whose ids differ. -/
theorem disciplined_run {s : (server.system P ids).State}
    (hrun : System.Steps System.anyStep (server.started P ids usage) s)
    (hids : DistinctIDs ids s.world.handed) : ∃ fs, (disciplined P server ids usage).Holds s fs :=
  Disciplined.run_rule (K := disciplined P server ids usage) (fun _ _ _ h => h)
    (steps_fresh P hrun hids) ⟨_, started_holds P server ids usage⟩

/-! ## One reader for a session -/

/-- Who reads is the worker that was created for the session. -/
theorem worksFor_of_reading {a : Nat} {s : (server.system P ids).State}
    (h : (disciplined P server ids usage).Holds s fs) (hreading : Reading a (s.threads t)) :
    ∃ n p, t = .reader n ∧ p ∈ s.world.registered ∧ p.addr = a ∧
      WorksFor s.world n p.sessionID := by
  have hfollows := follows h t
  obtain ⟨hK, hkeeps⟩ := h
  cases hq : s.threads t with
  | op o k =>
    rw [hq] at hreading hfollows
    cases o with
    | read b m =>
      obtain ⟨-, p, hp, hb, hserves, n, rfl⟩ := hfollows.1
      obtain ⟨n', W, hn', hW, hid⟩ := (hK.2 _).served _ hserves
      obtain rfl := Thread.reader.inj hn'
      exact ⟨n, p, rfl, (hK.2 _).known p hp, hb.trans hreading, W, hW, hid⟩
    | _ => exact hreading.elim
  | _ =>
    rw [hq] at hreading
    exact hreading.elim

/-- Whoever reads from a socket, now or later, is the same. -/
theorem reader_unique {a : Nat} {s₁ s₂ : (server.system P ids).State}
    (h : (disciplined P server ids usage).Holds s₁ fs) (hrun : System.Steps (freshID P) s₁ s₂)
    (ht : Reading a (s₁.threads t)) (hu : Reading a (s₂.threads u)) :
    t = u ∧ ∃ n, t = .reader n := by
  obtain ⟨fs', h', hlater⟩ := later_run h hrun
  obtain ⟨n, p, rfl, hp, hpa, W, hW, hWid⟩ := worksFor_of_reading h ht
  obtain ⟨m, q, rfl, hq, hqa, hm⟩ := worksFor_of_reading h' hu
  have hconsistent := h'.inv.1
  obtain rfl := hconsistent.addrs p (hlater.registered p hp) q hq (hpa.trans hqa.symm)
  have hn : WorksFor s₂.world n p.sessionID := ⟨W, hlater.workers n W hW, hWid⟩
  rw [worker_unique hconsistent hn hm]
  exact ⟨rfl, m, rfl⟩

/-! ## Every client that is let in is served -/

/-- Exactly one worker was created for the id. -/
def Served (w : World) (id : UInt32) : Prop := ∃! n, WorksFor w n id

/-- The accept loop is to create the worker of `ID`, which it does without waiting. -/
def Granting (ID : UInt64) (q : NetProg (Option ServerLabel)) : Prop :=
  q = Prog.op (E := Net) (.addSessionWorker ID) (fun _ => .pure (some .acceptLoop))

/-- The accept loop has seen the flag set. -/
theorem granting_of_keep {s s' : (server.system P ids).State} {c : Choice}
    (hkeep : s.threads .main = keep ID) (hwork : s.world.isWork = true)
    (hstep : System.step s .main c = some s') : Granting ID (s'.threads .main) := by
  have hsem : (server.system P ids).sem .main .getIsWork c s.world = some (true, s.world) := by
    rw [← hwork]
    rfl
  rw [System.step_op hkeep hsem, Option.some.injEq] at hstep
  subst hstep
  unfold Granting
  dsimp only
  rw [Function.update_self]
  rfl

/-- Its next step creates the worker. -/
theorem granting_step {s : (server.system P ids).State} (h : Granting ID (s.threads .main))
    (c : Choice) : ∃ s', System.step s .main c = some s' ∧
      s'.world = { s.world with sessionWorkers := s.world.sessionWorkers ++ [ID] } :=
  ⟨_, System.step_op h rfl, rfl⟩

/-- **Step lemma.** The worker is still to be created, or is there. -/
theorem granted_step {s s' : (server.system P ids).State} {c : Choice}
    (h : (disciplined P server ids usage).Holds s fs) (hfresh : freshID P s t c)
    (hgranted : Granting ID (s.threads .main) ∨ HasWorker s.world (UInt64.toUInt32 ID))
    (hstep : System.step s t c = some s') :
    ∃ fs', (disciplined P server ids usage).Holds s' fs' ∧
      (Granting ID (s'.threads .main) ∨ HasWorker s'.world (UInt64.toUInt32 ID)) := by
  obtain ⟨fs', h', hlater⟩ := later_run h ((System.Steps.refl s).tail hfresh hstep)
  refine ⟨fs', h', ?_⟩
  rcases hgranted with hgranting | hworker
  · by_cases ht : t = .main
    · subst ht
      obtain ⟨s₁, hstep₁, hworkers⟩ := granting_step hgranting c
      rw [hstep, Option.some.injEq] at hstep₁
      subst hstep₁
      refine .inr ⟨ID, ?_, rfl⟩
      rw [hworkers]
      exact List.mem_append_right _ (List.mem_singleton_self ID)
    · rw [System.step_other hstep (Ne.symm ht)]
      exact .inl hgranting
  · obtain ⟨n, W, hW, hid⟩ := hworker.works
    exact .inr ⟨W, List.mem_of_getElem? (hlater.workers n W hW), hid⟩

/-- Where the worker is to be created the next step of the accept loop creates it. -/
theorem served_of_granting {s : (server.system P ids).State} (h : (disciplined P server ids usage).Holds s fs)
    (hgranting : Granting ID (s.threads .main)) (c : Choice) :
    ∃ s', System.step s .main c = some s' ∧ Served s'.world (UInt64.toUInt32 ID) := by
  obtain ⟨s', hstep, hworkers⟩ := granting_step hgranting c
  have hfresh : freshID P s .main c := freshID_of_op P hgranting (fun _ => trivial) c
  obtain ⟨f, hnext⟩ := Disciplined.step_rule h hfresh hstep
  refine ⟨s', hstep, HasWorker.unique hnext.inv.1 ⟨ID, ?_, rfl⟩⟩
  rw [hworkers]
  exact List.mem_append_right _ (List.mem_singleton_self ID)

/-- **Run lemma.** From where the flag was seen set on, the id has its worker, or is one
step of the accept loop away from it. -/
theorem served_run {s s₁ s' : (server.system P ids).State} {c : Choice}
    (h : (disciplined P server ids usage).Holds s fs) (hkeep : s.threads .main = keep ID)
    (hwork : s.world.isWork = true) (hfresh : freshID P s .main c)
    (hstep : System.step s .main c = some s₁) (hrun : System.Steps (freshID P) s₁ s') :
    Served s'.world (UInt64.toUInt32 ID) ∨ ∀ c', ∃ s'', System.step s' .main c' = some s'' ∧
      Served s''.world (UInt64.toUInt32 ID) := by
  obtain ⟨fs₁, h₁⟩ := Disciplined.step_rule h hfresh hstep
  obtain ⟨fs', h', hgranted⟩ := hrun.invariant
    (I := fun s => ∃ fs, (disciplined P server ids usage).Holds s fs ∧
      (Granting ID (s.threads .main) ∨ HasWorker s.world (UInt64.toUInt32 ID)))
    (fun _ _ _ _ hI hfresh hstep => by
      obtain ⟨fs, hholds, hgranted⟩ := hI
      exact granted_step hholds hfresh hgranted hstep)
    ⟨_, h₁, .inl (granting_of_keep hkeep hwork hstep)⟩
  rcases hgranted with hgranting | hworker
  · exact .inr (served_of_granting h' hgranting)
  · exact .inl (hworker.unique h'.inv.1)

/-! ## One client at a time -/

/-- The session is that of the client whose count is still to be taken, or that is being
refused. -/
def Undecided (p : SessionPtr) : Stage → Prop
  | .placed ID | .refusing ID => p.sessionID = UInt64.toUInt32 ID
  | _ => False

theorem Undecided.stage {stage : Stage} (h : Undecided p stage) :
    ∃ ID, p.sessionID = UInt64.toUInt32 ID ∧ (stage = .placed ID ∨ stage = .refusing ID) := by
  cases stage with
  | placed ID => exact ⟨ID, h, .inl rfl⟩
  | refusing ID => exact ⟨ID, h, .inr rfl⟩
  | _ => exact h.elim

/-- The count has found one entry at most. -/
def Counted : Stage → Prop
  | .counted _ | .granted _ => True
  | _ => False

/-- What the accept loop keeps up without `multiConnect`. -/
structure Strict (fs : Thread → Facts) (w : World) : Prop where
  served : ∀ p q, Mapped w p → Mapped w q → HasWorker w p.sessionID → HasWorker w q.sessionID →
    p = q
  counted : Counted (fs .main).stage → ∀ p q, Mapped w p → Mapped w q → p = q
  opened : ∀ p q, Mapped w p → Mapped w q → w.isOpen p.addr = true → w.isOpen q.addr = true →
    ¬ Undecided p (fs .main).stage → ¬ Undecided q (fs .main).stage → p = q

/-- A map with one entry at most. -/
theorem mapped_unique (hcount : w.sessionMap.entries.length ≤ 1) (hp : Mapped w p)
    (hq : Mapped w q) : p = q := by
  have hp' := mem_entries.mpr ⟨_, hp⟩
  have hq' := mem_entries.mpr ⟨_, hq⟩
  have hlength : (w.sessionMap.entries.map Sigma.snd).length ≤ 1 := by
    rwa [List.length_map]
  obtain ⟨i, hi, hpi⟩ := List.mem_iff_getElem.mp hp'
  obtain ⟨j, hj, hqj⟩ := List.mem_iff_getElem.mp hq'
  have hij : i = j := by omega
  subst hij
  exact hpi.symm.trans hqj

/-- The accept loop asks for the flag behind the count only. -/
theorem counted_getIsWork {isWork : Bool} (hmulti : server.multiConnect = false)
    (hmay : May server usage .main f .getIsWork) (hcounted : Counted (f.next .getIsWork isWork).stage) :
    Counted f.stage := by
  cases hstage : f.stage with
  | placed ID =>
    have hmulti' := hmay ID hstage
    rw [hmulti] at hmulti'
    cases hmulti'
  | counted ID => trivial
  | granted ID => trivial
  | _ =>
    simp only [Facts.next, hstage] at hcounted
    exact hcounted

/-- What has been counted is one entry at most. -/
theorem counted_next {o : Op} {c : Choice} {r : o.Res} (hmulti : server.multiConnect = false)
    (ho : (rules server usage .main).Allowed f o) (h : sem ids o c w = some (r, w'))
    (hcounted : Counted (f.next o r).stage) :
    Counted f.stage ∨ w' = w ∧ w.sessionMap.entries.length ≤ 1 := by
  by_cases hwork : o = .getIsWork
  · subst hwork
    exact .inl (counted_getIsWork hmulti ho.2 hcounted)
  by_cases hsize : o = .mapSize
  · subst hsize
    obtain ⟨hcount, hw⟩ := Prod.mk.inj (Option.some.inj h)
    by_cases hle : w.sessionMap.entries.length ≤ 1
    · exact .inr ⟨hw.symm, hle⟩
    · have hmany : 1 < r := Nat.lt_of_lt_of_eq (Nat.lt_of_not_le hle) hcount
      refine .inl ?_
      revert hcounted
      simp only [Facts.next, if_pos hmany]
      repeat' split
      all_goals first
        | exact id
        | exact False.elim
  · -- no other operation sets these stages
    refine .inl ?_
    revert hcounted
    unfold Facts.next
    repeat' split
    all_goals first
      | exact id
      | exact absurd rfl hwork
      | exact absurd rfl hsize
      | exact False.elim

/-- Of a client that is not decided about the accept loop asks for the count, or it goes on
to the next. -/
theorem stage_next {o : Op} {r : o.Res} (hp : Undecided p f.stage) (hsize : o ≠ .mapSize)
    (hdistribute : o ≠ .distributeID) (hwork : o ≠ .getIsWork)
    (hworker : ∀ ID, o ≠ .addSessionWorker ID) : (f.next o r).stage = f.stage := by
  obtain ⟨ID, -, hstage | hstage⟩ := hp.stage
  all_goals
    unfold Facts.next
    simp only [hstage]
    repeat' split
    all_goals first
      | rfl
      | exact hstage
      | exact absurd rfl hsize
      | exact absurd rfl hdistribute
      | exact absurd rfl hwork
      | exact absurd rfl (hworker _)

/-- The client stays undecided about until it is counted, or the next id is drawn. -/
theorem undecided_next {o : Op} {r : o.Res} (hmulti : server.multiConnect = false)
    (ho : (rules server usage .main).Allowed f o) (hp : Undecided p f.stage) :
    Undecided p (f.next o r).stage ∨ Counted (f.next o r).stage ∨ o = .distributeID := by
  -- the operations that change the stage are gone through; the rest leaves it as it is
  by_cases hdistribute : o = .distributeID
  · exact .inr (.inr hdistribute)
  by_cases hsize : o = .mapSize
  · subst hsize
    rw [← or_assoc]
    refine .inl ?_
    simp only [Facts.next]
    split
    · exact .inl hp
    · next ID hstage _ =>
      rw [hstage] at hp
      dsimp only
      split
      · exact .inl hp
      · exact .inr trivial
    · exact .inl hp
  by_cases hwork : o = .getIsWork
  · subst hwork
    cases hstage : f.stage with
    | placed ID =>
      have hmulti' := ho.2 ID hstage
      rw [hmulti] at hmulti'
      cases hmulti'
    | counted ID =>
      rw [hstage] at hp
      exact hp.elim
    | _ =>
      simp only [Facts.next, hstage]
      exact .inl (hstage ▸ hp)
  have hworker : ∀ ID, o ≠ .addSessionWorker ID := by
    rintro ID rfl
    rw [ho.2.2] at hp
    exact hp
  rw [stage_next hp hsize hdistribute hwork hworker]
  exact .inl hp

section OneOperation

variable {o : Op} {c : Choice} {r : o.Res} (hK : Knowledge ids usage fs w)
  (ho : (rules server usage t).Allowed (fs t) o) (h : sem ids o c w = some (r, w'))
include hK ho h

/-- A session in the map was there before, or the accept loop has put it in, when it had no
worker. -/
theorem mapped_next (hp : Mapped w' p) :
    Mapped w p ∨ (t = .main ∧ o = .mapInsert p.sessionID p) ∧
      (∃ ID, (fs .main).stage = .accepted ID p ∧ ((fs .main).next o r).stage = .placed ID ∧
        p.sessionID = UInt64.toUInt32 ID) ∧ ¬ HasWorker w' p.sessionID := by
  have hmade : o ≠ .makeSessionManager := by
    rintro rfl
    exact ho.2
  rcases getSession_next hmade h hp with hold | rfl
  · exact .inl hold
  · obtain ⟨rfl, ID, hid, haccepted⟩ := ho.2
    have hat := (hK.2 .main).stage
    rw [haccepted] at hat
    refine .inr ⟨⟨rfl, rfl⟩, ⟨ID, haccepted, ?_, hid⟩, ?_⟩
    · simp only [Facts.next, haccepted]
    · rintro ⟨W, hW, hWid⟩
      obtain rfl : w' = { w with
        sessionMap := w.sessionMap.insert p.sessionID p
        registered := w.registered ++ [p] } := effect_of_sem h
      exact hat.1.1.2 W hW (hWid.trans hid)

/-- An open session in the map was open before. -/
theorem stillOpen (hp : Mapped w p) (hopen : w'.isOpen p.addr = true) : w.isOpen p.addr = true := by
  by_contra hshut
  have hlater := (moves hK.1 (hK.2 t) ho h).2.later
  rw [hlater.shut p (hp.registered hK.1) (Bool.eq_false_iff.mpr hshut)] at hopen
  cases hopen

omit hK in
/-- A worker was there before, or the accept loop has created it for the id it has granted. -/
theorem hasWorker_next {id : UInt32} (hid : HasWorker w' id) :
    HasWorker w id ∨ Counted (fs .main).stage := by
  obtain ⟨W, hW, hWid⟩ := hid
  rcases workers_next ho h hW with hold | ⟨-, rfl, hgranted⟩
  · exact .inl ⟨W, hold, hWid⟩
  · rw [hgranted]
    exact .inr trivial

theorem served_next (hstrict : Strict fs w) (hp : Mapped w' p) (hq : Mapped w' q)
    (hpWorker : HasWorker w' p.sessionID) (hqWorker : HasWorker w' q.sessionID) : p = q := by
  have hpOld := (mapped_next hK ho h hp).resolve_right (fun hnew => hnew.2.2 hpWorker)
  have hqOld := (mapped_next hK ho h hq).resolve_right (fun hnew => hnew.2.2 hqWorker)
  rcases hasWorker_next ho h hpWorker with hpHad | hcounted
  · rcases hasWorker_next ho h hqWorker with hqHad | hcounted
    · exact hstrict.served p q hpOld hqOld hpHad hqHad
    · exact hstrict.counted hcounted p q hpOld hqOld
  · exact hstrict.counted hcounted p q hpOld hqOld

/-- While a session is put in, the accept loop is not behind a count. -/
theorem mapped_of_counted (hstage : Counted (after fs t o r .main).stage) (hp : Mapped w' p) :
    Mapped w p := by
  refine (mapped_next hK ho h hp).resolve_right ?_
  rintro ⟨⟨rfl, -⟩, ⟨ID, -, hplaced, -⟩, -⟩
  rw [after, Function.update_self, hplaced] at hstage
  exact hstage

theorem counted_after (hmulti : server.multiConnect = false) (hstrict : Strict fs w)
    (hstage : Counted (after fs t o r .main).stage) (hp : Mapped w' p) (hq : Mapped w' q) :
    p = q := by
  have hpOld := mapped_of_counted hK ho h hstage hp
  have hqOld := mapped_of_counted hK ho h hstage hq
  by_cases ht : t = .main
  · subst ht
    rw [after, Function.update_self] at hstage
    rcases counted_next hmulti ho h hstage with hcounted | ⟨-, hcount⟩
    · exact hstrict.counted hcounted p q hpOld hqOld
    · exact mapped_unique hcount hpOld hqOld
  · rw [after, Function.update_of_ne (Ne.symm ht)] at hstage
    exact hstrict.counted hstage p q hpOld hqOld

/-- A session in the map that is open was there and open before; and it was decided about, if
it is so behind the operation and nothing has been counted. -/
theorem opened_before (hmulti : server.multiConnect = false)
    (hcounted : ¬ Counted (after fs t o r .main).stage) (hp : Mapped w' p)
    (hopen : w'.isOpen p.addr = true) (hdecided : ¬ Undecided p (after fs t o r .main).stage) :
    Mapped w p ∧ w.isOpen p.addr = true ∧ ¬ Undecided p (fs .main).stage := by
  have hold : Mapped w p := by
    refine (mapped_next hK ho h hp).resolve_right ?_
    rintro ⟨⟨rfl, -⟩, ⟨ID, -, hplaced, hid⟩, -⟩
    rw [after, Function.update_self, hplaced] at hdecided
    exact hdecided hid
  refine ⟨hold, stillOpen hK ho h hold hopen, fun hundecided => ?_⟩
  by_cases ht : t = .main
  · subst ht
    rw [after, Function.update_self] at hcounted hdecided
    rcases undecided_next (r := r) hmulti ho hundecided with hsame | hcount | rfl
    · exact hdecided hsame
    · exact hcounted hcount
    · -- the next id is drawn once the refused socket is closed
      obtain ⟨-, hresting | ⟨ID, hrefusing, p', hp', hid, hshut⟩⟩ := ho.2
      · rw [hresting] at hundecided
        exact hundecided
      · rw [hrefusing] at hundecided
        obtain rfl := hK.1.sessionIDs p' ((hK.2 _).known p' hp') p (hold.registered hK.1)
          (hid.trans hundecided.symm)
        have hclosed := ((hK.2 _).shut p'.addr hshut).1
        rw [stillOpen hK ho h hold hopen] at hclosed
        cases hclosed
  · rw [after, Function.update_of_ne (Ne.symm ht)] at hdecided
    exact hdecided hundecided

/-- **One operation keeps it up.** -/
theorem strict_next (hmulti : server.multiConnect = false) (hstrict : Strict fs w) :
    Strict (after fs t o r) w' where
  served := fun _ _ hp hq hpWorker hqWorker => served_next hK ho h hstrict hp hq hpWorker hqWorker
  counted := fun hstage _ _ hp hq => counted_after hK ho h hmulti hstrict hstage hp hq
  opened := by
    intro p q hp hq hpOpen hqOpen hpDecided hqDecided
    by_cases hcounted : Counted (after fs t o r .main).stage
    · exact counted_after hK ho h hmulti hstrict hcounted hp hq
    · obtain ⟨hp, hpOpen, hpDecided⟩ := opened_before hK ho h hmulti hcounted hp hpOpen hpDecided
      obtain ⟨hq, hqOpen, hqDecided⟩ := opened_before hK ho h hmulti hcounted hq hqOpen hqDecided
      exact hstrict.opened p q hp hq hpOpen hqOpen hpDecided hqDecided

end OneOperation

/-- Without `multiConnect` it holds in every state of a run whose ids differ. -/
theorem strict_run {s : (server.system P ids).State} (hmulti : server.multiConnect = false)
    (hrun : System.Steps System.anyStep (server.started P ids usage) s)
    (hids : DistinctIDs ids s.world.handed) :
    ∃ fs, (disciplined P server ids usage).Holds s fs ∧ Strict fs s.world := by
  let strict := (disciplined P server ids usage).strengthen (fun _ _ _ _ => True) Strict
    (fun _ _ _ _ _ _ _ hK _ hstrict ho _ _ hsem => strict_next hK ho hsem hmulti hstrict)
  obtain ⟨hK, hkeeps⟩ := started_holds P server ids usage
  have hempty : ∀ p, ¬ Mapped (server.started P ids usage).world p := by
    intro p hp
    have hnone : (server.started P ids usage).world.getSession p.sessionID = none :=
      AList.lookup_empty p.sessionID
    rw [Mapped, hnone] at hp
    cases hp
  have hstart : strict.Holds (server.started P ids usage) (fun _ => Facts.nothing) := by
    refine ⟨⟨hK, fun p _ hp => absurd hp (hempty p), fun _ p _ hp => absurd hp (hempty p), ?_⟩, hkeeps⟩
    exact fun p _ hp => absurd hp (hempty p)
  obtain ⟨fs, hinv, hkeeps⟩ := Disciplined.run_rule (K := strict)
    (fun _ _ _ hfresh o k hk => ⟨hfresh o k hk, trivial⟩) (steps_fresh P hrun hids) ⟨_, hstart⟩
  exact ⟨fs, ⟨hinv.1, hkeeps⟩, hinv.2⟩

/-- At the head of the accept loop the client it has refused is closed. -/
theorem resting_of_atHead {s : (server.system P ids).State}
    (h : (disciplined P server ids usage).Holds s fs) (hhead : AtHead server (s.threads .main)) :
    (fs .main).stage = .resting ∨ ∃ ID, (fs .main).stage = .refusing ID ∧ Refused (fs .main) ID := by
  have hfollows := follows h .main
  rcases hhead with hloop | hblock
  · rw [hloop] at hfollows
    exact hfollows.2.2.2
  · rw [hblock] at hfollows
    -- where the flag is seen set the next id is drawn
    have hdrawn : ((fs .main).next .getIsWork true).stage = .resting ∨ ∃ ID,
        ((fs .main).next .getIsWork true).stage = .refusing ID ∧
          Refused ((fs .main).next .getIsWork true) ID := (hfollows.2 true nofun).1.2.2
    cases hstage : (fs .main).stage with
    | placed ID => simp [Facts.next, hstage] at hdrawn
    | counted ID => simp [Facts.next, hstage] at hdrawn
    | resting => exact .inl rfl
    | _ =>
      simp only [Facts.next, hstage] at hdrawn
      exact hdrawn

/-- At the head one session at most is open. -/
theorem opened_atHead {s : (server.system P ids).State}
    (h : (disciplined P server ids usage).Holds s fs) (hstrict : Strict fs s.world)
    (hhead : AtHead server (s.threads .main)) (hp : Mapped s.world p) (hq : Mapped s.world q)
    (hpOpen : s.world.isOpen p.addr = true) (hqOpen : s.world.isOpen q.addr = true) : p = q := by
  obtain ⟨⟨hw, hv⟩, -⟩ := id h
  have hdecided : ∀ p, Mapped s.world p → s.world.isOpen p.addr = true →
      ¬ Undecided p (fs .main).stage := by
    intro p hp hopen hundecided
    rcases resting_of_atHead h hhead with hresting | ⟨ID, hrefusing, p', hp', hid, hshut⟩
    · rw [hresting] at hundecided
      exact hundecided
    · rw [hrefusing] at hundecided
      obtain rfl := hw.sessionIDs p' ((hv _).known p' hp') p (hp.registered hw)
        (hid.trans hundecided.symm)
      rw [((hv _).shut p'.addr hshut).1] at hopen
      cases hopen
  exact hstrict.opened p q hp hq hpOpen hqOpen (hdecided p hp hpOpen) (hdecided q hq hqOpen)

/-- **One reader for a session, and one served session without `multiConnect`**: in every
run of a started server whose ids differ modulo 2^32, whatever the clients, the operators and
`stop` do. Whoever reads from a socket, in one state or in a later one, is the same session
worker. With `multiConnect` a session whose accept loop then sees the flag set has exactly
one worker in every later state, or the accept loop is to create it with its next step,
which waits for nothing. Without it one session at most in the map has a worker, and one at
most has an open socket whenever the accept loop is at its head. -/
theorem one_reader_one_served (P : Platform) (server : SegmentServer) (ids : Nat → UInt64)
    (usage : Usage) {s₁ s₂ : (server.system P ids).State}
    (hrun₁ : System.Steps System.anyStep (server.started P ids usage) s₁)
    (hrun₂ : System.Steps System.anyStep s₁ s₂) (hids : DistinctIDs ids s₂.world.handed) :
    (∀ a t u, Reading a (s₁.threads t) → Reading a (s₂.threads u) → t = u ∧ ∃ n, t = .reader n) ∧
    (server.multiConnect = true → ∀ p ∈ s₁.world.registered, ∀ ID, p.sessionID = UInt64.toUInt32 ID →
      s₁.threads .main = keep ID → s₁.world.isWork = true → ∀ c s, System.step s₁ .main c = some s →
      System.Steps System.anyStep s s₂ → Served s₂.world p.sessionID ∨
        ∀ c', ∃ s', System.step s₂ .main c' = some s' ∧ Served s'.world p.sessionID) ∧
    (server.multiConnect = false →
      (∀ p q, Mapped s₁.world p → Mapped s₁.world q → HasWorker s₁.world p.sessionID →
        HasWorker s₁.world q.sessionID → p = q) ∧
      (AtHead server (s₁.threads .main) → ∀ p q, Mapped s₁.world p → Mapped s₁.world q →
        s₁.world.isOpen p.addr = true → s₁.world.isOpen q.addr = true → p = q)) := by
  have hfresh := steps_fresh P hrun₂ hids
  have hids₁ := hids.mono (handed_mono P hrun₂)
  obtain ⟨fs, h⟩ := disciplined_run hrun₁ hids₁
  refine ⟨fun a t u ht hu => reader_unique h hfresh ht hu, ?_, fun hmulti => ?_⟩
  · intro _ p _ ID hid hkeep hwork c s hstep hrest
    have hnotDistribute : freshID P s₁ .main c := freshID_of_op P hkeep (fun _ => trivial) c
    rw [hid]
    exact served_run h hkeep hwork hnotDistribute hstep (steps_fresh P hrest hids)
  · obtain ⟨fs', h', hstrict⟩ := strict_run hmulti hrun₁ hids₁
    exact ⟨hstrict.served, fun hhead p q hp hq hpOpen hqOpen =>
      opened_atHead h' hstrict hhead hp hq hpOpen hqOpen⟩

theorem distinctIDs_three : DistinctIDs UInt64.ofNat 3 := by
  intro i j hij hj
  have hcases : i = 0 ∧ j = 1 ∨ i = 0 ∧ j = 2 ∨ i = 1 ∧ j = 2 := by omega
  rcases hcases with ⟨rfl, rfl⟩ | ⟨rfl, rfl⟩ | ⟨rfl, rfl⟩
  · decide
  · decide
  · decide

/-- A client is kept and its reader reads, and a second client is refused. -/
def servedAndRefused : List (Thread × Choice) :=
  keptClient 0 ++ List.replicate 6 (.reader 0, .go) ++ refusedClient 1

/-- Both are in the map then. The first is read from by its worker alone, and it is the only one
that is open. -/
theorem one_reader_beside_refused : ∃ s, System.exec (MissingSession.strictServer.started
      jsonPlatform UInt64.ofNat ⟨false, false⟩) servedAndRefused = some s ∧
    (∀ u, Reading 0 (s.threads u) → u = .reader 0) ∧
    (Mapped s.world ⟨0, 0⟩ ∧ Mapped s.world ⟨1, 1⟩ ∧ s.world.isOpen 0 = true) ∧
    ∀ p, Mapped s.world p → s.world.isOpen p.addr = true → p = ⟨0, 0⟩ := by
  obtain ⟨s, hexec, hreading, hhead, hmapped, hrefused, hopen, hhanded⟩ : ∃ s, System.exec
      (MissingSession.strictServer.started jsonPlatform UInt64.ofNat ⟨false, false⟩)
        servedAndRefused = some s ∧ Reading 0 (s.threads (.reader 0)) ∧
      AtHead MissingSession.strictServer (s.threads .main) ∧ Mapped s.world ⟨0, 0⟩ ∧
      Mapped s.world ⟨1, 1⟩ ∧ s.world.isOpen 0 = true ∧ s.world.handed = 2 :=
    ⟨_, rfl, rfl, .inl rfl, rfl, rfl, rfl, rfl⟩
  have hids : DistinctIDs UInt64.ofNat s.world.handed := by
    rw [hhanded]
    exact distinctIDs_three.mono (by decide)
  obtain ⟨hreader, -, hstrict⟩ := one_reader_one_served jsonPlatform
    MissingSession.strictServer UInt64.ofNat ⟨false, false⟩
    (System.steps_of_exec hexec (fun _ _ _ => trivial)) (System.Steps.refl s) hids
  refine ⟨s, hexec, fun u hu => ?_, ⟨hmapped, hrefused, hopen⟩, fun p hp hpOpen => ?_⟩
  · exact (hreader 0 (.reader 0) u hreading hu).1.symm
  · exact (hstrict rfl).2 hhead p ⟨0, 0⟩ hp hmapped hpOpen hopen

/-! ## Whom the count refuses

The count is of entries, and a client that is refused is disconnected without its entry
being taken out: `disconnect` leaves that to `onError`, which is called where `shutdown` or
`close` reports an error. While it does, the entries in the map are open sessions. -/

/-- Every session in the map is open, but for the one that the accept loop is just taking
out. -/
def EntriesOpen (fs : Thread → Facts) (w : World) : Prop :=
  ∀ p, Mapped w p → w.isOpen p.addr = true ∨ (fs .main).closing = some p.sessionID

/-- The accept loop closes no socket without an error while the session is in the map. -/
def ReportsClose (t : Thread) (o : Op) (c : Choice) (w : World) : Prop :=
  t = .main → ∀ p, o = .close p.addr → Mapped w p → ∃ ec : ErrorCode, c = .code ec ∧ ec.failed = true

/-- A run of the server alone: `stop` is not called, and there is no operator. -/
abbrev unattended : Usage := ⟨false, false⟩

/-- The entry that the accept loop is to take out is taken out before anything else is
noted. -/
theorem closing_next {o : Op} {c : Choice} {r : o.Res} {id : UInt32} (hclose : ∀ a, o ≠ .close a)
    (h : sem ids o c w = some (r, w')) (hclosing : f.closing = some id) :
    (f.next o r).closing = some id ∨ w'.getSession id = none := by
  have hremoved : ∀ id', w'.getSession id' = none →
      (f.removed id').closing = some id ∨ w'.getSession id = none := by
    intro id' hnone
    by_cases hid : id' = id
    · exact .inr (hid ▸ hnone)
    · refine .inl ?_
      show (if f.closing = some id' then none else f.closing) = some id
      rw [hclosing, if_neg (fun h => hid (Option.some.inj h).symm)]
  unfold Facts.next
  split
  · exact .inl hclosing
  · exact absurd rfl (hclose _)
  · split
    · exact .inl hclosing
    · exact .inl hclosing
  · next id' =>
    obtain ⟨hnone, rfl⟩ := Prod.mk.inj (Option.some.inj h)
    exact hremoved id' hnone
  · next id' _ =>
    refine hremoved id' ?_
    obtain rfl : w' = { w with sessionMap := w.sessionMap.erase id' } := effect_of_sem h
    rw [getSession_erase, if_pos rfl]
  -- no other operation concerns it
  all_goals
    repeat' split
    all_goals exact .inl hclosing

section OneOperation

variable {o : Op} {c : Choice} {r : o.Res} (hK : Knowledge ids unattended fs w)
  (ho : (rules server unattended t).Allowed (fs t) o) (h : sem ids o c w = some (r, w'))
include hK ho h

/-- A session in the map that is open stays open, unless its socket is closed. -/
theorem open_or_closed (hp : Mapped w p) (hopen : w.isOpen p.addr = true) :
    w'.isOpen p.addr = true ∨ o = .close p.addr := by
  have hregistered := hp.registered hK.1
  have heffect := effect_of_sem h
  have hmodified : ∀ a (g : SessionObject → SessionObject), w' = w.modify a g → a ≠ p.addr →
      w'.isOpen p.addr = true := by
    rintro a g rfl ha
    rwa [isOpen_modify_of_ne (Ne.symm ha)]
  -- an accept and a new session are at other addresses than those in the map
  by_cases hloud : Loud o
  · cases o with
    | connect a => exact ho.2.elim
    | makeSessionManager => exact ho.2.elim
    | read a n => exact hloud.elim
    | write_some a sent rest => exact hloud.elim
    | setCriticalError a => exact hloud.elim
    | close a =>
      by_cases ha : a = p.addr
      · exact .inr (congrArg Op.close ha)
      · exact .inl (hmodified a _ heffect ha)
    | async_accept a =>
      obtain ⟨rfl, ID, p', hmade, rfl⟩ := ho.2
      have hat := (hK.2 .main).stage
      rw [hmade] at hat
      exact .inl (hmodified _ _ heffect (Ne.symm (hat.2.1.2.2 p hregistered)))
    | makeSession id =>
      obtain rfl : w' = { w.modify w.allocated (fun _ => .new) with
        allocated := w.allocated + 1 } := heffect
      have hne : p.addr ≠ w.allocated := Nat.ne_of_lt (hK.1.allocated p hregistered)
      refine .inl ?_
      simp only [World.isOpen, World.modify, Function.update_of_ne hne]
      exact hopen
    | network =>
      rcases heffect with ⟨a, ec, hpending, -, rfl⟩ | ⟨a, rx, rfl⟩
      · refine .inl (hmodified a _ rfl ?_)
        rintro rfl
        exact hK.1.accepted p hregistered hpending
      · refine .inl ?_
        by_cases ha : p.addr = a
        · rw [← ha, isOpen_modify]
          exact hopen
        · rwa [isOpen_modify_of_ne ha]
    | _ =>
      obtain rfl := heffect
      exact .inl hopen
  · refine .inl ?_
    rwa [(same_of_effect hloud heffect).isOpen]

/-- It is the accept loop that closes a session in the map, and it has refused it. -/
theorem refused_of_close (hp : Mapped w p) (hclose : o = .close p.addr) :
    t = .main ∧ ∃ ID, (fs .main).stage = .refusing ID ∧ p.sessionID = UInt64.toUInt32 ID := by
  subst hclose
  obtain ⟨-, p', hp', haddr, hmay⟩ := ho
  obtain rfl := hK.1.addrs p' ((hK.2 t).known p' hp') p (hp.registered hK.1) haddr
  cases t with
  | main =>
    obtain ⟨⟨ID, hrefusing, hid⟩, -⟩ := hmay
    exact ⟨rfl, ID, hrefusing, hid⟩
  | reader n =>
    -- a reader closes behind the removal of the entry
    obtain ⟨hnone, -⟩ := (hK.2 _).gone _ hmay
    rw [Mapped, hnone] at hp
    cases hp
  | control => cases hmay
  | user n => cases hmay
  | network => exact hmay.elim

/-- **One operation keeps the entries open.** -/
theorem entriesOpen_next (hreports : ReportsClose t o c w) (hentries : EntriesOpen fs w) :
    EntriesOpen (after fs t o r) w' := by
  intro p hp
  rcases mapped_next hK ho h hp with hold | ⟨⟨rfl, hinsert⟩, ⟨ID, haccepted, -, -⟩, -⟩
  · rcases hentries p hold with hopen | hclosing
    · rcases open_or_closed hK ho h hold hopen with hopen' | hclose
      · exact .inl hopen'
      · obtain ⟨rfl, ID, hrefusing, hid⟩ := refused_of_close hK ho h hold hclose
        obtain ⟨ec, hec, hfailed⟩ := hreports rfl p hclose hold
        subst hclose hec
        obtain ⟨hr, -⟩ := Prod.mk.inj (Option.some.inj h)
        refine .inr ?_
        rw [after, Function.update_self, ← hr]
        simp only [Facts.next, hrefusing, hfailed, if_true, hid]
    · by_cases ht : t = .main
      · subst ht
        have hclose : ∀ a, o ≠ .close a := by
          rintro a rfl
          obtain ⟨-, -, -, -, -, hnone⟩ := ho
          rw [hclosing] at hnone
          cases hnone
        rw [after, Function.update_self]
        refine .inr ((closing_next hclose h hclosing).resolve_right (fun hnone => ?_))
        rw [Mapped, hnone] at hp
        cases hp
      · rw [after, Function.update_of_ne (Ne.symm ht)]
        exact .inr hclosing
  · -- the client that is put in has just been accepted
    have hat := (hK.2 .main).stage
    rw [haccepted] at hat
    subst hinsert
    obtain rfl : w' = { w with
      sessionMap := w.sessionMap.insert p.sessionID p
      registered := w.registered ++ [p] } := effect_of_sem h
    exact .inl hat.2.2.2

end OneOperation

variable (P) in
/-- Where the step closes the socket of a refused client that is in the map, the close
reports an error. -/
def reportsClose (s : (server.system P ids).State) (t : Thread) (c : Choice) : Prop :=
  ∀ o k, s.threads t = .op o k → ReportsClose t o c s.world

variable {s s₁ s₂ : (server.system P ids).State}

/-- While the refused are taken out, the entries are open sessions in every state of a run. -/
theorem entriesOpen_run
    (hrun : System.Steps (reportsClose P) (server.started P ids unattended) s)
    (hids : DistinctIDs ids s.world.handed) :
    ∃ fs, (disciplined P server ids unattended).Holds s fs ∧ EntriesOpen fs s.world := by
  let alone := (disciplined P server ids unattended).strengthen ReportsClose EntriesOpen
    (fun _ _ _ _ _ _ _ hK _ hentries ho _ hreports hsem =>
      entriesOpen_next hK ho hsem hreports hentries)
  obtain ⟨hK, hkeeps⟩ := started_holds P server ids unattended
  have hstart : alone.Holds (server.started P ids unattended) (fun _ => Facts.nothing) := by
    refine ⟨⟨hK, fun p hp => ?_⟩, hkeeps⟩
    have hnone : (server.started P ids unattended).world.getSession p.sessionID = none :=
      AList.lookup_empty p.sessionID
    rw [Mapped, hnone] at hp
    cases hp
  obtain ⟨fs, hinv, hkeeps⟩ := Disciplined.run_rule (K := alone)
    (fun _ _ _ hok o k hk => ⟨hok.1 o k hk, hok.2 o k hk⟩) (steps_fresh_and P hrun hids) ⟨_, hstart⟩
  exact ⟨fs, ⟨hinv.1, hkeeps⟩, hinv.2⟩

/-- A map with two entries holds a session of another id. -/
theorem exists_other (id : UInt32) (hw : Consistent ids w)
    (hcount : 1 < w.sessionMap.entries.length) : ∃ q, Mapped w q ∧ q.sessionID ≠ id := by
  have hmapped : ∀ e ∈ w.sessionMap.entries, Mapped w e.2 ∧ e.2.sessionID = e.1 := by
    intro e he
    have hfound : w.getSession e.1 = some e.2 := AList.mem_lookup_iff.mpr he
    have hid := (hw.sessionMap _ _ hfound).2
    refine ⟨?_, hid⟩
    rw [Mapped, hid, hfound]
  have hpos : 0 < w.sessionMap.entries.length := Nat.lt_trans Nat.zero_lt_one hcount
  have hfirst := hmapped _ (List.getElem_mem hpos)
  have hsecond := hmapped _ (List.getElem_mem hcount)
  by_cases hid : w.sessionMap.entries[0].1 = id
  · refine ⟨_, hsecond.1, fun hsame => ?_⟩
    have hkeys : (w.sessionMap.entries.map Sigma.fst).Nodup := w.sessionMap.nodupKeys
    have hfirstKey : 0 < (w.sessionMap.entries.map Sigma.fst).length := by
      rw [List.length_map]
      omega
    have hsecondKey : 1 < (w.sessionMap.entries.map Sigma.fst).length := by
      rwa [List.length_map]
    have hkey : (w.sessionMap.entries.map Sigma.fst)[0] = (w.sessionMap.entries.map Sigma.fst)[1] := by
      rw [List.getElem_map, List.getElem_map]
      exact hid.trans (hsame.symm.trans hsecond.2)
    exact absurd (hkeys.getElem_inj_iff.mp hkey) (by omega)
  · exact ⟨_, hfirst.1, fun hsame => hid (hfirst.2.symm.trans hsame)⟩

/-- **The count refuses only behind an open session.** -/
theorem open_of_count (h : (disciplined P server ids unattended).Holds s fs)
    (hentries : EntriesOpen fs s.world) (hmulti : server.multiConnect = false)
    (hmain : s.threads .main = server.keepOrRefuse ID)
    (hcount : 1 < s.world.sessionMap.entries.length) :
    ∃ q, Mapped s.world q ∧ q.sessionID ≠ UInt64.toUInt32 ID ∧ s.world.isOpen q.addr = true := by
  have hfollows := follows h .main
  rw [hmain, keepOrRefuse, hmulti] at hfollows
  have hclosing : (fs .main).closing = none := by
    rcases hfollows.1.2 with ⟨-, hnone, -⟩ | ⟨hcontrol, -⟩
    · exact hnone
    · cases hcontrol
  obtain ⟨q, hq, hid⟩ := exists_other (UInt64.toUInt32 ID) h.inv.1 hcount
  refine ⟨q, hq, hid, (hentries q hq).resolve_right ?_⟩
  rw [hclosing]
  exact nofun

/-- What the test goes on to. -/
theorem keepOrRefuse_step {c : Choice} (hmulti : server.multiConnect = false)
    (hmain : s.threads .main = server.keepOrRefuse ID) (hstep : System.step s .main c = some s₁) :
    s₁.threads .main = if 1 < s.world.sessionMap.entries.length then server.refuse ID
      else keep ID := by
  rw [keepOrRefuse, hmulti] at hmain
  have hsem : (server.system P ids).sem .main .mapSize c s.world
      = some (s.world.sessionMap.entries.length, s.world) := rfl
  have hnext := System.step_op hmain hsem
  rw [hstep, Option.some.injEq] at hnext
  rw [hnext]
  dsimp only
  rw [Function.update_self]
  rfl

/-- Nobody clears the flag. -/
theorem isWork_unattended (h : (disciplined P server ids unattended).Holds s fs) :
    s.world.isWork = true := by
  have hrunning : (fs .control).stop = .running := (h.inv.2 .control).control (.inr rfl)
  have hstop := (h.inv.2 .control).stop rfl
  rwa [hrunning] at hstop

/-- The accept loop has decided to keep the client, and its worker is still to come or is
there. -/
def Keeping (ID : UInt64) (s : (server.system P ids).State) : Prop :=
  s.threads .main = keep ID ∨
    (Granting ID (s.threads .main) ∨ HasWorker s.world (UInt64.toUInt32 ID))

/-- **Step lemma.** -/
theorem keeping_step {c : Choice} (h : (disciplined P server ids unattended).Holds s fs)
    (hfresh : freshID P s t c) (hkeeping : Keeping ID s) (hstep : System.step s t c = some s₁) :
    ∃ fs', (disciplined P server ids unattended).Holds s₁ fs' ∧ Keeping ID s₁ := by
  rcases hkeeping with hkeep | hgranted
  · obtain ⟨f, hnext⟩ := Disciplined.step_rule h hfresh hstep
    refine ⟨_, hnext, ?_⟩
    by_cases ht : t = .main
    · subst ht
      exact .inr (.inl (granting_of_keep hkeep (isWork_unattended h) hstep))
    · rw [Keeping, System.step_other hstep (Ne.symm ht)]
      exact .inl hkeep
  · obtain ⟨fs', h', hgranted'⟩ := granted_step h hfresh hgranted hstep
    exact ⟨fs', h', .inr hgranted'⟩

/-- **Run lemma.** -/
theorem keeping_run (h : (disciplined P server ids unattended).Holds s fs)
    (hkeeping : Keeping ID s) (hrun : System.Steps (freshID P) s s₁) :
    ∃ fs', (disciplined P server ids unattended).Holds s₁ fs' ∧ Keeping ID s₁ :=
  hrun.invariant (I := fun s => ∃ fs, (disciplined P server ids unattended).Holds s fs ∧ Keeping ID s)
    (fun _ _ _ _ hI hfresh hstep => by
      obtain ⟨fs, hholds, hkeeping⟩ := hI
      exact keeping_step hholds hfresh hkeeping hstep) ⟨fs, h, hkeeping⟩

/-- Whom the accept loop keeps it serves, within two steps of its own. -/
theorem served_of_keeping (h : (disciplined P server ids unattended).Holds s fs)
    (hkeeping : Keeping ID s) : ∃ n s', System.exec s (mainSteps n) = some s' ∧
      Served s'.world (UInt64.toUInt32 ID) := by
  rcases hkeeping with hkeep | hgranting | hworker
  · have hsem : (server.system P ids).sem .main .getIsWork (.code .success) s.world
        = some (true, s.world) := by
      rw [← isWork_unattended h]
      rfl
    have hstep := System.step_op hkeep hsem
    have hfresh : freshID P s .main (.code .success) :=
      freshID_of_op P hkeep (fun _ => trivial) (.code .success)
    obtain ⟨f, hnext⟩ := Disciplined.step_rule h hfresh hstep
    obtain ⟨s', hstep', hserved⟩ := served_of_granting hnext
      (granting_of_keep hkeep (isWork_unattended h) hstep) (.code .success)
    refine ⟨2, s', ?_, hserved⟩
    simp only [mainSteps, List.replicate, System.exec, hstep, hstep', Option.bind_some]
  · obtain ⟨s', hstep, hserved⟩ := served_of_granting h hgranting (.code .success)
    refine ⟨1, s', ?_, hserved⟩
    simp only [mainSteps, List.replicate, System.exec, hstep, Option.bind_some]
  · exact ⟨0, s, rfl, hworker.unique h.inv.1⟩

/-- **The count is of open sessions while the refused are taken out**: in every run of a
server without `multiConnect`, with ids that differ modulo 2^32, without a `stop` and without
operators, in which every close of a refused client that is in the map reports an error.
Whenever the test of the count goes on to refuse a client, another session in the map has an
open socket. Where no other session in the map has one, the client is kept, and whatever
comes in between it has exactly one worker, or is at most two steps of the accept loop away
from it. -/
theorem refused_behind_open_session (P : Platform) (server : SegmentServer) (ids : Nat → UInt64)
    (hmulti : server.multiConnect = false) {s s₁ : (server.system P ids).State} {ID : UInt64}
    {c : Choice} (hrun : System.Steps (reportsClose P) (server.started P ids unattended) s)
    (hids : DistinctIDs ids s.world.handed) (hmain : s.threads .main = server.keepOrRefuse ID)
    (hstep : System.step s .main c = some s₁) :
    (s₁.threads .main = server.refuse ID → ∃ q, Mapped s.world q ∧
      q.sessionID ≠ UInt64.toUInt32 ID ∧ s.world.isOpen q.addr = true) ∧
    ((∀ q, Mapped s.world q → q.sessionID ≠ UInt64.toUInt32 ID → s.world.isOpen q.addr = false) →
      ∀ s₂, System.Steps (reportsClose P) s₁ s₂ → DistinctIDs ids s₂.world.handed →
        ∃ n s', System.exec s₂ (mainSteps n) = some s' ∧ Served s'.world (UInt64.toUInt32 ID)) := by
  obtain ⟨fs, h, hentries⟩ := entriesOpen_run hrun hids
  have htest := keepOrRefuse_step hmulti hmain hstep
  constructor
  · intro hrefuse
    by_cases hcount : 1 < s.world.sessionMap.entries.length
    · exact open_of_count h hentries hmulti hmain hcount
    · -- a client that is kept is not refused
      rw [if_neg hcount, hrefuse] at htest
      cases htest
  · intro hclosed s₂ hlater hids₂
    have hcount : ¬ 1 < s.world.sessionMap.entries.length := by
      intro hcount
      obtain ⟨q, hq, hid, hopen⟩ := open_of_count h hentries hmulti hmain hcount
      rw [hclosed q hq hid] at hopen
      cases hopen
    rw [if_neg hcount] at htest
    have hfresh : freshID P s .main c := by
      rw [keepOrRefuse, hmulti] at hmain
      exact freshID_of_op P hmain (fun _ => trivial) c
    obtain ⟨f, h₁⟩ := Disciplined.step_rule h hfresh hstep
    have hfreshLater := steps_fresh P (hlater.mono (fun _ _ _ _ => trivial)) hids₂
    obtain ⟨fs₂, h₂, hkeeping⟩ := keeping_run h₁ (.inl htest) hfreshLater
    exact served_of_keeping h₂ hkeeping

/-- The peer of the first client goes away, and its reader takes the session down. -/
def firstClientLeaves : List (Thread × Choice) :=
  List.replicate 6 (.reader 0, .go) ++ [(.reader 0, .fail .eof 0)]
    ++ List.replicate 10 (.reader 0, .code .success)

/-- The next client is accepted and put into the map. -/
def nextClient (addr : Nat) : List (Thread × Choice) :=
  acceptCompletes addr .success ++ mainSteps 2

/-- A client is refused, and the close of its socket reports an error. -/
def refusedWithError (addr : Nat) : List (Thread × Choice) :=
  acceptCompletes addr .success ++ mainSteps 6 ++ [(.main, .code .bad_descriptor)] ++ mainSteps 2

/-- No step of the accept loop closes a socket without an error. -/
def closesFail (s : (server.system P ids).State) (t : Thread) (c : Choice) : Bool :=
  match t, s.threads t, c with
  | .main, .op (.close _) _, .code ec => ec.failed
  | .main, .op (.close _) _, _ => false
  | _, _, _ => true

theorem reportsClose_of_closesFail {c : Choice} (h : closesFail s t c = true) :
    reportsClose P s t c := by
  rintro o k hk rfl p rfl -
  unfold closesFail at h
  rw [hk] at h
  cases c with
  | code ec => exact ⟨ec, rfl, h⟩
  | _ => cases h

/-- The client that comes when the first has left is kept, as the one before it was taken
out. -/
theorem next_client_kept : ∃ s, System.exec (MissingSession.strictServer.started
      jsonPlatform UInt64.ofNat unattended)
        (keptClient 0 ++ refusedWithError 1 ++ firstClientLeaves ++ nextClient 2) = some s ∧
    ∃ s₁, System.step s .main .go = some s₁ ∧
      ∃ n s', System.exec s₁ (mainSteps n) = some s' ∧ Served s'.world 2 := by
  obtain ⟨s, hexec, hmain, hentries, hhanded, s₁, hstep, hhanded₁⟩ : ∃ s, System.exec
      (MissingSession.strictServer.started jsonPlatform UInt64.ofNat unattended)
        (keptClient 0 ++ refusedWithError 1 ++ firstClientLeaves ++ nextClient 2) = some s ∧
      s.threads .main = MissingSession.strictServer.keepOrRefuse 2 ∧
      s.world.sessionMap.entries.map Sigma.snd = [⟨2, 2⟩] ∧ s.world.handed = 3 ∧
      ∃ s₁, System.step s .main .go = some s₁ ∧ s₁.world.handed = 3 :=
    ⟨_, rfl, rfl, rfl, rfl, _, rfl, rfl⟩
  have hrun : System.Steps (reportsClose jsonPlatform) _ s :=
    System.steps_of_along hexec (System.along_of_checks
      (fun _ _ _ hgood => reportsClose_of_closesFail hgood) rfl)
  obtain ⟨-, hkept⟩ := refused_behind_open_session jsonPlatform
    MissingSession.strictServer UInt64.ofNat rfl hrun (hhanded ▸ distinctIDs_three) hmain hstep
  refine ⟨s, hexec, s₁, hstep, hkept (fun q hq hid => ?_) s₁ (System.Steps.refl s₁) 
    (hhanded₁ ▸ distinctIDs_three)⟩
  have hmem := mem_entries.mpr ⟨_, hq⟩
  rw [hentries, List.mem_singleton] at hmem
  rw [hmem] at hid
  exact absurd rfl hid

/-- A client that was refused stays in the map with its socket closed, and it is counted:
when the first client has left, the next one is refused behind no open session at all. -/
theorem refused_behind_closed_session : ∃ s, System.exec (MissingSession.strictServer.started
      jsonPlatform UInt64.ofNat unattended)
        (keptClient 0 ++ refusedClient 1 ++ firstClientLeaves ++ nextClient 2) = some s ∧
    DistinctIDs UInt64.ofNat s.world.handed ∧
    s.threads .main = MissingSession.strictServer.keepOrRefuse 2 ∧
    (∃ s₁, System.step s .main .go = some s₁ ∧
      s₁.threads .main = MissingSession.strictServer.refuse 2) ∧
    ∀ q, Mapped s.world q → q.sessionID ≠ 2 → s.world.isOpen q.addr = false := by
  obtain ⟨s, hexec, hmain, hentries, hshut, hhanded, hrefuses⟩ : ∃ s, System.exec
      (MissingSession.strictServer.started jsonPlatform UInt64.ofNat unattended)
        (keptClient 0 ++ refusedClient 1 ++ firstClientLeaves ++ nextClient 2) = some s ∧
      s.threads .main = MissingSession.strictServer.keepOrRefuse 2 ∧
      s.world.sessionMap.entries.map Sigma.snd = [⟨2, 2⟩, ⟨1, 1⟩] ∧ s.world.isOpen 1 = false ∧
      s.world.handed = 3 ∧ ∃ s₁, System.step s .main .go = some s₁ ∧
        s₁.threads .main = MissingSession.strictServer.refuse 2 :=
    ⟨_, rfl, rfl, rfl, rfl, rfl, _, rfl, rfl⟩
  refine ⟨s, hexec, ?_, hmain, hrefuses, fun q hq hid => ?_⟩
  · rw [hhanded]
    exact distinctIDs_three
  · have hmem := mem_entries.mpr ⟨_, hq⟩
    rw [hentries, List.mem_cons, List.mem_singleton] at hmem
    rcases hmem with rfl | rfl
    · exact absurd rfl hid
    · exact hshut

end NetworkApplication.Admission
