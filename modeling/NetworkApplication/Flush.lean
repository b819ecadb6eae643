/-
The flushes of `stop` find their tasks able to finish.

Behind the loop of `stop` every task can be run to its end by the steps of the server
alone: no peer has to send or to take anything, no user to act, and of the network only a
pending accept has to fail (`Unaided`). A reader that is about to read or to write does so
on a socket that is closed, or that some thread closes with no further wait; that thread is
run first (`closes_run`), and the call fails. The accept loop waits for nothing but the
accept. When its current block is done, a task sees that the flag is cleared and ends.
-/
import NetworkApplication.Shutdown
import NetworkApplication.MissingSession

set_option autoImplicit false

namespace NetworkApplication.Shutdown

open NetworkApplication.Program NetworkApplication.Pool NetworkApplication.Disciplines
open SegmentServer Registry

/-- The operation needs no peer and no user: a read or a write fails on a closed socket,
and of the network a pending accept fails. -/
def Unaided (w : World) (c : Choice) : Op → Prop
  | .read a n => n = 0 ∨ w.isOpen a = false
  | .write_some a _ _ => w.isOpen a = false
  | .network => ∃ a ec, c = .accepted a ec ∧ ec.failed = true
  | .command => False
  | _ => True

/-- How many ids the operation takes. -/
def idsOf : Op → Nat
  | .distributeID => 1
  | _ => 0

variable {ids : Nat → UInt64} (P : Platform) {server : SegmentServer} {usage : Usage}
  {t u : Thread} {f : Facts} {fs : Thread → Facts} {w w' : World}
  {s s' : (server.system P ids).State}

/-- Steps of the server that need no peer and no user. -/
def unaided (s : (server.system P ids).State) (t : Thread) (c : Choice) : Prop :=
  ∀ o k, s.threads t = .op o k → Unaided s.world c o

/-- Such steps, and the ids handed out are new. -/
def alone (s : (server.system P ids).State) (t : Thread) (c : Choice) : Prop :=
  unaided P s t c ∧ freshID P s t c

variable {P}

theorem alone_op {o : Op} {k : o.Res → NetProg (Option ServerLabel)} {c : Choice} {r : o.Res}
    (hk : s.threads t = .op o k) (hsem : sem ids o c s.world = some (r, w))
    (haid : Unaided s.world c o) (hfresh : FreshID ids s.world o) :
    System.Steps (alone P) s { world := w, threads := Function.update s.threads t (k r) } := by
  refine (System.Steps.refl s).tail ⟨fun o' k' hk' => ?_, fun o' k' hk' => ?_⟩
    (System.step_op hk hsem)
  · rw [hk] at hk'
    obtain ⟨rfl, -⟩ := Prog.op.inj hk'
    exact haid
  · rw [hk] at hk'
    obtain ⟨rfl, -⟩ := Prog.op.inj hk'
    exact hfresh

theorem alone_jump {l : ServerLabel} (hl : s.threads t = .pure (some l)) :
    System.Steps (alone P) s
      { s with threads := Function.update s.threads t (server.block P l) } := by
  refine (System.Steps.refl s).tail ⟨fun o k hk => ?_, fun o k hk => ?_⟩
    (System.step_jump Choice.go hl)
  · rw [hl] at hk
    cases hk
  · rw [hl] at hk
    cases hk

/-! ## Running another thread's error path -/

/-- An operation that does not wait can be performed at once. -/
theorem nonWaiting_enabled {o : Op} (ho : NonWaiting o) (w : World) :
    ∃ c r w', sem ids o c w = some (r, w') ∧ Unaided w c o ∧ FreshID ids w o ∧
      (∀ a, o = .close a → w'.isOpen a = false) ∧
      (∀ a, SawClosed a o r → w'.isOpen a = false) ∧ w'.handed = w.handed := by
  cases o with
  | isOpen a =>
    refine ⟨.go, w.isOpen a, w, rfl, trivial, trivial, nofun, ?_, rfl⟩
    rintro b ⟨rfl, hclosed⟩
    exact hclosed
  | shutdown a => exact ⟨.code .success, _, w, rfl, trivial, trivial, nofun, nofun, rfl⟩
  | close a =>
    refine ⟨.code .success, .success, w.modify a (fun s => { s with isOpen := false }), rfl, trivial,
      trivial, ?_, nofun, rfl⟩
    rintro b hb
    obtain rfl := Op.close.inj hb
    exact isOpen_modify ..
  | setCriticalError a => exact ⟨.go, _, _, rfl, trivial, trivial, nofun, nofun, rfl⟩
  | mapGet id => exact ⟨.go, _, w, rfl, trivial, trivial, nofun, nofun, rfl⟩
  | mapErase id => exact ⟨.go, _, _, rfl, trivial, trivial, nofun, nofun, rfl⟩
  | _ => exact ho.elim

/-- The other threads, and the ids, are as they were. -/
structure OthersKept (t : Thread) (s s' : (server.system P ids).State) : Prop where
  threads : ∀ u, u ≠ t → s'.threads u = s.threads u
  handed : s'.world.handed = s.world.handed

theorem OthersKept.trans {s₁ : (server.system P ids).State} (h : OthersKept t s s₁)
    (h' : OthersKept t s₁ s') : OthersKept t s s' :=
  ⟨fun u hu => (h'.threads u hu).trans (h.threads u hu), h'.handed.trans h.handed⟩

/-- A thread that is on its way to close a socket can be run until it has. -/
theorem closes_run {a : Nat} {q : NetProg (Option ServerLabel)} (hq : Closes a q)
    (hs : s.threads t = q) :
    ∃ s', System.Steps (alone P) s s' ∧ s'.world.isOpen a = false ∧ OthersKept t s s' := by
  induction q generalizing s with
  | pure next => exact hq.elim
  | throw e => exact hq.elim
  | crash => exact hq.elim
  | op o k ih =>
    have ho : NonWaiting o := by
      rcases hq with rfl | ⟨ho, -⟩
      · trivial
      · exact ho
    obtain ⟨c, r, w', hsem, haid, hfresh, hclosed, hsaw, hhanded⟩ := nonWaiting_enabled ho s.world
    have hstep := alone_op hs hsem haid hfresh
    have hkept : OthersKept t s { world := w', threads := Function.update s.threads t (k r) } :=
      ⟨fun u hu => Function.update_of_ne hu _ _, hhanded⟩
    rcases hq with hclose | ⟨-, hrest⟩
    · exact ⟨_, hstep, hclosed a hclose, hkept⟩
    · by_cases hsees : SawClosed a o r
      · exact ⟨_, hstep, hsaw a hsees, hkept⟩
      · obtain ⟨s', hrun, hend, hkept'⟩ := ih r (hrest r hsees)
          (s := { world := w', threads := Function.update s.threads t (k r) })
          (Function.update_self ..)
        exact ⟨s', hstep.trans hrun, hend, hkept.trans hkept'⟩

/-! ## The pending accept -/

/-- A thread that has moved has the program it moved to. -/
theorem moved_self (s : (server.system P ids).State) (t : Thread)
    (q : NetProg (Option ServerLabel)) : Function.update s.threads t q t = q :=
  Function.update_self ..

/-- The io thread is at its one operation, or about to be. -/
def NetworkReady (s : (server.system P ids).State) : Prop :=
  s.threads .network = .pure (some .networkLoop) ∨ s.threads .network = networkLoop

theorem networkReady_step {c : Choice} (h : NetworkReady s)
    (hstep : System.step s t c = some s') : NetworkReady s' := by
  by_cases ht : t = .network
  · subst ht
    rcases System.step_cases hstep with ⟨l, hl, rfl⟩ | ⟨o, k, r, w, hk, -, rfl⟩
    · rcases h with hpure | hop
      · rw [hpure] at hl
        obtain rfl := Option.some.inj (Prog.pure.inj hl)
        exact .inr (moved_self s .network _)
      · rw [hop] at hl
        cases hl
    · rcases h with hpure | hop
      · rw [hpure] at hk
        cases hk
      · rw [hop] at hk
        obtain ⟨rfl, hk⟩ := Prog.op.inj hk
        obtain rfl := eq_of_heq hk
        exact .inl (moved_self s .network _)
  · unfold NetworkReady
    rw [System.step_other hstep (Ne.symm ht)]
    exact h

theorem networkReady_run {ok : (server.system P ids).State → Thread → Choice → Prop}
    (h : NetworkReady s) (hrun : System.Steps ok s s') : NetworkReady s' :=
  hrun.invariant (fun _ _ _ _ hs _ hstep => networkReady_step hs hstep) h

/-- A pending accept can fail. -/
theorem accept_fails {a : Nat} (h : NetworkReady s)
    (hpending : (s.world.sessions a).accept = .pending) :
    ∃ s', System.Steps (alone P) s s' ∧ (∃ ec, (s'.world.sessions a).accept = .done ec) ∧
      OthersKept .network s s' := by
  have hfail : ∀ s₁ : (server.system P ids).State, s₁.threads .network = networkLoop →
      (s₁.world.sessions a).accept = .pending →
      ∃ s', System.Steps (alone P) s₁ s' ∧ (∃ ec, (s'.world.sessions a).accept = .done ec) ∧
        OthersKept .network s₁ s' := by
    intro s₁ hop hpending
    have hsem : sem ids .network (.accepted a .operation_aborted) s₁.world
        = some ((), s₁.world.modify a (fun s =>
            { s with accept := .done .operation_aborted, isOpen := false })) :=
      if_pos ⟨hpending, .inl rfl⟩
    refine ⟨_, alone_op hop hsem ⟨a, _, rfl, rfl⟩ trivial, ⟨.operation_aborted, ?_⟩,
      fun u hu => Function.update_of_ne hu _ _, rfl⟩
    rw [World.modify_sessions_self]
  rcases h with hpure | hop
  · obtain ⟨s', hrun, hdone, hkept⟩ := hfail
      { s with threads := Function.update s.threads .network (server.block P .networkLoop) }
      (moved_self s .network _) hpending
    refine ⟨s', (alone_jump hpure).trans hrun, hdone, fun u hu => ?_, hkept.handed⟩
    rw [hkept.threads u hu]
    exact Function.update_of_ne hu _ _
  · exact hfail s hop hpending

/-! ## Running a task to its end -/

/-- The threads with a task: the accept loop, and the readers whose workers exist. -/
def Tasked (w : World) : Thread → Prop
  | .main => True
  | .reader n => n < w.sessionWorkers.length
  | _ => False

/-- `stop` is behind its loop. -/
structure Behind (usage : Usage) (s : (server.system P ids).State) (fs : Thread → Facts) : Prop where
  holds : (covered P server ids usage).Holds s fs
  looped : (fs .control).stop = .looped
  network : NetworkReady s

theorem Tasked.mono (ht : Tasked w t)
    (hmono : w.sessionWorkers.length ≤ w'.sessionWorkers.length) : Tasked w' t := by
  cases t with
  | main => trivial
  | reader n => exact Nat.lt_of_lt_of_le ht hmono
  | _ => exact ht.elim

theorem tasked_run {ok : (server.system P ids).State → Thread → Choice → Prop}
    (ht : Tasked s.world t) (hrun : System.Steps ok s s') : Tasked s'.world t :=
  hrun.invariant (I := fun s => Tasked s.world t)
    (fun _ _ _ _ hs _ hstep => hs.mono (counters_step P hstep).2) ht

theorem behind_run (h : Behind usage s fs) (hrun : System.Steps (alone P) s s') :
    ∃ fs', Behind usage s' fs' := by
  have hfresh : System.Steps (freshID P) s s' := hrun.mono (fun _ _ _ h => h.2)
  obtain ⟨fs', hholds, hlooped, -⟩ := noneGranted_run h.holds h.looped hfresh
  exact ⟨fs', hholds, hlooped, networkReady_run h.network hrun⟩

/-- What an operation of a task waits for. -/
def Awaited (w : World) : Op → Prop
  | .read a n => n = 0 ∨ w.isOpen a = false
  | .write_some a _ _ => w.isOpen a = false
  | .acceptResult a => ∃ ec, (w.sessions a).accept = .done ec
  | _ => True

/-- When what it waits for is there, the operation can be performed. -/
theorem enabled (ids : Nat → UInt64) {o : Op} (ho : (rules server usage t).Allowed f o) (ht : Tasked w t)
    (hawaited : Awaited w o) : ∃ c r w', sem ids o c w = some (r, w') ∧ Unaided w c o := by
  have hmay := ho.2
  have hnotControl : t ≠ .control := by
    rintro rfl
    exact ht
  -- a closed socket and an accept that has completed are all that an operation waits for
  cases o with
  | read a n =>
    by_cases hn : n = 0
    · subst hn
      have hsem : sem ids (.read a 0) (.ok 0) w = some (.ok ((w.sessions a).rx.take 0),
          w.modify a (fun s => { s with rx := s.rx.drop 0 })) := by
        simp only [sem, readSem, true_or, if_true]
      exact ⟨_, _, _, hsem, .inl rfl⟩
    · have hclosed := hawaited.resolve_left hn
      exact ⟨.fail .bad_descriptor 0, _, _,
        if_pos ⟨Nat.pos_of_ne_zero hn, rfl, .inr rfl⟩, .inr hclosed⟩
  | write_some a sent rest => exact ⟨.fail .bad_descriptor 0, _, _, if_pos ⟨rfl, .inr rfl⟩, hawaited⟩
  | acceptResult a =>
    obtain ⟨ec, hec⟩ := hawaited
    exact ⟨.go, ec, w, by simp only [sem, hec], trivial⟩
  | shutdown a => exact ⟨.code .success, _, _, rfl, trivial⟩
  | close a => exact ⟨.code .success, _, _, rfl, trivial⟩
  | takeTask n =>
    obtain rfl := hmay
    have hn := List.getElem?_eq_getElem ht
    exact ⟨.go, w.sessionWorkers[n], w, by simp only [sem, hn], trivial⟩
  | uniform_int lo hi => exact ⟨.int lo, lo, w, if_pos ⟨Int32.le_refl _, hmay⟩, trivial⟩
  | uniform_real => exact ⟨.bits 0, _, _, rfl, trivial⟩
  | command =>
    obtain ⟨n, rfl⟩ := hmay
    exact ht.elim
  | network =>
    obtain rfl := hmay
    exact ht.elim
  | acceptorIsOpen => exact absurd hmay.1 hnotControl
  | acceptorCancel => exact absurd hmay.1 hnotControl
  | acceptorClose => exact absurd hmay.1 hnotControl
  | flushMainWorker => exact absurd hmay.1 hnotControl
  | flushSessionWorker n => exact absurd hmay.1 hnotControl
  | connect a => exact hmay.elim
  | _ => exact ⟨.go, _, _, rfl, trivial⟩

/-- What an operation of a task waits for can be brought about. -/
theorem awaited_run {o : Op} {k : o.Res → NetProg (Option ServerLabel)} (h : Behind usage s fs)
    (ht : Tasked s.world t) (hs : s.threads t = .op o k) :
    ∃ s', System.Steps (alone P) s s' ∧ Awaited s'.world o ∧ s'.threads t = .op o k ∧
      s'.world.handed = s.world.handed := by
  have hmay : May server usage t (fs t) o := by
    have hfollows := Disciplined.Holds.follows h.holds t
    rw [hs] at hfollows
    exact hfollows.1.2
  -- a socket in use is closed, or some other thread closes it
  have hclose : ∀ n a, t = .reader n → OnSocket a (s.threads t) → ∃ s', System.Steps (alone P) s s' ∧
      s'.world.isOpen a = false ∧ s'.threads t = .op o k ∧ s'.world.handed = s.world.handed := by
    rintro n a rfl hsocket
    rcases closes_of_onSocket h.holds h.looped (System.Steps.refl s) hsocket with hclosed | ⟨u, hu⟩
    · exact ⟨s, System.Steps.refl s, hclosed, hs, rfl⟩
    · have hne : Thread.reader n ≠ u := by
        rintro rfl
        rw [hs] at hu hsocket
        cases o with
        | read => exact hu.elim nofun (fun hwaits => hwaits.1)
        | write_some => exact hu.elim nofun (fun hwaits => hwaits.1)
        | _ => exact hsocket
      obtain ⟨s', hrun, hclosed, hkept⟩ := closes_run hu rfl
      exact ⟨s', hrun, hclosed, (hkept.threads _ hne).trans hs, hkept.handed⟩
  cases o with
  | read a m =>
    obtain ⟨p, -, -, -, n, rfl⟩ := hmay
    obtain ⟨s', hrun, hclosed, hkept⟩ := hclose n a rfl (by rw [hs]; rfl)
    exact ⟨s', hrun, .inr hclosed, hkept⟩
  | write_some a sent rest =>
    obtain ⟨p, -, -, hserves⟩ := hmay
    cases t with
    | reader n => exact hclose n a rfl (by rw [hs]; rfl)
    | user n => exact ht.elim
    | _ => exact hserves.elim
  | acceptResult a =>
    obtain ⟨rfl, ID, p, haccepting, rfl⟩ := hmay
    have hat := (h.holds.inv.1.2 .main).stage
    rw [haccepting] at hat
    cases haccept : (s.world.sessions p.addr).accept with
    | idle => exact absurd haccept hat.2.2.2
    | pending =>
      obtain ⟨s', hrun, hdone, hkept⟩ := accept_fails h.network haccept
      exact ⟨s', hrun, hdone, (hkept.threads .main nofun).trans hs, hkept.handed⟩
    | done ec => exact ⟨s, System.Steps.refl s, ⟨ec, haccept⟩, hs, rfl⟩
  | _ => exact ⟨s, System.Steps.refl s, trivial, hs, rfl⟩

theorem handed_next {o : Op} {c : Choice} {r : o.Res} (h : sem ids o c w = some (r, w')) :
    w'.handed = w.handed + idsOf o := by
  have heffect := effect_of_sem h
  by_cases hloud : Loud o
  · cases o with
    | connect a =>
      rcases heffect with rfl | ⟨rx, tx, rfl⟩
      · rfl
      · rfl
    | network =>
      rcases heffect with ⟨a, ec, -, -, rfl⟩ | ⟨a, rx, rfl⟩
      · rfl
      · rfl
    | read a n => exact hloud.elim
    | write_some a sent rest => exact hloud.elim
    | _ =>
      obtain rfl := heffect
      rfl
  · rw [(same_of_effect hloud heffect).handed]
    cases o with
    | distributeID => exact absurd trivial hloud
    | _ => rfl

/-- A task can make its next step. -/
theorem advance {o : Op} {k : o.Res → NetProg (Option ServerLabel)} (h : Behind usage s fs)
    (ht : Tasked s.world t) (hs : s.threads t = .op o k)
    (hids : DistinctIDs ids (s.world.handed + idsOf o)) :
    ∃ s' r, System.Steps (alone P) s s' ∧ s'.threads t = k r ∧
      s'.world.handed = s.world.handed + idsOf o := by
  obtain ⟨s₁, hrun, hawaited, hs₁, hhanded⟩ := awaited_run h ht hs
  obtain ⟨fs₁, h₁⟩ := behind_run h hrun
  have hfollows := Disciplined.Holds.follows h₁.holds t
  rw [hs₁] at hfollows
  obtain ⟨c, r, w, hsem, haid⟩ := enabled ids hfollows.1 (tasked_run ht hrun) hawaited
  have hnext := handed_next hsem
  have hfresh : FreshID ids s₁.world o := by
    refine freshID_of_distinct (hids.mono ?_) hsem
    rw [hnext, hhanded]
  refine ⟨_, r, hrun.trans (alone_op hs₁ hsem haid hfresh), moved_self s₁ t _, ?_⟩
  rw [← hhanded]
  exact hnext

/-- No path through the program takes more than `m` ids. -/
def AtMost : Nat → NetProg (Option ServerLabel) → Prop
  | m, .op o k => idsOf o ≤ m ∧ ∀ r, AtMost (m - idsOf o) (k r)
  | _, _ => True

/-- The thread is at the end of a block, or an exception has ended it. -/
def Ended (q : NetProg (Option ServerLabel)) : Prop :=
  (∃ next, q = .pure next) ∨ ∃ e, q = .throw e

/-- A task can be run to the end of its block. -/
theorem block_end {m : Nat} {q : NetProg (Option ServerLabel)} (h : Behind usage s fs)
    (hmulti : server.multiConnect = true) (ht : Tasked s.world t) (hs : s.threads t = q)
    (hq : t = .main → AtMost m q) (hids : DistinctIDs ids (s.world.handed + m)) :
    ∃ s', System.Steps (alone P) s s' ∧ Ended (s'.threads t) := by
  induction q generalizing s fs m with
  | pure next => exact ⟨s, System.Steps.refl s, .inl ⟨next, hs⟩⟩
  | throw e => exact ⟨s, System.Steps.refl s, .inr ⟨e, hs⟩⟩
  | crash =>
    have hfollows := Disciplined.Holds.follows h.holds t
    rw [hs] at hfollows
    have hmay := hfollows.2
    cases t with
    | main =>
      rw [show server.multiConnect = false from hmay] at hmulti
      cases hmulti
    | reader n => exact hmay.elim
    | _ => exact ht.elim
  | op o k ih =>
    have htakes : idsOf o ≤ m := by
      by_cases hmain : t = .main
      · exact (hq hmain).1
      · have hfollows := Disciplined.Holds.follows h.holds t
        rw [hs] at hfollows
        cases o with
        | distributeID => exact absurd hfollows.1.2.1 hmain
        | _ => exact Nat.zero_le m
    obtain ⟨s₁, r, hrun, hs₁, hhanded⟩ := advance h ht hs (hids.mono (by omega))
    obtain ⟨fs₁, h₁⟩ := behind_run h hrun
    obtain ⟨s', hrest, hend⟩ := ih r h₁ (tasked_run ht hrun) hs₁ (fun hmain => (hq hmain).2 r)
      (by rw [hhanded]; exact hids.mono (by omega))
    exact ⟨s', hrun.trans hrest, hend⟩

/-- At the end of a block a task sees that the flag is cleared, and is done. -/
theorem task_end {l : ServerLabel} (h : Behind usage s fs) (ht : Tasked s.world t)
    (hs : s.threads t = .pure (some l)) :
    ∃ s', System.Steps (alone P) s s' ∧ s'.threads t = .pure none := by
  have hfollows := Disciplined.Holds.follows h.holds t
  rw [hs] at hfollows
  have hidle := idle_of_stop h.holds.inv.1 (by simp [h.looped])
  -- the flag is looked at, the task says that it is done, and returns
  have hends : ∀ (o : Op) (k : Bool → NetProg (Option ServerLabel)) (r : o.Res) (w : World),
      server.block P l = .op .getIsWork k → k false = .op o (fun _ => .pure none) →
      sem ids o .go s.world = some (r, w) → Unaided s.world .go o → FreshID ids s.world o →
      ∃ s', System.Steps (alone P) s s' ∧ s'.threads t = .pure none := by
    intro o k r w hblock hk hsem haid hfresh
    obtain ⟨s₁, hjump, hs₁, hw₁⟩ : ∃ s₁, System.Steps (alone P) s s₁ ∧
        s₁.threads t = .op .getIsWork k ∧ s₁.world = s.world :=
      ⟨_, alone_jump hs, (moved_self s t _).trans hblock, rfl⟩
    have hsees : sem ids .getIsWork .go s₁.world = some (false, s₁.world) := by
      rw [hw₁]
      exact congrArg (fun b => some (b, s.world)) hidle
    have hlooks := alone_op hs₁ hsees trivial trivial
    rw [← hw₁] at hsem haid hfresh
    have hdone := alone_op (s := { world := s₁.world, threads := Function.update s₁.threads t (k false) })
      ((moved_self s₁ t _).trans hk) hsem haid hfresh
    exact ⟨_, (hjump.trans hlooks).trans hdone, Function.update_self ..⟩
  cases t with
  | main =>
    cases l with
    | acceptLoop => exact hends .mainTaskDone _ _ _ rfl rfl rfl trivial trivial
    | sessionWork n p => cases hfollows.1
    | userLoop =>
      obtain ⟨⟨n, hn⟩, -⟩ := hfollows
      cases hn
    | _ => cases hfollows.1
  | reader n =>
    cases l with
    | sessionWork m p => exact hends (.sessionTaskDone m) _ _ _ rfl rfl rfl trivial trivial
    | userLoop =>
      obtain ⟨⟨m, hm⟩, -⟩ := hfollows
      cases hm
    | _ => cases hfollows.1
  | _ => exact ht.elim

/-! ## The accept loop takes one id at a time -/

theorem atMost_of_allOps {m : Nat} {q : NetProg (Option ServerLabel)}
    (hq : q.AllOps (fun o => idsOf o = 0)) : AtMost m q := by
  induction q generalizing m with
  | op o k ih =>
    have ho : idsOf o = 0 := hq.1
    refine ⟨by omega, fun r => ?_⟩
    rw [ho]
    exact ih r (hq.2 r)
  | _ => trivial

theorem AtMost.mono {m m' : Nat} {q : NetProg (Option ServerLabel)} (hq : AtMost m q)
    (h : m ≤ m') : AtMost m' q := by
  induction q generalizing m m' with
  | op o k ih => exact ⟨Nat.le_trans hq.1 h, fun r => ih r (hq.2 r) (by omega)⟩
  | _ => trivial

/-- One round of the accept loop takes one id. -/
theorem acceptLoop_takes_one : AtMost 1 server.acceptLoop := by
  have hA : Prog.Compositional (E := Net) (fun q : NetProg _ => q.AllOps (fun o => idsOf o = 0))
      Composition.AcceptOp := by
    refine (Prog.compositional_allOps (E := Net) (ε := Exception) (fun o => idsOf o = 0)).mono ?_
    intro o ho
    cases o with
    | distributeID => exact ho.elim
    | _ => rfl
  refine ⟨Nat.zero_le 1, fun isWork => ?_⟩
  cases isWork with
  | false => exact ⟨Nat.zero_le 1, fun _ => trivial⟩
  | true =>
    refine ⟨le_rfl, fun ID => atMost_of_allOps ?_⟩
    have hround := hA.bind (Composition.of_addSession hA server (UInt64.toUInt32 ID))
      (fun _ => Composition.of_keepOrRefuse (hA.mono Composition.acceptOp_of_keepOp) trivial server ID)
    exact hround

/-- In every state the accept loop takes at most one more id before its head. -/
theorem atMost_main (hrun : System.Steps (freshID P) (server.started P ids usage) s) :
    AtMost 1 (s.threads .main) := by
  induction hrun with
  | refl => trivial
  | @tail s₁ s₂ hbefore hlast ih =>
    obtain ⟨t, c, -, hstep⟩ := hlast
    by_cases ht : t = .main
    · subst ht
      obtain ⟨fs, hholds⟩ := Disciplined.run_rule (K := disciplined P server ids usage)
        (fun _ _ _ h => h) hbefore ⟨_, started_holds P server ids usage⟩
      rcases System.step_cases hstep with ⟨l, hl, rfl⟩ | ⟨o, k, r, w, hk, -, rfl⟩
      · have hat := hholds.keeps Thread.main
        rw [hl] at hat
        have hblock : AtMost 1 (server.block P l) := by
          cases l with
          | acceptLoop => exact acceptLoop_takes_one
          | sessionWork n p => cases hat.1
          | userLoop =>
            obtain ⟨⟨n, hn⟩, -⟩ := hat
            cases hn
          | _ => cases hat.1
        rw [← moved_self s₁ .main (server.block P l)] at hblock
        exact hblock
      · rw [hk] at ih
        have hrest : AtMost 1 (k r) := (ih.2 r).mono (Nat.sub_le ..)
        rw [← moved_self s₁ .main (k r)] at hrest
        exact hrest
    · rw [System.step_other hstep (Ne.symm ht)]
      exact ih

/-! ## `stop` -/

/-- What a task has to have done when it ends. -/
theorem done_of_ended (h : Behind usage s fs) (ht : Tasked s.world t)
    (hend : s.threads t = .pure none ∨ ∃ e, s.threads t = .throw e) :
    AtDone s.world true t := by
  have hfollows := Disciplined.Holds.follows h.holds t
  have hatEnd : atEnd usage t (fs t) := by
    rcases hend with hnone | ⟨e, he⟩
    · rw [hnone] at hfollows
      exact hfollows
    · rw [he] at hfollows
      exact hfollows
  have hdone := (h.holds.inv.1.2 t).done
  cases t with
  | main =>
    rw [show (fs Thread.main).done = true from hatEnd.2] at hdone
    exact hdone
  | reader n =>
    rw [show (fs (Thread.reader n)).done = true from hatEnd.2] at hdone
    exact hdone
  | _ => trivial

/-- A task can be run to its end. -/
theorem task_finishes {m : Nat} (h : Behind usage s fs) (hmulti : server.multiConnect = true)
    (ht : Tasked s.world t) (hq : t = .main → AtMost m (s.threads t))
    (hids : DistinctIDs ids (s.world.handed + m)) :
    ∃ s', System.Steps (alone P) s s' ∧ AtDone s'.world true t := by
  obtain ⟨s₁, hrun₁, hend₁⟩ := block_end h hmulti ht rfl hq hids
  obtain ⟨fs₁, h₁⟩ := behind_run h hrun₁
  have ht₁ := tasked_run ht hrun₁
  rcases hend₁ with ⟨next, hnext⟩ | hthrow
  · cases next with
    | none => exact ⟨s₁, hrun₁, done_of_ended h₁ ht₁ (.inl hnext)⟩
    | some l =>
      obtain ⟨s₂, hrun₂, hend₂⟩ := task_end h₁ ht₁ hnext
      obtain ⟨fs₂, h₂⟩ := behind_run h₁ hrun₂
      exact ⟨s₂, hrun₁.trans hrun₂, done_of_ended h₂ (tasked_run ht₁ hrun₂) (.inl hend₂)⟩
  · exact ⟨s₁, hrun₁, done_of_ended h₁ ht₁ (.inr hthrow)⟩

/-- **`stop` never waits on a blocked reader.** Once `stop` is behind its loop, the socket on
which a reader reads or writes, in that state or in any later one, is closed, or some thread is
on its way to close it with no further wait. So what the flushes of `stop` wait for can come
about by the steps of the server alone: the task of the main worker ends, and so does that of
every session worker. The ids of the run differ modulo 2^32, with the one that comes next. -/
theorem stop_never_waits_on_reader {operates : Bool} (hmulti : server.multiConnect = true)
    (hrun : System.Steps System.anyStep (server.started P ids ⟨true, operates⟩) s)
    (hbehind : BehindLoop (s.threads .control)) (hlater : System.Steps System.anyStep s s')
    (hids : DistinctIDs ids (s'.world.handed + 1)) :
    (∀ n x, OnSocket x (s'.threads (.reader n)) →
      s.world.isOpen x = false ∨ ∃ t, Closes x (s.threads t)) ∧
    (∃ s'', System.Steps (unaided P) s' s'' ∧ s''.world.mainTasks = 0) ∧
    ∀ n < s'.world.sessionWorkers.length,
      ∃ s'', System.Steps (unaided P) s' s'' ∧ s''.world.finished n = true := by
  have hids' : DistinctIDs ids s'.world.handed := hids.mono (Nat.le_succ _)
  have hfresh := steps_fresh P hlater hids'
  have hfreshRun := steps_fresh P (hrun.trans hlater) hids'
  obtain ⟨fs, h⟩ := covered_run hrun (hids'.mono (handed_mono P hlater))
  have hlooped := looped_of_behindLoop (Disciplined.Holds.follows h .control) rfl hbehind
  obtain ⟨fs', h', hlooped', -⟩ := noneGranted_run h hlooped hfresh
  have hready : NetworkReady s' := networkReady_run (.inl rfl) (hrun.trans hlater)
  have hbehind' : Behind ⟨true, operates⟩ s' fs' := ⟨h', hlooped', hready⟩
  refine ⟨fun n x hx => closes_of_onSocket h hlooped hfresh hx, ?_, fun n hn => ?_⟩
  · obtain ⟨s'', hrun'', hdone⟩ := task_finishes (t := .main) hbehind' hmulti trivial
      (fun _ => atMost_main hfreshRun) hids
    exact ⟨s'', hrun''.mono (fun _ _ _ h => h.1), hdone⟩
  · obtain ⟨s'', hrun'', hdone⟩ := task_finishes (t := .reader n) (m := 0) hbehind' hmulti hn
      nofun hids'
    exact ⟨s'', hrun''.mono (fun _ _ _ h => h.1), hdone rfl⟩

/-- A client is served and reads; `stop` goes through its loop meanwhile. -/
def stopWhileReading : List (Thread × Choice) :=
  keptClient 0 ++ List.replicate 6 (.reader 0, .go) ++ List.replicate 10 (.control, .code .success)

theorem stop_does_not_wait_for_read : ∃ s, System.exec (MissingSession.openServer.started
      jsonPlatform UInt64.ofNat ⟨true, false⟩) stopWhileReading = some s ∧
    OnSocket 0 (s.threads (.reader 0)) ∧
    (s.world.isOpen 0 = false ∨ ∃ t, Closes 0 (s.threads t)) ∧
    ∃ s'', System.Steps (unaided jsonPlatform) s s'' ∧
      s''.world.finished 0 = true := by
  obtain ⟨s, hexec, hbehind, hx, hworkers, hhanded⟩ : ∃ s, System.exec
      (MissingSession.openServer.started jsonPlatform UInt64.ofNat ⟨true, false⟩)
        stopWhileReading = some s ∧ BehindLoop (s.threads .control) ∧
      OnSocket 0 (s.threads (.reader 0)) ∧ s.world.sessionWorkers.length = 1 ∧
      s.world.handed = 1 := ⟨_, rfl, trivial, rfl, rfl, rfl⟩
  have hids : DistinctIDs UInt64.ofNat (s.world.handed + 1) := by
    rw [hhanded]
    intro i j hij hj
    obtain ⟨rfl, rfl⟩ : i = 0 ∧ j = 1 := by omega
    decide
  obtain ⟨hcloses, -, hflushes⟩ := stop_never_waits_on_reader rfl
    (System.steps_of_exec hexec (fun _ _ _ => trivial)) hbehind (System.Steps.refl s) hids
  exact ⟨s, hexec, hx, hcloses 0 0 hx, hflushes 0 (by omega)⟩

end NetworkApplication.Shutdown
