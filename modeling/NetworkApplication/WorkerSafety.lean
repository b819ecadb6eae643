/-
The worker executes what it accepts, once and in order.

The mutex owns the queue: while no thread of the worker holds it, no task is current and
the history accounts for every accepted task (`Settled`). The worker's thread breaks that
between taking a task and being done with it, and has to restore it before it gives the
mutex up. The status is shared without the mutex, so what a thread may rely on differs:
a holder relies on the status once it is not `Stop`, the controlling thread relies on
nobody else touching `Stop` and `Flush`, and the worker's thread relies on `start` not
being called while it lives.

That is a rely/guarantee contract, and the functions are specified under it one by one.
A specification is a triple (`Spec`) whose assertions survive what the other threads do.
-/
import NetworkApplication.Worker
import NetworkApplication.RelyGuarantee
import Mathlib.Data.List.Nodup

set_option autoImplicit false

namespace NetworkApplication.WorkerSafety

open NetworkApplication.Program NetworkApplication.Pool NetworkApplication.RelyGuarantee Worker

abbrev WState := WorkerState WorkerThread

/-! ## The queue -/

/-- The history accounts for every accepted task, in order: those in `running` have been
taken and not been executed. -/
def Accounts (running : List Nat) (q : TaskQueue) : Prop :=
  ∃ before, q.accepted = before ++ running ++ q.tasks ∧
    (q.executed.map Prod.fst).Sublist before ∧
    before.Perm (q.executed.map Prod.fst ++ q.cleared)

/-- The status of an executed task says whether it threw. -/
def Judged (q : TaskQueue) (e : Nat × Bool) : Prop :=
  q.taskStatus e.1 = if e.2 then .Error else .Success

/-- What holds of the queue while no thread of the worker has the mutex. -/
structure Settled (q : TaskQueue) : Prop where
  idle : q.current_task = none
  accounts : Accounts [] q
  judged : ∀ e ∈ q.executed, Judged q e

/-- A task has been taken and not been executed yet. -/
structure Taken (task : Nat) (q : TaskQueue) : Prop where
  accounts : Accounts [task] q
  judged : ∀ e ∈ q.executed, Judged q e

/-- The task has been executed, and its status has not been stored yet. -/
structure Ran (task : Nat) (threw : Bool) (q : TaskQueue) : Prop where
  accounts : Accounts [] q
  ran : (task, threw) ∈ q.executed
  judged : ∀ e ∈ q.executed, Judged q e ∨ e = (task, threw)

/-- The task's status has been stored. -/
structure Ended (q : TaskQueue) : Prop where
  accounts : Accounts [] q
  judged : ∀ e ∈ q.executed, Judged q e

theorem Settled.push {q : TaskQueue} (h : Settled q) : Settled q.push := by
  obtain ⟨before, haccepted, hexecuted, hperm⟩ := h.accounts
  refine ⟨h.idle, ⟨before, ?_, hexecuted, hperm⟩, h.judged⟩
  show q.accepted ++ [q.accepted.length] = before ++ [] ++ (q.tasks ++ [q.accepted.length])
  rw [← List.append_assoc, ← haccepted]

theorem Settled.clear {q : TaskQueue} (h : Settled q) : Settled q.clear := by
  obtain ⟨before, haccepted, hexecuted, hperm⟩ := h.accounts
  refine ⟨rfl, ⟨before ++ q.tasks, ?_, ?_, ?_⟩, h.judged⟩
  · rw [TaskQueue.clear, haccepted, List.append_nil, List.append_nil, List.append_nil]
  · exact hexecuted.trans (List.sublist_append_left _ _)
  · show (before ++ q.tasks).Perm (q.executed.map Prod.fst ++ (q.cleared ++ q.tasks))
    rw [← List.append_assoc]
    exact hperm.append_right _

theorem Settled.take {q : TaskQueue} {task : Nat} {rest : List Nat} (h : Settled q)
    (htasks : q.tasks = task :: rest) :
    Taken task { q with tasks := rest, current_task := some task } := by
  obtain ⟨before, haccepted, hexecuted, hperm⟩ := h.accounts
  refine ⟨⟨before, ?_, hexecuted, hperm⟩, h.judged⟩
  rw [haccepted, htasks, List.append_nil, List.append_assoc, List.singleton_append]

theorem Taken.run {q : TaskQueue} {task : Nat} (h : Taken task q) (threw : Bool) :
    Ran task threw { q with executed := q.executed ++ [(task, threw)] } := by
  obtain ⟨before, haccepted, hexecuted, hperm⟩ := h.accounts
  refine ⟨⟨before ++ [task], ?_, ?_, ?_⟩, List.mem_append_right _ (List.mem_singleton_self _),
    fun e he => ?_⟩
  · rw [haccepted, List.append_nil]
  · rw [List.map_append]
    exact hexecuted.append (List.Sublist.refl _)
  · show (before ++ [task]).Perm ((q.executed ++ [(task, threw)]).map Prod.fst ++ q.cleared)
    rw [List.map_append, List.append_assoc]
    refine (hperm.append_right [task]).trans ?_
    rw [List.append_assoc]
    exact (List.perm_append_comm).append_left _
  · rcases List.mem_append.mp he with hold | hnew
    · exact .inl (h.judged e hold)
    · exact .inr (List.mem_singleton.mp hnew)

/-- No task is executed twice. -/
theorem Accounts.nodup {running : List Nat} {q : TaskQueue} (h : Accounts running q)
    (hnodup : q.accepted.Nodup) : (q.executed.map Prod.fst).Nodup := by
  obtain ⟨before, haccepted, hexecuted, -⟩ := h
  rw [haccepted, List.append_assoc] at hnodup
  exact hexecuted.nodup (List.nodup_append.mp hnodup).1

/-- Storing the status judges the task. It has been executed only once, so no other
execution is judged anew. -/
theorem Ran.judge {q : TaskQueue} {task : Nat} {threw : Bool} (h : Ran task threw q)
    (hnodup : q.accepted.Nodup) :
    Ended { q with taskStatus :=
      Function.update q.taskStatus task (if threw then .Error else .Success) } := by
  refine ⟨h.accounts, fun e he => ?_⟩
  show Function.update q.taskStatus task _ e.1 = _
  by_cases htask : e.1 = task
  · have hsame : e = (task, threw) :=
      List.inj_on_of_nodup_map (h.accounts.nodup hnodup) he h.ran htask
    rw [hsame, Function.update_self]
  · rw [Function.update_of_ne htask]
    rcases h.judged e he with hjudged | hsame
    · exact hjudged
    · exact absurd (congrArg Prod.fst hsame) htask

/-! ## The contract -/

/-- Thread `n` of the worker lives. -/
def Alive (n : Nat) (w : WState) : Prop := n < w.spawned ∧ w.exited n = false

/-- The invariant of the shared state. -/
structure Inv (w : WState) : Prop where
  ids : w.queue.accepted = List.range w.queue.accepted.length
  order : (w.queue.executed.map Prod.fst).Sublist w.queue.accepted
  live : ∀ n, Alive n w → w.thread = some n
  fresh : ∀ n, w.spawned ≤ n → w.exited n = false
  holder : ∀ n, w.mutex = some (.worker n) → Alive n w
  settled : (∀ n, w.mutex ≠ some (.worker n)) → Settled w.queue

/-- The status does not change under a thread that holds the mutex. -/
def Keeps (u : WorkerThread) (w : WState) : Prop :=
  w.status ≠ .Stop ∨ u = .control ∨ ∃ n, u = .worker n ∧ Alive n w

/-- What the other threads may do between two operations of thread `u`. -/
structure Rely (u : WorkerThread) (w w' : WState) : Prop where
  away : w.mutex ≠ some u → w'.mutex ≠ some u
  holds : w.mutex = some u → w'.mutex = some u ∧ w'.queue = w.queue
  status : w.mutex = some u → Keeps u w → w'.status = w.status
  thread : u = .control → w'.thread = w.thread
  stopped : u = .control → (w'.status = .Stop ↔ w.status = .Stop)
  flushed : u = .control → (w'.status = .Flush ↔ w.status = .Flush)
  drained : u = .control → w.status = .Flush → w.queue.tasks = [] → w'.queue.tasks = []
  alive : ∀ n, u = .worker n → w'.exited n = w.exited n ∧ w.spawned ≤ w'.spawned

/-- What a thread has to know to perform an operation. -/
def Before (t : WorkerThread) : WorkerOp → WState → Prop
  | .unlock, w => w.mutex = some t ∧ Settled w.queue
  | .setStatus s, w =>
    -- `start` stores the status without the mutex
    (t = .control ∧ s = .Wait ∧ w.status = .Stop ∧ w.thread = none) ∨
      (w.mutex = some t ∧ (t = .control ∨
        w.status ≠ .Stop ∧ w.status ≠ .Flush ∧ s ≠ .Stop ∧ s ≠ .Flush))
  | .push, w => w.mutex = some t ∧ (∀ n, t ≠ .worker n) ∧ w.status ≠ .Flush
  | .clear, w | .getSize, w => w.mutex = some t ∧ ∀ n, t ≠ .worker n
  | .runTask task, w => w.mutex = some t ∧ (∃ n, t = .worker n) ∧ Accounts [task] w.queue
  | .takeFront, w | .resetCurrent, w | .setTaskStatus _ _, w =>
    w.mutex = some t ∧ ∃ n, t = .worker n
  | .spawn, w => t = .control ∧ w.thread = none
  | .join, _ => t = .control
  | .exit n, w => t = .worker n ∧ n < w.spawned ∧ w.mutex ≠ some t
  | .lock, w | .wakeFor, w | .wakeEmpty, w => ∀ n, t = .worker n → Alive n w
  | _, _ => True

theorem Rely.refl (u : WorkerThread) (w : WState) : Rely u w w :=
  ⟨id, fun h => ⟨h, rfl⟩, fun _ _ => rfl, fun _ => rfl, fun _ => Iff.rfl, fun _ => Iff.rfl,
    fun _ _ h => h, fun _ _ => ⟨rfl, Nat.le_refl _⟩⟩

theorem Alive.mono {n : Nat} {w w' : WState} (h : Alive n w) (hr : Rely (.worker n) w w') :
    Alive n w' := by
  obtain ⟨hexited, hspawned⟩ := hr.alive n rfl
  exact ⟨Nat.lt_of_lt_of_le h.1 hspawned, hexited.trans h.2⟩

theorem Rely.trans (u : WorkerThread) {w₁ w₂ w₃ : WState} (h₁ : Rely u w₁ w₂)
    (h₂ : Rely u w₂ w₃) : Rely u w₁ w₃ := by
  refine ⟨fun h => h₂.away (h₁.away h), fun h => ?_, fun h hkeeps => ?_,
    fun hu => (h₂.thread hu).trans (h₁.thread hu), fun hu => (h₂.stopped hu).trans (h₁.stopped hu),
    fun hu => (h₂.flushed hu).trans (h₁.flushed hu), fun hu hflush hempty => ?_, fun n hn => ?_⟩
  · obtain ⟨hmutex, hqueue⟩ := h₁.holds h
    exact ⟨(h₂.holds hmutex).1, (h₂.holds hmutex).2.trans hqueue⟩
  · have hstatus := h₁.status h hkeeps
    refine (h₂.status (h₁.holds h).1 ?_).trans hstatus
    rcases hkeeps with hstop | hcontrol | ⟨n, rfl, halive⟩
    · exact .inl (hstatus ▸ hstop)
    · exact .inr (.inl hcontrol)
    · exact .inr (.inr ⟨n, rfl, halive.mono h₁⟩)
  · exact h₂.drained hu ((h₁.flushed hu).mpr hflush) (h₁.drained hu hflush hempty)
  · obtain ⟨hexited₁, hspawned₁⟩ := h₁.alive n hn
    obtain ⟨hexited₂, hspawned₂⟩ := h₂.alive n hn
    exact ⟨hexited₂.trans hexited₁, Nat.le_trans hspawned₁ hspawned₂⟩

section Steps

variable {t u : WorkerThread} {w : WState}

/-- Another thread takes or gives up the mutex. -/
theorem rely_mutex {m : Option WorkerThread} (hold : w.mutex ≠ some u) (hnew : m ≠ some u) :
    Rely u w { w with mutex := m } :=
  ⟨fun _ => hnew, fun h => absurd h hold, fun h _ => absurd h hold, fun _ => rfl,
    fun _ => Iff.rfl, fun _ => Iff.rfl, fun _ _ h => h, fun _ _ => ⟨rfl, Nat.le_refl _⟩⟩

/-- Another thread that holds the mutex changes the queue. -/
theorem rely_queue {q : TaskQueue} (ht : w.mutex = some t) (htu : t ≠ u)
    (hdrained : w.status = .Flush → w.queue.tasks = [] → q.tasks = []) :
    Rely u w { w with queue := q } := by
  have hold : w.mutex ≠ some u := fun h => htu (Option.some.inj (ht.symm.trans h))
  exact ⟨fun _ => hold, fun h => absurd h hold, fun h _ => absurd h hold, fun _ => rfl,
    fun _ => Iff.rfl, fun _ => Iff.rfl, fun _ => hdrained, fun _ _ => ⟨rfl, Nat.le_refl _⟩⟩

/-- Another thread stores the status. -/
theorem rely_status {s : StatusWorker} (htu : t ≠ u) (hi : Inv w)
    (hbefore : Before t (.setStatus s) w) : Rely u w { w with status := s } := by
  have hkeeps : w.mutex = some u → Keeps u w → s = w.status := by
    intro hmutex hkeeps
    rcases hbefore with ⟨ht, hs, hstop, hthread⟩ | ⟨hmutex', -⟩
    · rcases hkeeps with hne | hu | ⟨n, rfl, halive⟩
      · exact absurd hstop hne
      · exact absurd (ht.trans hu.symm) htu
      · -- no thread of the worker lives when `start` is called
        have := hi.live n halive
        rw [hthread] at this
        cases this
    · exact absurd (Option.some.inj (hmutex'.symm.trans hmutex)) htu
  have hcontrol : u = .control → s ≠ .Stop ∧ s ≠ .Flush ∧ w.status ≠ .Stop ∧ w.status ≠ .Flush := by
    rintro rfl
    rcases hbefore with ⟨ht, -⟩ | ⟨-, ht | ⟨h₁, h₂, h₃, h₄⟩⟩
    · exact absurd ht htu
    · exact absurd ht htu
    · exact ⟨h₃, h₄, h₁, h₂⟩
  refine ⟨id, fun h => ⟨h, rfl⟩, hkeeps, fun _ => rfl, fun hu => ?_, fun hu => ?_, fun _ _ h => h,
    fun _ _ => ⟨rfl, Nat.le_refl _⟩⟩
  · obtain ⟨h₁, -, h₃, -⟩ := hcontrol hu
    exact ⟨fun h => absurd h h₁, fun h => absurd h h₃⟩
  · obtain ⟨-, h₂, -, h₄⟩ := hcontrol hu
    exact ⟨fun h => absurd h h₂, fun h => absurd h h₄⟩

/-- **Every operation that its thread may perform is one the others rely on.** -/
theorem rely_of_step {o : WorkerOp} {c : WorkerChoice} {r : o.Res} {w' : WState} (htu : t ≠ u)
    (hi : Inv w) (hbefore : Before t o w) (h : Worker.sem t o c w = some (r, w')) : Rely u w w' := by
  have heffect := Worker.effect_of_sem h
  have htu' : some t ≠ some u := fun h => htu (Option.some.inj h)
  cases o with
  | setStatus s =>
    obtain rfl := heffect
    exact rely_status htu hi hbefore
  | lock | wakeFor =>
    obtain ⟨hfree, rfl⟩ := heffect
    exact rely_mutex (fun h => by rw [hfree] at h; cases h) htu'
  | wakeEmpty =>
    obtain ⟨hfree, -, rfl⟩ := heffect
    exact rely_mutex (fun h => by rw [hfree] at h; cases h) htu'
  | unlock =>
    obtain rfl := heffect
    exact rely_mutex (by rw [hbefore.1]; exact htu') nofun
  -- who changes the queue holds the mutex, and what is drained stays so
  | push =>
    obtain rfl := heffect
    exact rely_queue hbefore.1 htu (fun hflush => absurd hflush hbefore.2.2)
  | clear =>
    obtain rfl := heffect
    exact rely_queue hbefore.1 htu (fun _ _ => rfl)
  | takeFront =>
    obtain ⟨-, rfl⟩ | ⟨task, rest, htasks, rfl⟩ := heffect
    · exact Rely.refl u w'
    · refine rely_queue hbefore.1 htu (fun _ hempty => ?_)
      rw [htasks] at hempty
      cases hempty
  | runTask task =>
    obtain ⟨threw, rfl⟩ := heffect
    exact rely_queue hbefore.1 htu (fun _ h => h)
  | setTaskStatus task s =>
    obtain rfl := heffect
    exact rely_queue hbefore.1 htu (fun _ h => h)
  | resetCurrent =>
    obtain rfl := heffect
    exact rely_queue hbefore.1 htu (fun _ h => h)
  -- the handle is the control thread's own
  | spawn =>
    obtain rfl := heffect
    exact ⟨id, fun h => ⟨h, rfl⟩, fun _ _ => rfl, fun hu => absurd (hbefore.1.trans hu.symm) htu,
      fun _ => Iff.rfl, fun _ => Iff.rfl, fun _ _ h => h, fun _ _ => ⟨rfl, Nat.le_succ _⟩⟩
  | join =>
    obtain ⟨n, -, -, rfl⟩ := heffect
    exact ⟨id, fun h => ⟨h, rfl⟩, fun _ _ => rfl, fun hu => absurd (hbefore.trans hu.symm) htu,
      fun _ => Iff.rfl, fun _ => Iff.rfl, fun _ _ h => h, fun _ _ => ⟨rfl, Nat.le_refl _⟩⟩
  | exit n =>
    obtain rfl := heffect
    refine ⟨id, fun h => ⟨h, rfl⟩, fun _ _ => rfl, fun _ => rfl, fun _ => Iff.rfl, fun _ => Iff.rfl,
      fun _ _ h => h, fun m hm => ⟨?_, Nat.le_refl _⟩⟩
    -- a thread ends itself only
    have hmn : m ≠ n := by
      rintro rfl
      exact htu (hbefore.1.trans hm.symm)
    exact Function.update_of_ne hmn _ _
  | _ =>
    obtain rfl := heffect
    exact Rely.refl u w'

/-- A change of the queue by the thread that holds the mutex. -/
theorem inv_queue {q : TaskQueue} (hi : Inv w) (ht : w.mutex = some t)
    (hids : q.accepted = List.range q.accepted.length)
    (horder : (q.executed.map Prod.fst).Sublist q.accepted)
    (hsettled : (∀ n, t ≠ .worker n) → Settled q) : Inv { w with queue := q } := by
  refine ⟨hids, horder, hi.live, hi.fresh, hi.holder, fun hfree => hsettled (fun n hn => ?_)⟩
  exact hfree n (ht.trans (congrArg some hn))

/-- The thread that changes the queue is a thread of the worker. -/
theorem inv_queue_worker {q : TaskQueue} (hi : Inv w) (ht : w.mutex = some t)
    (hworker : ∃ n, t = .worker n) (haccepted : q.accepted = w.queue.accepted)
    (horder : (q.executed.map Prod.fst).Sublist w.queue.accepted) :
    Inv { w with queue := q } := by
  refine inv_queue hi ht ?_ ?_ (fun hfree => ?_)
  · rw [haccepted]
    exact hi.ids
  · rw [haccepted]
    exact horder
  · obtain ⟨n, hn⟩ := hworker
    exact absurd hn (hfree n)

/-- Where the mutex is free the queue is settled, -/
theorem Inv.settled_of_free (hi : Inv w) (hfree : w.mutex = none) : Settled w.queue := by
  refine hi.settled fun n hn => ?_
  rw [hfree] at hn
  cases hn

/-- and so it is for a thread that holds the mutex from outside. -/
theorem Inv.settled_of_holder (hi : Inv w) (ht : w.mutex = some t) (hnot : ∀ n, t ≠ .worker n) :
    Settled w.queue :=
  hi.settled fun n hn => hnot n (Option.some.inj (ht.symm.trans hn))

/-- **Every operation that its thread may perform keeps the invariant.** -/
theorem inv_of_step {o : WorkerOp} {c : WorkerChoice} {r : o.Res} {w' : WState} (hi : Inv w)
    (hbefore : Before t o w) (h : Worker.sem t o c w = some (r, w')) : Inv w' := by
  have heffect := Worker.effect_of_sem h
  cases o with
  | setStatus s =>
    obtain rfl := heffect
    exact ⟨hi.ids, hi.order, hi.live, hi.fresh, hi.holder, hi.settled⟩
  -- the mutex was free, so the queue is settled for who takes it
  | lock | wakeFor =>
    obtain ⟨hfree, rfl⟩ := heffect
    exact ⟨hi.ids, hi.order, hi.live, hi.fresh, fun n hn => hbefore n (Option.some.inj hn),
      fun _ => hi.settled_of_free hfree⟩
  | wakeEmpty =>
    obtain ⟨hfree, -, rfl⟩ := heffect
    exact ⟨hi.ids, hi.order, hi.live, hi.fresh, fun n hn => hbefore n (Option.some.inj hn),
      fun _ => hi.settled_of_free hfree⟩
  | unlock =>
    obtain rfl := heffect
    exact ⟨hi.ids, hi.order, hi.live, hi.fresh, nofun, fun _ => hbefore.2⟩
  | push =>
    obtain rfl := heffect
    obtain ⟨hmutex, hnot, -⟩ := hbefore
    refine inv_queue hi hmutex ?_ ?_ (fun _ => (hi.settled_of_holder hmutex hnot).push)
    · show w.queue.accepted ++ [w.queue.accepted.length] = _
      rw [TaskQueue.push, List.length_append, List.length_singleton, List.range_succ, ← hi.ids]
    · exact hi.order.trans (List.sublist_append_left _ _)
  | clear =>
    obtain rfl := heffect
    obtain ⟨hmutex, hnot⟩ := hbefore
    exact inv_queue hi hmutex hi.ids hi.order (fun _ => (hi.settled_of_holder hmutex hnot).clear)
  -- between its lock and its unlock the worker's thread owes nobody a settled queue
  | takeFront =>
    obtain ⟨-, rfl⟩ | ⟨task, rest, -, rfl⟩ := heffect
    · exact hi
    · exact inv_queue_worker hi hbefore.1 hbefore.2 rfl hi.order
  | runTask task =>
    obtain ⟨threw, rfl⟩ := heffect
    obtain ⟨hmutex, hworker, before, haccepted, hexecuted, -⟩ := hbefore
    refine inv_queue_worker hi hmutex hworker rfl ?_
    rw [haccepted, List.map_append]
    exact (hexecuted.append (List.Sublist.refl _)).trans (List.sublist_append_left _ _)
  | setTaskStatus task s =>
    obtain rfl := heffect
    exact inv_queue_worker hi hbefore.1 hbefore.2 rfl hi.order
  | resetCurrent =>
    obtain rfl := heffect
    exact inv_queue_worker hi hbefore.1 hbefore.2 rfl hi.order
  | spawn =>
    obtain rfl := heffect
    refine ⟨hi.ids, hi.order, fun n halive => ?_, fun n hn => hi.fresh n (Nat.le_of_succ_le hn),
      fun n hn => ⟨Nat.lt_succ_of_lt (hi.holder n hn).1, (hi.holder n hn).2⟩, hi.settled⟩
    obtain ⟨hn, hexited⟩ := halive
    by_cases hold : n < w.spawned
    · -- an old thread would be the worker's thread, and there is none
      have := hi.live n ⟨hold, hexited⟩
      rw [hbefore.2] at this
      cases this
    · have : n = w.spawned := Nat.le_antisymm (Nat.lt_succ_iff.mp hn) (Nat.not_lt.mp hold)
      exact congrArg some this.symm
  | join =>
    obtain ⟨n, hthread, hexited, rfl⟩ := heffect
    refine ⟨hi.ids, hi.order, fun m halive => ?_, hi.fresh, hi.holder, hi.settled⟩
    -- the one thread that lives has ended
    have hlive := hi.live m halive
    rw [hthread] at hlive
    obtain rfl := Option.some.inj hlive
    exact absurd (hexited.symm.trans halive.2) (by decide)
  | exit n =>
    obtain rfl := heffect
    refine ⟨hi.ids, hi.order, fun m halive => ?_, fun m hm => ?_, fun m hm => ?_, hi.settled⟩
    · have hmn : m ≠ n := by
        rintro rfl
        have := halive.2
        simp only [Function.update_self] at this
        cases this
      refine hi.live m ⟨halive.1, ?_⟩
      have := halive.2
      simp only [Function.update_of_ne hmn] at this
      exact this
    · have hmn : m ≠ n := by
        rintro rfl
        exact absurd hbefore.2.1 (Nat.not_lt.mpr hm)
      exact (Function.update_of_ne hmn _ _).trans (hi.fresh m hm)
    · have hmn : m ≠ n := by
        rintro rfl
        exact hbefore.2.2 (hbefore.1 ▸ hm)
      obtain ⟨hspawned, hexited⟩ := hi.holder m hm
      exact ⟨hspawned, (Function.update_of_ne hmn _ _).trans hexited⟩
  | _ =>
    obtain rfl := heffect
    exact hi

end Steps

/-- The contract. -/
def contract : Contract system where
  Local := Unit
  inv := Inv
  rely := Rely
  before := fun t o _ w => Before t o w
  guar := fun t o w _ w' _ => Before t o w ∧ ∃ c r, Worker.sem t o c w = some (r, w')
  ok := fun _ _ _ _ => True
  crash := fun _ => False
  rely_refl := Rely.refl
  rely_trans := fun u _ _ _ => Rely.trans u
  rely_of_guar := fun _ _ _ _ _ _ _ htu hi hg => by
    obtain ⟨hbefore, c, r, hsem⟩ := hg
    exact rely_of_step htu hi hbefore hsem

/-! ## Specifications -/

/-- `Spec t A p Q`: thread `t` can run `p` where `A` holds, and it ends where `Q` does. -/
def Spec {α : Type} (t : WorkerThread) (A : WState → Prop) (p : WorkerProg α)
    (Q : α → WState → Prop) : Prop :=
  ∀ w, Inv w → A w →
    Safe contract t (fun a _ w => Q a w) (fun _ _ _ => False) p () w

/-- The other threads do not falsify `A`. -/
def Stable (t : WorkerThread) (A : WState → Prop) : Prop := ∀ w w', Rely t w w' → A w → A w'

section Rules

variable {α β : Type} {t : WorkerThread} {A B : WState → Prop} {Q : α → WState → Prop}

theorem spec_pure {a : α} (h : Stable t A) (hpost : ∀ w, A w → Q a w) :
    Spec t A (pure a) Q :=
  fun w _ hpre w' hr _ => hpost w' (h w w' hr hpre)

theorem Spec.bind {p : WorkerProg α} {f : α → WorkerProg β} {R : β → WState → Prop}
    (hp : Spec t A p Q) (hf : ∀ a, Spec t (Q a) (f a) R) :
    Spec t A (p >>= f) R :=
  fun w hi hpre => Safe.bind hi (hp w hi hpre) (fun a _ w₁ hi₁ hpost => hf a w₁ hi₁ hpost)

theorem Spec.weaken {p : WorkerProg α} {R : α → WState → Prop} (hp : Spec t A p Q)
    (hpre : ∀ w, Inv w → B w → A w) (hpost : ∀ a w, Inv w → Q a w → R a w) :
    Spec t B p R :=
  fun w hi h => (hp w hi (hpre w hi h)).weaken (fun a _ w₁ hi₁ => hpost a w₁ hi₁)
    (fun _ _ _ _ h => h)

theorem spec_when {b : Bool} {p : WorkerProg Unit} {Q : Unit → WState → Prop}
    (hfalse : b = false → Spec t A (pure ()) Q) (htrue : b = true → Spec t A p Q) :
    Spec t A (Prog.when b p) Q := by
  cases b with
  | true => exact htrue rfl
  | false => exact hfalse rfl

/-- **Rule for one operation.** -/
theorem spec_op {o : WorkerOp} {Q : o.Res → WState → Prop} (hpre : Stable t A)
    (hpost : ∀ r, Stable t (Q r)) (hbefore : ∀ w, Inv w → A w → Before t o w)
    (hnext : ∀ w c r w', Inv w → A w → Worker.sem t o c w = some (r, w') → Q r w') :
    Spec t A o.perform Q := by
  intro w _ hw w₁ hr hi₁
  have hw₁ := hpre w w₁ hr hw
  refine ⟨hbefore w₁ hi₁ hw₁, fun c r w₂ _ hsem => ?_⟩
  have hb := hbefore w₁ hi₁ hw₁
  refine ⟨(), ⟨hb, c, r, hsem⟩, inv_of_step hi₁ hb hsem, fun w₃ hr₃ _ => ?_⟩
  exact hpost r w₂ w₃ hr₃ (hnext w₁ c r w₂ hi₁ hw₁ hsem)

theorem spec_statusIs {s : StatusWorker} {Q : Bool → WState → Prop} (hpre : Stable t A)
    (hpost : ∀ b, Stable t (Q b)) (h : ∀ w, Inv w → A w → Q (w.status == s) w) :
    Spec t A (statusIs s) Q := by
  refine Spec.bind (spec_op (Q := fun r w => Q (r == s) w) hpre (fun _ => hpost _)
    (fun _ _ _ => trivial) (fun w c r w' hi hw hsem => ?_)) (fun r => spec_pure (hpost _) (fun _ => id))
  obtain ⟨rfl, rfl⟩ := Prod.mk.inj (Option.some.inj hsem)
  exact h w hi hw

theorem spec_changeStatusWorker {s : StatusWorker} {Q : Unit → WState → Prop}
    (hpre : Stable t A) (hpost : Stable t (Q ()))
    (hbefore : ∀ w, Inv w → A w → Before t (.setStatus s) w)
    (hnext : ∀ w, Inv w → A w → Q () { w with status := s }) :
    Spec t A (changeStatusWorker s) Q := by
  refine Spec.bind (Q := fun same w => if same then Q () w else A w)
    (spec_statusIs hpre (fun b => ?_) (fun w hi hw => ?_)) (fun same => spec_when ?_ ?_)
  · cases b with
    | true => exact hpost
    | false => exact hpre
  · by_cases hs : w.status = s
    · subst hs
      rw [beq_self_eq_true]
      exact hnext w hi hw
    · rw [beq_false_of_ne hs]
      exact hw
  · intro hsame
    obtain rfl : same = true := by simpa using hsame
    exact spec_pure hpost (fun _ => id)
  · intro hsame
    obtain rfl : same = false := by simpa using hsame
    refine spec_op hpre (fun _ => hpost) hbefore (fun w c r w' hi hw hsem => ?_)
    obtain rfl := (Prod.mk.inj (Option.some.inj hsem)).2
    exact hnext w hi hw

theorem spec_lock {Q : Unit → WState → Prop} (hpre : Stable t A) (hpost : Stable t (Q ()))
    (halive : ∀ w, A w → ∀ n, t = .worker n → Alive n w)
    (hnext : ∀ w, Inv w → A w → w.mutex = none → Q () { w with mutex := some t }) :
    Spec t A WorkerOp.lock.perform Q := by
  refine spec_op hpre (fun _ => hpost) (fun w _ => halive w) (fun w c r w' hi hw hsem => ?_)
  obtain ⟨hfree, rfl⟩ := Worker.effect_of_sem hsem
  exact hnext w hi hw hfree

theorem spec_unlock {Q : Unit → WState → Prop} (hpre : Stable t A)
    (hpost : Stable t (Q ()))
    (hbefore : ∀ w, Inv w → A w → w.mutex = some t ∧ Settled w.queue)
    (hnext : ∀ w, A w → Q () { w with mutex := none }) :
    Spec t A WorkerOp.unlock.perform Q := by
  refine spec_op hpre (fun _ => hpost) hbefore (fun w c r w' hi hw hsem => ?_)
  obtain rfl := (Prod.mk.inj (Option.some.inj hsem)).2
  exact hnext w hw

end Rules

/-- The thread does not hold the mutex. -/
def Free (t : WorkerThread) (w : WState) : Prop := w.mutex ≠ some t

theorem stable_free (t : WorkerThread) : Stable t (Free t) := fun _ _ hr h => hr.away h

theorem free_none (t : WorkerThread) (w : WState) : Free t { w with mutex := none } := nofun

theorem user_ne_worker (n : Nat) : ∀ m, WorkerThread.user n ≠ .worker m := nofun

theorem control_ne_worker : ∀ m, WorkerThread.control ≠ .worker m := nofun

/-- The queue is settled while a thread other than the worker's holds the mutex. -/
theorem settled_of_holds {t : WorkerThread} {w : WState} (hi : Inv w) (ht : ∀ n, t ≠ .worker n)
    (hmutex : w.mutex = some t) : Settled w.queue :=
  hi.settled (fun n hn => ht n (Option.some.inj (hmutex.symm.trans hn)))

/-! ### The users -/

/-- A user holds the mutex and has seen the status; `stopped` and `flushed` are what it
saw. -/
def UserSaw (n : Nat) (stopped flushed : Bool) (w : WState) : Prop :=
  w.mutex = some (.user n) ∧ (stopped = false → w.status ≠ .Stop) ∧
    (stopped = false → flushed = false → w.status ≠ .Flush)

/-- Having just locked the mutex, it has seen nothing. -/
theorem userSaw_locked (n : Nat) (w : WState) :
    UserSaw n true true { w with mutex := some (.user n) } :=
  ⟨rfl, fun h => Bool.noConfusion h, fun h => Bool.noConfusion h⟩

theorem stable_userSaw (n : Nat) (stopped flushed : Bool) :
    Stable (.user n) (UserSaw n stopped flushed) := by
  intro w w' hr ⟨hmutex, hstop, hflush⟩
  have hsame : stopped = false → w'.status = w.status :=
    fun h => hr.status hmutex (.inl (hstop h))
  refine ⟨(hr.holds hmutex).1, fun h => ?_, fun h h' => ?_⟩
  · rw [hsame h]
    exact hstop h
  · rw [hsame h]
    exact hflush h h'

theorem spec_addTask (n : Nat) : Spec (.user n) (Free (.user n)) addTask
    (fun _ => Free (.user n)) := by
  have hunlock : ∀ stopped flushed, Spec (.user n) (UserSaw n stopped flushed)
      WorkerOp.unlock.perform (fun _ => Free (.user n)) := fun stopped flushed =>
    spec_unlock (stable_userSaw n stopped flushed) (stable_free _)
      (fun w hi hw => ⟨hw.1, settled_of_holds hi (user_ne_worker n) hw.1⟩) (fun w _ => free_none _ w)
  unfold addTask
  refine Spec.bind (spec_lock (Q := fun _ => UserSaw n true true) (stable_free _)
    (stable_userSaw _ _ _) (fun _ _ m h => absurd h (user_ne_worker n m))
    (fun w _ _ _ => userSaw_locked n w)) (fun _ => ?_)
  refine Spec.bind (spec_statusIs (Q := fun b => UserSaw n b true) (stable_userSaw _ _ _)
    (fun b => stable_userSaw _ _ _)
    (fun w _ hw => ⟨hw.1, fun h => ?_, fun _ h => Bool.noConfusion h⟩)) (fun stopped => ?_)
  · exact fun h' => by rw [h', beq_self_eq_true] at h; cases h
  refine Spec.bind (spec_statusIs (Q := fun b => UserSaw n stopped b) (stable_userSaw _ _ _)
    (fun b => stable_userSaw _ _ _)
    (fun w _ hw => ⟨hw.1, hw.2.1, fun _ h => ?_⟩)) (fun flushed => ?_)
  · exact fun h' => by rw [h', beq_self_eq_true] at h; cases h
  refine Spec.bind (spec_when (fun _ => spec_pure (stable_userSaw _ _ _) (fun _ => id))
    (fun hpush => ?_)) (fun _ => hunlock stopped flushed)
  have hsaw : stopped = false ∧ flushed = false := by simpa using hpush
  refine spec_op (stable_userSaw _ _ _) (fun _ => stable_userSaw _ _ _) (fun w hi hw => ?_)
    (fun w c r w' hi hw hsem => ?_)
  · exact ⟨hw.1, nofun, hw.2.2 hsaw.1 hsaw.2⟩
  · obtain rfl := (Prod.mk.inj (Option.some.inj hsem)).2
    exact hw

/-- A function that locks, looks and unlocks. -/
theorem spec_look {o : WorkerOp} (n : Nat)
    (hbefore : ∀ w, w.mutex = some (WorkerThread.user n) → Before (.user n) o w)
    (hsame : ∀ c w r w', Worker.sem (WorkerThread.user n) o c w = some (r, w') → w' = w) :
    Spec (.user n) (Free (.user n)) (do
      WorkerOp.lock.perform
      let r ← o.perform
      WorkerOp.unlock.perform
      return r) (fun _ => Free (.user n)) := by
  refine Spec.bind (spec_lock (Q := fun _ => UserSaw n true true) (stable_free _)
    (stable_userSaw _ _ _) (fun _ _ m h => absurd h (user_ne_worker n m))
    (fun w _ _ _ => userSaw_locked n w)) (fun _ => ?_)
  refine Spec.bind (spec_op (Q := fun _ => UserSaw n true true) (stable_userSaw _ _ _)
    (fun _ => stable_userSaw _ _ _) (fun w _ hw => hbefore w hw.1)
    (fun w c r w' _ hw hsem => ?_)) (fun r => ?_)
  · rw [hsame c w r w' hsem]
    exact hw
  refine Spec.bind (spec_unlock (Q := fun _ => Free (.user n)) (stable_userSaw _ _ _)
    (stable_free _) (fun w hi hw => ⟨hw.1, settled_of_holds hi (user_ne_worker n) hw.1⟩)
    (fun w _ => free_none _ w)) (fun _ => ?_)
  exact spec_pure (stable_free _) (fun _ => id)

theorem spec_getSizeQueue (n : Nat) : Spec (.user n) (Free (.user n)) getSizeQueue
    (fun _ => Free (.user n)) :=
  spec_look n (fun _ h => ⟨h, nofun⟩) (fun _ _ _ _ h => (Prod.mk.inj (Option.some.inj h)).2.symm)

theorem spec_getStatusWorker (n : Nat) : Spec (.user n) (Free (.user n)) getStatusWorker
    (fun _ => Free (.user n)) :=
  spec_look n (fun _ _ => trivial) (fun _ _ _ _ h => (Prod.mk.inj (Option.some.inj h)).2.symm)

/-! ### The controlling thread -/

/-- What the controlling thread knows between its calls: a worker that has been stopped or
flushed has no thread, and one that has been flushed has no tasks. -/
structure Idle (w : WState) : Prop where
  thread : w.status = .Stop ∨ w.status = .Flush → w.thread = none
  drained : w.status = .Flush → w.queue.tasks = []

theorem stable_idle : Stable .control Idle := by
  intro w w' hr h
  refine ⟨fun hs => ?_, fun hs => ?_⟩
  · rw [hr.thread rfl]
    exact h.thread (hs.imp (hr.stopped rfl).mp (hr.flushed rfl).mp)
  · have hflush := (hr.flushed rfl).mp hs
    exact hr.drained rfl hflush (h.drained hflush)

/-- The controlling thread holds the mutex or not, and `A` holds besides. -/
def Has (A : WState → Prop) (w : WState) : Prop := w.mutex = some .control ∧ A w

def Hasnt (A : WState → Prop) (w : WState) : Prop := w.mutex ≠ some .control ∧ A w

section Control

variable {A B : WState → Prop}

theorem Stable.has (h : Stable .control A) : Stable .control (Has A) :=
  fun w w' hr hw => ⟨(hr.holds hw.1).1, h w w' hr hw.2⟩

theorem Stable.hasnt (h : Stable .control A) : Stable .control (Hasnt A) :=
  fun w w' hr hw => ⟨hr.away hw.1, h w w' hr hw.2⟩

theorem Stable.and {t : WorkerThread} (hA : Stable t A) (hB : Stable t B) :
    Stable t (fun w => A w ∧ B w) :=
  fun w w' hr hw => ⟨hA w w' hr hw.1, hB w w' hr hw.2⟩

theorem Stable.of_imp {t : WorkerThread} {p : Prop} (hA : p → Stable t A) :
    Stable t (fun w => p → A w) :=
  fun w w' hr hw hp => hA hp w w' hr (hw hp)

theorem stable_isStopped : Stable .control (fun w => w.status = .Stop) :=
  fun _ _ hr h => (hr.stopped rfl).mpr h

theorem stable_notStopped : Stable .control (fun w => w.status ≠ .Stop) :=
  fun _ _ hr h h' => h ((hr.stopped rfl).mp h')

theorem stable_isFlushed : Stable .control (fun w => w.status = .Flush) :=
  fun _ _ hr h => (hr.flushed rfl).mpr h

theorem stable_notFlushed : Stable .control (fun w => w.status ≠ .Flush) :=
  fun _ _ hr h h' => h ((hr.flushed rfl).mp h')

theorem stable_noThread : Stable .control (fun w => w.thread = none) :=
  fun _ _ hr h => (hr.thread rfl).trans h

/-- The mutex is taken, and nothing else changes. -/
theorem spec_control_lock (hA : Stable .control A)
    (hframe : ∀ w m, A w → A { w with mutex := m }) :
    Spec .control (Hasnt A) WorkerOp.lock.perform (fun _ => Has A) :=
  spec_lock hA.hasnt hA.has (fun _ _ m h => absurd h (control_ne_worker m))
    (fun w _ hw _ => ⟨rfl, hframe w _ hw.2⟩)

/-- The mutex is given up, and nothing else changes. -/
theorem spec_control_unlock (hA : Stable .control A)
    (hframe : ∀ w m, A w → A { w with mutex := m }) :
    Spec .control (Has A) WorkerOp.unlock.perform (fun _ => Hasnt A) :=
  spec_unlock hA.has hA.hasnt (fun _ hi hw => ⟨hw.1, settled_of_holds hi control_ne_worker hw.1⟩)
    (fun w hw => ⟨nofun, hframe w _ hw.2⟩)

/-- `joinThread` leaves the worker without a thread. -/
theorem spec_joinThread (hA : Stable .control A)
    (hframe : ∀ w, A w → A { w with thread := none }) :
    Spec .control (Hasnt A) joinThread (fun _ => Hasnt (fun w => A w ∧ w.thread = none)) := by
  refine Spec.bind (spec_op (Q := fun b => Hasnt (fun w => A w ∧ (b = false → w.thread = none)))
    hA.hasnt (fun b => (hA.and (Stable.of_imp (fun _ => stable_noThread))).hasnt)
    (fun _ _ _ => trivial) (fun w c r w' _ hw hsem => ?_)) (fun b => spec_when ?_ ?_)
  · obtain ⟨rfl, rfl⟩ := Prod.mk.inj (Option.some.inj hsem)
    exact ⟨hw.1, hw.2, fun h => by simpa using h⟩
  · rintro rfl
    exact spec_pure (hA.and (Stable.of_imp (fun _ => stable_noThread))).hasnt
      (fun w hw => ⟨hw.1, hw.2.1, hw.2.2 rfl⟩)
  · rintro rfl
    refine spec_op (hA.and (Stable.of_imp (fun _ => stable_noThread))).hasnt
      (fun _ => (hA.and stable_noThread).hasnt) (fun _ _ _ => rfl) (fun w c r w' _ hw hsem => ?_)
    obtain ⟨n, -, -, rfl⟩ := Worker.effect_of_sem hsem
    exact ⟨hw.1, hframe w hw.2.1, rfl⟩

end Control

theorem spec_start : Spec .control (Hasnt Idle) start (fun _ => Hasnt Idle) := by
  have hstopped : Stable .control (Hasnt (fun w => w.status = .Stop ∧ w.thread = none)) :=
    (stable_isStopped.and stable_noThread).hasnt
  have hstarting : Stable .control
      (Hasnt (fun w => (w.status ≠ .Stop ∧ w.status ≠ .Flush) ∧ w.thread = none)) :=
    ((stable_notStopped.and stable_notFlushed).and stable_noThread).hasnt
  unfold start
  refine Spec.bind (spec_statusIs (Q := fun b => Hasnt (fun w =>
      Idle w ∧ (b = true → w.status = .Stop ∧ w.thread = none))) stable_idle.hasnt
    (fun b => (stable_idle.and (Stable.of_imp
      (fun _ => stable_isStopped.and stable_noThread))).hasnt)
    (fun w _ hw => ⟨hw.1, hw.2, fun h => ?_⟩)) (fun b => spec_when (fun _ => ?_) (fun hb => ?_))
  · have hstop : w.status = .Stop := by simpa using h
    exact ⟨hstop, hw.2.thread (.inl hstop)⟩
  · exact spec_pure (stable_idle.and (Stable.of_imp
      (fun _ => stable_isStopped.and stable_noThread))).hasnt (fun w hw => ⟨hw.1, hw.2.1⟩)
  · have hpre := (spec_changeStatusWorker (s := .Wait) (Q := fun _ => Hasnt (fun w =>
      (w.status ≠ .Stop ∧ w.status ≠ .Flush) ∧ w.thread = none)) hstopped hstarting
      (fun w _ hw => .inl ⟨rfl, rfl, hw.2.1, hw.2.2⟩)
      (fun w _ hw => ⟨hw.1, ⟨nofun, nofun⟩, hw.2.2⟩))
    refine (Spec.bind hpre (fun _ => ?_)).weaken (fun w _ hw => ⟨hw.1, hw.2.2 hb⟩)
      (fun _ _ _ h => h)
    refine spec_op hstarting (fun _ => stable_idle.hasnt) (fun w _ hw => ⟨rfl, hw.2.2⟩)
      (fun w c r w' _ hw hsem => ?_)
    obtain rfl := (Prod.mk.inj (Option.some.inj hsem)).2
    obtain ⟨hstop, hflush⟩ := hw.2.1
    exact ⟨hw.1, ⟨fun h => h.elim (absurd · hstop) (absurd · hflush), fun h => absurd h hflush⟩⟩

/-- The status is stored under the mutex, whatever it is. -/
theorem spec_control_changeStatus {s : StatusWorker} {A B : WState → Prop}
    (hA : Stable .control A) (hB : Stable .control B)
    (hframe : ∀ w, A w → B { w with status := s }) :
    Spec .control (Has A) (changeStatusWorker s) (fun _ => Has B) :=
  spec_changeStatusWorker hA.has hB.has (fun _ _ hw => .inr ⟨hw.1, .inl rfl⟩)
    (fun w _ hw => ⟨hw.1, hframe w hw.2⟩)

theorem spec_stop (clearQueue : Bool) :
    Spec .control (Hasnt Idle) (stop clearQueue) (fun _ => Hasnt Idle) := by
  have hidle : ∀ w m, Idle w → Idle { w with mutex := m } := fun _ _ h => ⟨h.thread, h.drained⟩
  unfold stop
  refine Spec.bind (spec_control_lock stable_idle hidle) (fun _ => ?_)
  refine Spec.bind (spec_statusIs (Q := fun _ => Has Idle) stable_idle.has (fun _ => stable_idle.has)
    (fun _ _ hw => hw)) (fun stopped => ?_)
  split
  · exact spec_control_unlock stable_idle hidle
  refine Spec.bind (spec_control_changeStatus stable_idle stable_isStopped (fun _ _ => rfl))
    (fun _ => ?_)
  refine Spec.bind (Q := fun _ => Has (fun w => w.status = .Stop)) (spec_when
    (fun _ => spec_pure stable_isStopped.has (fun _ => id)) (fun _ => ?_)) (fun _ => ?_)
  · refine spec_op stable_isStopped.has (fun _ => stable_isStopped.has)
      (fun w _ hw => ⟨hw.1, control_ne_worker⟩) (fun w c r w' _ hw hsem => ?_)
    obtain rfl := (Prod.mk.inj (Option.some.inj hsem)).2
    exact hw
  refine Spec.bind (spec_control_unlock stable_isStopped (fun _ _ h => h)) (fun _ => ?_)
  refine (spec_joinThread stable_isStopped (fun _ h => h)).weaken (fun _ _ h => h)
    (fun _ w _ hw => ⟨hw.1, ?_, fun hflush => ?_⟩)
  · exact fun _ => hw.2.2
  · exact absurd (hw.2.1.symm.trans hflush) (by decide)

/-- What a finished `flush` leaves. -/
def Flushed (w : WState) : Prop :=
  w.status = .Flush ∧ w.thread = none ∧ w.queue.tasks = []

theorem stable_drained : Stable .control (fun w => w.status = .Flush ∧ w.queue.tasks = []) :=
  fun _ _ hr h => ⟨(hr.flushed rfl).mpr h.1, hr.drained rfl h.1 h.2⟩

theorem stable_flushed : Stable .control Flushed := by
  intro w w' hr ⟨hflush, hthread, hempty⟩
  obtain ⟨hflush', hempty'⟩ := stable_drained w w' hr ⟨hflush, hempty⟩
  exact ⟨hflush', stable_noThread w w' hr hthread, hempty'⟩

theorem Flushed.idle {w : WState} (h : Flushed w) : Idle w := ⟨fun _ => h.2.1, fun _ => h.2.2⟩

/-- The wait in `flush`: it ends with the queue empty. -/
theorem spec_waitEmpty : Spec .control (Has (fun w => w.status = .Flush)) (do
    let empty ← WorkerOp.isEmpty.perform
    Prog.when (!empty) (do
      WorkerOp.unlock.perform
      WorkerOp.wakeEmpty.perform))
    (fun _ => Has (fun w => w.status = .Flush ∧ w.queue.tasks = [])) := by
  have hseen : ∀ b : Bool, Stable .control (Has (fun w =>
      w.status = .Flush ∧ (b = true → w.status = .Flush ∧ w.queue.tasks = []))) :=
    fun b => (stable_isFlushed.and (Stable.of_imp (fun _ => stable_drained))).has
  refine Spec.bind (spec_op (Q := fun b => Has (fun w =>
      w.status = .Flush ∧ (b = true → w.status = .Flush ∧ w.queue.tasks = [])))
    stable_isFlushed.has hseen (fun _ _ _ => trivial) (fun w c r w' _ hw hsem => ?_))
    (fun b => spec_when (fun hb => ?_) (fun _ => ?_))
  · obtain ⟨rfl, rfl⟩ := Prod.mk.inj (Option.some.inj hsem)
    exact ⟨hw.1, hw.2, fun h => ⟨hw.2, List.isEmpty_iff.mp h⟩⟩
  · have hempty : b = true := by simpa using hb
    exact spec_pure (hseen b) (fun w hw => ⟨hw.1, hw.2.2 hempty⟩)
  · refine Spec.bind ((spec_control_unlock stable_isFlushed (fun _ _ h => h)).weaken
      (fun w _ hw => ⟨hw.1, hw.2.1⟩) (fun _ _ _ h => h)) (fun _ => ?_)
    refine spec_op stable_isFlushed.hasnt (fun _ => stable_drained.has)
      (fun _ _ _ m h => absurd h (control_ne_worker m)) (fun w c r w' _ hw hsem => ?_)
    obtain ⟨-, hempty, rfl⟩ := Worker.effect_of_sem hsem
    exact ⟨rfl, hw.2, hempty⟩

theorem spec_flush : Spec .control (Hasnt Idle) flush (fun _ => Hasnt Flushed) := by
  have hidle : ∀ w m, Idle w → Idle { w with mutex := m } := fun _ _ h => ⟨h.thread, h.drained⟩
  have hseen : ∀ b : Bool, Stable .control (Has (fun w => Idle w ∧ (b = true → Flushed w))) :=
    fun b => (stable_idle.and (Stable.of_imp (fun _ => stable_flushed))).has
  unfold flush
  refine Spec.bind (spec_control_lock stable_idle hidle) (fun _ => ?_)
  refine Spec.bind (spec_statusIs (Q := fun b => Has (fun w => Idle w ∧ (b = true → Flushed w)))
    stable_idle.has hseen (fun w _ hw => ⟨hw.1, hw.2, fun h => ?_⟩)) (fun flushed => ?_)
  · have hflush : w.status = .Flush := by simpa using h
    exact ⟨hflush, hw.2.thread (.inr hflush), hw.2.drained hflush⟩
  split
  · next hflushed =>
    exact (spec_control_unlock stable_flushed (fun _ _ h => h)).weaken
      (fun w _ hw => ⟨hw.1, hw.2.2 hflushed⟩) (fun _ _ _ h => h)
  refine Spec.bind ((spec_control_changeStatus stable_idle stable_isFlushed (fun _ _ => rfl)).weaken
    (fun w _ hw => ⟨hw.1, hw.2.1⟩) (fun _ _ _ h => h)) (fun _ => ?_)
  refine Spec.bind (spec_control_unlock stable_isFlushed (fun _ _ h => h)) (fun _ => ?_)
  refine Spec.bind (spec_control_lock stable_isFlushed (fun _ _ h => h)) (fun _ => ?_)
  have hrest : Spec .control (Has (fun w => w.status = .Flush ∧ w.queue.tasks = [])) (do
      WorkerOp.unlock.perform
      joinThread) (fun _ => Hasnt Flushed) := by
    refine Spec.bind (spec_control_unlock stable_drained (fun _ _ h => h)) (fun _ => ?_)
    exact (spec_joinThread stable_drained (fun _ h => h)).weaken (fun _ _ h => h)
      (fun _ w _ hw => ⟨hw.1, hw.2.1.1, hw.2.2, hw.2.1.2⟩)
  have := Spec.bind spec_waitEmpty (fun _ => hrest)
  rwa [bind_assoc] at this

/-! ### The worker's thread -/

/-- Thread `n` of the worker lives, and does not hold the mutex. -/
def Outside (n : Nat) (w : WState) : Prop := Alive n w ∧ w.mutex ≠ some (.worker n)

/-- Thread `n` of the worker lives and holds the mutex, with the queue and the status as
`A` says. -/
def Inside (n : Nat) (A : TaskQueue → StatusWorker → Prop) (w : WState) : Prop :=
  Alive n w ∧ w.mutex = some (.worker n) ∧ A w.queue w.status

theorem stable_outside (n : Nat) : Stable (.worker n) (Outside n) :=
  fun _ _ hr h => ⟨h.1.mono hr, hr.away h.2⟩

/-- While the worker's thread has the mutex, nothing changes under it. -/
theorem stable_inside (n : Nat) (A : TaskQueue → StatusWorker → Prop) :
    Stable (.worker n) (Inside n A) := by
  intro w w' hr ⟨halive, hmutex, hA⟩
  obtain ⟨hmutex', hqueue⟩ := hr.holds hmutex
  refine ⟨halive.mono hr, hmutex', ?_⟩
  rw [hqueue, hr.status hmutex (.inr (.inr ⟨n, rfl, halive⟩))]
  exact hA

section WorkerRules

variable {n : Nat} {A : TaskQueue → StatusWorker → Prop}

/-- The mutex is taken, or taken back: the queue is settled. -/
theorem spec_worker_lock :
    Spec (.worker n) (Outside n) WorkerOp.lock.perform
      (fun _ => Inside n (fun q _ => Settled q)) :=
  spec_lock (stable_outside n) (stable_inside n _)
    (fun _ hw m h => by obtain rfl := WorkerThread.worker.inj h; exact hw.1)
    (fun w hi hw hfree => ⟨hw.1, rfl, hi.settled_of_free hfree⟩)

theorem spec_worker_unlock (hA : ∀ q s, A q s → Settled q) :
    Spec (.worker n) (Inside n A) WorkerOp.unlock.perform (fun _ => Outside n) :=
  spec_unlock (stable_inside n A) (stable_outside n) (fun _ _ hw => ⟨hw.2.1, hA _ _ hw.2.2⟩)
    (fun _ hw => ⟨hw.1, nofun⟩)

/-- The worker's thread looks at the status. -/
theorem spec_worker_statusIs (s : StatusWorker) :
    Spec (.worker n) (Inside n A) (statusIs s)
      (fun b => Inside n (fun q st => A q st ∧ b = (st == s))) :=
  spec_statusIs (stable_inside n A) (fun _ => stable_inside n _)
    (fun _ _ hw => ⟨hw.1, hw.2.1, hw.2.2, rfl⟩)

/-- It looks whether the queue is empty. -/
theorem spec_worker_isEmpty :
    Spec (.worker n) (Inside n A) WorkerOp.isEmpty.perform
      (fun b => Inside n (fun q st => A q st ∧ b = q.tasks.isEmpty)) := by
  refine spec_op (stable_inside n A) (fun _ => stable_inside n _) (fun _ _ _ => trivial)
    (fun w c r w' _ hw hsem => ?_)
  obtain ⟨rfl, rfl⟩ := Prod.mk.inj (Option.some.inj hsem)
  exact ⟨hw.1, hw.2.1, hw.2.2, rfl⟩

/-- It changes the status, between `Wait` and `Work` only. -/
theorem spec_worker_changeStatus {s : StatusWorker}
    (hA : ∀ q st, A q st → st ≠ .Stop ∧ st ≠ .Flush) (hs : s ≠ .Stop ∧ s ≠ .Flush) :
    Spec (.worker n) (Inside n A) (changeStatusWorker s)
      (fun _ => Inside n (fun q st => (∃ st₀, A q st₀) ∧ st = s)) := by
  refine spec_changeStatusWorker (stable_inside n A) (stable_inside n _) (fun w _ hw => ?_)
    (fun w _ hw => ⟨hw.1, hw.2.1, ⟨_, hw.2.2⟩, rfl⟩)
  obtain ⟨hstop, hflush⟩ := hA _ _ hw.2.2
  exact .inr ⟨hw.2.1, .inr ⟨hstop, hflush, hs.1, hs.2⟩⟩

theorem spec_waitFor :
    Spec (.worker n) (Inside n (fun q _ => Settled q)) waitFor (fun success =>
      Inside n (fun q st => Settled q ∧
        (success = true → q.tasks ≠ [] ∨ st = .Stop ∨ st = .Flush))) := by
  have hready : ∀ w : WState, w.workReady = true →
      w.queue.tasks ≠ [] ∨ w.status = .Stop ∨ w.status = .Flush := by
    intro w h
    simpa [WorkerState.workReady, or_assoc] using h
  unfold waitFor
  refine Spec.bind (spec_op (Q := fun ready => Inside n (fun q st => Settled q ∧
      (ready = true → q.tasks ≠ [] ∨ st = .Stop ∨ st = .Flush))) (stable_inside n _)
    (fun _ => stable_inside n _) (fun _ _ _ => trivial) (fun w c r w' _ hw hsem => ?_))
    (fun ready => ?_)
  · obtain ⟨rfl, rfl⟩ := Prod.mk.inj (Option.some.inj hsem)
    exact ⟨hw.1, hw.2.1, hw.2.2, hready w⟩
  split
  · next h =>
    exact spec_pure (stable_inside n _) (fun w hw => ⟨hw.1, hw.2.1, hw.2.2.1, fun _ => hw.2.2.2 h⟩)
  refine Spec.bind (spec_worker_unlock (fun _ _ h => h.1)) (fun _ => ?_)
  refine spec_op (stable_outside n) (fun _ => stable_inside n _)
    (fun _ _ hw m h => by obtain rfl := WorkerThread.worker.inj h; exact hw.1)
    (fun w c r w' hi hw hsem => ?_)
  simp only [Worker.sem, Option.ite_none_right_eq_some, Option.some.injEq, Prod.mk.injEq,
    Option.isNone_iff_eq_none] at hsem
  obtain ⟨hfree, rfl, rfl⟩ := hsem
  exact ⟨hw.1, rfl, hi.settled_of_free hfree, hready w⟩

/-- The front is there to be taken. -/
theorem spec_takeFront :
    Spec (.worker n) (Inside n (fun q st => Settled q ∧ q.tasks ≠ [] ∧ st ≠ .Stop))
      WorkerOp.takeFront.perform (fun front => Inside n (fun q st =>
        ∃ task, front = some task ∧ Taken task q ∧ st ≠ .Stop)) := by
  refine spec_op (stable_inside n _) (fun _ => stable_inside n _)
    (fun w _ hw => ⟨hw.2.1, n, rfl⟩) (fun w c r w' _ hw hsem => ?_)
  obtain ⟨halive, hmutex, hsettled, hne, hstop⟩ := hw
  cases htasks : w.queue.tasks with
  | nil => exact absurd htasks hne
  | cons task rest =>
    simp only [Worker.sem, htasks, Option.some.injEq, Prod.mk.injEq] at hsem
    obtain ⟨rfl, rfl⟩ := hsem
    exact ⟨halive, hmutex, task, rfl, hsettled.take htasks, hstop⟩

end WorkerRules

/-- Where the worker's thread is behind the top of its loop. -/
def Arrived (n : Nat) : Next → WState → Prop
  | .task task => Inside n (fun q st => Taken task q ∧ st ≠ .Stop)
  | _ => Outside n

/-- With a task in the queue it is taken, and the status is `Work` unless the worker is
being flushed. -/
theorem spec_take (n : Nat) (empty : Bool) :
    Spec (.worker n) (Inside n (fun q st => Settled q ∧ q.tasks ≠ [] ∧ st ≠ .Stop)) (do
      let flushed ← statusIs .Flush
      Prog.when (!empty && !flushed) (changeStatusWorker .Work)
      match ← WorkerOp.takeFront.perform with
      | none => Prog.crash
      | some task => return .task task : WorkerProg Next) (Arrived n) := by
  refine Spec.bind (spec_worker_statusIs .Flush) (fun flushed => ?_)
  refine Spec.bind (Q := fun _ => Inside n (fun q st => Settled q ∧ q.tasks ≠ [] ∧ st ≠ .Stop))
    (spec_when (fun _ => ?_) (fun hwork => ?_)) (fun _ => ?_)
  · exact spec_pure (stable_inside n _) (fun w hw => ⟨hw.1, hw.2.1, hw.2.2.1⟩)
  · have hflushed : flushed = false := by
      simp only [Bool.and_eq_true, Bool.not_eq_true'] at hwork
      exact hwork.2
    refine (spec_worker_changeStatus (s := .Work) (A := fun q st =>
      (Settled q ∧ q.tasks ≠ [] ∧ st ≠ .Stop) ∧ flushed = (st == .Flush))
      (fun q st h => ⟨h.1.2.2, fun hst => ?_⟩) ⟨nofun, nofun⟩).weaken (fun _ _ h => h)
      (fun _ w _ hw => ?_)
    · rw [hflushed, hst] at h
      exact absurd h.2 (by decide)
    · obtain ⟨halive, hmutex, ⟨st, ⟨hsettled, hne, -⟩, -⟩, hst⟩ := hw
      exact ⟨halive, hmutex, hsettled, hne, by rw [hst]; decide⟩
  refine Spec.bind spec_takeFront (fun front => ?_)
  cases front with
  | none =>
    intro w _ hw
    obtain ⟨-, -, task, hnone, -⟩ := hw
    cases hnone
  | some task =>
    refine spec_pure (stable_inside n _) (fun w hw => ?_)
    obtain ⟨halive, hmutex, task', hsome, htaken, hstop⟩ := hw
    obtain rfl := Option.some.inj hsome
    exact ⟨halive, hmutex, htaken, hstop⟩

/-- From the top of the loop to the task: `tasks.front()` finds one. -/
theorem spec_nextTask (n : Nat) : Spec (.worker n) (Outside n) nextTask (Arrived n) := by
  unfold nextTask
  refine Spec.bind (spec_statusIs (Q := fun _ => Outside n) (stable_outside n)
    (fun _ => stable_outside n) (fun _ _ hw => hw)) (fun stopped => ?_)
  split
  · exact spec_pure (stable_outside n) (fun _ => id)
  refine Spec.bind spec_worker_lock (fun _ => ?_)
  refine Spec.bind spec_waitFor (fun success => ?_)
  refine Spec.bind (spec_worker_statusIs .Stop) (fun stopped => ?_)
  split
  · refine Spec.bind (spec_worker_unlock (fun _ _ h => h.1.1)) (fun _ => ?_)
    cases stopped with
    | true => exact spec_pure (stable_outside n) (fun _ => id)
    | false => exact spec_pure (stable_outside n) (fun _ => id)
  next hgo =>
  refine Spec.bind (spec_worker_statusIs .Flush) (fun flushed => ?_)
  refine Spec.bind spec_worker_isEmpty (fun empty => ?_)
  split
  · refine Spec.bind (spec_worker_unlock (fun _ _ h => h.1.1.1.1)) (fun _ => ?_)
    exact spec_pure (stable_outside n) (fun _ => id)
  next hsome =>
  refine (spec_take n empty).weaken (fun w _ hw => ?_) (fun _ _ _ h => h)
  -- there is a task: the wait is over, and neither by a stop nor by a finished flush
  obtain ⟨halive, hmutex, ⟨⟨⟨hsettled, hready⟩, hstopped⟩, hflushed⟩, hempty⟩ := hw
  obtain ⟨hsuccess, hrunning⟩ : success = true ∧ stopped = false := by simpa using hgo
  have hstop : w.status ≠ .Stop := by
    rw [hrunning] at hstopped
    simpa using hstopped.symm
  refine ⟨halive, hmutex, hsettled, fun hnil => ?_, hstop⟩
  rcases hready hsuccess with hne | hst | hst
  · exact hne hnil
  · exact hstop hst
  · rw [hst] at hflushed
    rw [hnil] at hempty
    exact hsome (by rw [hflushed, hempty]; rfl)

/-- Running the task, as its caller sees it. -/
theorem spec_runTask (n task : Nat) :
    Spec (.worker n) (Inside n (fun q st => Taken task q ∧ st ≠ .Stop))
      (WorkerOp.runTask task).perform (fun threw =>
        Inside n (fun q st => Ran task threw q ∧ st ≠ .Stop)) := by
  refine spec_op (stable_inside n _) (fun _ => stable_inside n _)
    (fun w _ hw => ⟨hw.2.1, ⟨n, rfl⟩, hw.2.2.1.accounts⟩) (fun w c r w' _ hw hsem => ?_)
  cases c with
  | threw b =>
    obtain ⟨rfl, rfl⟩ := Prod.mk.inj (Option.some.inj hsem)
    exact ⟨hw.1, hw.2.1, hw.2.2.1.run _, hw.2.2.2⟩
  | _ => cases hsem

/-- Behind the task: the queue is settled again before the mutex is given up. -/
theorem spec_taskEnded (n task : Nat) (threw : Bool) :
    Spec (.worker n) (Inside n (fun q st => Ran task threw q ∧ st ≠ .Stop))
      (taskEnded task threw) (fun _ => Outside n) := by
  unfold taskEnded
  refine Spec.bind (spec_op (Q := fun _ => Inside n (fun q st => Ended q ∧ st ≠ .Stop))
    (stable_inside n _) (fun _ => stable_inside n _) (fun w _ hw => ⟨hw.2.1, n, rfl⟩)
    (fun w c r w' hi hw hsem => ?_)) (fun _ => ?_)
  · obtain rfl := (Prod.mk.inj (Option.some.inj hsem)).2
    have hnodup : w.queue.accepted.Nodup := by
      rw [hi.ids]
      exact List.nodup_range
    exact ⟨hw.1, hw.2.1, hw.2.2.1.judge hnodup, hw.2.2.2⟩
  refine Spec.bind (spec_worker_statusIs .Stop) (fun stopped => ?_)
  split
  · next hstopped =>
    -- nobody can have stopped the worker while it held the mutex
    intro w _ hw
    obtain ⟨-, -, ⟨-, hstop⟩, hst⟩ := hw
    rw [hstopped] at hst
    exact absurd (by simpa using hst.symm) hstop
  refine Spec.bind (spec_op (Q := fun _ => Inside n (fun q st => Settled q ∧ st ≠ .Stop))
    (stable_inside n _) (fun _ => stable_inside n _) (fun w _ hw => ⟨hw.2.1, n, rfl⟩)
    (fun w c r w' _ hw hsem => ?_)) (fun _ => ?_)
  · obtain rfl := (Prod.mk.inj (Option.some.inj hsem)).2
    obtain ⟨halive, hmutex, ⟨hended, hstop⟩, -⟩ := hw
    exact ⟨halive, hmutex, ⟨rfl, hended.accounts, hended.judged⟩, hstop⟩
  refine Spec.bind spec_worker_isEmpty (fun empty => ?_)
  have hunlock : ∀ A : TaskQueue → StatusWorker → Prop, (∀ q s, A q s → Settled q) →
      Spec (.worker n) (Inside n A) (do
        WorkerOp.unlock.perform
        return true : WorkerProg Bool) (fun _ => Outside n) := fun A hA =>
    Spec.bind (spec_worker_unlock hA) (fun _ => spec_pure (stable_outside n) (fun _ => id))
  refine Spec.bind (Q := fun _ => Inside n (fun q _ => Settled q)) (spec_when (fun _ => ?_)
    (fun _ => ?_)) (fun _ => hunlock _ (fun _ _ h => h))
  · exact spec_pure (stable_inside n _) (fun w hw => ⟨hw.1, hw.2.1, hw.2.2.1.1⟩)
  · refine Spec.bind (spec_worker_statusIs .Flush) (fun flushed => spec_when (fun _ => ?_)
      (fun hwait => ?_))
    · exact spec_pure (stable_inside n _) (fun w hw => ⟨hw.1, hw.2.1, hw.2.2.1.1.1⟩)
    · refine (spec_worker_changeStatus (s := .Wait) (A := fun q st =>
        ((Settled q ∧ st ≠ .Stop) ∧ empty = q.tasks.isEmpty) ∧ flushed = (st == .Flush))
        (fun q st h => ⟨h.1.1.2, fun hst => ?_⟩) ⟨nofun, nofun⟩).weaken (fun _ _ h => h)
        (fun _ w _ hw => ?_)
      · have hflushed : flushed = false := by simpa using hwait
        rw [hflushed, hst] at h
        exact absurd h.2 (by decide)
      · obtain ⟨halive, hmutex, ⟨st, ⟨⟨⟨hsettled, -⟩, -⟩, -⟩⟩, -⟩ := hw
        exact ⟨halive, hmutex, hsettled⟩

/-! ## Every run -/

/-- What each thread knows at the top of its loop. -/
def Loop : WorkerThread → WorkerLabel → WState → Prop
  | .control, .control, w => Hasnt Idle w
  | .control, .flushed, w => Hasnt Flushed w
  | .worker n, .runThreadTask m, w => m = n ∧ Outside n w
  | .user n, .user, w => Free (.user n) w
  | _, _, _ => False

/-- What it knows where it jumps, or has ended. -/
def Jumps (t : WorkerThread) : Option WorkerLabel → WState → Prop
  | some l, w => Loop t l w
  | none, _ => True

theorem spec_control :
    Spec .control (Hasnt Idle) control (Jumps .control) := by
  refine Spec.bind (spec_op (Q := fun _ => Hasnt Idle) stable_idle.hasnt
    (fun _ => stable_idle.hasnt) (fun _ _ _ => trivial) (fun w c r w' _ hw hsem => ?_))
    (fun command => ?_)
  · cases c with
    | control cmd =>
      obtain rfl := (Prod.mk.inj (Option.some.inj hsem)).2
      exact hw
    | _ => cases hsem
  cases command with
  | start => exact Spec.bind spec_start (fun _ => spec_pure stable_idle.hasnt (fun _ => id))
  | stop clearQueue =>
    exact Spec.bind (spec_stop clearQueue) (fun _ => spec_pure stable_idle.hasnt (fun _ => id))
  | flush => exact Spec.bind spec_flush (fun _ => spec_pure stable_flushed.hasnt (fun _ => id))

/-- A thread of the worker that is done. -/
theorem spec_exit (n : Nat) : Spec (.worker n) (Outside n) (do
    (WorkerOp.exit n).perform
    return none : WorkerProg (Option WorkerLabel)) (Jumps (.worker n)) := by
  refine Spec.bind (spec_op (Q := fun _ _ => True) (stable_outside n) (fun _ _ _ _ => id)
    (fun w _ hw => ⟨rfl, hw.1.1, hw.2⟩) (fun _ _ _ _ _ _ _ => trivial)) (fun _ => ?_)
  exact spec_pure (fun _ _ _ => id) (fun _ => id)

theorem spec_runThreadTask (n : Nat) :
    Spec (.worker n) (Outside n) (runThreadTask n) (Jumps (.worker n)) := by
  refine Spec.bind (spec_nextTask n) (fun next => ?_)
  cases next with
  | leave => exact spec_exit n
  | again => exact spec_pure (stable_outside n) (fun w hw => ⟨rfl, hw⟩)
  | task task =>
    refine Spec.bind (spec_runTask n task) (fun threw => ?_)
    refine Spec.bind (spec_taskEnded n task threw) (fun again => ?_)
    cases again with
    | true => exact spec_pure (stable_outside n) (fun w hw => ⟨rfl, hw⟩)
    | false => exact spec_exit n

theorem spec_thread (n : Nat) :
    Spec (.worker n) (fun w => w.exited n = false ∧ Free (.worker n) w) (thread n)
      (Jumps (.worker n)) := by
  have hstable : Stable (.worker n) (fun w => w.exited n = false ∧ Free (.worker n) w) :=
    fun w w' hr hw => ⟨((hr.alive n rfl).1).trans hw.1, hr.away hw.2⟩
  refine Spec.bind (spec_op (Q := fun _ => Outside n) hstable (fun _ => stable_outside n)
    (fun _ _ _ => trivial) (fun w c r w' _ hw hsem => ?_)) (fun _ => ?_)
  · simp only [Worker.sem, Option.ite_none_right_eq_some, Option.some.injEq, Prod.mk.injEq] at hsem
    obtain ⟨hspawned, -, rfl⟩ := hsem
    exact ⟨⟨hspawned, hw.1⟩, hw.2⟩
  · exact spec_pure (stable_outside n) (fun w hw => ⟨rfl, hw⟩)

theorem spec_user (n : Nat) : Spec (.user n) (Free (.user n)) user (Jumps (.user n)) := by
  refine Spec.bind (spec_op (Q := fun _ => Free (.user n)) (stable_free _)
    (fun _ => stable_free _) (fun _ _ _ => trivial) (fun w c r w' _ hw hsem => ?_))
    (fun command => ?_)
  · cases c with
    | user cmd =>
      obtain rfl := (Prod.mk.inj (Option.some.inj hsem)).2
      exact hw
    | _ => cases hsem
  cases command with
  | addTask => exact Spec.bind (spec_addTask n) (fun _ => spec_pure (stable_free _) (fun _ => id))
  | getSizeQueue =>
    exact Spec.bind (spec_getSizeQueue n) (fun _ => spec_pure (stable_free _) (fun _ => id))
  | getStatusWorker =>
    exact Spec.bind (spec_getStatusWorker n) (fun _ => spec_pure (stable_free _) (fun _ => id))

/-- Every block keeps the contract. -/
theorem spec_block (t : WorkerThread) (l : WorkerLabel) :
    Spec t (Loop t l) (block l) (Jumps t) := by
  cases t with
  | control =>
    cases l with
    | control => exact spec_control
    | flushed =>
      exact spec_pure stable_flushed.hasnt (fun w hw => ⟨hw.1, hw.2.idle⟩)
    | _ => exact fun _ _ h => h.elim
  | worker n =>
    cases l with
    | runThreadTask m =>
      rintro w hi ⟨rfl, hw⟩
      exact spec_runThreadTask m w hi hw
    | _ => exact fun _ _ h => h.elim
  | user n =>
    cases l with
    | user => exact spec_user n
    | _ => exact fun _ _ h => h.elim

/-- The threads of the pool, put together. -/
def proof : Proof contract where
  loop := fun t l _ w => Loop t l w
  fin := fun _ _ _ => True
  global := fun _ _ => True
  block_safe := fun t l a w hi hloop => by
    refine (spec_block t l w hi hloop).weaken (fun next _ _ _ h => ?_) (fun _ _ _ _ h => h.elim)
    cases next with
    | none => trivial
    | some l' => exact h
  global_step := fun _ _ _ _ _ _ _ _ _ _ _ => trivial

theorem inv_new (n : Nat) : Inv (.new n) where
  ids := by
    show List.range n = List.range (List.range n).length
    rw [List.length_range]
  order := List.nil_sublist _
  live := fun m h => absurd h.1 (Nat.not_lt_zero m)
  fresh := fun _ _ => rfl
  holder := nofun
  settled := fun _ => ⟨rfl, ⟨[], rfl, List.Sublist.refl _, List.Perm.refl _⟩, nofun⟩

/-- The contract holds when the constructor begins. -/
theorem holds_constructed (n : Nat) : proof.Holds (constructed n) (fun _ => ()) where
  inv := inv_new n
  runnable := fun t => by
    have hspec : ∀ {p : WorkerProg (Option WorkerLabel)} {A : WState → Prop},
        Spec t A p (Jumps t) → A (.new n) → proof.Runnable t p () (.new n) := by
      intro p A hp hA
      refine (hp _ (inv_new n) hA).weaken (fun next _ _ _ h => ?_) (fun _ _ _ _ h => h.elim)
      cases next with
      | none => trivial
      | some l => exact h
    cases t with
    | control =>
      refine hspec (Spec.bind spec_start (fun _ => spec_pure (Q := Jumps .control)
        stable_idle.hasnt (fun _ => id))) ⟨nofun, fun _ => rfl, nofun⟩
    | worker m => exact hspec (spec_thread m) ⟨rfl, nofun⟩
    | user m => exact hspec (spec_pure (stable_free _) (fun _ => id)) nofun
  global := trivial

/-- In every state that a worker can reach the contract holds. -/
theorem holds_of_steps {n : Nat} {st : system.State}
    (hrun : System.Steps System.anyStep (constructed n) st) : ∃ ls, proof.Holds st ls :=
  proof.run_rule (fun _ _ _ _ _ _ _ => trivial) hrun ⟨_, holds_constructed n⟩

/-- The history accounts for every task. -/
theorem Settled.perm {q : TaskQueue} (h : Settled q) :
    q.accepted.Perm (q.executed.map Prod.fst ++ q.cleared ++ q.tasks) := by
  obtain ⟨before, haccepted, -, hperm⟩ := h.accounts
  rw [haccepted, List.append_nil]
  exact hperm.append_right _

theorem Settled.size {q : TaskQueue} (h : Settled q) : q.size = q.tasks.length := by
  rw [TaskQueue.size, h.idle]
  rfl

/-- What `getSizeQueue` counts is what its caller goes on with. -/
theorem threads_getSize {st st' : system.State} {t : WorkerThread} {c : WorkerChoice}
    {k : Nat → WorkerProg (Option WorkerLabel)} (hk : st.threads t = .op .getSize k)
    (hstep : System.step st t c = some st') : st'.threads t = k st.world.queue.size := by
  rw [System.step_op hk (r := st.world.queue.size) (w := st.world) rfl, Option.some.injEq] at hstep
  rw [← hstep]
  exact Function.update_self ..

/-- Every accepted task is in one place: executed, cleared by a `stop(true)`, or still
queued; and `getSizeQueue` counts the latter. -/
structure Accounted (q : TaskQueue) : Prop where
  idle : q.current_task = none
  once : q.accepted.Perm (q.executed.map Prod.fst ++ q.cleared ++ q.tasks)
  pending : q.size = q.tasks.length
  judged : ∀ e ∈ q.executed, q.taskStatus e.1 = if e.2 then .Error else .Success

theorem Settled.accounted {q : TaskQueue} (h : Settled q) : Accounted q :=
  ⟨h.idle, h.perm, h.size, h.judged⟩

/-- **A worker executes the tasks it accepts once each and in order**, in every run with
any number of threads that add tasks and look, one thread that starts, stops and flushes,
and tasks that return or throw:

* the tasks executed are a subsequence of those accepted, each of them once;
* whenever the mutex is free, and whenever `getSizeQueue` counts, no task is current,
  every accepted task is executed, cleared or queued, the count is that of the queue, and
  the status of an executed task says whether it threw; what the call goes on with is the
  length of the queue;
* no thread takes the front of an empty queue, and at most one thread of the worker lives;
* when a `flush` has returned, the queue is empty and every accepted task is executed or
  has been cleared. -/
theorem worker_executes_once_in_order (n : Nat) (st : system.State)
    (hrun : System.Steps System.anyStep (constructed n) st) :
    (st.world.queue.executed.map Prod.fst).Sublist st.world.queue.accepted ∧
      st.world.queue.accepted.Nodup ∧
      (st.world.mutex = none → Accounted st.world.queue) ∧
      (∀ t k, st.threads t = .op .getSize k → Accounted st.world.queue ∧
        ∀ c st', System.step st t c = some st' →
          st'.threads t = k st.world.queue.tasks.length) ∧
      (∀ t, st.threads t ≠ .crash) ∧
      (∀ m m', Alive m st.world → Alive m' st.world → m = m') ∧
      (st.threads .control = .pure (some .flushed) → st.world.queue.tasks = [] ∧
        Accounted st.world.queue ∧
        ∀ x ∈ st.world.queue.accepted,
          x ∈ st.world.queue.executed.map Prod.fst ∨ x ∈ st.world.queue.cleared) := by
  obtain ⟨ls, hls⟩ := holds_of_steps hrun
  have hi : Inv st.world := hls.inv
  refine ⟨hi.order, ?_, fun hfree => ?_, fun t k hk => ?_, fun t hcrash => ?_, fun m m' hm hm' => ?_,
    fun hflushed => ?_⟩
  · rw [hi.ids]
    exact List.nodup_range
  · exact (hi.settled_of_free hfree).accounted
  · have hrunnable := hls.runnable t
    rw [hk] at hrunnable
    obtain ⟨hmutex, hnot⟩ := (hrunnable st.world (Rely.refl _ _) hi).1
    have hsettled := settled_of_holds hi hnot hmutex
    refine ⟨hsettled.accounted, fun c st' hstep => ?_⟩
    rw [threads_getSize hk hstep, hsettled.size]
  · have hrunnable := hls.runnable t
    rw [hcrash] at hrunnable
    exact hrunnable
  · exact Option.some.inj ((hi.live m hm).symm.trans (hi.live m' hm'))
  · have hrunnable := hls.runnable .control
    rw [hflushed] at hrunnable
    have hdone : Hasnt Flushed st.world := hrunnable st.world (Rely.refl _ _) hi
    obtain ⟨-, -, hthread, hempty⟩ := hdone
    -- the worker has no thread left, so none has the mutex
    have hsettled : Settled st.world.queue := hi.settled (fun m hm => by
      have := hi.live m (hi.holder m hm)
      rw [hthread] at this
      cases this)
    refine ⟨hempty, hsettled.accounted, fun x hx => ?_⟩
    have := hsettled.perm.mem_iff.mp hx
    rw [hempty, List.append_nil] at this
    exact List.mem_append.mp this

/-- A thread takes `n` steps with one choice. -/
def steps (t : WorkerThread) (c : WorkerChoice) (n : Nat) : List (WorkerThread × WorkerChoice) :=
  List.replicate n (t, c)

/-- A user adds a task. -/
def addsTask : List (WorkerThread × WorkerChoice) :=
  steps (.user 0) .go 1 ++ steps (.user 0) (.user .addTask) 1 ++ steps (.user 0) .go 5

/-- A worker is constructed, a user adds two tasks, the first throws, the second does not, and
the worker is flushed. -/
def throwingRun : List (WorkerThread × WorkerChoice) :=
  steps .control .go 5 ++ addsTask ++ addsTask ++ steps (.worker 0) (.threw true) 16
    ++ steps (.worker 0) (.threw false) 21 ++ steps .control (.control .flush) 1
    ++ steps .control .go 9 ++ steps (.worker 0) .go 9 ++ steps .control .go 1

/-- When that flush has returned, both have been executed, in order, and each has the status that
it deserves. -/
theorem throwingRun_executes : ∃ st, System.exec (constructed 0) throwingRun = some st ∧
    st.world.queue.tasks = [] ∧ st.world.queue.executed = [(0, true), (1, false)] ∧
    st.world.queue.taskStatus 0 = .Error ∧ st.world.queue.taskStatus 1 = .Success := by
  obtain ⟨st, hexec, hflushed, hexecuted⟩ : ∃ st,
      System.exec (constructed 0) throwingRun = some st ∧
      st.threads .control = .pure (some .flushed) ∧
      st.world.queue.executed = [(0, true), (1, false)] := ⟨_, rfl, rfl, rfl⟩
  have hrun : System.Steps System.anyStep (constructed 0) st :=
    System.steps_of_exec hexec (fun _ _ _ => trivial)
  obtain ⟨-, -, -, -, -, -, hreturned⟩ := worker_executes_once_in_order 0 st hrun
  obtain ⟨hempty, haccounted, -⟩ := hreturned hflushed
  have hjudged := haccounted.judged
  rw [hexecuted] at hjudged
  exact ⟨st, hexec, hempty, hexecuted, hjudged (0, true) (by simp), hjudged (1, false) (by simp)⟩

end NetworkApplication.WorkerSafety
