/-
The calls on a worker return.

From every state of a run that meets the condition, the steps of the threads that are there
bring every call to its end. A task gives up the mutex (`Inv.frees`); a thread that is stopped,
or that has nothing left to flush, ends (`Inv.ends_thread`); a queue that is being flushed becomes
empty (`Inv.drained`). With these a call gets from each position to the next.

Without the condition a call can get stuck, and what gets stuck is here too.
-/
import NetworkApplication.CallInvariant

set_option autoImplicit false

namespace NetworkApplication.WorkerCalls

variable {tasks : Nat → List WorkerCall} {s s' : State} {control : Control} {m : Nat}

/-! ## How a call comes to its end -/

/-- Steps of the threads that are there: no new call, and nobody wakes for no reason. -/
def Internal (_ : State) : Action → Prop
  | .moves _ _ => True
  | _ => False

theorem Reaches.trans {Q : State → Action → Prop} {s₁ s₂ s₃ : State} (h : Reaches tasks Q s₁ s₂)
    (h' : Reaches tasks Q s₂ s₃) : Reaches tasks Q s₁ s₃ := by
  induction h' with
  | refl => exact h
  | step _ hQ hstep ih => exact ih.step hQ hstep

/-- The worker has worked while the callers stood still, but for a `flush` that has been
woken. -/
structure Stands (tasks : Nat → List WorkerCall) (s s' : State) : Prop where
  reaches : Reaches tasks Internal s s'
  inv : ∃ control, Inv s' control
  callers : ∀ n, s'.callers n = s.callers n ∨ s'.callers n = (s.callers n).map Call.wake
  status : s.worker.status = .Stop ∨ s.worker.status = .Flush → s'.worker.status = s.worker.status
  thread : s'.worker.thread = s.worker.thread

theorem wake_wake (c : Call) : c.wake.wake = c.wake := by
  rw [Call.wake, if_neg (wake_call c).2.2.1]

theorem Stands.trans {s₁ s₂ s₃ : State} (h : Stands tasks s₁ s₂) (h' : Stands tasks s₂ s₃) :
    Stands tasks s₁ s₃ where
  reaches := h.reaches.trans h'.reaches
  inv := h'.inv
  callers := by
    intro n
    rcases h.callers n with hn | hn <;> rcases h'.callers n with hn' | hn' <;> rw [hn', hn]
    · exact .inl rfl
    · exact .inr rfl
    · exact .inr rfl
    · refine .inr ?_
      cases s₁.callers n with
      | none => rfl
      | some c => exact congrArg some (wake_wake c)
  status := by
    intro hs
    have hsame := h.status hs
    rw [← hsame] at hs
    rw [h'.status hs, hsame]
  thread := h'.thread.trans h.thread

theorem stands_refl (h : Inv s control) : Stands tasks s s :=
  ⟨.refl, ⟨control, h⟩, fun _ => .inl rfl, fun _ => rfl, rfl⟩

/-- One step of the worker's thread. -/
theorem Inv.stands (h : Inv s control) (hstart : ∀ task, ∀ c ∈ tasks task, c = .start)
    (hm : Alive m s.worker) (hs : s.threadStep tasks m false = some s')
    (hcallers : ∀ n, s'.callers n = s.callers n ∨ s'.callers n = (s.callers n).map Call.wake)
    (hstatus : s.worker.status = .Stop ∨ s.worker.status = .Flush →
      s'.worker.status = s.worker.status)
    (hthread : s'.worker.thread = s.worker.thread) : Stands tasks s s' where
  reaches := by
    refine Reaches.refl.step (a := .moves (.worker m) false) trivial ?_
    rw [WorkerCalls.step]
    exact (if_pos hm).trans hs
  inv := h.threadStep hm hstart hs
  callers := hcallers
  status := hstatus
  thread := hthread

/-- The worker has stood up from a task: the mutex is free, and the queue is as before. -/
structure Freed (tasks : Nat → List WorkerCall) (s s' : State) : Prop where
  stands : Stands tasks s s'
  mutex : s'.worker.mutex = none
  queued : s'.worker.queue.tasks = s.worker.queue.tasks
  exited : s'.worker.exited = s.worker.exited
  spawned : s'.worker.spawned = s.worker.spawned

/-- The end of a task gives up the mutex. -/
theorem Inv.freed_of_end {task : Nat} (h : Inv s control)
    (hstart : ∀ task, ∀ c ∈ tasks task, c = .start) (hm : Alive m s.worker)
    (hat : s.threads m = .running task [] none) : Freed tasks s (s.taskEnded m task false) := by
  have hstop : s.worker.status ≠ .Stop := (h.threads.running m task [] none hm hat).status
  have hs : s.threadStep tasks m false = some (s.taskEnded m task false) := by
    unfold State.threadStep
    rw [hat]
  have hstands : ∀ s', s' = s.taskEnded m task false →
      (∀ n, s'.callers n = s.callers n ∨ s'.callers n = (s.callers n).map Call.wake) ∧
      (s.worker.status = .Stop ∨ s.worker.status = .Flush → s'.worker.status = s.worker.status) ∧
      s'.worker.thread = s.worker.thread ∧ s'.worker.mutex = none ∧
      s'.worker.queue.tasks = s.worker.queue.tasks ∧ s'.worker.exited = s.worker.exited ∧
      s'.worker.spawned = s.worker.spawned := by
    rintro s' rfl
    unfold State.taskEnded endSection
    simp only [if_neg hstop, if_true]
    have hstatus : s.worker.status = .Stop ∨ s.worker.status = .Flush →
        (if s.worker.queue.tasks = [] ∧ s.worker.status ≠ .Flush then StatusWorker.Wait
          else s.worker.status) = s.worker.status := by
      intro hs
      exact if_neg (fun hwait => hs.elim hstop hwait.2)
    by_cases hempty : s.worker.queue.tasks = []
    · rw [if_pos hempty]
      exact ⟨fun _ => .inr rfl, hstatus, rfl, rfl, rfl, rfl, rfl⟩
    · rw [if_neg hempty]
      exact ⟨fun _ => .inl rfl, hstatus, rfl, rfl, rfl, rfl, rfl⟩
  obtain ⟨hcallers, hstatus, hthread, hmutex, hqueued, hexited, hspawned⟩ := hstands _ rfl
  exact ⟨h.stands hstart hm hs hcallers hstatus hthread, hmutex, hqueued, hexited, hspawned⟩

theorem Freed.before {s₁ s₂ s₃ : State} (h : Stands tasks s₁ s₂)
    (hsame : s₂.worker = s₁.worker) (h' : Freed tasks s₂ s₃) : Freed tasks s₁ s₃ where
  stands := h.trans h'.stands
  mutex := h'.mutex
  queued := by rw [h'.queued, hsame]
  exited := by rw [h'.exited, hsame]
  spawned := by rw [h'.spawned, hsame]

/-- The `start` that a task has called returns. -/
theorem Inv.returns {task : Nat} {calls : List WorkerCall} {call : Option Call} (h : Inv s control)
    (hstart : ∀ task, ∀ c ∈ tasks task, c = .start) (hm : Alive m s.worker)
    (hat : s.threads m = .running task calls call) :
    ∃ s', Stands tasks s s' ∧ s'.worker = s.worker ∧ s'.threads m = .running task calls none := by
  cases call with
  | none => exact ⟨s, stands_refl h, rfl, hat⟩
  | some c =>
    have hruns := h.threads.running m task calls (some c) hm hat
    obtain ⟨hcall, hposition⟩ := hruns.call c rfl
    obtain ⟨call, position, accepted⟩ := c
    obtain rfl : call = .start := hcall
    obtain rfl : position = .called := hposition
    have hs : s.threadStep tasks m false = some (s.goesOn m (.running task calls none)) := by
      unfold State.threadStep
      simp only [hat, Call.step, if_neg hruns.status, Option.map_some, Bool.false_eq_true, if_false]
    exact ⟨_, h.stands hstart hm hs (fun _ => .inl rfl) (fun _ => rfl) rfl, rfl,
      Function.update_self ..⟩

/-- A task comes to its end. -/
theorem Inv.finishes {task : Nat} {calls : List WorkerCall} {call : Option Call}
    (hstart : ∀ task, ∀ c ∈ tasks task, c = .start) (h : Inv s control) (hm : Alive m s.worker)
    (hat : s.threads m = .running task calls call) : ∃ s', Freed tasks s s' := by
  induction calls generalizing s control call with
  | nil =>
    obtain ⟨s₁, hreturns, hsame, hat₁⟩ := h.returns hstart hm hat
    obtain ⟨control₁, h₁⟩ := hreturns.inv
    exact ⟨_, Freed.before hreturns hsame (h₁.freed_of_end hstart (hsame ▸ hm) hat₁)⟩
  | cons next calls ih =>
    obtain ⟨s₁, hreturns, hsame, hat₁⟩ := h.returns hstart hm hat
    obtain ⟨control₁, h₁⟩ := hreturns.inv
    have hm₁ : Alive m s₁.worker := hsame ▸ hm
    have hs : s₁.threadStep tasks m false = some (s₁.goesOn m
        (.running task calls (some ⟨next, .called, s₁.worker.queue.accepted⟩))) := by
      unfold State.threadStep
      simp only [hat₁]
    have hbegins := h₁.stands hstart hm₁ hs (fun _ => .inl rfl) (fun _ => rfl) rfl
    obtain ⟨control₂, h₂⟩ := hbegins.inv
    obtain ⟨s', hfreed⟩ := ih h₂ hm₁ (Function.update_self ..)
    exact ⟨s', Freed.before hreturns hsame (Freed.before hbegins rfl hfreed)⟩

/-- The mutex becomes free. -/
theorem Inv.frees (h : Inv s control) (hstart : ∀ task, ∀ c ∈ tasks task, c = .start) :
    ∃ s', Freed tasks s s' := by
  cases hmutex : s.worker.mutex with
  | none => exact ⟨s, stands_refl h, hmutex, rfl, rfl, rfl⟩
  | some t =>
    obtain ⟨m, task, calls, call, hm, hat⟩ := h.threads.holder t hmutex
    exact h.finishes hstart hm hat

/-- The thread of a worker that is stopped, or that has nothing left to flush, does not wait. -/
theorem nextSection_leaves {w : WorkerState CallThread}
    (hdone : w.status = .Stop ∨ w.status = .Flush ∧ w.queue.tasks = []) :
    w.workReady = true ∧ nextSection w = some (.leave, w) := by
  rcases hdone with hstop | ⟨hflush, hempty⟩
  · have hready : w.workReady = true := by simp [WorkerState.workReady, hstop]
    exact ⟨hready, if_pos hstop⟩
  · have hready : w.workReady = true := by simp [WorkerState.workReady, hflush]
    exact ⟨hready, by simp [nextSection, hready, hflush, hempty]⟩

/-- It ends where it comes out of its wait. -/
theorem Inv.leaves (h : Inv s control) (hstart : ∀ task, ∀ c ∈ tasks task, c = .start)
    (hm : Alive m s.worker) (hfree : s.worker.mutex = none)
    (hdone : s.worker.status = .Stop ∨ s.worker.status = .Flush ∧ s.worker.queue.tasks = [])
    (hat : s.threads m = .lock ∨ s.threads m = .asleep) : Stands tasks s (s.exit m) := by
  obtain ⟨hready, hsection⟩ := nextSection_leaves hdone
  have hnext : s.next tasks m = some (s.exit m) := by
    unfold State.next
    rw [hsection]
    rfl
  have hs : s.threadStep tasks m false = some (s.exit m) := by
    unfold State.threadStep
    rcases hat with hat | hat
    · simp only [hat, hfree, hready, if_true]
      exact hnext
    · simp only [hat, hfree, if_true]
      exact hnext
  exact h.stands hstart hm hs (fun _ => .inl rfl) (fun _ => rfl) rfl

/-- A thread that is at the test of its loop goes to the lock. -/
theorem Inv.tests (h : Inv s control) (hstart : ∀ task, ∀ c ∈ tasks task, c = .start)
    (hm : Alive m s.worker) (hstop : s.worker.status ≠ .Stop) (hat : s.threads m = .test) :
    Stands tasks s (s.goesOn m .lock) := by
  have hs : s.threadStep tasks m false = some (s.goesOn m .lock) := by
    unfold State.threadStep
    simp only [hat, if_neg hstop]
  exact h.stands hstart hm hs (fun _ => .inl rfl) (fun _ => rfl) rfl

/-- The thread of a worker that is stopped, or that has nothing left to flush, ends. -/
theorem Inv.ends_thread (h : Inv s control) (hstart : ∀ task, ∀ c ∈ tasks task, c = .start)
    (hm : Alive m s.worker)
    (hdone : s.worker.status = .Stop ∨ s.worker.status = .Flush ∧ s.worker.queue.tasks = []) :
    ∃ s', Stands tasks s s' ∧ s'.worker.exited m = true := by
  -- with the mutex free the thread is at the test, in front of the lock or asleep
  obtain ⟨s₁, hfreed⟩ := h.frees hstart
  obtain ⟨control₁, h₁⟩ := hfreed.stands.inv
  have hm₁ : Alive m s₁.worker :=
    ⟨by rw [hfreed.spawned]; exact hm.1, by rw [hfreed.exited]; exact hm.2⟩
  have hsame : s₁.worker.status = s.worker.status := hfreed.stands.status (hdone.imp_right And.left)
  have hdone₁ : s₁.worker.status = .Stop ∨
      s₁.worker.status = .Flush ∧ s₁.worker.queue.tasks = [] := by
    rw [hsame, hfreed.queued]
    exact hdone
  have hended : ∀ s₂ : State, (s₂.exit m).worker.exited m = true := fun _ => Function.update_self ..
  cases hat : s₁.threads m with
  | test =>
    by_cases hstop : s₁.worker.status = .Stop
    · have hs : s₁.threadStep tasks m false = some (s₁.exit m) := by
        unfold State.threadStep
        simp only [hat, if_pos hstop]
      exact ⟨_, hfreed.stands.trans (h₁.stands hstart hm₁ hs (fun _ => .inl rfl) (fun _ => rfl) rfl),
        hended s₁⟩
    · have htests := h₁.tests hstart hm₁ hstop hat
      obtain ⟨control₂, h₂⟩ := htests.inv
      have hleaves := h₂.leaves hstart hm₁ hfreed.mutex hdone₁ (.inl (Function.update_self ..))
      exact ⟨_, hfreed.stands.trans (htests.trans hleaves), hended _⟩
  | lock =>
    have hleaves := h₁.leaves hstart hm₁ hfreed.mutex hdone₁ (.inl hat)
    exact ⟨_, hfreed.stands.trans hleaves, hended s₁⟩
  | asleep =>
    have hleaves := h₁.leaves hstart hm₁ hfreed.mutex hdone₁ (.inr hat)
    exact ⟨_, hfreed.stands.trans hleaves, hended s₁⟩
  | running task calls call => exact absurd hat (h₁.threads.not_running hm₁ hfreed.mutex)

/-- A thread that is in front of the lock takes the next task of a queue that is being flushed,
and executes it. -/
theorem Inv.executes {x : Nat} {rest : List Nat} (h : Inv s control)
    (hstart : ∀ task, ∀ c ∈ tasks task, c = .start) (hm : Alive m s.worker)
    (hfree : s.worker.mutex = none) (hflush : s.worker.status = .Flush)
    (htasks : s.worker.queue.tasks = x :: rest)
    (hat : s.threads m = .lock ∨ s.threads m = .asleep) :
    ∃ s', Stands tasks s s' ∧ Alive m s'.worker ∧ s'.worker.mutex = none ∧
      s'.worker.queue.tasks = rest := by
  have hready : s.worker.workReady = true := by simp [WorkerState.workReady, hflush]
  have hsection : nextSection s.worker = some (.task x, { s.worker with
      status := .Flush
      queue := { s.worker.queue with tasks := rest, current_task := some x } }) := by
    simp [nextSection, hready, hflush, htasks]
  -- a flushed worker is always ready, so the thread passes the condition of the wait
  obtain ⟨s₁, hs₁, hnext⟩ : ∃ s₁, s₁ = (({ s with worker := { s.worker with
        status := .Flush
        queue := { s.worker.queue with tasks := rest, current_task := some x }
        mutex := some (.worker m) } } : State).goesOn m (.running x (tasks x) none)) ∧
      s.next tasks m = some s₁ := by
    refine ⟨_, rfl, ?_⟩
    unfold State.next
    rw [hsection]
    rfl
  have hs : s.threadStep tasks m false = some s₁ := by
    unfold State.threadStep
    rcases hat with hat | hat
    · simp only [hat, hfree, hready, if_true]
      exact hnext
    · simp only [hat, hfree, if_true]
      exact hnext
  have htakes : Stands tasks s s₁ := by
    subst hs₁
    exact h.stands hstart hm hs (fun _ => .inl rfl) (fun _ => hflush.symm) rfl
  obtain ⟨control₁, h₁⟩ := htakes.inv
  subst hs₁
  obtain ⟨s', hfreed⟩ := h₁.finishes hstart hm (Function.update_self ..)
  refine ⟨s', htakes.trans hfreed.stands, ⟨?_, ?_⟩, hfreed.mutex, hfreed.queued⟩
  · rw [hfreed.spawned]
    exact hm.1
  · rw [hfreed.exited]
    exact hm.2

/-- A queue that is being flushed becomes empty. -/
theorem Inv.drains {queued : List Nat} (hstart : ∀ task, ∀ c ∈ tasks task, c = .start)
    (h : Inv s control) (hm : Alive m s.worker) (hfree : s.worker.mutex = none)
    (hflush : s.worker.status = .Flush) (htasks : s.worker.queue.tasks = queued) :
    ∃ s', Stands tasks s s' ∧ s'.worker.queue.tasks = [] ∧ s'.worker.mutex = none := by
  induction queued generalizing s control with
  | nil => exact ⟨s, stands_refl h, htasks, hfree⟩
  | cons x rest ih =>
    -- one task is executed, and the status, the thread and the mutex are as before
    have hstop : s.worker.status ≠ .Stop := by
      rw [hflush]
      decide
    obtain ⟨s₁, hexecutes, hm₁, hfree₁, htasks₁⟩ : ∃ s₁, Stands tasks s s₁ ∧ Alive m s₁.worker ∧
        s₁.worker.mutex = none ∧ s₁.worker.queue.tasks = rest := by
      cases hat : s.threads m with
      | test =>
        have htests := h.tests hstart hm hstop hat
        obtain ⟨control₀, h₀⟩ := htests.inv
        obtain ⟨s₁, hexecutes, hrest⟩ :=
          h₀.executes hstart hm hfree hflush htasks (.inl (Function.update_self ..))
        exact ⟨s₁, htests.trans hexecutes, hrest⟩
      | lock => exact h.executes hstart hm hfree hflush htasks (.inl hat)
      | asleep => exact h.executes hstart hm hfree hflush htasks (.inr hat)
      | running task calls call => exact absurd hat (h.threads.not_running hm hfree)
    obtain ⟨control₁, h₁⟩ := hexecutes.inv
    have hflush₁ : s₁.worker.status = .Flush := (hexecutes.status (.inr hflush)).trans hflush
    obtain ⟨s', hdrains, hempty, hfree'⟩ := ih h₁ hm₁ hfree₁ hflush₁ htasks₁
    exact ⟨s', hexecutes.trans hdrains, hempty, hfree'⟩

/-- The wait of a `flush` has an end. -/
theorem Inv.drained (h : Inv s control) (hstart : ∀ task, ∀ c ∈ tasks task, c = .start)
    (hdraining : Draining s.worker) :
    ∃ s', Stands tasks s s' ∧ s'.worker.queue.tasks = [] ∧ s'.worker.mutex = none := by
  obtain ⟨s₁, hfreed⟩ := h.frees hstart
  obtain ⟨control₁, h₁⟩ := hfreed.stands.inv
  have hflush₁ : s₁.worker.status = .Flush :=
    (hfreed.stands.status (.inr hdraining.1)).trans hdraining.1
  by_cases hempty : s.worker.queue.tasks = []
  · exact ⟨s₁, hfreed.stands, hfreed.queued.trans hempty, hfreed.mutex⟩
  -- somebody is there to empty it
  cases hthread : s.worker.thread with
  | none => exact absurd (hdraining.2.1 hthread) hempty
  | some m =>
    have hm : Alive m s.worker := by
      refine ⟨h.sound.handle m hthread, ?_⟩
      rw [Bool.eq_false_iff]
      exact fun hexited => hempty (hdraining.2.2 m hthread hexited)
    have hm₁ : Alive m s₁.worker :=
      ⟨by rw [hfreed.spawned]; exact hm.1, by rw [hfreed.exited]; exact hm.2⟩
    obtain ⟨s', hdrains, hempty', hfree'⟩ := h₁.drains hstart hm₁ hfreed.mutex hflush₁ rfl
    exact ⟨s', hfreed.stands.trans hdrains, hempty', hfree'⟩

section Completion

variable {n : Nat} {c : Call}

/-- Nobody moves the others. -/
theorem Stands.same (hs : Stands tasks s s')
    (hc : ∀ c, s.callers n = some c → c.position ≠ .asleep) : s'.callers n = s.callers n := by
  rcases hs.callers n with hn | hn
  · exact hn
  · rw [hn]
    cases hcaller : s.callers n with
    | none => rfl
    | some c => exact congrArg some (if_neg (hc c hcaller))

/-- A caller who has not got the mutex yet is not asleep. -/
theorem Callers.not_asleep {w : WorkerState CallThread} {callers : Nat → Option Call} {n : Nat}
    (h : Callers w callers control) (hn : ∀ c, control ≠ some (n, c)) :
    ∀ c, callers n = some c → c.position ≠ .asleep := by
  intro c hc
  rw [(h.others n c hc).resolve_right (hn c)]
  decide

/-- The call of caller `n` has returned, and no other has changed the status since. -/
structure Completed (tasks : Nat → List WorkerCall) (n : Nat) (c : Call) (s s' : State) : Prop where
  reaches : Reaches tasks Internal s s'
  inv : Inv s' none
  returned : s'.callers n = none
  others : ∀ n', n' ≠ n → s'.callers n' = s.callers n'
  flushed : c.call = .flush → s'.worker.queue.tasks = []

/-- The call of caller `n` has got on. -/
structure Advanced (tasks : Nat → List WorkerCall) (n : Nat) (c : Call) (c' : Option Call)
    (w : WorkerState CallThread) (s s' : State) : Prop where
  reaches : Reaches tasks Internal s s'
  inv : Inv s' (c'.map (Prod.mk n))
  worker : s'.worker = w
  caller : s'.callers n = c'
  others : ∀ n', n' ≠ n → s'.callers n' = s.callers n'

variable (tasks) in
/-- One step of the caller who has changed the status, or of one who is about to. -/
theorem Inv.advances {c' : Option Call} {notifies : Bool} {w : WorkerState CallThread}
    (h : Inv s control) (hc : s.callers n = some c)
    (hcontrol : control = some (n, c) ∨ control = none)
    (hleft : c.call = .stop false → s.worker.status ≠ .Stop → s.worker.queue.tasks ≠ [] →
      ∀ n' c', s.callers n' = some c' → c'.call ≠ .flush)
    (hleads : Leads s.worker c c' w) (hstep : c.step s.worker = some (c', notifies, w))
    (hawake : notifies = true → c'.map Call.wake = c') :
    ∃ s', Advanced tasks n c c' w s s' := by
  have hnext : Inv { s with worker := w, callers := Function.update s.callers n c' }
      (c'.map (Prod.mk n)) :=
    ⟨hleads.sound, h.callers.leads hc hcontrol hleft hleads, h.threads.keeps hleads.keeps⟩
  have hother : ∀ n', n' ≠ n → ∀ c₁, control ≠ some (n', c₁) := by
    rintro n' hn c₁ hother
    rcases hcontrol with rfl | rfl
    · cases hother
      exact hn rfl
    · cases hother
  cases notifies with
  | false =>
    have hs : s.callerStep n
        = some { s with worker := w, callers := Function.update s.callers n c' } := by
      unfold State.callerStep
      rw [hc]
      simp only [Option.bind_some, hstep, Option.map_some, Bool.false_eq_true, if_false]
    exact ⟨_, Reaches.refl.step (a := .moves (.caller n) false) trivial hs, hnext, rfl,
      Function.update_self .., fun n' hn => Function.update_of_ne hn _ _⟩
  | true =>
    have hs : s.callerStep n
        = some ({ s with
            worker := w, callers := Function.update s.callers n c' } : State).notifyAll := by
      unfold State.callerStep
      rw [hc]
      simp only [Option.bind_some, hstep, Option.map_some, if_true]
    -- a notification wakes those that are asleep, and only the call at work could be
    have hcontrol' : (c'.map (Prod.mk n)).map (fun x => (x.1, x.2.wake)) = c'.map (Prod.mk n) := by
      have := hawake rfl
      cases c' with
      | none => rfl
      | some c₁ => exact congrArg (fun c₂ => some (n, c₂)) (Option.some.inj this)
    refine ⟨_, Reaches.refl.step (a := .moves (.caller n) false) trivial hs, ?_, rfl, ?_,
      fun n' hn => ?_⟩
    · have hnotified := hnext.notifyAll
      rw [hcontrol'] at hnotified
      exact hnotified
    · show (Function.update s.callers n c' n).map Call.wake = c'
      rw [Function.update_self]
      exact hawake rfl
    · show (Function.update s.callers n c' n').map Call.wake = s.callers n'
      rw [Function.update_of_ne hn]
      cases hcaller : s.callers n' with
      | none => rfl
      | some c₁ => exact congrArg some (if_neg (h.callers.not_asleep (hother n' hn) c₁ hcaller))

variable (tasks) in
/-- One step of the caller who has changed the status. -/
theorem Inv.gets_on {c' : Option Call} {notifies : Bool} {w : WorkerState CallThread}
    (h : Inv s (some (n, c))) (hstep : c.step s.worker = some (c', notifies, w))
    (hawake : notifies = true → c'.map Call.wake = c') : ∃ s', Advanced tasks n c c' w s s' := by
  obtain ⟨hc, hbehind⟩ := h.callers.control n c rfl
  have hordered : Ordered s (.moves (.caller n) false) := by
    intro c₁ hc₁ hposition
    rw [hc] at hc₁
    cases hc₁
    exact absurd hposition hbehind
  rcases h.caller_cases hc hordered hstep with ⟨-, -, hposition, -⟩ | ⟨hleads, hcontrol, hleft⟩
  · exact absurd hposition hbehind
  · exact h.advances tasks hc hcontrol hleft hleads hstep hawake

/-- The caller stands where he was. -/
theorem Stands.keeps (hs : Stands tasks s s') (h : Inv s (some (n, c)))
    (hawake : c.position ≠ .asleep) : Inv s' (some (n, c)) := by
  obtain ⟨hc, hbehind⟩ := h.callers.control n c rfl
  obtain ⟨control', h'⟩ := hs.inv
  have hsame : s'.callers n = some c := by
    refine (hs.same fun c₁ hc₁ => ?_).trans hc
    rw [hc] at hc₁
    cases hc₁
    exact hawake
  rw [← (h'.callers.others n c hsame).resolve_left hbehind]
  exact h'

theorem Stands.others (hs : Stands tasks s s') (h : Inv s (some (n, c))) :
    ∀ n', n' ≠ n → s'.callers n' = s.callers n' := by
  intro n' hn
  refine hs.same (h.callers.not_asleep fun c₁ hother => ?_)
  cases hother
  exact hn rfl

/-- A call that is completed from where the caller is later. -/
theorem Completed.after {c₁ : Call} {s₁ : State} (h : Completed tasks n c₁ s₁ s')
    (hreaches : Reaches tasks Internal s s₁) (hothers : ∀ n', n' ≠ n → s₁.callers n' = s.callers n')
    (hcall : c₁.call = c.call) : Completed tasks n c s s' where
  reaches := hreaches.trans h.reaches
  inv := h.inv
  returned := h.returned
  others := fun n' hn => (h.others n' hn).trans (hothers n' hn)
  flushed := fun hflush => h.flushed (hcall.trans hflush)

theorem Advanced.completed {w : WorkerState CallThread} (h : Advanced tasks n c none w s s')
    (hflushed : c.call = .flush → w.queue.tasks = []) : Completed tasks n c s s' where
  reaches := h.reaches
  inv := h.inv
  returned := h.caller
  others := h.others
  flushed := fun hcall => by rw [h.worker]; exact hflushed hcall

/-- A call that joins finds a thread that comes to its end. -/
theorem phase_joins {w : WorkerState CallThread} (h : Phase w (some c))
    (hposition : c.position = .joins) :
    (w.status = .Stop ∨ w.status = .Flush ∧ w.queue.tasks = []) ∧ w.thread ≠ none ∧
      (c.call = .flush → w.queue.tasks = []) := by
  obtain ⟨call, position, accepted⟩ := c
  obtain rfl : position = .joins := hposition
  cases call with
  | stop clearQueue => exact ⟨.inl h.1, h.2, fun hflush => by cases hflush⟩
  | flush => exact ⟨.inr ⟨h.1, h.2.1⟩, h.2.2, fun _ => h.2.1⟩
  | start | addTask => exact h.elim

/-- `join()` returns. -/
theorem Inv.completes_joins (h : Inv s (some (n, c)))
    (hstart : ∀ task, ∀ c ∈ tasks task, c = .start) (hposition : c.position = .joins) :
    ∃ s', Completed tasks n c s s' := by
  obtain ⟨hdone, hthread, -⟩ := phase_joins h.callers.phase hposition
  obtain ⟨m, hm⟩ := Option.ne_none_iff_exists'.mp hthread
  obtain ⟨s₁, hstands, hexited⟩ : ∃ s₁, Stands tasks s s₁ ∧ s₁.worker.exited m = true := by
    cases hexited : s.worker.exited m with
    | true => exact ⟨s, stands_refl h, hexited⟩
    | false => exact h.ends_thread hstart ⟨h.sound.handle m hm, hexited⟩ hdone
  have h₁ : Inv s₁ (some (n, c)) := hstands.keeps h (by rw [hposition]; decide)
  obtain ⟨-, -, hflushed⟩ := phase_joins h₁.callers.phase hposition
  have hm₁ : s₁.worker.thread = some m := hstands.thread.trans hm
  have hstep : c.step s₁.worker = some (none, false, { s₁.worker with thread := none }) := by
    have hphase : Phase s₁.worker (some c) := h₁.callers.phase
    obtain ⟨call, position, accepted⟩ := c
    obtain rfl : position = .joins := hposition
    cases call with
    | stop clearQueue => simp only [Call.step, hm₁, hexited, if_true]
    | flush => simp only [Call.step, hm₁, hexited, if_true]
    | start | addTask => exact hphase.elim
  obtain ⟨s', hadvanced⟩ := h₁.gets_on tasks hstep (fun h => by cases h)
  exact ⟨s', (hadvanced.completed hflushed).after hstands.reaches (hstands.others h) rfl⟩

/-- `joinThread` returns. -/
theorem Inv.completes_joining (h : Inv s (some (n, c)))
    (hstart : ∀ task, ∀ c ∈ tasks task, c = .start) (hposition : c.position = .joining) :
    ∃ s', Completed tasks n c s s' := by
  have hstep : c.step s.worker
      = some (if s.worker.thread.isSome then some (c.goesOn .joins) else none, false, s.worker) := by
    have hphase : Phase s.worker (some c) := h.callers.phase
    obtain ⟨call, position, accepted⟩ := c
    obtain rfl : position = .joining := hposition
    cases call with
    | stop clearQueue => rfl
    | flush => rfl
    | start | addTask => exact hphase.elim
  have hflushed : c.call = .flush → s.worker.queue.tasks = [] := by
    have hphase : Phase s.worker (some c) := h.callers.phase
    obtain ⟨call, position, accepted⟩ := c
    obtain rfl : position = .joining := hposition
    rintro rfl
    exact hphase.2
  obtain ⟨s₁, hadvanced⟩ := h.gets_on tasks hstep (fun h => by cases h)
  cases hthread : s.worker.thread with
  | none =>
    rw [hthread] at hadvanced
    exact ⟨s₁, hadvanced.completed hflushed⟩
  | some m =>
    rw [hthread] at hadvanced
    obtain ⟨s', hcompleted⟩ := hadvanced.inv.completes_joins hstart rfl
    exact ⟨s', hcompleted.after hadvanced.reaches hadvanced.others rfl⟩

/-- The wait of a `flush` is over, and it returns. -/
theorem Inv.completes_waiting (h : Inv s (some (n, c)))
    (hstart : ∀ task, ∀ c ∈ tasks task, c = .start) (hcall : c.call = .flush)
    (hposition : c.position = .waiting) : ∃ s', Completed tasks n c s s' := by
  have hdraining : Draining s.worker := by
    have hphase : Phase s.worker (some c) := h.callers.phase
    obtain ⟨call, position, accepted⟩ := c
    obtain rfl : call = .flush := hcall
    obtain rfl : position = .waiting := hposition
    exact hphase
  obtain ⟨s₁, hstands, hempty, hfree⟩ := h.drained hstart hdraining
  have h₁ : Inv s₁ (some (n, c)) := hstands.keeps h (by rw [hposition]; decide)
  have hstep : c.step s₁.worker = some (some (c.goesOn .joining), false, s₁.worker) := by
    obtain ⟨call, position, accepted⟩ := c
    obtain rfl : call = .flush := hcall
    obtain rfl : position = .waiting := hposition
    simp only [Call.step, hfree, hempty, if_true]
  obtain ⟨s₂, hadvanced⟩ := h₁.gets_on tasks hstep (fun h => by cases h)
  obtain ⟨s', hcompleted⟩ := hadvanced.inv.completes_joining hstart rfl
  have hjoined : Completed tasks n c s₁ s' :=
    hcompleted.after hadvanced.reaches hadvanced.others rfl
  exact ⟨s', hjoined.after hstands.reaches (hstands.others h) rfl⟩

/-- A `flush` that is asleep is notified. -/
theorem Inv.completes_asleep (h : Inv s (some (n, c)))
    (hstart : ∀ task, ∀ c ∈ tasks task, c = .start) (hcall : c.call = .flush)
    (hposition : c.position = .asleep) : ∃ s', Completed tasks n c s s' := by
  obtain ⟨call, position, accepted⟩ := c
  obtain rfl : call = .flush := hcall
  obtain rfl : position = .asleep := hposition
  obtain ⟨hc, hbehind⟩ := h.callers.control n _ rfl
  have hphase : Phase s.worker (some ⟨.flush, .asleep, accepted⟩) := h.callers.phase
  obtain ⟨s₁, hstands, hempty, hfree⟩ := h.drained hstart hphase.1
  obtain ⟨control₁, h₁⟩ := hstands.inv
  -- the queue is empty and no task is being executed: so it has been notified
  have hwoken : s₁.callers n = some ⟨.flush, .waiting, accepted⟩ := by
    rcases hstands.callers n with hn | hn
    · rw [hc] at hn
      obtain rfl := (h₁.callers.others n _ hn).resolve_left hbehind
      have hphase₁ : Phase s₁.worker (some ⟨.flush, .asleep, accepted⟩) := h₁.callers.phase
      exact absurd hphase₁.2 (not_or.mpr ⟨not_not.mpr hempty, not_not.mpr hfree⟩)
    · rw [hn, hc]
      rfl
  obtain rfl := (h₁.callers.others n _ hwoken).resolve_left (fun h => by cases h)
  obtain ⟨s', hcompleted⟩ := h₁.completes_waiting hstart rfl rfl
  exact ⟨s', hcompleted.after hstands.reaches (hstands.others h) rfl⟩

/-- The call that has changed the status returns. -/
theorem Inv.completes_control (h : Inv s (some (n, c)))
    (hstart : ∀ task, ∀ c ∈ tasks task, c = .start) : ∃ s', Completed tasks n c s s' := by
  obtain ⟨-, hbehind⟩ := h.callers.control n c rfl
  have hphase : Phase s.worker (some c) := h.callers.phase
  cases hposition : c.position with
  | called => exact absurd hposition hbehind
  | joining => exact h.completes_joining hstart hposition
  | joins => exact h.completes_joins hstart hposition
  | waiting =>
    refine h.completes_waiting hstart ?_ hposition
    obtain ⟨call, position, accepted⟩ := c
    obtain rfl : position = .waiting := hposition
    cases call <;> first | rfl | exact hphase.elim
  | asleep =>
    refine h.completes_asleep hstart ?_ hposition
    obtain ⟨call, position, accepted⟩ := c
    obtain rfl : position = .asleep := hposition
    cases call <;> first | rfl | exact hphase.elim
  | spawning =>
    obtain ⟨call, position, accepted⟩ := c
    obtain rfl : position = .spawning := hposition
    obtain rfl : call = .start := by cases call <;> first | rfl | exact hphase.elim
    obtain ⟨s', hadvanced⟩ := h.gets_on tasks rfl (fun h => by cases h)
    exact ⟨s', hadvanced.completed (fun h => by cases h)⟩
  | storing =>
    obtain ⟨call, position, accepted⟩ := c
    obtain rfl : position = .storing := hposition
    obtain rfl : call = .start := by cases call <;> first | rfl | exact hphase.elim
    obtain ⟨s₁, hstores⟩ := h.gets_on tasks rfl (fun h => by cases h)
    obtain ⟨s', hspawns⟩ := hstores.inv.gets_on tasks rfl (fun h => by cases h)
    have hspawned := hspawns.completed (fun h => by cases h)
    exact ⟨s', hspawned.after hstores.reaches hstores.others rfl⟩

/-- Where the mutex is free the first step of a call can be made. -/
theorem called_step {w : WorkerState CallThread} (hposition : c.position = .called)
    (hfree : w.mutex = none) : ∃ c' notifies w', c.step w = some (c', notifies, w') ∧
      (notifies = true → c'.map Call.wake = c') := by
  obtain ⟨call, position, accepted⟩ := c
  obtain rfl : position = .called := hposition
  cases call with
  | start => exact ⟨_, _, _, rfl, fun h => by cases h⟩
  | stop clearQueue =>
    refine ⟨if (stopSection clearQueue w).1 then some ⟨.stop clearQueue, .joining, accepted⟩
      else none, (stopSection clearQueue w).1, (stopSection clearQueue w).2, if_pos hfree,
      fun hjoins => ?_⟩
    rw [if_pos hjoins]
    rfl
  | flush =>
    refine ⟨if (flushSection w).1 then some ⟨.flush, .waiting, accepted⟩ else none,
      (flushSection w).1, (flushSection w).2, if_pos hfree, fun hwaits => ?_⟩
    rw [if_pos hwaits]
    rfl
  | addTask => exact ⟨_, _, _, if_pos hfree, fun h => by cases h⟩

/-- Where nobody has changed the status nobody does while the worker works. -/
theorem Stands.idle (hs : Stands tasks s s') (h : Inv s none) :
    Inv s' none ∧ ∀ n, s'.callers n = s.callers n := by
  have hsame : ∀ n, s'.callers n = s.callers n := fun n =>
    hs.same (h.callers.not_asleep fun c hc => by cases hc)
  obtain ⟨control', h'⟩ := hs.inv
  cases hcontrol : control' with
  | none =>
    rw [hcontrol] at h'
    exact ⟨h', hsame⟩
  | some x =>
    obtain ⟨hc, hbehind⟩ := h'.callers.control x.1 x.2 hcontrol
    rw [hsame x.1] at hc
    exact absurd ((h.callers.others x.1 x.2 hc).resolve_right (fun h => by cases h)) hbehind

/-- A call of `start`, `stop` or `flush` returns that has not got the mutex yet. -/
theorem Inv.completes_called (h : Inv s none) (hstart : ∀ task, ∀ c ∈ tasks task, c = .start)
    (hc : s.callers n = some c) (hcall : c.call ≠ .addTask)
    (hleft : c.call = .stop false → s.worker.status ≠ .Stop → s.worker.queue.tasks ≠ [] →
      ∀ n' c', s.callers n' = some c' → c'.call ≠ .flush) : ∃ s', Completed tasks n c s s' := by
  obtain ⟨s₁, hfreed⟩ := h.frees hstart
  obtain ⟨h₁, hsame⟩ := hfreed.stands.idle h
  have hc₁ : s₁.callers n = some c := (hsame n).trans hc
  have hposition : c.position = .called :=
    (h.callers.others n c hc).resolve_right (fun h => by cases h)
  obtain ⟨c', notifies, w, hstep, hawake⟩ := called_step hposition hfreed.mutex
  have hleads := leads_step hcall (h₁.callers.phase_called hc₁ hposition hcall) h₁.sound hstep
  have hleft₁ : c.call = .stop false → s₁.worker.status ≠ .Stop → s₁.worker.queue.tasks ≠ [] →
      ∀ n' c', s₁.callers n' = some c' → c'.call ≠ .flush := by
    intro hstopFalse hstop htasks n' c₁ hc'
    rw [hsame n'] at hc'
    rw [hfreed.queued] at htasks
    refine hleft hstopFalse (fun hstopped => hstop ?_) htasks n' c₁ hc'
    exact (hfreed.stands.status (.inl hstopped)).trans hstopped
  obtain ⟨s₂, hadvanced⟩ := h₁.advances tasks hc₁ (.inr rfl) hleft₁ hleads hstep hawake
  obtain ⟨s', hcompleted⟩ : ∃ s', Completed tasks n c s₁ s' := by
    cases c' with
    | none => exact ⟨s₂, hadvanced.completed (fun hflush => (hleads.flushed hflush rfl).1)⟩
    | some c₁ =>
      obtain ⟨s', hcompleted⟩ := hadvanced.inv.completes_control hstart
      exact ⟨s', hcompleted.after hadvanced.reaches hadvanced.others (hleads.call c₁ rfl).1⟩
  exact ⟨s', hcompleted.after hfreed.stands.reaches (fun n' _ => hsame n') rfl⟩

/-- A call of `addTask` returns. -/
theorem Inv.adds (h : Inv s none) (hstart : ∀ task, ∀ c ∈ tasks task, c = .start)
    (hc : s.callers n = some c) (hcall : c.call = .addTask) :
    ∃ s', Reaches tasks Internal s s' ∧ s'.callers n = none := by
  obtain ⟨s₁, hfreed⟩ := h.frees hstart
  have hc₁ : s₁.callers n = some c := ((hfreed.stands.idle h).2 n).trans hc
  have hposition : c.position = .called :=
    (h.callers.others n c hc).resolve_right (fun h => by cases h)
  obtain ⟨call, position, accepted⟩ := c
  obtain rfl : call = .addTask := hcall
  obtain rfl : position = .called := hposition
  have hs : s₁.callerStep n = some { s₁ with
      worker := addTaskSection s₁.worker
      callers := Function.update s₁.callers n none } := by
    unfold State.callerStep
    rw [hc₁]
    simp only [Option.bind_some, Call.step, hfreed.mutex, if_true, Option.map_some,
      Bool.false_eq_true, if_false]
  have hreaches := hfreed.stands.reaches.step (a := .moves (.caller n) false) trivial hs
  exact ⟨_, hreaches, Function.update_self ..⟩

/-- Every call of a caller returns: the one that has changed the status first, and a `flush` before
a `stop(false)`. -/
theorem Inv.caller_returns (h : Inv s control) (hstart : ∀ task, ∀ c ∈ tasks task, c = .start)
    (hc : s.callers n = some c) : ∃ s', Reaches tasks Internal s s' ∧ s'.callers n = none := by
  obtain ⟨s₁, hreaches, h₁, hc₁⟩ : ∃ s₁, Reaches tasks Internal s s₁ ∧ Inv s₁ none ∧
      (s₁.callers n = none ∨ s₁.callers n = some c) := by
    -- the call that has changed the status goes first
    cases control with
    | none => exact ⟨s, .refl, h, .inr hc⟩
    | some x =>
      obtain ⟨n₁, c₁⟩ := x
      obtain ⟨s₁, hcompleted⟩ := h.completes_control hstart
      refine ⟨s₁, hcompleted.reaches, hcompleted.inv, ?_⟩
      by_cases hn : n = n₁
      · rw [hn]
        exact .inl hcompleted.returned
      · exact .inr ((hcompleted.others n hn).trans hc)
  rcases hc₁ with hreturned | hc₁
  · exact ⟨s₁, hreaches, hreturned⟩
  by_cases hcall : c.call = .addTask
  · obtain ⟨s', hadds, hreturned⟩ := h₁.adds hstart hc₁ hcall
    exact ⟨s', hreaches.trans hadds, hreturned⟩
  -- a `flush` that is pending goes first: behind it there is nothing for `stop(false)` to leave
  by_cases hpending : c.call = .stop false ∧ ∃ n₂ c₂, s₁.callers n₂ = some c₂ ∧ c₂.call = .flush
  · obtain ⟨hstopFalse, n₂, c₂, hc₂, hflush⟩ := hpending
    have hn : n ≠ n₂ := by
      rintro rfl
      rw [hc₁] at hc₂
      cases hc₂
      rw [hflush] at hstopFalse
      cases hstopFalse
    have hnotAdds : c₂.call ≠ .addTask := by
      rw [hflush]
      decide
    obtain ⟨s₂, hflushed⟩ := h₁.completes_called hstart hc₂ hnotAdds (fun hstop => by
      rw [hflush] at hstop
      cases hstop)
    have hempty : s₂.worker.queue.tasks = [] := hflushed.flushed hflush
    have hc₂ : s₂.callers n = some c := (hflushed.others n hn).trans hc₁
    obtain ⟨s', hcompleted⟩ := hflushed.inv.completes_called hstart hc₂ hcall
      (fun _ _ htasks => absurd hempty htasks)
    exact ⟨s', (hreaches.trans hflushed.reaches).trans hcompleted.reaches, hcompleted.returned⟩
  · obtain ⟨s', hcompleted⟩ := h₁.completes_called hstart hc₁ hcall
      (fun hstopFalse _ _ n₂ c₂ hc₂ hflush => hpending ⟨hstopFalse, n₂, c₂, hc₂, hflush⟩)
    exact ⟨s', hreaches.trans hcompleted.reaches, hcompleted.returned⟩

/-- The call of a task returns. -/
theorem Inv.task_returns (h : Inv s control) (hstart : ∀ task, ∀ c ∈ tasks task, c = .start)
    (hc : s.call (.worker m) = some c) :
    ∃ s', Reaches tasks Internal s s' ∧ s'.call (.worker m) = none := by
  obtain ⟨task, calls, hat⟩ := WorkerCalls.call_worker hc
  have hm : Alive m s.worker := by
    refine ⟨?_, Bool.eq_false_iff.mpr fun hexited =>
      h.threads.ended m task calls (some c) hexited hat⟩
    by_contra hnew
    rw [h.threads.fresh m (Nat.le_of_not_lt hnew)] at hat
    cases hat
  obtain ⟨s', hreturns, -, hat'⟩ := h.returns hstart hm hat
  exact ⟨s', hreturns.reaches, call_running hat'⟩

end Completion

/-- **The calls on a worker return**, and a `flush` behind all the tasks that were there before it,
in every run in which no task calls `stop`, `flush` or `addTask` on its own worker, the calls that
change the status do so one at a time, and no `flush` is under way on a worker that `stop(false)`
leaves with tasks. -/
theorem calls_return {n : Nat} (hstart : ∀ task, ∀ c ∈ tasks task, c = .start)
    (hreaches : Reaches tasks Ordered (constructed n) s) :
    (∀ t c, s.call t = some c → ∃ s', Reaches tasks Internal s s' ∧ s'.call t = none) ∧
    ∀ t c threw s', s.call t = some c → c.call = .flush → Ordered s (.moves t threw) →
      step tasks s (.moves t threw) = some s' → s'.call t = none →
      ∀ x ∈ c.accepted, x ∈ s'.worker.queue.executed.map Prod.fst ∨ x ∈ s'.worker.queue.cleared := by
  obtain ⟨control, h⟩ := inv_of_reaches hstart hreaches
  refine ⟨fun t c hc => ?_, fun t c threw s' hc hflush hordered hs hreturned =>
    h.flushed hstart hordered hc hflush hs hreturned⟩
  cases t with
  | caller n => exact h.caller_returns hstart hc
  | worker m => exact h.task_returns hstart hc

/-- Such as a `flush` of a worker that has still a task to take. -/
theorem calls_return_flushing : ∃ s, Reaches (fun _ => [.start]) Ordered (constructed 1) s ∧
    s.call (.caller 0) = some ⟨.flush, .waiting, [0]⟩ ∧
    ∃ s', Reaches (fun _ => [.start]) Internal s s' ∧ s'.call (.caller 0) = none := by
  have hconstructed : Reaches (fun _ => [.start]) Ordered (constructed 1) (constructed 1) := .refl
  have hreaches := (hconstructed.step (a := .begins 0 .flush) (fun _ h => by cases h) rfl).step
    (a := .moves (.caller 0) false) ?_ rfl
  · exact ⟨_, hreaches, rfl,
      (calls_return (fun _ c hc => List.mem_singleton.mp hc) hreaches).1 _ _ rfl⟩
  · rintro c hc - -
    cases hc
    refine ⟨fun n' c' hc' => ?_, fun hstop => by cases hstop⟩
    cases n' with
    | zero =>
      cases hc'
      rfl
    | succ n => cases hc'

/-! ## What gets stuck -/

theorem step_mutex {c : Call} {c' : Option Call} {notifies : Bool} {w w' : WorkerState CallThread}
    (hstep : c.step w = some (c', notifies, w')) : w'.mutex = w.mutex := by
  obtain ⟨call, position, accepted⟩ := c
  cases call with
  | start =>
    cases position <;> cases hstep <;> rfl
  | stop clearQueue =>
    cases position with
    | called =>
      simp only [Call.step, Option.ite_none_right_eq_some, Option.some.injEq, Prod.mk.injEq] at hstep
      obtain ⟨hfree, -, -, rfl⟩ := hstep
      exact (keeps_stopSection clearQueue hfree).mutex
    | joining =>
      cases hstep
      rfl
    | joins =>
      simp only [Call.step] at hstep
      split at hstep
      · simp only [Option.ite_none_right_eq_some, Option.some.injEq, Prod.mk.injEq] at hstep
        obtain ⟨-, -, -, rfl⟩ := hstep
        rfl
      · cases hstep
    | storing | spawning | waiting | asleep => cases hstep
  | flush =>
    cases position with
    | called =>
      simp only [Call.step, Option.ite_none_right_eq_some, Option.some.injEq, Prod.mk.injEq] at hstep
      obtain ⟨-, -, -, rfl⟩ := hstep
      unfold flushSection
      split <;> rfl
    | waiting =>
      simp only [Call.step, Option.ite_none_right_eq_some, Option.some.injEq, Prod.mk.injEq] at hstep
      obtain ⟨-, -, -, rfl⟩ := hstep
      rfl
    | joining =>
      cases hstep
      rfl
    | joins =>
      simp only [Call.step] at hstep
      split at hstep
      · simp only [Option.ite_none_right_eq_some, Option.some.injEq, Prod.mk.injEq] at hstep
        obtain ⟨-, -, -, rfl⟩ := hstep
        rfl
      · cases hstep
    | storing | spawning | asleep => cases hstep
  | addTask =>
    cases position with
    | called =>
      simp only [Call.step, Option.ite_none_right_eq_some, Option.some.injEq, Prod.mk.injEq] at hstep
      obtain ⟨-, -, -, rfl⟩ := hstep
      exact keeps_addTaskSection.mutex
    | storing | spawning | waiting | asleep | joining | joins => cases hstep

/-- Thread `m` executes a task that has called `stop`, `flush` or `addTask` on its own worker, and
waits for the mutex that it has itself. -/
structure Blocked (m : Nat) (c : Call) (s : State) : Prop where
  mutex : s.worker.mutex = some (.worker m)
  call : c.call ≠ .start
  position : c.position = .called
  running : ∃ task calls, s.threads m = .running task calls (some c)
  others : ∀ m' task calls call, m' ≠ m → s.threads m' ≠ .running task calls call

/-- Whatever anybody does, it goes on waiting. -/
theorem Blocked.step {c : Call} {a : Action} (h : Blocked m c s)
    (hs : WorkerCalls.step tasks s a = some s') : Blocked m c s' := by
  have hheld : s.worker.mutex ≠ none := by
    rw [h.mutex]
    simp
  cases a with
  | begins n call =>
    simp only [WorkerCalls.step, Option.ite_none_right_eq_some, Option.some.injEq] at hs
    obtain ⟨-, rfl⟩ := hs
    exact ⟨h.mutex, h.call, h.position, h.running, h.others⟩
  | wakes n =>
    obtain ⟨c₁, -, hs⟩ := Option.bind_eq_some_iff.mp hs
    rw [Option.ite_none_right_eq_some] at hs
    obtain ⟨-, heq⟩ := hs
    cases heq
    exact ⟨h.mutex, h.call, h.position, h.running, h.others⟩
  | moves t threw =>
    cases t with
    | caller n =>
      obtain ⟨c₁, -, hs⟩ := Option.bind_eq_some_iff.mp hs
      obtain ⟨⟨c', notifies, w⟩, hstep, heq⟩ := Option.map_eq_some_iff.mp hs
      have hmutex : w.mutex = some (.worker m) := (step_mutex hstep).trans h.mutex
      cases heq
      cases notifies <;> exact ⟨hmutex, h.call, h.position, h.running, h.others⟩
    | worker m' =>
      simp only [WorkerCalls.step, Option.ite_none_right_eq_some] at hs
      obtain ⟨-, hs⟩ := hs
      unfold State.threadStep at hs
      by_cases hm : m' = m
      · subst hm
        -- its own step is that of the call, and the mutex is taken
        obtain ⟨task, calls, hat⟩ := h.running
        have hstuck : c.step s.worker = none := by
          obtain ⟨call, position, accepted⟩ := c
          obtain rfl : position = .called := h.position
          cases call with
          | start => exact absurd rfl h.call
          | stop clearQueue => exact if_neg hheld
          | flush => exact if_neg hheld
          | addTask => exact if_neg hheld
        simp only [hat, hstuck, Option.map_none] at hs
        cases hs
      -- another thread can only go on outside of a task, or end
      · have hgoesOn : ∀ at_, (∀ task calls call, at_ ≠ .running task calls call) →
            Blocked m c (s.goesOn m' at_) := by
          intro at_ hoff
          obtain ⟨task, calls, hat⟩ := h.running
          refine ⟨h.mutex, h.call, h.position, ⟨task, calls, ?_⟩,
            fun m₁ task₁ calls₁ call₁ hm₁ => ?_⟩
          · exact (Function.update_of_ne (Ne.symm hm) _ _).trans hat
          · show Function.update s.threads m' at_ m₁ ≠ _
            by_cases hmm : m₁ = m'
            · subst hmm
              rw [Function.update_self]
              exact hoff task₁ calls₁ call₁
            · rw [Function.update_of_ne hmm]
              exact h.others m₁ task₁ calls₁ call₁ hm₁
        cases hat : s.threads m' with
        | test =>
          rw [hat] at hs
          cases hs
          by_cases hstop : s.worker.status = .Stop
          · rw [if_pos hstop]
            exact ⟨h.mutex, h.call, h.position, h.running, h.others⟩
          · rw [if_neg hstop]
            exact hgoesOn .lock (fun _ _ _ h => by cases h)
        | lock =>
          simp only [hat, if_neg hheld] at hs
          cases hs
        | asleep =>
          simp only [hat, if_neg hheld] at hs
          cases hs
        | running task calls call => exact absurd hat (h.others m' task calls call hm)

/-- A worker that has been stopped with tasks in its queue, and then flushed: no thread is left to
take them. -/
structure Stranded (n : Nat) (s : State) : Prop where
  ended : ∀ m, m < s.worker.spawned → s.worker.exited m = true
  queued : s.worker.queue.tasks ≠ []
  caller : ∃ c, s.callers n = some c ∧ c.call = .flush ∧
    (c.position = .waiting ∨ c.position = .asleep)
  others : ∀ n', n' ≠ n → s.callers n' = none

/-- The `flush` waits as long as nobody calls anything. -/
theorem Stranded.step {n : Nat} {a : Action} (h : Stranded n s)
    (hcalls : ∀ n' call, a ≠ .begins n' call) (hs : WorkerCalls.step tasks s a = some s') :
    Stranded n s' := by
  have hcaller : ∀ c, c.call = .flush → (c.position = .waiting ∨ c.position = .asleep) →
      Stranded n { s with callers := Function.update s.callers n (some c) } := by
    intro c hflush hposition
    refine ⟨h.ended, h.queued, ⟨c, Function.update_self .., hflush, hposition⟩, fun n' hn => ?_⟩
    exact (Function.update_of_ne hn _ _).trans (h.others n' hn)
  cases a with
  | begins n' call => exact absurd rfl (hcalls n' call)
  | wakes n' =>
    obtain ⟨c₁, hc₁, hs⟩ := Option.bind_eq_some_iff.mp hs
    rw [Option.ite_none_right_eq_some] at hs
    obtain ⟨-, heq⟩ := hs
    cases heq
    by_cases hn : n' = n
    · subst hn
      obtain ⟨c, hc, hflush, -⟩ := h.caller
      rw [hc] at hc₁
      cases hc₁
      exact hcaller _ hflush (.inl rfl)
    · rw [h.others n' hn] at hc₁
      cases hc₁
  | moves t threw =>
    cases t with
    | worker m =>
      simp only [WorkerCalls.step, Option.ite_none_right_eq_some] at hs
      obtain ⟨⟨hm, hexited⟩, -⟩ := hs
      rw [h.ended m hm] at hexited
      cases hexited
    | caller n' =>
      obtain ⟨c₁, hc₁, hs⟩ := Option.bind_eq_some_iff.mp hs
      obtain ⟨⟨c', notifies, w⟩, hstep, heq⟩ := Option.map_eq_some_iff.mp hs
      by_cases hn : n' = n
      · subst hn
        obtain ⟨c, hc, hflush, hposition⟩ := h.caller
        rw [hc] at hc₁
        cases hc₁
        obtain ⟨call, position, accepted⟩ := c₁
        obtain rfl : call = .flush := hflush
        -- it looks at the queue, finds the task there, and sleeps again
        rcases hposition with hposition | hposition
        · obtain rfl : position = .waiting := hposition
          simp only [Call.step, if_neg h.queued, Option.ite_none_right_eq_some, Option.some.injEq,
            Prod.mk.injEq] at hstep
          obtain ⟨-, rfl, rfl, rfl⟩ := hstep
          cases heq
          exact hcaller _ rfl (.inr rfl)
        · obtain rfl : position = .asleep := hposition
          cases hstep
      · rw [h.others n' hn] at hc₁
        cases hc₁

theorem blocked_reached : ∃ s, Reaches (fun _ => [.addTask]) (fun _ _ => True) (constructed 1) s ∧
    Blocked 0 ⟨.addTask, .called, [0]⟩ s := by
  have hconstructed : Reaches (fun _ => [.addTask]) (fun _ _ => True) (constructed 1)
      (constructed 1) := .refl
  have htakes := (hconstructed.step (a := .moves (.worker 0) false) trivial rfl).step
    (a := .moves (.worker 0) false) trivial rfl
  refine ⟨_, htakes.step (a := .moves (.worker 0) false) trivial rfl, rfl, (by decide), rfl,
    ⟨0, [], rfl⟩, fun m task calls call hm hat => ?_⟩
  cases m with
  | zero => exact hm rfl
  | succ m => cases hat

theorem stranded_reached : ∃ s, Reaches (fun _ => []) (fun _ _ => True) (constructed 1) s ∧
    s.call (.caller 0) = some ⟨.flush, .asleep, [0]⟩ ∧ Stranded 0 s := by
  have hconstructed : Reaches (fun _ => []) (fun _ _ => True) (constructed 1) (constructed 1) :=
    .refl
  -- `stop(false)` before the thread has taken the task
  have hstops := (hconstructed.step (a := .begins 0 (.stop false)) trivial rfl).step
    (a := .moves (.caller 0) false) trivial rfl
  have hstopped := ((hstops.step (a := .moves (.worker 0) false) trivial rfl).step
    (a := .moves (.caller 0) false) trivial rfl).step (a := .moves (.caller 0) false) trivial rfl
  have hflushes := ((hstopped.step (a := .begins 0 .flush) trivial rfl).step
    (a := .moves (.caller 0) false) trivial rfl).step (a := .moves (.caller 0) false) trivial rfl
  refine ⟨_, hflushes, rfl, fun m hm => ?_, List.cons_ne_nil 0 [], ⟨_, rfl, rfl, .inr rfl⟩,
    fun n hn => ?_⟩
  · obtain rfl : m = 0 := Nat.lt_one_iff.mp hm
    rfl
  · cases n with
    | zero => exact absurd rfl hn
    | succ n => rfl

/-- **A call can wait for ever**: a task that adds another to its own worker; a `flush` behind
`stop(false)`. And a `flush` beside another returns while the task is still in the queue. -/
theorem calls_stuck :
    (∃ s c, Reaches (fun _ => [.addTask]) (fun _ _ => True) (constructed 1) s ∧
      s.call (.worker 0) = some c ∧
      ∀ s', Reaches (fun _ => [.addTask]) (fun _ _ => True) s s' → s'.call (.worker 0) = some c) ∧
    (∃ s, Reaches (fun _ => []) (fun _ _ => True) (constructed 1) s ∧
      s.call (.caller 0) = some ⟨.flush, .asleep, [0]⟩ ∧
      ∀ s', Reaches (fun _ => []) (fun _ a => ∀ n call, a ≠ .begins n call) s s' →
        s'.call (.caller 0) ≠ none) ∧
    ∃ s s', Reaches (fun _ => []) (fun _ _ => True) (constructed 1) s ∧
      s.call (.caller 1) = some ⟨.flush, .called, [0]⟩ ∧
      step (fun _ => []) s (.moves (.caller 1) false) = some s' ∧ s'.call (.caller 1) = none ∧
      s'.worker.queue.tasks = [0] ∧ s'.worker.queue.executed = [] ∧
      s'.worker.queue.cleared = [] := by
  refine ⟨?_, ?_, ?_⟩
  · obtain ⟨s, hreaches, hblocked⟩ := blocked_reached
    have hwaits : ∀ s', Blocked 0 ⟨.addTask, .called, [0]⟩ s' →
        s'.call (.worker 0) = some ⟨.addTask, .called, [0]⟩ := by
      intro s' h
      obtain ⟨task, calls, hat⟩ := h.running
      exact call_running hat
    refine ⟨s, _, hreaches, hwaits s hblocked, fun s' hs' => hwaits s' ?_⟩
    induction hs' with
    | refl => exact hblocked
    | step _ _ hstep ih => exact ih.step hstep
  · obtain ⟨s, hreaches, hcall, hstranded⟩ := stranded_reached
    refine ⟨s, hreaches, hcall, fun s' hs' => ?_⟩
    have hstill : Stranded 0 s' := by
      induction hs' with
      | refl => exact hstranded
      | step _ hcalls hstep ih => exact ih.step hcalls hstep
    obtain ⟨c, hc, -⟩ := hstill.caller
    rw [show s'.call (.caller 0) = some c from hc]
    simp
  · have hconstructed : Reaches (fun _ => []) (fun _ _ => True) (constructed 1) (constructed 1) :=
      .refl
    have hflushes := (hconstructed.step (a := .begins 0 .flush) trivial rfl).step
      (a := .moves (.caller 0) false) trivial rfl
    exact ⟨_, _, hflushes.step (a := .begins 1 .flush) trivial rfl, rfl, rfl, rfl, rfl, rfl, rfl⟩

end NetworkApplication.WorkerCalls
