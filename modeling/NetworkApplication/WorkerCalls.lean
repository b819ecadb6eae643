/-
The calls on a worker.

`start`, `stop`, `flush` and `addTask` may be called by any number of threads, and by the
tasks of the worker themselves: a task is executed by the worker's thread, under the mutex.
Here a call is known to be under way from where it begins to where it returns, so that it can
be said which calls are stuck.

What a function does from its lock to its unlock is one step here, a section: a function of
the worker's state. The functions of `Worker.lean` are cut at their sections, and each section
is what its part of the program does when nobody steps in between. What stays apart are the
accesses without the mutex, those of `start` and of the test of the thread's loop, and the
waits. A `flush` that finds tasks in the queue sleeps until it is notified; the worker's own
wait has a timeout.
-/
import NetworkApplication.Worker

set_option autoImplicit false

namespace NetworkApplication.WorkerCalls

open NetworkApplication.Program

/-! ## The sections -/

section Sections

variable {T : Type}

/-- `stop`, from its lock to its unlock, and whether it goes on to join. -/
def stopSection (clearQueue : Bool) (w : WorkerState T) : Bool × WorkerState T :=
  if w.status = .Stop then (false, w)
  else (true, { w with status := .Stop, queue := if clearQueue then w.queue.clear else w.queue })

/-- `flush`, from its first lock to its first unlock, and whether it goes on to wait. -/
def flushSection (w : WorkerState T) : Bool × WorkerState T :=
  if w.status = .Flush then (false, w) else (true, { w with status := .Flush })

/-- `addTask`. -/
def addTaskSection (w : WorkerState T) : WorkerState T :=
  if w.status = .Stop ∨ w.status = .Flush then w else { w with queue := w.queue.push }

/-- `runThreadTask` from where `wait_for` returns to the task, or to the unlock if there is
none to execute; nothing for `tasks.front()` on an empty queue. -/
def nextSection (w : WorkerState T) : Option (Worker.Next × WorkerState T) :=
  if w.status = .Stop then some (.leave, w)
  else if !w.workReady then some (.again, w)
  else if w.status = .Flush ∧ w.queue.tasks = [] then some (.leave, w)
  else
    match w.queue.tasks with
    | [] => none
    | task :: rest => some (.task task, { w with
        status := if w.status = .Flush then .Flush else .Work
        queue := { w.queue with tasks := rest, current_task := some task } })

/-- `runThreadTask` from the end of the task to the unlock, and whether the loop goes on. -/
def endSection (task : Nat) (threw : Bool) (w : WorkerState T) : Bool × WorkerState T :=
  let q := { w.queue with
    executed := w.queue.executed ++ [(task, threw)]
    taskStatus := Function.update w.queue.taskStatus task (if threw then .Error else .Success) }
  if w.status = .Stop then (false, { w with queue := q })
  else (true, { w with
    status := if q.tasks = [] ∧ w.status ≠ .Flush then .Wait else w.status
    queue := { q with current_task := none } })

end Sections

/-! ## The functions, cut at their sections -/

section Programs

open Worker

/-- `stop` up to its unlock. -/
def stopLocked (clearQueue : Bool) : WorkerProg Bool := do
  WorkerOp.lock.perform
  let stopped ← statusIs .Stop
  if stopped then
    WorkerOp.unlock.perform
    return false
  else
    changeStatusWorker .Stop
    Prog.when clearQueue WorkerOp.clear.perform
    WorkerOp.unlock.perform
    return true

theorem stop_eq (clearQueue : Bool) :
    stop clearQueue = stopLocked clearQueue >>= fun joins => Prog.when joins joinThread := by
  unfold stop stopLocked
  rw [Prog.bind_assoc']
  refine congrArg (WorkerOp.lock.perform >>= ·) (funext fun _ => ?_)
  rw [Prog.bind_assoc']
  refine congrArg (statusIs .Stop >>= ·) (funext fun stopped => ?_)
  cases stopped with
  | true => rfl
  | false =>
    simp only [Bool.false_eq_true, if_false, Prog.bind_assoc']
    rfl

/-- `flush` up to its first unlock. -/
def flushLocked : WorkerProg Bool := do
  WorkerOp.lock.perform
  let flushed ← statusIs .Flush
  if flushed then
    WorkerOp.unlock.perform
    return false
  else
    changeStatusWorker .Flush
    WorkerOp.unlock.perform
    return true

/-- The wait of `flush`. -/
def waitEmpty : WorkerProg Unit := do
  WorkerOp.lock.perform
  let empty ← WorkerOp.isEmpty.perform
  Prog.when (!empty) (do
    WorkerOp.unlock.perform
    WorkerOp.wakeEmpty.perform)
  WorkerOp.unlock.perform

theorem flush_eq :
    flush = flushLocked >>= fun waits => Prog.when waits (waitEmpty >>= fun _ => joinThread) := by
  unfold flush flushLocked waitEmpty
  rw [Prog.bind_assoc']
  refine congrArg (WorkerOp.lock.perform >>= ·) (funext fun _ => ?_)
  rw [Prog.bind_assoc']
  refine congrArg (statusIs .Flush >>= ·) (funext fun flushed => ?_)
  cases flushed with
  | true => rfl
  | false =>
    simp only [Bool.false_eq_true, if_false, Prog.bind_assoc']
    rfl

/-- `runThreadTask` from where `wait_for` returns. -/
def afterWait (success : Bool) : WorkerProg Next := do
  let stopped ← statusIs .Stop
  if !success || stopped then
    WorkerOp.unlock.perform
    return if stopped then .leave else .again
  let flushed ← statusIs .Flush
  let empty ← WorkerOp.isEmpty.perform
  if flushed && empty then
    WorkerOp.unlock.perform
    return .leave
  let flushed ← statusIs .Flush
  Prog.when (!empty && !flushed) (changeStatusWorker .Work)
  match ← WorkerOp.takeFront.perform with
  | none => Prog.crash
  | some task => return .task task

theorem nextTask_eq : nextTask = (do
    if ← statusIs .Stop then
      return .leave
    WorkerOp.lock.perform
    waitFor >>= afterWait) := rfl

/-- What a part of a function does if nobody steps in between. -/
abbrev alone {T α : Type} (t : T) (p : WorkerProg α) (w : WorkerState T) :
    Option (Outcome Exception α × WorkerState T) :=
  Prog.run (Worker.sem t) (fun _ _ => .go) p w

variable {T : Type} {t : T} {w : WorkerState T}

theorem stopLocked_alone (clearQueue : Bool) (hfree : w.mutex = none) :
    alone t (stopLocked clearQueue) w
      = some (.ok (stopSection clearQueue w).1, (stopSection clearQueue w).2) := by
  obtain ⟨status, mutex, queue, thread, spawned, exited⟩ := w
  obtain rfl : mutex = none := hfree
  cases status <;> cases clearQueue <;> rfl

theorem flushLocked_alone (hfree : w.mutex = none) :
    alone t flushLocked w = some (.ok (flushSection w).1, (flushSection w).2) := by
  obtain ⟨status, mutex, queue, thread, spawned, exited⟩ := w
  obtain rfl : mutex = none := hfree
  cases status <;> rfl

theorem addTask_alone (hfree : w.mutex = none) :
    alone t addTask w = some (.ok (), addTaskSection w) := by
  obtain ⟨status, mutex, queue, thread, spawned, exited⟩ := w
  obtain rfl : mutex = none := hfree
  cases status <;> rfl

/-- The thread has the mutex when `wait_for` returns, and keeps it if there is a task. -/
theorem afterWait_alone {next : Next} {w' : WorkerState T} (hmutex : w.mutex = some t)
    (h : nextSection w = some (next, w')) :
    alone t (afterWait w.workReady) w = some (.ok next, match next with
      | .task _ => w'
      | _ => { w' with mutex := none }) := by
  obtain ⟨status, mutex, ⟨tasks, current_task, taskStatus, accepted, executed, cleared⟩, thread,
    spawned, exited⟩ := w
  obtain rfl : mutex = some t := hmutex
  cases status <;> cases tasks <;> cases h <;> rfl

theorem taskEnded_alone (task : Nat) (threw : Bool) (hmutex : w.mutex = some t) :
    alone t (taskEnded task threw)
      { w with queue := { w.queue with executed := w.queue.executed ++ [(task, threw)] } }
      = some (.ok (endSection task threw w).1,
        { (endSection task threw w).2 with mutex := none }) := by
  obtain ⟨status, mutex, ⟨tasks, current_task, taskStatus, accepted, executed, cleared⟩, thread,
    spawned, exited⟩ := w
  obtain rfl : mutex = some t := hmutex
  cases status <;> cases tasks <;> rfl

end Programs

/-! ## The calls -/

/-- What is called on a worker. -/
inductive WorkerCall where
  | start
  | stop (clearQueue : Bool)
  | flush
  | addTask
  deriving DecidableEq

/-- The threads that call, and the threads of the worker. -/
inductive CallThread where
  | caller (n : Nat)
  | worker (m : Nat)
  deriving DecidableEq

/-- Where a call is: in front of its first section or access; `start` in front of its store of
`Wait` and of the new thread; `flush` in front of its wait and asleep in it; `stop` and `flush`
in front of the test of `joinable()` and of `join()`. -/
inductive Position where
  | called
  | storing
  | spawning
  | waiting
  | asleep
  | joining
  | joins
  deriving DecidableEq

/-- A call that is under way, and the tasks that had been accepted when it began. -/
structure Call where
  call : WorkerCall
  position : Position
  accepted : List Nat

/-- The call goes on at `p`. -/
def Call.goesOn (c : Call) (p : Position) : Call := { c with position := p }

/-- A `flush` that is asleep looks at the queue again. -/
def Call.wake (c : Call) : Call := if c.position = .asleep then c.goesOn .waiting else c

/-- The next step of a call: where it is then, unless it returns, whether it has called
`notify_all()`, and the worker. -/
def Call.step (c : Call) (w : WorkerState CallThread) :
    Option (Option Call × Bool × WorkerState CallThread) :=
  match c.call, c.position with
  | .start, .called =>
    some (if w.status = .Stop then some (c.goesOn .storing) else none, false, w)
  | .start, .storing => some (some (c.goesOn .spawning), false, { w with status := .Wait })
  | .start, .spawning =>
    -- an old handle that is still joinable would end the program
    some (none, false, { w with thread := some w.spawned, spawned := w.spawned + 1 })
  | .stop clearQueue, .called =>
    if w.mutex = none then
      let (joins, w') := stopSection clearQueue w
      some (if joins then some (c.goesOn .joining) else none, joins, w')
    else none
  | .flush, .called =>
    if w.mutex = none then
      let (waits, w') := flushSection w
      some (if waits then some (c.goesOn .waiting) else none, waits, w')
    else none
  | .flush, .waiting =>
    if w.mutex = none then
      some (some (c.goesOn (if w.queue.tasks = [] then .joining else .asleep)), false, w)
    else none
  | .stop _, .joining | .flush, .joining =>
    some (if w.thread.isSome then some (c.goesOn .joins) else none, false, w)
  | .stop _, .joins | .flush, .joins =>
    match w.thread with
    | some m => if w.exited m then some (none, false, { w with thread := none }) else none
    -- another call has taken the handle away
    | none => none
  | .addTask, .called => if w.mutex = none then some (none, false, addTaskSection w) else none
  | _, _ => none

/-! ## The threads -/

/-- Where a thread of the worker is: at the test of its loop, in front of the lock, asleep in
`wait_for`, or in a task, with the calls that the task has still to make and the one that is
under way. -/
inductive ThreadAt where
  | test
  | lock
  | asleep
  | running (task : Nat) (calls : List WorkerCall) (call : Option Call)

/-- The worker, the threads that call, and its own threads. -/
structure State where
  worker : WorkerState CallThread
  callers : Nat → Option Call
  threads : Nat → ThreadAt

namespace State

/-- The call that thread `t` is in. -/
def call (s : State) : CallThread → Option Call
  | .caller n => s.callers n
  | .worker m =>
    match s.threads m with
    | .running _ _ call => call
    | _ => none

/-- `cv_tasks_data.notify_all()`. A thread of the worker wakes anyway when its time is up. -/
def notifyAll (s : State) : State :=
  { s with callers := fun n => (s.callers n).map Call.wake }

/-- Thread `m` goes on. -/
def goesOn (s : State) (m : Nat) (at_ : ThreadAt) : State :=
  { s with threads := Function.update s.threads m at_ }

/-- Thread `m` ends. -/
def exit (s : State) (m : Nat) : State :=
  { s with worker := { s.worker with exited := Function.update s.worker.exited m true } }

variable (tasks : Nat → List WorkerCall)

/-- Thread `m` comes out of `wait_for` with the mutex, and keeps it for a task. -/
def next (s : State) (m : Nat) : Option State :=
  (nextSection s.worker).map (fun (next, w) =>
    match next with
    | .leave => { s with worker := w }.exit m
    | .again => { s with worker := w }.goesOn m .test
    | .task task =>
      { s with worker := { w with mutex := some (.worker m) } }.goesOn m
        (.running task (tasks task) none))

/-- Thread `m` has made the calls of the task. -/
def taskEnded (s : State) (m task : Nat) (threw : Bool) : State :=
  let (again, w) := endSection task threw s.worker
  let s' := { s with worker := { w with mutex := none } }
  if again then
    if w.queue.tasks = [] then (s'.goesOn m .test).notifyAll else s'.goesOn m .test
  else s'.exit m

/-- The next step of thread `m`. -/
def threadStep (s : State) (m : Nat) (threw : Bool) : Option State :=
  match s.threads m with
  | .test => some (if s.worker.status = .Stop then s.exit m else s.goesOn m .lock)
  | .lock =>
    if s.worker.mutex = none then
      if s.worker.workReady then s.next tasks m else some (s.goesOn m .asleep)
    else none
  | .asleep => if s.worker.mutex = none then s.next tasks m else none
  | .running task calls (some c) =>
    (c.step s.worker).map (fun (c', notifies, w) =>
      let s' := { s with worker := w }.goesOn m (.running task calls c')
      if notifies then s'.notifyAll else s')
  | .running task (call :: calls) none =>
    some (s.goesOn m (.running task calls (some ⟨call, .called, s.worker.queue.accepted⟩)))
  | .running task [] none => some (s.taskEnded m task threw)

/-- The next step of caller `n`. -/
def callerStep (s : State) (n : Nat) : Option State :=
  (s.callers n).bind (fun c => (c.step s.worker).map (fun (c', notifies, w) =>
    let s' := { s with worker := w, callers := Function.update s.callers n c' }
    if notifies then s'.notifyAll else s'))

end State

/-- What can happen next: a thread calls a function; a thread makes its next step, which may be
the end of a task that has thrown; a `flush` that is asleep wakes for no reason or because of
the `notify_one()` of `addTask`. -/
inductive Action where
  | begins (n : Nat) (call : WorkerCall)
  | moves (t : CallThread) (threw : Bool)
  | wakes (n : Nat)

/-- One step. -/
def step (tasks : Nat → List WorkerCall) (s : State) : Action → Option State
  | .begins n call =>
    if (s.callers n).isNone then
      some { s with callers :=
        Function.update s.callers n (some ⟨call, .called, s.worker.queue.accepted⟩) }
    else none
  | .moves (.caller n) _ => s.callerStep n
  | .moves (.worker m) threw =>
    if m < s.worker.spawned ∧ s.worker.exited m = false then s.threadStep tasks m threw else none
  | .wakes n =>
    (s.callers n).bind (fun c =>
      if c.position = .asleep then
        some { s with callers := Function.update s.callers n (some (c.goesOn .waiting)) }
      else none)

/-- A worker that has been constructed with `n` tasks in its queue. -/
def constructed (n : Nat) : State where
  worker := { WorkerState.new n with status := .Wait, thread := some 0, spawned := 1 }
  callers := fun _ => none
  threads := fun _ => .test

/-- The worker is what `start` makes of one that has no thread yet. -/
theorem start_constructed {t : CallThread} (n : Nat) :
    alone t Worker.start (.new n) = some (.ok (), (constructed n).worker) := rfl

/-- The states that runs from `s` with such steps reach. -/
inductive Reaches (tasks : Nat → List WorkerCall) (Allowed : State → Action → Prop) (s : State) :
    State → Prop where
  | refl : Reaches tasks Allowed s s
  | step {s₁ s₂ : State} {a : Action} : Reaches tasks Allowed s s₁ → Allowed s₁ a →
      step tasks s₁ a = some s₂ → Reaches tasks Allowed s s₂

/-- The calls that change the status: `start` on a worker that is stopped, `stop` on one that is
not. A `flush` always counts: beside another it returns before its time. -/
def Effective (w : WorkerState CallThread) : WorkerCall → Prop
  | .start => w.status = .Stop
  | .stop _ => w.status ≠ .Stop
  | .flush => True
  | .addTask => False

/-- The condition on a step. The calls that change the status do so one at a time: no other is
on its way from there to its return. And no `flush` is under way on a worker that `stop(false)`
leaves with tasks in its queue. -/
def Ordered (s : State) : Action → Prop
  | .begins _ call => call = .flush → s.worker.status = .Stop → s.worker.queue.tasks = []
  | .moves (.caller n) _ => ∀ c, s.callers n = some c → c.position = .called →
    Effective s.worker c.call → (∀ n' c', s.callers n' = some c' → c'.position = .called) ∧
      (c.call = .stop false → s.worker.queue.tasks ≠ [] →
        ∀ n' c', s.callers n' = some c' → c'.call ≠ .flush)
  | _ => True

end NetworkApplication.WorkerCalls
