/-
`core/worker`: `Worker`, its task queue and its thread.

One mutex guards the queue, the current task and the statuses of the tasks; the
worker's thread holds it while a task runs, and gives it up only in `wait_for`. The
status is atomic and is read without the mutex in two places: in `start`, which also
stores it without the mutex, and in the test of the thread's loop. So an operation here
is a lock, an unlock, one access to the status, or one access to what the mutex guards.

A wait on the condition variable is an unlock and, later, a wake-up that takes the mutex
back. A wake-up may be spurious, so a waiter may wake at any time the mutex is free; what
`notify_one` and `notify_all` do is then nothing more, and they are not operations. What
counts is what the waiter finds when it has the mutex: `wait(lock, pred)` goes on only
with `pred` true, and `wait_for(lock, time, pred)` with whatever `pred` gives then.

A task is known by the number of tasks accepted before it. Whether it throws is a choice
of the environment. The history of the queue (what was accepted, executed, cleared) is
kept beside it, and no program reads it.
-/
import NetworkApplication.Pool
import NetworkApplication.Json

set_option autoImplicit false

namespace NetworkApplication

open NetworkApplication.Program NetworkApplication.Pool

/-- `enum class StatusTask`. -/
inductive StatusTask where
  | Success
  | Work
  | Error
  deriving DecidableEq

/-- `enum class StatusWorker`. -/
inductive StatusWorker where
  | Wait
  | Work
  | Flush
  | Stop
  deriving DecidableEq

/-- What the mutex guards; `accepted`, `executed` (with whether the task threw) and
`cleared` are history. -/
structure TaskQueue where
  tasks : List Nat
  current_task : Option Nat
  taskStatus : Nat → StatusTask
  accepted : List Nat
  executed : List (Nat × Bool)
  cleared : List Nat

/-- The members of a `Worker` whose callers are threads of type `T`. The threads the
worker has ever had are numbered; `thread` is the handle of the one it has now. -/
structure WorkerState (T : Type) where
  status : StatusWorker
  mutex : Option T
  queue : TaskQueue
  thread : Option Nat
  spawned : Nat
  exited : Nat → Bool

namespace TaskQueue

/-- A queue with the first `n` tasks in it. -/
def ofTasks (n : Nat) : TaskQueue :=
  ⟨List.range n, none, fun _ => .Work, List.range n, [], []⟩

/-- `tasks.push(task)`. -/
def push (q : TaskQueue) : TaskQueue :=
  { q with tasks := q.tasks ++ [q.accepted.length], accepted := q.accepted ++ [q.accepted.length] }

/-- `tasks = {}; current_task.reset();`. -/
def clear (q : TaskQueue) : TaskQueue :=
  { q with tasks := [], current_task := none, cleared := q.cleared ++ q.tasks }

/-- `getSizeQueue`, under the mutex. -/
def size (q : TaskQueue) : Nat := q.tasks.length + if q.current_task.isSome then 1 else 0

end TaskQueue

namespace WorkerState

variable {T : Type}

/-- A worker whose constructor has not called `start()` yet, with `n` tasks. -/
def new (n : Nat) : WorkerState T := ⟨.Stop, none, .ofTasks n, none, 0, fun _ => false⟩

/-- The predicate of `wait_for`. -/
def workReady (w : WorkerState T) : Bool :=
  !w.queue.tasks.isEmpty || w.status == .Stop || w.status == .Flush

end WorkerState

/-! ## The interface -/

/-- What the controlling thread calls. -/
inductive ControlCommand where
  | start
  | stop (clearQueue : Bool)
  | flush
  deriving DecidableEq

/-- What any other thread calls. -/
inductive UserCommand where
  | addTask
  | getSizeQueue
  | getStatusWorker
  deriving DecidableEq

/-- The operations of a worker. -/
inductive WorkerOp where
  | getStatus
  | setStatus (s : StatusWorker)
  -- the mutex and the condition variable
  | lock
  | unlock
  | workReady
  | wakeFor
  | wakeEmpty
  -- what the mutex guards
  | isEmpty
  | push
  | clear
  | takeFront
  | runTask (task : Nat)
  | setTaskStatus (task : Nat) (s : StatusTask)
  | resetCurrent
  | getSize
  -- the thread
  | spawn
  | joinable
  | join
  | started (n : Nat)
  | exit (n : Nat)
  -- the callers
  | controlCommand
  | userCommand

/-- The result of each operation. -/
abbrev WorkerOp.Res : WorkerOp → Type
  | .getStatus => StatusWorker
  | .workReady | .wakeFor | .isEmpty | .runTask _ | .joinable => Bool
  | .takeFront => Option Nat
  | .getSize => Nat
  | .controlCommand => ControlCommand
  | .userCommand => UserCommand
  | _ => Unit

/-- The interface. -/
abbrev Work : Signature := ⟨WorkerOp, WorkerOp.Res⟩

/-- A program over it. -/
abbrev WorkerProg := Prog Work Exception

/-- What the environment chooses for an operation. -/
inductive WorkerChoice where
  | go
  | threw (b : Bool)
  | control (c : ControlCommand)
  | user (c : UserCommand)
  deriving DecidableEq

/-- Perform an operation of a worker. -/
def WorkerOp.perform (o : WorkerOp) : WorkerProg o.Res := Prog.perform (E := Work) o

namespace Worker

/-- What each operation does when thread `t` performs it. -/
def sem {T : Type} (t : T) :
    (o : WorkerOp) → WorkerChoice → WorkerState T → Option (o.Res × WorkerState T)
  | .getStatus, _, w => some (w.status, w)
  | .setStatus s, _, w => some ((), { w with status := s })
  | .lock, _, w => if w.mutex.isNone then some ((), { w with mutex := some t }) else none
  | .unlock, _, w => some ((), { w with mutex := none })
  | .workReady, _, w => some (w.workReady, w)
  | .wakeFor, _, w =>
    if w.mutex.isNone then some (w.workReady, { w with mutex := some t }) else none
  | .wakeEmpty, _, w =>
    if w.mutex.isNone ∧ w.queue.tasks = [] then some ((), { w with mutex := some t }) else none
  | .isEmpty, _, w => some (w.queue.tasks.isEmpty, w)
  | .push, _, w => some ((), { w with queue := w.queue.push })
  | .clear, _, w => some ((), { w with queue := w.queue.clear })
  | .takeFront, _, w =>
    match w.queue.tasks with
    | [] => some (none, w)
    | task :: rest =>
      some (some task, { w with queue := { w.queue with tasks := rest, current_task := some task } })
  | .runTask task, .threw b, w =>
    some (b, { w with queue := { w.queue with executed := w.queue.executed ++ [(task, b)] } })
  | .runTask _, _, _ => none
  | .setTaskStatus task s, _, w =>
    some ((), { w with queue :=
      { w.queue with taskStatus := Function.update w.queue.taskStatus task s } })
  | .resetCurrent, _, w => some ((), { w with queue := { w.queue with current_task := none } })
  | .getSize, _, w => some (w.queue.size, w)
  | .spawn, _, w => some ((), { w with thread := some w.spawned, spawned := w.spawned + 1 })
  | .joinable, _, w => some (w.thread.isSome, w)
  | .join, _, w =>
    match w.thread with
    | some n => if w.exited n then some ((), { w with thread := none }) else none
    | none => none
  | .started n, _, w => if n < w.spawned then some ((), w) else none
  | .exit n, _, w => some ((), { w with exited := Function.update w.exited n true })
  | .controlCommand, .control c, w => some (c, w)
  | .controlCommand, _, _ => none
  | .userCommand, .user c, w => some (c, w)
  | .userCommand, _, _ => none

/-- What an operation of thread `t` that goes through does to the worker. -/
def Effect {T : Type} (t : T) : WorkerOp → WorkerState T → WorkerState T → Prop
  | .setStatus s, w, w' => w' = { w with status := s }
  | .lock, w, w' | .wakeFor, w, w' => w.mutex = none ∧ w' = { w with mutex := some t }
  | .wakeEmpty, w, w' =>
    w.mutex = none ∧ w.queue.tasks = [] ∧ w' = { w with mutex := some t }
  | .unlock, w, w' => w' = { w with mutex := none }
  | .push, w, w' => w' = { w with queue := w.queue.push }
  | .clear, w, w' => w' = { w with queue := w.queue.clear }
  | .takeFront, w, w' => w.queue.tasks = [] ∧ w' = w ∨ ∃ task rest, w.queue.tasks = task :: rest ∧
    w' = { w with queue := { w.queue with tasks := rest, current_task := some task } }
  | .runTask task, w, w' => ∃ threw,
    w' = { w with queue := { w.queue with executed := w.queue.executed ++ [(task, threw)] } }
  | .setTaskStatus task s, w, w' => w' = { w with queue :=
    { w.queue with taskStatus := Function.update w.queue.taskStatus task s } }
  | .resetCurrent, w, w' => w' = { w with queue := { w.queue with current_task := none } }
  | .spawn, w, w' => w' = { w with thread := some w.spawned, spawned := w.spawned + 1 }
  | .join, w, w' => ∃ n, w.thread = some n ∧ w.exited n = true ∧ w' = { w with thread := none }
  | .exit n, w, w' => w' = { w with exited := Function.update w.exited n true }
  | _, w, w' => w' = w

/-- The one place where the operations are gone through. -/
theorem effect_of_sem {T : Type} {t : T} {o : WorkerOp} {c : WorkerChoice} {r : o.Res}
    {w w' : WorkerState T} (h : sem t o c w = some (r, w')) : Effect t o w w' := by
  cases o with
  | lock | wakeFor =>
    simp only [sem, Option.ite_none_right_eq_some, Option.some.injEq, Prod.mk.injEq,
      Option.isNone_iff_eq_none] at h
    exact ⟨h.1, h.2.2.symm⟩
  | wakeEmpty =>
    simp only [sem, Option.ite_none_right_eq_some, Option.some.injEq, Prod.mk.injEq,
      Option.isNone_iff_eq_none] at h
    exact ⟨h.1.1, h.1.2, h.2.2.symm⟩
  | takeFront =>
    cases htasks : w.queue.tasks with
    | nil =>
      simp only [sem, htasks] at h
      exact .inl ⟨htasks, (Prod.mk.inj (Option.some.inj h)).2.symm⟩
    | cons task rest =>
      simp only [sem, htasks] at h
      exact .inr ⟨task, rest, htasks, (Prod.mk.inj (Option.some.inj h)).2.symm⟩
  | runTask task =>
    cases c with
    | threw b => exact ⟨b, (Prod.mk.inj (Option.some.inj h)).2.symm⟩
    | _ => cases h
  | join =>
    cases hthread : w.thread with
    | none => simp [sem, hthread] at h
    | some n =>
      simp only [sem, hthread, Option.ite_none_right_eq_some, Option.some.injEq,
        Prod.mk.injEq] at h
      exact ⟨n, hthread, h.1, h.2.2.symm⟩
  | started n =>
    simp only [sem, Option.ite_none_right_eq_some, Option.some.injEq, Prod.mk.injEq] at h
    exact h.2.2.symm
  | controlCommand =>
    cases c with
    | control cmd => exact (Prod.mk.inj (Option.some.inj h)).2.symm
    | _ => cases h
  | userCommand =>
    cases c with
    | user cmd => exact (Prod.mk.inj (Option.some.inj h)).2.symm
    | _ => cases h
  | _ => exact (Prod.mk.inj (Option.some.inj h)).2.symm

/-! ## The functions -/

/-- `status == s`, one load of the atomic. -/
def statusIs (s : StatusWorker) : WorkerProg Bool := do
  let status ← WorkerOp.getStatus.perform
  return status == s

/-- `changeStatusWorker`. -/
def changeStatusWorker (s : StatusWorker) : WorkerProg Unit := do
  let same ← statusIs s
  Prog.when (!same) (WorkerOp.setStatus s).perform

/-- `Worker::start`. -/
def start : WorkerProg Unit := do
  let stopped ← statusIs .Stop
  Prog.when stopped (do
    changeStatusWorker .Wait
    WorkerOp.spawn.perform)

/-- `if(thread && thread->joinable()) { thread->join(); thread = nullptr; }`. -/
def joinThread : WorkerProg Unit := do
  let joinable ← WorkerOp.joinable.perform
  Prog.when joinable WorkerOp.join.perform

/-- `Worker::stop`. -/
def stop (clearQueue : Bool) : WorkerProg Unit := do
  WorkerOp.lock.perform
  let stopped ← statusIs .Stop
  if stopped then
    WorkerOp.unlock.perform
  else
    changeStatusWorker .Stop
    Prog.when clearQueue WorkerOp.clear.perform
    WorkerOp.unlock.perform
    joinThread

/-- `Worker::flush`. -/
def flush : WorkerProg Unit := do
  WorkerOp.lock.perform
  let flushed ← statusIs .Flush
  if flushed then
    WorkerOp.unlock.perform
  else
    changeStatusWorker .Flush
    WorkerOp.unlock.perform
    WorkerOp.lock.perform
    let empty ← WorkerOp.isEmpty.perform
    Prog.when (!empty) (do
      WorkerOp.unlock.perform
      WorkerOp.wakeEmpty.perform)
    WorkerOp.unlock.perform
    joinThread

/-- `Worker::getStatusWorker`. -/
def getStatusWorker : WorkerProg StatusWorker := do
  WorkerOp.lock.perform
  let status ← WorkerOp.getStatus.perform
  WorkerOp.unlock.perform
  return status

/-- `Worker::getSizeQueue`. -/
def getSizeQueue : WorkerProg Nat := do
  WorkerOp.lock.perform
  let size ← WorkerOp.getSize.perform
  WorkerOp.unlock.perform
  return size

/-- `Worker::addTask`: a worker that is stopped or flushed drops the task. -/
def addTask : WorkerProg Unit := do
  WorkerOp.lock.perform
  let stopped ← statusIs .Stop
  let flushed ← statusIs .Flush
  Prog.when (!(stopped || flushed)) WorkerOp.push.perform
  WorkerOp.unlock.perform

/-- Where `runThreadTask` goes from the top of its loop: out of it, back to the top, or
on with a task. -/
inductive Next where
  | leave
  | again
  | task (task : Nat)
  deriving DecidableEq

/-- `cv_tasks_data.wait_for(lock, timeer, pred)`. -/
def waitFor : WorkerProg Bool := do
  let ready ← WorkerOp.workReady.perform
  if ready then
    return true
  else
    WorkerOp.unlock.perform
    WorkerOp.wakeFor.perform

/-- `runThreadTask` from the top of its loop to the task. A way out of the loop gives up
the mutex. -/
def nextTask : WorkerProg Next := do
  if ← statusIs .Stop then
    return .leave
  WorkerOp.lock.perform
  let success ← waitFor
  let stopped ← statusIs .Stop
  if !success || stopped then
    WorkerOp.unlock.perform
    return if stopped then .leave else .again
  let flushed ← statusIs .Flush
  let empty ← WorkerOp.isEmpty.perform
  if flushed && empty then
    WorkerOp.unlock.perform
    return .leave
  let flushed ← statusIs .Flush
  Prog.when (!empty && !flushed) (changeStatusWorker .Work)
  match ← WorkerOp.takeFront.perform with
  -- `tasks.front()` on an empty queue
  | none => Prog.crash
  | some task => return .task task

/-- `runThreadTask` behind the task; true when the loop goes on. -/
def taskEnded (task : Nat) (threw : Bool) : WorkerProg Bool := do
  (WorkerOp.setTaskStatus task (if threw then .Error else .Success)).perform
  if ← statusIs .Stop then
    WorkerOp.unlock.perform
    return false
  WorkerOp.resetCurrent.perform
  let empty ← WorkerOp.isEmpty.perform
  Prog.when empty (do
    let flushed ← statusIs .Flush
    Prog.when (!flushed) (changeStatusWorker .Wait))
  WorkerOp.unlock.perform
  return true

end Worker

/-! ## The pool -/

/-- The threads around a worker: the one that controls it, the worker's own, and any
number of others. -/
inductive WorkerThread where
  | control
  | worker (n : Nat)
  | user (n : Nat)
  deriving DecidableEq

/-- Their loops. The controlling thread passes through `flushed` when a `flush` has
returned. -/
inductive WorkerLabel where
  | control
  | flushed
  | runThreadTask (n : Nat)
  | user
  deriving DecidableEq

namespace Worker

/-- The controlling thread. -/
def control : WorkerProg (Option WorkerLabel) := do
  match ← WorkerOp.controlCommand.perform with
  | .start =>
    start
    return some .control
  | .stop clearQueue =>
    stop clearQueue
    return some .control
  | .flush =>
    flush
    return some .flushed

/-- One round of the worker's `n`-th thread. -/
def runThreadTask (n : Nat) : WorkerProg (Option WorkerLabel) := do
  match ← nextTask with
  | .leave =>
    (WorkerOp.exit n).perform
    return none
  | .again => return some (.runThreadTask n)
  | .task task =>
    let threw ← (WorkerOp.runTask task).perform
    let again ← taskEnded task threw
    if again then
      return some (.runThreadTask n)
    else
      (WorkerOp.exit n).perform
      return none

/-- The worker's `n`-th thread, from when it is created. -/
def thread (n : Nat) : WorkerProg (Option WorkerLabel) := do
  (WorkerOp.started n).perform
  return some (.runThreadTask n)

/-- Any other thread. -/
def user : WorkerProg (Option WorkerLabel) := do
  match ← WorkerOp.userCommand.perform with
  | .addTask => addTask
  | .getSizeQueue =>
    let _ ← getSizeQueue
  | .getStatusWorker =>
    let _ ← getStatusWorker
  return some .user

/-- The blocks around a worker. -/
def block : WorkerLabel → WorkerProg (Option WorkerLabel)
  | .control => control
  | .flushed => pure (some .control)
  | .runThreadTask n => runThreadTask n
  | .user => user

/-- The threads around a worker. -/
abbrev system : System where
  sig := Work
  Exn := Exception
  Tid := WorkerThread
  Label := WorkerLabel
  World := WorkerState WorkerThread
  Choice := WorkerChoice
  decTid := inferInstance
  sem := sem
  block := block

/-- A worker under construction, with `n` tasks in its queue: the constructor calls
`start()`. -/
def constructed (n : Nat) : system.State where
  world := .new n
  threads := fun
    | .control => do
      start
      return some .control
    | .worker n => thread n
    | .user _ => .pure (some .user)

end Worker

end NetworkApplication
