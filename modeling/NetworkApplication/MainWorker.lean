/-
A server or a client with its main worker.

In `SegmentServer.lean` and `SegmentClient.lean` the main worker is two operations: a task
is added, and a flush waits. Here it is the `Worker` of `Worker.lean` with its own thread.
The functions of the server and of the client are interpreted: the operations on the main
worker become the worker's functions, and every other operation stays itself. The task
that `start` queues runs on the worker's thread, inside `runThreadTask`, round by round.

One thread calls `start` and `stop` in any order. What else goes on around a server does
not touch the flag, the worker or the task, and the network is there to let an accept and
a read complete.
-/
import NetworkApplication.Worker
import NetworkApplication.SessionPool

set_option autoImplicit false

namespace NetworkApplication

open NetworkApplication.Program NetworkApplication.Pool

/-- The threads: the caller's, the main worker's, and the network. -/
inductive MainThread where
  | control
  | worker (n : Nat)
  | network
  deriving DecidableEq

/-- What the caller calls next. -/
inductive Call where
  | start
  | stop
  deriving DecidableEq

/-- The operations: those of the network, those of the worker, and the caller's choice of
what to call next; `started` says that its last call was a `start`. -/
inductive MainOp where
  | net (o : Op)
  | work (o : WorkerOp)
  | call (started : Bool)

/-- The result of each operation. -/
abbrev MainOp.Res : MainOp → Type
  | .net o => o.Res
  | .work o => o.Res
  | .call _ => Call

/-- The interface. -/
abbrev Main : Signature := ⟨MainOp, MainOp.Res⟩

/-- A program over it. -/
abbrev MainProg := Prog Main Exception

/-- What the environment chooses for an operation. -/
inductive MainChoice where
  | net (c : Choice)
  | work (c : WorkerChoice)
  | call (c : Call)

/-- The shared state: that of the server or client, and the main worker. -/
structure MainWorld where
  net : World
  worker : WorkerState MainThread

/-- The loops. The caller is at `idle` before its first call and when a `stop` has
returned, and at `started` when a `start` has returned. -/
inductive MainLabel where
  | idle
  | started
  | stopping (l : ServerLabel)
  | runThreadTask (n : Nat)
  | task (n x : Nat)
  | ended (n x : Nat) (threw : Bool)
  | network
  deriving DecidableEq

namespace MainWorker

/-- What each operation may do. -/
def sem (ids : Nat → UInt64) (t : MainThread) :
    (o : MainOp) → MainChoice → MainWorld → Option (o.Res × MainWorld)
  | .net o, .net c, w =>
    match NetworkApplication.sem ids o c w.net with
    | some (r, net) => some (r, { w with net := net })
    | none => none
  | .work o, .work c, w =>
    match Worker.sem t o c w.worker with
    | some (r, worker) => some (r, { w with worker := worker })
    | none => none
  | .call _, .call c, w => some (c, w)
  | _, _, _ => none

/-- A function of the worker. -/
def onWork {α : Type} (p : WorkerProg α) : MainProg α :=
  p.interp (fun o => Prog.perform (E := Main) (.work o))

/-- An operation of a server or a client; those on the main worker are its functions. -/
def netOp : (o : Op) → MainProg o.Res
  | .addMainTask => onWork Worker.addTask
  | .flushMainWorker => onWork Worker.flush
  | .mainTaskDone => pure ()
  | o => Prog.perform (E := Main) (.net o)

/-- A function of a server or a client. -/
def onNet {α : Type} (p : NetProg α) : MainProg α := p.interp netOp

/-- A server or a client, as its main worker sees it: `start`, `stop` with the loops it
goes through, and one round of the task that `start` queues, false when the task is done. -/
structure Owner where
  start : NetProg Unit
  stop : NetProg (Option ServerLabel)
  stopping : ServerLabel → NetProg (Option ServerLabel)
  round : NetProg Bool

/-- A server; its task is the accept loop. -/
def ofServer (P : Platform) (server : SegmentServer) : Owner where
  start := SegmentServer.start
  stop := server.stop
  stopping := server.block P
  round := do
    let next ← server.acceptLoop
    return next.isSome

/-- A client; its task reads. -/
def ofClient (P : Platform) (client : SegmentClient) : Owner where
  start := client.start
  stop := do
    client.stop
    return none
  stopping := fun _ => pure none
  round := client.readTask P (pure true) (pure false)

variable (owner : Owner)

/-- Where the caller goes on in, or behind, a `stop`. -/
def afterStop : Option ServerLabel → Option MainLabel
  | some l => some (.stopping l)
  | none => some .idle

/-- The caller between two calls. -/
def caller (started : Bool) : MainProg (Option MainLabel) := do
  match ← Prog.perform (E := Main) (.call started) with
  | .start =>
    onNet owner.start
    return some .started
  | .stop =>
    let next ← onNet owner.stop
    return afterStop next

/-- A loop inside `stop`. -/
def stopping (l : ServerLabel) : MainProg (Option MainLabel) := do
  let next ← onNet (owner.stopping l)
  return afterStop next

/-- The worker's `n`-th thread is done. -/
def leave (n : Nat) : MainProg (Option MainLabel) := do
  onWork (WorkerOp.exit n).perform
  return none

/-- `runThreadTask` up to the task. -/
def runThreadTask (n : Nat) : MainProg (Option MainLabel) := do
  match ← onWork Worker.nextTask with
  | .leave => leave n
  | .again => return some (.runThreadTask n)
  | .task x => return some (.task n x)

/-- One round of the task; an exception ends it. -/
def task (n x : Nat) : MainProg (Option MainLabel) :=
  Prog.tryCatch (do
    let again ← onNet owner.round
    return some (if again then .task n x else .ended n x false))
    (fun _ => return some (.ended n x true))

/-- `runThreadTask` behind the task. -/
def ended (n x : Nat) (threw : Bool) : MainProg (Option MainLabel) := do
  let again ← onWork (Worker.taskEnded x threw)
  if again then
    return some (.runThreadTask n)
  else
    leave n

/-- The worker's `n`-th thread, from when it is created. -/
def thread (n : Nat) : MainProg (Option MainLabel) := do
  onWork (WorkerOp.started n).perform
  return some (.runThreadTask n)

/-- The io thread and the network behind it. -/
def network : MainProg (Option MainLabel) := do
  netOp .network
  return some .network

/-- The blocks. -/
def block : MainLabel → MainProg (Option MainLabel)
  | .idle => caller owner false
  | .started => caller owner true
  | .stopping l => stopping owner l
  | .runThreadTask n => runThreadTask n
  | .task n x => task owner n x
  | .ended n x threw => ended n x threw
  | .network => network

/-- A server or a client, its main worker and its caller. -/
abbrev system (ids : Nat → UInt64) : System where
  sig := Main
  Exn := Exception
  Tid := MainThread
  Label := MainLabel
  World := MainWorld
  Choice := MainChoice
  decTid := inferInstance
  sem := sem ids
  block := block owner

/-- A server or a client that has just been constructed: its main worker waits. -/
def constructed (ids : Nat → UInt64) (w : World) : (system owner ids).State where
  world := ⟨w, { WorkerState.new 0 with status := .Wait, thread := some 0, spawned := 1 }⟩
  threads := fun
    | .control => .pure (some .idle)
    | .worker n => thread n
    | .network => .pure (some .network)

end MainWorker

end NetworkApplication
