/-
`server`: `SegmentServer`, and the threads of a running server.

The functions come first: `start`, `stop`, `write`, `disconnect`, the accept loop
that `start` queues and the reader loop `sessionWork`. Then the pool. A started
server has a thread that runs the accept loop, one thread for each session worker,
the thread that calls `stop`, any number of threads of the user, and the io thread
with the network behind it.

A worker's thread is its task: `takeTask n` waits until the accept loop has created
the worker `n` and hands over the id its task captured; when the task is done, or
has thrown, the worker's queue is empty and `flush` on it goes through. What the
worker does besides is in `Worker.lean`.

`disconnect` calls through the pointer that `getSession` returned without looking
at it, and that is undefined behaviour when it is null. `write` looks.
-/
import NetworkApplication.JsonText
import NetworkApplication.RequestResponseHandler
import NetworkApplication.Pool

set_option autoImplicit false

namespace NetworkApplication

open NetworkApplication.Program NetworkApplication.Pool

/-- The threads of a server. -/
inductive Thread where
  | main
  | control
  | reader (n : Nat)
  | user (n : Nat)
  | network
  deriving DecidableEq

/-- The loops of a server; `sessionWork` is the reader loop of worker `n`, for the
session it has looked up. -/
inductive ServerLabel where
  | acceptLoop
  | sessionWork (n : Nat) (session : SessionPtr)
  | flushMain
  | flushWorkers (n : Nat)
  | userLoop
  | networkLoop
  deriving DecidableEq

/-- The settings of a `SegmentServer`; `readHandler` says whether the user has set
one. -/
structure SegmentServer where
  multiConnect : Bool
  magicNumber : UInt32
  readHandler : Bool

namespace SegmentServer

variable (P : Platform) (server : SegmentServer)

/-- The settings handed to the server's `SessionManager`. What the user's handler
does is the user's: its call is an event. -/
def sessionManager : SessionManager where
  magicNumber := server.magicNumber
  readHandlerForSession :=
    if server.readHandler then
      some (fun (id, data, size) => call (.event (.onReadHandler id data size)))
    else none

/-- A session of the server as any thread but its reader uses it. -/
def session (ptr : SessionPtr) : Session := server.sessionManager.session ptr none

/-- `SegmentServer::start`, once its task is queued and the flag is set. -/
def start : NetProg Unit := do
  call .makeSessionManager
  call .addMainTask
  call (.setIsWork true)

/-- `SegmentServer::disconnect`: no test for a null pointer. -/
def disconnect (id : UInt64) : NetProg Unit := do
  match ← SessionManager.getSession id.toUInt32 with
  | some ptr => (server.session ptr).disconnect
  | none => Prog.crash

/-- The message that `write` builds from the user's bytes. -/
def messageOf (data : List UInt8) : Message :=
  if data = ascii "signal" then .base "signal" .Request
  else if data = ascii "information" then .base "information" .Request
  else .RawMessage "raw" .Response data

/-- `SegmentServer::write`. -/
def write (id : UInt64) (data : List UInt8) : NetProg Unit := do
  match ← SessionManager.getSession id.toUInt32 with
  | some ptr => (server.session ptr).write P (some (messageOf data))
  | none => return

/-- What the accept loop does with a client it keeps. -/
def keep (ID : UInt64) : NetProg (Option ServerLabel) := do
  let isWork ← call .getIsWork
  Prog.when isWork (call (.addSessionWorker ID))
  return some .acceptLoop

/-- What the accept loop does with a client it refuses. -/
def refuse (ID : UInt64) : NetProg (Option ServerLabel) := do
  server.disconnect ID
  return some .acceptLoop

/-- The test for a second client: the count is taken only without `multiConnect`. -/
def keepOrRefuse (ID : UInt64) : NetProg (Option ServerLabel) :=
  if server.multiConnect then keep ID
  else do
    let count ← SessionManager.getSessionCount
    if 1 < count then server.refuse ID else keep ID

/-- The task of `mainWorker`: the accept loop. -/
def acceptLoop : NetProg (Option ServerLabel) := do
  let isWork ← call .getIsWork
  if isWork then
    let ID ← call .distributeID
    server.sessionManager.addSession (UInt64.toUInt32 ID)
    server.keepOrRefuse ID
  else
    call .mainTaskDone
    return none

/-- `SegmentServer::stop` up to its first wait. -/
def stop : NetProg (Option ServerLabel) := do
  let isWork ← call .getIsWork
  if isWork then
    call (.setIsWork false)
    SessionManager.closeAcceptor
    let copy_map ← SessionManager.getSessionMap
    let count ← SessionManager.getSessionCount
    Prog.when (count != 0) (disconnectAll copy_map)
    return some .flushMain
  else
    return none
where
  /-- The loop over the copied map. -/
  disconnectAll : List SessionPtr → NetProg Unit
    | [] => pure ()
    | ptr :: rest => do
      (server.session ptr).disconnect
      disconnectAll rest

/-- `mainWorker.flush()`. -/
def flushMain : NetProg (Option ServerLabel) := do
  call .flushMainWorker
  return some (.flushWorkers 0)

/-- The loop that flushes the session workers, from the `n`-th on. -/
def flushWorkers (n : Nat) : NetProg (Option ServerLabel) := do
  let size ← call .sessionWorkersSize
  if n < size then
    call (.flushSessionWorker n)
    return some (.flushWorkers (n + 1))
  else
    return none

/-- The callback `sessionWork` sets: a raw message is only logged, every other one
is answered. -/
def onAllRead (ptr : SessionPtr) : ErrorCode × Option Message → NetProg Unit := fun (_, msg) =>
  match msg with
  | none => pure ()
  | some m =>
    if m.type = "raw" then pure ()
    else do
      let new_msg ← RequestResponseHandler.createResponse (some m)
      (server.session ptr).write P (some new_msg)

/-- A session of the server as its reader uses it. -/
def readerSession (ptr : SessionPtr) : Session :=
  server.sessionManager.session ptr (some (server.onAllRead P ptr))

/-- The task of worker `n` is done. -/
def taskDone (n : Nat) : NetProg (Option ServerLabel) := do
  call (.sessionTaskDone n)
  return none

/-- One round of the loop in `sessionWork`; an exception ends the task. -/
def sessionWork (n : Nat) (ptr : SessionPtr) : NetProg (Option ServerLabel) :=
  Prog.tryCatch
    ((server.readerSession P ptr).readRound P (pure (some (.sessionWork n ptr))) (taskDone n))
    (fun _ => taskDone n)

/-- The thread of worker `n`: it takes its task and looks the session up. -/
def readerThread (n : Nat) : NetProg (Option ServerLabel) := do
  let sessionId ← call (.takeTask n)
  match ← SessionManager.getSession (UInt64.toUInt32 sessionId) with
  | some ptr => return some (.sessionWork n ptr)
  | none => taskDone n

/-- A thread of the user, which calls `write` and `disconnect`. -/
def userLoop : NetProg (Option ServerLabel) := do
  match ← call .command with
  | .disconnect id => server.disconnect id
  | .write id data => server.write P id data
  | _ => pure ()
  return some .userLoop

/-- The io thread and the network behind it. -/
def networkLoop : NetProg (Option ServerLabel) := do
  call .network
  return some .networkLoop

/-- The blocks of a server. -/
def block : ServerLabel → NetProg (Option ServerLabel)
  | .acceptLoop => server.acceptLoop
  | .sessionWork n ptr => server.sessionWork P n ptr
  | .flushMain => flushMain
  | .flushWorkers n => flushWorkers n
  | .userLoop => server.userLoop P
  | .networkLoop => networkLoop

/-! ## The pool -/

/-- The threads of a server, on the shared state of `Network.lean`. -/
abbrev system (ids : Nat → UInt64) : System where
  sig := Net
  Exn := Exception
  Tid := Thread
  Label := ServerLabel
  World := World
  Choice := Choice
  decTid := inferInstance
  sem := fun _ => sem ids
  block := server.block P

/-- What a user of the server does while it runs: call `stop` or not, and call
`write` and `disconnect` from other threads or not. -/
structure Usage where
  stops : Bool
  operates : Bool

/-- The state when `start` has returned: the accept loop is queued, the flag is set,
no client has come. -/
def started (ids : Nat → UInt64) (usage : Usage) : (server.system P ids).State where
  world := { World.init with acceptorOpen := true, isWork := true, mainTasks := 1 }
  threads := fun
    | .main => .pure (some .acceptLoop)
    | .control => if usage.stops then server.stop else .pure none
    | .reader n => readerThread n
    | .user _ => if usage.operates then .pure (some .userLoop) else .pure none
    | .network => .pure (some .networkLoop)

/-! ## Pieces of schedules

What the accept loop does with one client, from its head to its head, when no other
thread gets in between. -/

/-- The accept loop moves on; where it calls into a socket, the call succeeds. -/
def mainSteps (n : Nat) : List (Thread × Choice) := List.replicate n (.main, .code .success)

/-- The accept started on the session `addr` completes with `ec`. -/
def acceptCompletes (addr : Nat) (ec : ErrorCode) : List (Thread × Choice) :=
  mainSteps 6 ++ [(.network, .go), (.network, .accepted addr ec)]

/-- A client that is accepted and kept. -/
def keptClient (addr : Nat) : List (Thread × Choice) :=
  acceptCompletes addr .success ++ mainSteps 5

/-- A client that is accepted and refused. -/
def refusedClient (addr : Nat) : List (Thread × Choice) :=
  acceptCompletes addr .success ++ mainSteps 7

/-- The shared state of `started` is what `start` makes of nothing. -/
theorem start_spec (ids : Nat → UInt64) (w : World)
    (h : Prog.Runs (sem ids) start World.init (.ok ()) w) :
    w = { World.init with acceptorOpen := true, isWork := true, mainTasks := 1 } := by
  obtain ⟨_, _, w₁, h₁, _, _, w₂, h₂, _, _, w₃, h₃, -, rfl⟩ := h
  simp only [sem, Option.some.injEq, Prod.mk.injEq] at h₁ h₂ h₃
  obtain ⟨-, rfl⟩ := h₁
  obtain ⟨-, rfl⟩ := h₂
  obtain ⟨-, rfl⟩ := h₃
  rfl

end SegmentServer

end NetworkApplication
