/-
The threads around one connected session.

One thread reads in the loop that a server's `sessionWork` and a client's task
share; any number of other threads call `write` and `disconnect` on the same
session, as an operator thread and the server's own functions do; one thread may
clear `isWork`; and the network delivers bytes. An exception ends the reader's
task, since the worker that runs it catches.

The session is a parameter: its callbacks are the server's or the client's.
-/
import NetworkApplication.SegmentServer
import NetworkApplication.SegmentClient

set_option autoImplicit false

namespace NetworkApplication

open NetworkApplication.Program NetworkApplication.Pool

/-- The threads around a session. -/
inductive SessionThread where
  | reader
  | user (n : Nat)
  | stopper
  | network
  deriving DecidableEq

/-- Their loops. -/
inductive SessionLabel where
  | readLoop
  | userLoop
  | networkLoop
  deriving DecidableEq

namespace SessionPool

/-- The sessions the loop reads: a server's, in `sessionWork`, and a client's. -/
inductive LoopSession (P : Platform) : Session → Prop where
  | server (server : SegmentServer) (ptr : SessionPtr) : LoopSession P (server.readerSession P ptr)
  | client (client : SegmentClient) : LoopSession P client.session

variable (P : Platform) (s : Session)

/-- The reader's loop. -/
def readLoop : NetProg (Option SessionLabel) :=
  Prog.tryCatch (s.readRound P (pure (some .readLoop)) (pure none)) (fun _ => pure none)

/-- A thread that calls `write` and `disconnect`. -/
def userLoop : NetProg (Option SessionLabel) := do
  match ← call .command with
  | .sessionDisconnect => s.disconnect
  | .sessionWrite message => s.write P (some message)
  | _ => pure ()
  return some .userLoop

/-- `isWork = false`, once. -/
def stopper : NetProg (Option SessionLabel) := do
  call (.setIsWork false)
  return none

/-- The network. -/
def networkLoop : NetProg (Option SessionLabel) := do
  call .network
  return some .networkLoop

/-- The blocks around a session. -/
def block : SessionLabel → NetProg (Option SessionLabel)
  | .readLoop => readLoop P s
  | .userLoop => userLoop P s
  | .networkLoop => networkLoop

/-- The threads around a session, on the shared state of `Network.lean`. -/
abbrev system : System where
  sig := Net
  Exn := Exception
  Tid := SessionThread
  Label := SessionLabel
  World := World
  Choice := Choice
  decTid := inferInstance
  sem := fun _ => sem (fun _ => 0)
  block := block P s

/-- A session that is connected, with its reader at the head of its loop. -/
def connected (w : World) : (system P s).State where
  world := w
  threads := fun
    | .reader => .pure (some .readLoop)
    | .user _ => .pure (some .userLoop)
    | .stopper => stopper
    | .network => .pure (some .networkLoop)

/-- A client and, for concrete runs, the state with its session connected. -/
def oneClient : SegmentClient := ⟨0, 7, false⟩

def connectedWorld : World :=
  { World.init.modify 0 (fun s => { s with isOpen := true }) with isWork := true }

end SessionPool

end NetworkApplication
