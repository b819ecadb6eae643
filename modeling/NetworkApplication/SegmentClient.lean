/-
`client`: `SegmentClient`.

A client owns one session, constructed with it, and reads from it in one task of its
`mainWorker`. Its `on_connect` stops the client when the connect has failed, whatever
the error, so that a refused connection, which `check_error` does not call critical,
still ends it.

The session keeps its members over a disconnect: `start` after `stop` connects the
same object again.
-/
import NetworkApplication.Session

set_option autoImplicit false

namespace NetworkApplication

open NetworkApplication.Program

/-- The settings of a `SegmentClient`; `socket` is the address of its session, and
`readHandler` says whether the user has set one. -/
structure SegmentClient where
  socket : Nat
  magicNumber : UInt32
  readHandler : Bool

namespace SegmentClient

variable (P : Platform) (client : SegmentClient)

/-- The callback `start` sets: a raw message is logged. -/
def onAllRead : ErrorCode × Option Message → NetProg Unit := fun _ => pure ()

/-- The session, but for its `on_connect`. -/
def connected : Session where
  addr := client.socket
  magicNumber := client.magicNumber
  onReadHandler :=
    if client.readHandler then
      some (fun (id, data, size) => call (.event (.onReadHandler id data size)))
    else none
  onError := none
  on_connect := none
  on_accept := none
  on_disconnect := none
  on_all_write := none
  on_all_read := some onAllRead

/-- `SegmentClient::disconnect`. -/
def disconnect : NetProg Unit := client.connected.disconnect

/-- `SegmentClient::stop`. -/
def stop : NetProg Unit := do
  let isWork ← call .getIsWork
  Prog.when isWork (do
    call (.setIsWork false)
    client.disconnect
    call .flushMainWorker)

/-- The session, with the `on_connect` that `connect` sets. -/
def session : Session :=
  { client.connected with on_connect := some (fun ec => Prog.when ec.failed client.stop) }

/-- `SegmentClient::connect`. -/
def connect : NetProg Unit := client.session.connect

/-- `SegmentClient::start`; the task is `readTask`. -/
def start : NetProg Unit := do
  call (.setIsWork true)
  client.connect
  call .addMainTask

/-- One round of the task that `start` queues. -/
def readTask {α : Type} (again done : NetProg α) : NetProg α :=
  client.session.readRound P again done

/-- `SegmentClient::write`, which builds its message as the server does. -/
def write (message : Message) : NetProg Unit := client.session.write P (some message)

end SegmentClient

end NetworkApplication
