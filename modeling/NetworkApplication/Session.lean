/-
`core/session`: `Session` and `SessionManager`.

A `Session` value is what a thread knows of a session object: its address, which
names its socket and its mutable members in the shared state, and the callbacks
set on it. The callbacks are set with the same closures every time, so they are
part of the value and not of the shared state.

The three layers meet here. `TransportHandler` reports an error through `onError`
and then through `onAllRead` or `onAllWrite`; `Session::read` and `Session::write`
set the latter two, and tear the session down when `check_error` calls the error
critical; `SessionManager::addSession` sets `onError`, which removes the session
from the map. `Session::read` does nothing on a closed socket.

Every access to `sessionMap` is one operation, as the mutex makes it, except the
`find` at the head of `addSession`, which takes no lock.
-/
import NetworkApplication.Connection

set_option autoImplicit false

namespace NetworkApplication

open NetworkApplication.Program

/-- The members of a `Session` that its callers set. -/
structure Session where
  addr : Nat
  magicNumber : UInt32
  onReadHandler : Option (Nat × List UInt8 × Nat → NetProg Unit)
  onError : Option CallbackError
  on_connect : Option CallbackError
  on_accept : Option CallbackError
  on_disconnect : Option CallbackError
  on_all_write : Option CallbackError
  on_all_read : Option (ErrorCode × Option Message → NetProg Unit)

namespace Session

variable (P : Platform) (s : Session)

/-- The session's `connection_handler`; `setOnError` sets its `onError` and
`disconnect` its `onDisconnect`. -/
def connection_handler : ConnectHandler where
  socket := s.addr
  onConnect := some (fun ec => invoke s.on_connect ec)
  onDisconnect := some (fun ec => invoke s.on_disconnect ec)
  onError := s.onError

/-- `Session::disconnect`. -/
def disconnect : NetProg Unit := s.connection_handler.disconnect

/-- `Session::connect`. -/
def connect : NetProg Unit := s.connection_handler.sync_connect

/-- What both error branches end with: the flag, then the socket. -/
def criticalError : NetProg Unit := do
  call (.setCriticalError s.addr)
  s.disconnect

/-- The `onAllRead` that `Session::read` sets. -/
def onAllRead : ErrorCode × TransportMessage → NetProg Unit := fun (ec, transportMessage) => do
  if !check_error ec then
    invoke s.on_all_read (ec, MessageHandler.parse P transportMessage)
  else
    invoke s.on_all_read (ec, none)
    s.criticalError

/-- Without a critical error the message goes to the user. -/
theorem onAllRead_of_not_critical {ec : ErrorCode} (h : check_error ec = false)
    (tm : TransportMessage) :
    s.onAllRead P (ec, tm) = invoke s.on_all_read (ec, MessageHandler.parse P tm) := by
  simp [onAllRead, h]

/-- With one, the user hears of it before the session is torn down. -/
theorem onAllRead_of_critical {ec : ErrorCode} (h : check_error ec = true)
    (tm : TransportMessage) :
    s.onAllRead P (ec, tm) = invoke s.on_all_read (ec, none) >>= fun _ => s.criticalError := by
  simp [onAllRead, h]

/-- The `onAllWrite` that `Session::write` sets. -/
def onAllWrite : ErrorCode × TransportMessage → NetProg Unit := fun (ec, _) => do
  invoke s.on_all_write ec
  Prog.when (check_error ec) s.criticalError

/-- The session's `transport_handler`, once `read` and `write` have set its
callbacks. -/
def transport_handler : TransportHandler where
  socket := s.addr
  magicNumber := s.magicNumber
  onReadHandler := s.onReadHandler
  onWriteHandler := none
  onAllRead := some (s.onAllRead P)
  onAllWrite := some s.onAllWrite
  onError := s.onError

/-- `Session::read`. -/
def read : NetProg Unit := do
  let is_open ← call (.isOpen s.addr)
  Prog.when is_open ((s.transport_handler P).read_sync P)

/-- `Session::write`. -/
def write (message : Option Message) : NetProg Unit :=
  (s.transport_handler P).write (MessageHandler.serialize P message)

/-- `Session::accept`. -/
def accept (accept_handler : AcceptHandler) : NetProg Unit :=
  { accept_handler with onAccept := some (fun ec => invoke s.on_accept ec) }.sync_accept s.addr

/-- `Session::hasError`. -/
def hasError : NetProg Bool := call (.getCriticalError s.addr)

/-- One test and one round of `while(isWork && !session->hasError()) session->read();`,
the loop of `SegmentServer::sessionWork` and of the task that `SegmentClient::start`
queues. -/
def readRound {α : Type} (again done : NetProg α) : NetProg α := do
  let isWork ← call .getIsWork
  if isWork then
    let hasError ← s.hasError
    if hasError then done
    else
      s.read P
      again
  else done

end Session

/-- The settings of a `SessionManager`; the map and the acceptor are shared state.
Of its own, its accept handler has no callbacks. -/
structure SessionManager where
  magicNumber : UInt32
  readHandlerForSession : Option (Nat × List UInt8 × Nat → NetProg Unit)

namespace SessionManager

variable (manager : SessionManager)

/-- The manager's accept handler. -/
def acceptHandler : AcceptHandler := ⟨none, none, none⟩

/-- `getSession`: null for an id that is not in the map. -/
def getSession (sessionID : UInt32) : NetProg (Option SessionPtr) := call (.mapGet sessionID)

/-- `removeSession`: the look-up and the removal lock the map separately. -/
def removeSession (sessionID : UInt32) : NetProg Unit := do
  match ← getSession sessionID with
  | none => return
  | some _ => call (.mapErase sessionID)

/-- `getSessionCount`. -/
def getSessionCount : NetProg Nat := call .mapSize

/-- `getSessionMap`: a copy. -/
def getSessionMap : NetProg (List SessionPtr) := call .mapCopy

/-- `closeAcceptor`. -/
def closeAcceptor : NetProg Unit := acceptHandler.close

/-- The `on_accept` that `addSession` sets. -/
def onAccept (sessionID : UInt32) (session : SessionPtr) : CallbackError := fun ec => do
  if ec.failed then
    if ← call (.mapFind sessionID) then
      removeSession sessionID
  else
    call (.mapInsert sessionID session)

/-- The session object as `addSession` sets it up; `on_all_read` is the caller's,
and the other callbacks are not set by anyone. -/
def session (ptr : SessionPtr) (on_all_read : Option (ErrorCode × Option Message → NetProg Unit)) :
    Session where
  addr := ptr.addr
  magicNumber := manager.magicNumber
  onReadHandler := manager.readHandlerForSession
  onError := some (fun _ => removeSession ptr.sessionID)
  on_connect := none
  on_accept := some (onAccept ptr.sessionID ptr)
  on_disconnect := none
  on_all_write := none
  on_all_read := on_all_read

/-- `addSession`: waits for a client. -/
def addSession (sessionID : UInt32) : NetProg Unit := do
  if ← call (.mapFind sessionID) then
    return
  let session ← call (.makeSession sessionID)
  (manager.session session none).accept acceptHandler

end SessionManager

end NetworkApplication
