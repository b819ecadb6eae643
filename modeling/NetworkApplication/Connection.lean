/-
`core/connection`: `ConnectHandler` and `AcceptHandler`, in their `Sync` mode.

Both are records of callbacks around a socket, like `TransportHandler`. Two things
about them matter above. `ConnectHandler::disconnect` does nothing at all on a
socket that is already closed: no callback is made then. And it reports a failed
`shutdown` or `close` through `onError` but never through the error flag of the
session.

`sync_accept` starts an asynchronous accept and waits for its result, so what
wakes it is the io thread: the accept completes, or the acceptor is closed and it
fails.
-/
import NetworkApplication.TransportHandler

set_option autoImplicit false

namespace NetworkApplication

open NetworkApplication.Program

/-- The members of a `ConnectHandler`. -/
structure ConnectHandler where
  socket : Nat
  onConnect : Option CallbackError
  onDisconnect : Option CallbackError
  onError : Option CallbackError

namespace ConnectHandler

variable (ch : ConnectHandler)

/-- `ConnectHandler::disconnect`. -/
def disconnect : NetProg Unit := do
  if !(← call (.isOpen ch.socket)) then
    return
  let ec ← call (.shutdown ch.socket)
  Prog.when ec.failed (invoke ch.onError ec)
  let ec ← call (.close ch.socket)
  Prog.when ec.failed (invoke ch.onError ec)
  invoke ch.onDisconnect ec

/-- `ConnectHandler::sync_connect`. -/
def sync_connect : NetProg Unit := do
  let error ← call (.connect ch.socket)
  Prog.when (check_error error) (do
    invoke ch.onError error
    ch.disconnect)
  invoke ch.onConnect error

end ConnectHandler

/-- The callbacks of an `AcceptHandler`; the acceptor itself is shared state. -/
structure AcceptHandler where
  onAccept : Option CallbackError
  onClose : Option CallbackError
  onError : Option CallbackError

namespace AcceptHandler

variable (ah : AcceptHandler)

/-- `AcceptHandler::sync_accept`. -/
def sync_accept (socket : Nat) : NetProg Unit := do
  call (.async_accept socket)
  let ec ← call (.acceptResult socket)
  Prog.when (check_error ec) (invoke ah.onError ec)
  invoke ah.onAccept ec

/-- `AcceptHandler::close`. -/
def close : NetProg Unit := do
  if ← call .acceptorIsOpen then
    let _ ← call .acceptorCancel
    let ec ← call .acceptorClose
    invoke ah.onClose ec

end AcceptHandler

end NetworkApplication
