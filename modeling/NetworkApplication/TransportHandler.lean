/-
`core/transport_handler`: frames on the socket.

`read_sync` takes one frame off the socket (`Framing.lean`) and decodes it; `write`
puts one on it.

A `TransportHandler` is a record of its members. A callback is a program: what
the user does with it is not the transport layer's business, and the layers above
set their own (`Session.lean`). `errorHandler` is the handler the constructor
registers with the invoker, which every error exit of a read is meant to go
through.

`asio::write` with several buffers is a loop of `write_some` calls. It is the one
loop that is a program and not a block, because it ends: every call sends at least
one byte. The counter `sent` is carried along only so that a call says how far
into its frame it is.
-/
import NetworkApplication.Framing
import NetworkApplication.Network

set_option autoImplicit false

namespace NetworkApplication

open NetworkApplication.Program

/-- `if(callback) callback(a)`. -/
def invoke {α : Type} (callback : Option (α → NetProg Unit)) (a : α) : NetProg Unit :=
  match callback with
  | some f => f a
  | none => pure ()

@[simp] theorem invoke_some {α : Type} (f : α → NetProg Unit) (a : α) :
    invoke (some f) a = f a := rfl

@[simp] theorem invoke_none {α : Type} (a : α) : invoke none a = Prog.pure () := rfl

/-- `CallbackError`. -/
abbrev CallbackError := ErrorCode → NetProg Unit

/-! ## `asio::write` -/

/-- `asio::write` of `rest`, of which `sent` bytes have gone out before. The bound
on the number of calls is never reached when it is the number of bytes. -/
def asio_write (a : Nat) : Nat → Nat → List UInt8 → NetProg ErrorCode
  | 0, _, _ => pure .success
  | bound + 1, sent, rest =>
    if rest.isEmpty then pure .success
    else do
      match ← call (.write_some a sent rest) with
      | .ok n => asio_write a bound (sent + n) (rest.drop n)
      | .error ec => pure ec

/-! ## The members and the functions -/

/-- The members of a `TransportHandler`; `socket` is the session whose socket it
is. -/
structure TransportHandler where
  socket : Nat
  magicNumber : UInt32
  onReadHandler : Option (Nat × List UInt8 × Nat → NetProg Unit)
  onWriteHandler : Option (List UInt8 × Nat → NetProg Unit)
  onAllRead : Option (ErrorCode × TransportMessage → NetProg Unit)
  onAllWrite : Option (ErrorCode × TransportMessage → NetProg Unit)
  onError : Option CallbackError

namespace TransportHandler

variable (P : Platform) (th : TransportHandler)

/-- `setErrorMessage`: every field of the message is overwritten. -/
def setErrorMessage : TransportMessage := ⟨"error", .Error, []⟩

/-- The handler registered under `Command::errorHandler`; true when there was an
error, and then the message has been given away. -/
def errorHandler (error : ErrorCode) : NetProg Bool := do
  Prog.when (check_error error) (invoke th.onError error)
  if error.failed then
    invoke th.onAllRead (error, setErrorMessage)
    return true
  else
    return false

/-- What `asio::read` reports in its error argument. -/
def readError : Except ErrorCode (List UInt8) → ErrorCode
  | .ok _ => .success
  | .error ec => ec

/-- The type and the transaction out of the parsed JSON. The transaction is handed
to `setTypeTransaction(int)`, so only its low 32 bits count. -/
def decode (json_val : Json) : Except Exception (String × Transaction) := do
  let type ← (← json_val.at_ "type").as_string
  let transaction ← (← json_val.at_ "transaction").as_int64
  return (type, setTypeTransaction transaction.toInt32)

/-- `read_sync` after both reads have succeeded: from the payload to `onAllRead`. -/
def read_json (payload : List UInt8) : NetProg Unit := do
  let json := P.parse payload
  if ← errorHandler th json.error then
    return
  invoke th.onReadHandler (0, payload, payload.length + 1)
  match decode json.value with
  | .error e => Prog.throw e
  | .ok (type, transaction) => invoke th.onAllRead (json.error, ⟨type, transaction, payload⟩)

/-- `read_sync` from the payload's length on. -/
def read_payload (json_len : Nat) : NetProg Unit := do
  let payload ← call (.read th.socket json_len)
  if ← errorHandler th (readError payload) then
    return
  read_json P th (payload.toOption.getD [])

/-- `read_sync`. -/
def read_sync : NetProg Unit := do
  let headers ← call (.read th.socket 8)
  if ← errorHandler th (readError headers) then
    return
  let bytes := headers.toOption.getD []
  if magicOf bytes ≠ th.magicNumber then
    let _ ← errorHandler th .eof
    return
  read_payload P th (lengthOf bytes)

/-- `write(message, Sync)`. An exception of a callback ends in the log. -/
def write (transportMessage : TransportMessage) : NetProg Unit := do
  let payload := transportMessage.payload
  invoke th.onWriteHandler (payload, payload.length)
  let buffers := frame th.magicNumber payload
  Prog.tryCatch (do
    let error ← asio_write th.socket buffers.length 0 buffers
    Prog.when (check_error error) (invoke th.onError error)
    invoke th.onAllWrite (error, transportMessage))
    (fun _ => pure ())

end TransportHandler

end NetworkApplication
