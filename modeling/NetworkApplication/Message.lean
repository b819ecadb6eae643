/-
`core/message`: transactions and the four message classes.

The class of a message is the constructor, since the code asks for it with
`dynamic_cast`. Every message has the `type` and `transaction` of its base class.
A member that a constructor leaves uninitialised is `none`; reading it gives
whatever the memory held, which is the platform's `uninitInt`.

The JSON constructors (`of_json`) are the ones the message factory calls. They
throw where a boost accessor throws, except `RawMessage`, which catches.
-/
import NetworkApplication.Json

set_option autoImplicit false

namespace NetworkApplication


/-- `enum class Transaction`. -/
inductive Transaction where
  | Request
  | Response
  | Tests
  | Error
  deriving DecidableEq

/-- `setTypeTransaction(int)`. -/
def setTypeTransaction (integer : Int32) : Transaction :=
  if integer = 0 then .Request
  else if integer = 1 then .Response
  else if integer = 2 then .Tests
  else .Error

/-- What the program takes from outside its own source: boost::json's parser and
serializer, the conversions between `float` and `double`, and the contents of
memory that no constructor has initialised. -/
structure Platform where
  parse : List UInt8 → ParseResult
  serialize : Json → List UInt8
  toDouble : FloatBits → DoubleBits
  toFloat : DoubleBits → FloatBits
  uninitInt : Int32
  uninitTransaction : Transaction

/-- boost::json reads back the text it wrote for `v`. -/
def Platform.RoundTrips (P : Platform) (v : Json) : Prop :=
  P.parse (P.serialize v) = ⟨.success, v.reparsed⟩

/-- A message object, by its class. -/
inductive Message where
  | base (type : String) (transaction : Transaction)
  | SignalMessage (type : String) (transaction : Transaction) (_central_Freq : Option Int32)
      (_signal : List (FloatBits × FloatBits))
  | InformationMessage (type : String) (transaction : Transaction)
      (_numberCore : Option Int32)
  | RawMessage (type : String) (transaction : Transaction) (data_ : List UInt8)
  deriving DecidableEq

namespace Message

variable (P : Platform)

/-- `Message::type`. -/
def type : Message → String
  | base t _ => t
  | SignalMessage t _ _ _ => t
  | InformationMessage t _ _ => t
  | RawMessage t _ _ => t

/-- `Message::transaction`. -/
def transaction : Message → Transaction
  | base _ tr => tr
  | SignalMessage _ tr _ _ => tr
  | InformationMessage _ tr _ => tr
  | RawMessage _ tr _ => tr

/-! ## `serialize()`

`Message`, `SignalMessage` and `RawMessage` write `-1` for every transaction that
is neither a request nor a response; `InformationMessage` also knows `Tests`. -/

/-- The transaction number the base class and most subclasses write. -/
def transactionNumber : Transaction → Int64
  | .Request => 0
  | .Response => 1
  | _ => -1

/-- The transaction number `InformationMessage::serialize` writes. -/
def informationTransactionNumber : Transaction → Int64
  | .Request => 0
  | .Response => 1
  | .Tests => 2
  | .Error => -1

/-- The two fields every payload starts with. -/
def header (t : String) (n : Int64) : List (String × Json) :=
  [("type", .string t), ("transaction", .int64 n)]

/-- One sample: `{c.real(), c.imag()}`, two doubles. -/
def sampleJson (c : FloatBits × FloatBits) : Json :=
  .array [.double (P.toDouble c.1), .double (P.toDouble c.2)]

/-- The virtual `serialize()` of the message's class. -/
def serialize : Message → Json
  | base t tr => .object (header t (transactionNumber tr))
  | SignalMessage t tr freq signal =>
    .object (header t (transactionNumber tr)
      ++ [("central_Freq", .int64 (freq.getD P.uninitInt).toInt64)]
      ++ if tr = .Response then [("signal", .array (signal.map (sampleJson P)))] else [])
  | InformationMessage t tr cores =>
    .object (header t (informationTransactionNumber tr)
      ++ if tr = .Response ∨ tr = .Tests
          then [("numberCore", .int64 (cores.getD P.uninitInt).toInt64)] else [])
  | RawMessage t tr data =>
    .object (header t (transactionNumber tr)
      ++ [("data", .array (data.map (fun value => .uint64 value.toUInt64)))])

/-- The transaction number the message's class writes. -/
def writtenTransaction : Message → Int64
  | InformationMessage _ tr _ => informationTransactionNumber tr
  | m => transactionNumber m.transaction

/-- Every class writes the message's type under `type`. -/
theorem serialize_at_type (m : Message) :
    (m.serialize P).at_ "type" = .ok (.string m.type) := by
  cases m <;> rfl

/-- Every class writes its transaction number under `transaction`. -/
theorem serialize_at_transaction (m : Message) :
    (m.serialize P).at_ "transaction" = .ok (.int64 m.writtenTransaction) := by
  cases m <;> rfl

/-! ## The constructors from JSON -/

/-- The loop of `SignalMessage`'s constructor: a value that is not a pair is
skipped, a pair whose components are not both doubles throws. -/
def readSignal : List Json → Except Exception (List (FloatBits × FloatBits))
  | [] => .ok []
  | .array [re, im] :: rest => do
    let real ← re.as_double
    let imag ← im.as_double
    let signal ← readSignal rest
    return (P.toFloat real, P.toFloat imag) :: signal
  | _ :: rest => readSignal rest

/-- `SignalMessage(type, transaction, jv)`. -/
def signal_of_json (t : String) (tr : Transaction) (jv : Json) : Except Exception Message :=
  if tr = .Response then do
    let freq ← (← jv.at_ "central_Freq").as_int64
    let signalArray ← (← jv.at_ "signal").as_array
    let signal ← readSignal P signalArray
    return SignalMessage t tr (some freq.toInt32) signal
  else .ok (SignalMessage t tr none [])

/-- `InformationMessage(type, transaction, jv)`. -/
def information_of_json (t : String) (tr : Transaction) (jv : Json) :
    Except Exception Message :=
  if tr = .Response then do
    let cores ← (← jv.at_ "numberCore").as_int64
    return InformationMessage t tr (some cores.toInt32)
  else .ok (InformationMessage t tr none)

/-- The loop of `RawMessage`'s constructor. `as_int64` throws on anything else,
also on the `uint64` the check before it lets through; the exception is caught
outside the loop, so the bytes before it stay. -/
def readData : List Json → List UInt8
  | .int64 n :: rest => n.toUInt64.toUInt8 :: readData rest
  | _ => []

/-- `RawMessage(type, transaction, jv)`: never throws. -/
def raw_of_json (t : String) (tr : Transaction) (jv : Json) : Message :=
  if tr = .Response then
    match jv.at_ "data" >>= Json.as_array with
    | .ok dataArray => RawMessage t tr (readData dataArray)
    | .error _ => RawMessage t tr []
  else RawMessage t tr []

end Message

/-- `TransportMessage`: what the transport layer hands up and takes. -/
structure TransportMessage where
  type : String
  transaction : Transaction
  payload : List UInt8
  deriving DecidableEq

/-- `TransportMessage()`: the transaction is not initialised. -/
def TransportMessage.empty (P : Platform) : TransportMessage :=
  ⟨"", P.uninitTransaction, []⟩

end NetworkApplication
