/-
`core/message_handler`: the message factory, `parse` and `serialize`.

The factory is a map from type names to constructors; `MessageHandler`'s own
constructor registers `signal`, `information` and `raw`. An exception of a
constructor is caught in `createMessage` and becomes a null message, so `parse`
never throws: a payload that is not JSON, an unknown type and a body of the wrong
shape all give `none`.

The second half is the round trip: what `parse` makes of the text `serialize`
wrote, for the messages the program builds.
-/
import NetworkApplication.Message

set_option autoImplicit false

namespace NetworkApplication

/-- A constructor registered in the factory. -/
abbrev MessageConstructor := String → Transaction → Json → Except Exception Message

/-- `CreatorMessage`: the factory map. -/
structure CreatorMessage where
  factory : List (String × MessageConstructor)

namespace CreatorMessage

/-- `addMessageOnMap`: `factory[type] = function`. -/
def addMessageOnMap (creator : CreatorMessage) (t : String) (function : MessageConstructor) :
    CreatorMessage :=
  ⟨(t, function) :: creator.factory.filter (fun entry => entry.1 != t)⟩

/-- `createMessage`: null for an unknown type and for a constructor that throws. -/
def createMessage (creator : CreatorMessage) (t : String) (tr : Transaction) (jv : Json) :
    Option Message :=
  match creator.factory.lookup t with
  | some function => (function t tr jv).toOption
  | none => none

end CreatorMessage

namespace MessageHandler

variable (P : Platform)

/-- The factory `MessageHandler`'s constructor fills. -/
def creator_message : CreatorMessage :=
  ((CreatorMessage.mk []).addMessageOnMap "signal" (Message.signal_of_json P)
    |>.addMessageOnMap "information" Message.information_of_json)
    |>.addMessageOnMap "raw" (fun t tr jv => .ok (Message.raw_of_json t tr jv))

/-- `MessageHandler::parse`; `none` is the null pointer. -/
def parse (transport_message : TransportMessage) : Option Message :=
  let parsed := P.parse transport_message.payload
  if parsed.error.failed then none
  else (creator_message P).createMessage transport_message.type
    transport_message.transaction parsed.value

/-- `MessageHandler::serialize`. -/
def serialize (message : Option Message) : TransportMessage :=
  match message with
  | none => TransportMessage.empty P
  | some m => ⟨m.type, m.transaction, P.serialize (m.serialize P)⟩

/-! ## What the factory does -/

theorem createMessage_eq (t : String) (tr : Transaction) (jv : Json) :
    (creator_message P).createMessage t tr jv
      = if t = "raw" then some (Message.raw_of_json t tr jv)
        else if t = "information" then (Message.information_of_json t tr jv).toOption
        else if t = "signal" then (Message.signal_of_json P t tr jv).toOption
        else none := by
  have hfac : (creator_message P).factory
      = [("raw", fun t tr jv => .ok (Message.raw_of_json t tr jv)),
         ("information", Message.information_of_json),
         ("signal", Message.signal_of_json P)] := by
    simp [creator_message, CreatorMessage.addMessageOnMap]
  unfold CreatorMessage.createMessage
  rw [hfac]
  by_cases hr : t = "raw"
  · subst hr
    rfl
  · by_cases hi : t = "information"
    · subst hi
      simp [List.lookup_cons]
    · by_cases hs : t = "signal"
      · subst hs
        simp [List.lookup_cons]
      · have h1 : (t == "raw") = false := by simpa using hr
        have h2 : (t == "information") = false := by simpa using hi
        have h3 : (t == "signal") = false := by simpa using hs
        simp [List.lookup_cons, h1, h2, h3, hr, hi, hs]

/-- A payload that boost does not parse gives no message. -/
theorem parse_of_failed {tm : TransportMessage} (h : (P.parse tm.payload).error.failed = true) :
    parse P tm = none := by
  simp [parse, h]

theorem raw_of_json_class (t : String) (tr : Transaction) (jv : Json) :
    ∃ data, Message.raw_of_json t tr jv = .RawMessage t tr data := by
  unfold Message.raw_of_json
  split
  · split
    · exact ⟨_, rfl⟩
    · exact ⟨_, rfl⟩
  · exact ⟨_, rfl⟩

theorem information_of_json_class {t : String} {tr : Transaction} {jv : Json} {m : Message}
    (h : Message.information_of_json t tr jv = .ok m) :
    ∃ cores, m = .InformationMessage t tr cores := by
  unfold Message.information_of_json at h
  split at h
  · obtain ⟨v, -, h⟩ := except_bind_eq_ok.mp h
    obtain ⟨n, -, h⟩ := except_bind_eq_ok.mp h
    exact ⟨_, (Except.ok.inj h).symm⟩
  · exact ⟨_, (Except.ok.inj h).symm⟩

theorem signal_of_json_class {t : String} {tr : Transaction} {jv : Json} {m : Message}
    (h : Message.signal_of_json P t tr jv = .ok m) :
    ∃ freq signal, m = .SignalMessage t tr freq signal := by
  unfold Message.signal_of_json at h
  split at h
  · obtain ⟨v, -, h⟩ := except_bind_eq_ok.mp h
    obtain ⟨n, -, h⟩ := except_bind_eq_ok.mp h
    obtain ⟨a, -, h⟩ := except_bind_eq_ok.mp h
    obtain ⟨l, -, h⟩ := except_bind_eq_ok.mp h
    obtain ⟨signal, -, h⟩ := except_bind_eq_ok.mp h
    exact ⟨_, _, (Except.ok.inj h).symm⟩
  · exact ⟨_, _, (Except.ok.inj h).symm⟩

/-- **The class of a parsed message is the one its type names**, and it carries
the type and the transaction it was parsed with. -/
theorem parse_class {tm : TransportMessage} {m : Message} (h : parse P tm = some m) :
    (tm.type = "raw" ∧ ∃ data, m = .RawMessage tm.type tm.transaction data) ∨
    (tm.type = "information" ∧ ∃ cores, m = .InformationMessage tm.type tm.transaction cores) ∨
    (tm.type = "signal" ∧ ∃ freq signal, m = .SignalMessage tm.type tm.transaction freq signal) := by
  unfold parse at h
  simp only at h
  split at h
  · cases h
  rw [createMessage_eq] at h
  split at h
  · next hr =>
    obtain ⟨data, hdata⟩ :=
      raw_of_json_class tm.type tm.transaction (P.parse tm.payload).value
    rw [hdata, Option.some.injEq] at h
    exact .inl ⟨hr, data, h.symm⟩
  split at h
  · next hi =>
    exact .inr (.inl ⟨hi, information_of_json_class (except_toOption_eq_some.mp h)⟩)
  split at h
  · next hs =>
    exact .inr (.inr ⟨hs, signal_of_json_class P (except_toOption_eq_some.mp h)⟩)
  · cases h

/-! ## Round trip

`Built m` are the messages the program itself builds: requests and the error reply
as plain `Message`s, responses with their own class. `delivered m` is what `parse`
makes of `m` on the other side: a request comes back with the class its type
names and no content, the error reply has a type the factory does not know. -/

/-- The messages the program builds. -/
inductive Built : Message → Prop where
  | signalRequest : Built (.base "signal" .Request)
  | informationRequest : Built (.base "information" .Request)
  | errorReply : Built (.base "unknown" .Error)
  | signal (freq : Int32) (samples : List (FloatBits × FloatBits)) :
      Built (.SignalMessage "signal" .Response (some freq) samples)
  | information (cores : Int32) : Built (.InformationMessage "information" .Response (some cores))
  | raw (data : List UInt8) : Built (.RawMessage "raw" .Response data)

/-- What the receiver's `parse` returns for a message the program builds. -/
def delivered : Message → Option Message
  | .base "signal" tr => some (.SignalMessage "signal" tr none [])
  | .base "information" tr => some (.InformationMessage "information" tr none)
  | .base _ _ => none
  | m => some m

/-- Every float sample of the message survives `float`, `double`, `float`. -/
def SamplesSurvive (m : Message) : Prop :=
  ∀ t tr freq samples, m = .SignalMessage t tr freq samples →
    ∀ c ∈ samples, P.toFloat (P.toDouble c.1) = c.1 ∧ P.toFloat (P.toDouble c.2) = c.2

theorem readData_reparsed (data : List UInt8) :
    Message.readData ((data.map (fun value => Json.uint64 value.toUInt64)).map Json.reparsed)
      = data := by
  induction data with
  | nil => rfl
  | cons b rest ih =>
    rw [List.map_cons, List.map_cons, Json.reparsed_byte, Message.readData, ih,
      UInt64.toUInt64_toInt64, UInt8.toUInt8_toUInt64]

theorem readSignal_reparsed (samples : List (FloatBits × FloatBits))
    (h : ∀ c ∈ samples, P.toFloat (P.toDouble c.1) = c.1 ∧ P.toFloat (P.toDouble c.2) = c.2) :
    Message.readSignal P ((samples.map (Message.sampleJson P)).map Json.reparsed)
      = .ok samples := by
  induction samples with
  | nil => rfl
  | cons c rest ih =>
    obtain ⟨hre, him⟩ := h c (List.mem_cons_self ..)
    have hrest := ih (fun c' hc' => h c' (List.mem_cons_of_mem _ hc'))
    have hc : (Message.sampleJson P c).reparsed = Message.sampleJson P c := rfl
    rw [List.map_cons, List.map_cons, hc, Message.sampleJson, Message.readSignal, hrest]
    simp only [Json.as_double, bind, Except.bind, pure, Except.pure, hre, him]

/-- **Round trip.** The payload written for a message the program builds parses,
under the message's own type and transaction, to `delivered m`. -/
theorem parse_serialize {m : Message} (hm : Built m) (hrt : P.RoundTrips (m.serialize P))
    (hs : SamplesSurvive P m) : parse P (serialize P (some m)) = delivered m := by
  have hparse : P.parse (serialize P (some m)).payload = ⟨.success, (m.serialize P).reparsed⟩ :=
    hrt
  unfold parse
  simp only [hparse, ErrorCode.failed_success, Bool.false_eq_true, if_false, createMessage_eq]
  cases hm with
  | signalRequest => rfl
  | informationRequest => rfl
  | errorReply => rfl
  | signal freq samples =>
    have hfreq : (Message.serialize P (.SignalMessage "signal" .Response (some freq) samples)).at_
        "central_Freq" = .ok (.int64 freq.toInt64) := rfl
    have hsignal : (Message.serialize P (.SignalMessage "signal" .Response (some freq) samples)).at_
        "signal" = .ok (.array (samples.map (Message.sampleJson P))) := rfl
    have hread := readSignal_reparsed P samples (hs _ _ _ _ rfl)
    simp [serialize, Message.type, Message.transaction, Message.signal_of_json,
      Json.at_reparsed hfreq, Json.at_reparsed hsignal, Json.reparsed, Json.as_int64,
      Json.as_array, hread, bind, Except.bind, pure, Except.pure, Except.toOption, delivered,
      -List.map_map]
  | information cores =>
    have hcores : (Message.serialize P (.InformationMessage "information" .Response (some cores))).at_
        "numberCore" = .ok (.int64 cores.toInt64) := rfl
    simp [serialize, Message.type, Message.transaction, Message.information_of_json,
      Json.at_reparsed hcores, Json.reparsed, Json.as_int64, bind, Except.bind, pure,
      Except.pure, Except.toOption, delivered]
  | raw data =>
    have hdata : (Message.serialize P (.RawMessage "raw" .Response data)).at_ "data"
        = .ok (.array (data.map (fun value => .uint64 value.toUInt64))) := rfl
    have hread := readData_reparsed data
    simp only [serialize, Message.type, Message.transaction, Message.raw_of_json, if_true,
      Json.at_reparsed hdata, Json.reparsed, Json.reparsedList_eq_map, Json.as_array, bind,
      Except.bind, hread, delivered]

end MessageHandler

end NetworkApplication
