/-
What the encoder writes and what the decoder makes of it.

Every message class has its own `serialize`, with its own mapping of transactions to
numbers, and its own constructor from JSON, with its own rule for which fields it reads.
Between the two stands the transport layer, which decodes `type` and `transaction` out of
the payload. This file puts the three together for every class, transaction and content,
the built messages of `MessageHandler.lean` and all others.

They agree on responses. Otherwise there are two gaps. The number of `Tests` is known to
`InformationMessage::serialize` alone; the other classes write the number of an error. And
what is written besides a response is not read: `central_Freq` of every `SignalMessage`,
`data` of every `RawMessage`, `numberCore` of an `InformationMessage` under `Tests`.
-/
import NetworkApplication.JsonText
import NetworkApplication.TransportHandler

set_option autoImplicit false

namespace NetworkApplication.Encoding

open JsonText MessageHandler

variable {P : Platform}

/-! ## The fields -/

/-- A field of a payload, with its value as the message's class has it. -/
inductive Field where
  | central_Freq (n : Int32)
  | signal (samples : List (FloatBits × FloatBits))
  | numberCore (n : Int32)
  | data (bytes : List UInt8)

/-- The key the field is written under. -/
def Field.name : Field → String
  | central_Freq _ => "central_Freq"
  | signal _ => "signal"
  | numberCore _ => "numberCore"
  | data _ => "data"

/-- The value that is written. -/
def Field.json (P : Platform) : Field → Json
  | central_Freq n => .int64 n.toInt64
  | signal samples => .array (samples.map (Message.sampleJson P))
  | numberCore n => .int64 n.toInt64
  | data bytes => .array (bytes.map (fun value => .uint64 value.toUInt64))

/-- The fields that `serialize` emits besides the type and the transaction. -/
def emitted (P : Platform) : Message → List Field
  | .base _ _ => []
  | .SignalMessage _ tr freq samples =>
    .central_Freq (freq.getD P.uninitInt) :: if tr = .Response then [.signal samples] else []
  | .InformationMessage _ tr cores =>
    if tr = .Response ∨ tr = .Tests then [.numberCore (cores.getD P.uninitInt)] else []
  | .RawMessage _ _ bytes => [.data bytes]

/-- The member of the field has been set to the field's value. -/
def Has : Message → Field → Prop
  | .SignalMessage _ _ freq _, .central_Freq n => freq = some n
  | .SignalMessage _ _ _ samples, .signal samples' => samples = samples'
  | .InformationMessage _ _ cores, .numberCore n => cores = some n
  | .RawMessage _ _ bytes, .data bytes' => bytes = bytes'
  | _, _ => False

/-- `emitted` is what `serialize` writes. -/
theorem serialize_eq_emitted (P : Platform) (m : Message) :
    m.serialize P = .object (Message.header m.type m.writtenTransaction
      ++ (emitted P m).map (fun field => (field.name, field.json P))) := by
  cases m with
  | base t tr => rfl
  | SignalMessage t tr freq samples => cases tr <;> rfl
  | InformationMessage t tr cores => cases tr <;> rfl
  | RawMessage t tr bytes => rfl

/-! ## The way through -/

/-- What the receiver makes of a message: the type and the transaction that the transport
layer decodes, and the message that is parsed with them. -/
def received (P : Platform) (m : Message) : Except Exception (String × Transaction × Option Message) := do
  let sent := serialize P (some m)
  let (type, transaction) ← TransportHandler.decode (P.parse sent.payload).value
  return (type, transaction, parse P ⟨type, transaction, sent.payload⟩)

/-- The type names the class; a plain `Message` may have any. -/
def NamesClass : Message → Prop
  | .base _ _ => True
  | .SignalMessage t _ _ _ => t = "signal"
  | .InformationMessage t _ _ => t = "information"
  | .RawMessage t _ _ => t = "raw"

/-- The message is of one of the three classes with fields. -/
def Typed : Message → Prop
  | .base _ _ => False
  | _ => True

/-- Encoder and decoder agree on the message: its type and transaction come back, also in
the message that is parsed, and a message of a class with fields is parsed, with every
field that was emitted. -/
def Agrees (P : Platform) (m : Message) : Prop :=
  ∃ type transaction parsed, received P m = .ok (type, transaction, parsed) ∧
    (type = m.type ∧ type = (serialize P (some m)).type) ∧
    (transaction = m.transaction ∧ transaction = (serialize P (some m)).transaction) ∧
    (∀ m', parsed = some m' → m'.type = m.type ∧ m'.transaction = m.transaction) ∧
    (Typed m → ∃ m', parsed = some m' ∧ ∀ field ∈ emitted P m, Has m' field)

/-- The condition for it, class by class. -/
def AgreesWhen : Message → Prop
  | .base _ tr => tr ≠ .Tests
  | .SignalMessage _ tr _ _ => tr = .Response
  | .InformationMessage _ tr _ => tr ≠ .Tests
  | .RawMessage _ tr bytes => tr = .Response ∨ tr ≠ .Tests ∧ bytes = []

/-! ## The transaction -/

/-- Three classes write the number of an error for `Tests`. -/
theorem number_back (tr : Transaction) : setTypeTransaction (Message.transactionNumber tr).toInt32
    = if tr = .Tests then .Error else tr := by
  cases tr <;> rfl

/-- The fourth writes a number of its own for each transaction. -/
theorem informationNumber_back (tr : Transaction) :
    setTypeTransaction (Message.informationTransactionNumber tr).toInt32 = tr := by
  cases tr <;> rfl

/-- The transaction that is read back. -/
def transactionBack (m : Message) : Transaction :=
  setTypeTransaction m.writtenTransaction.toInt32

theorem numberBack_eq_iff (tr : Transaction) :
    setTypeTransaction (Message.transactionNumber tr).toInt32 = tr ↔ tr ≠ .Tests := by
  rw [number_back]
  constructor
  · rintro h rfl
    cases h
  · exact fun h => if_neg h

/-- A response is read back as one, and nothing else is. -/
theorem transactionBack_eq_response (m : Message) :
    transactionBack m = .Response ↔ m.transaction = .Response := by
  have hnumber : ∀ tr, setTypeTransaction (Message.transactionNumber tr).toInt32 = .Response ↔
      tr = .Response := by
    intro tr
    cases tr <;> decide
  cases m with
  | InformationMessage t tr cores =>
    show setTypeTransaction (Message.informationTransactionNumber tr).toInt32 = _ ↔ _
    rw [informationNumber_back]
    exact Iff.rfl
  | base t tr => exact hnumber tr
  | SignalMessage t tr freq samples => exact hnumber tr
  | RawMessage t tr bytes => exact hnumber tr

/-! ## The message that is parsed -/

/-- The type comes back as it is; the transaction as its number says; and the factory is
given the value that was written. -/
theorem received_eq {m : Message} (hrt : P.RoundTrips (m.serialize P)) :
    received P m = .ok (m.type, transactionBack m,
      (creator_message P).createMessage m.type (transactionBack m) (m.serialize P).reparsed) := by
  have hparse : P.parse (serialize P (some m)).payload = ⟨.success, (m.serialize P).reparsed⟩ := hrt
  have htype := Json.at_reparsed (Message.serialize_at_type P m)
  have htransaction := Json.at_reparsed (Message.serialize_at_transaction P m)
  simp only [received, TransportHandler.decode, parse, hparse, htype, htransaction, Json.reparsed,
    Json.as_string, Json.as_int64, bind, Except.bind, pure, Except.pure, ErrorCode.failed_success,
    Bool.false_eq_true, if_false, transactionBack]

/-- The fields of a `SignalMessage` are read under a response and only there. -/
theorem createMessage_signal (tr : Transaction) (freq : Option Int32)
    (samples : List (FloatBits × FloatBits))
    (hs : SamplesSurvive P (.SignalMessage "signal" tr freq samples)) :
    (creator_message P).createMessage "signal" (transactionBack (.SignalMessage "signal" tr freq samples))
        ((Message.SignalMessage "signal" tr freq samples).serialize P).reparsed
      = some (if tr = .Response then
          .SignalMessage "signal" .Response (some (freq.getD P.uninitInt)) samples
        else .SignalMessage "signal" (transactionBack (.SignalMessage "signal" tr freq samples)) none []) := by
  have hback := transactionBack_eq_response (.SignalMessage "signal" tr freq samples)
  rw [createMessage_eq]
  by_cases htr : tr = .Response
  · subst htr
    have hfreq : (Message.serialize P (.SignalMessage "signal" .Response freq samples)).at_
        "central_Freq" = .ok (.int64 (freq.getD P.uninitInt).toInt64) := rfl
    have hsignal : (Message.serialize P (.SignalMessage "signal" .Response freq samples)).at_
        "signal" = .ok (.array (samples.map (Message.sampleJson P))) := rfl
    have hread := readSignal_reparsed P samples (hs _ _ _ _ rfl)
    simp [Message.signal_of_json, hback.mpr rfl, Json.at_reparsed hfreq, Json.at_reparsed hsignal,
      Json.reparsed, Json.as_int64, Json.as_array, hread, bind, Except.bind, pure, Except.pure,
      Except.toOption, -List.map_map]
  · have hne := mt hback.mp htr
    simp only [Message.signal_of_json, if_neg hne, if_neg htr, Except.toOption, String.reduceEq, if_false, if_true]

/-- So is that of an `InformationMessage`. -/
theorem createMessage_information (tr : Transaction) (cores : Option Int32) :
    (creator_message P).createMessage "information" (transactionBack (.InformationMessage "information" tr cores))
        ((Message.InformationMessage "information" tr cores).serialize P).reparsed
      = some (.InformationMessage "information" tr
          (if tr = .Response then some (cores.getD P.uninitInt) else none)) := by
  have hback : transactionBack (.InformationMessage "information" tr cores) = tr :=
    informationNumber_back tr
  rw [createMessage_eq, hback]
  by_cases htr : tr = .Response
  · subst htr
    have hcores : (Message.serialize P (.InformationMessage "information" .Response cores)).at_
        "numberCore" = .ok (.int64 (cores.getD P.uninitInt).toInt64) := rfl
    simp [Message.information_of_json, Json.at_reparsed hcores, Json.reparsed, Json.as_int64, bind,
      Except.bind, pure, Except.pure, Except.toOption]
  · simp only [Message.information_of_json, if_neg htr, Except.toOption, String.reduceEq, if_false, if_true]

/-- And that of a `RawMessage`. -/
theorem createMessage_raw (tr : Transaction) (bytes : List UInt8) :
    (creator_message P).createMessage "raw" (transactionBack (.RawMessage "raw" tr bytes))
        ((Message.RawMessage "raw" tr bytes).serialize P).reparsed
      = some (.RawMessage "raw" (transactionBack (.RawMessage "raw" tr bytes))
          (if tr = .Response then bytes else [])) := by
  have hback := transactionBack_eq_response (.RawMessage "raw" tr bytes)
  rw [createMessage_eq, if_pos rfl]
  by_cases htr : tr = .Response
  · subst htr
    have hdata : (Message.serialize P (.RawMessage "raw" .Response bytes)).at_ "data"
        = .ok (.array (bytes.map (fun value => .uint64 value.toUInt64))) := rfl
    simp only [Message.raw_of_json, hback.mpr rfl, if_true, Json.at_reparsed hdata, Json.reparsed,
      Json.reparsedList_eq_map, Json.as_array, bind, Except.bind, readData_reparsed]
  · have hne := mt hback.mp htr
    simp only [Message.raw_of_json, if_neg hne, if_neg htr]

/-- Whatever the factory creates carries the type and the transaction it was asked for. -/
theorem createMessage_carries {t : String} {tr : Transaction} {jv : Json} {m : Message}
    (h : (creator_message P).createMessage t tr jv = some m) : m.type = t ∧ m.transaction = tr := by
  rw [createMessage_eq] at h
  split at h
  · obtain ⟨bytes, hbytes⟩ := raw_of_json_class t tr jv
    rw [hbytes] at h
    obtain rfl := Option.some.inj h
    exact ⟨rfl, rfl⟩
  split at h
  · obtain ⟨cores, rfl⟩ := information_of_json_class (except_toOption_eq_some.mp h)
    exact ⟨rfl, rfl⟩
  split at h
  · obtain ⟨freq, samples, rfl⟩ := signal_of_json_class P (except_toOption_eq_some.mp h)
    exact ⟨rfl, rfl⟩
  · cases h

/-- Without its field only a response is not created. -/
theorem information_of_json_of_absent {t : String} {tr : Transaction} {jv : Json} {e : Exception}
    (h : jv.at_ "numberCore" = .error e) :
    (Message.information_of_json t tr jv).toOption = none ↔ tr = .Response := by
  by_cases htr : tr = .Response
  · simp [Message.information_of_json, htr, h, bind, Except.bind, Except.toOption]
  · simp [Message.information_of_json, htr, Except.toOption]

theorem signal_of_json_of_absent {t : String} {tr : Transaction} {jv : Json} {e : Exception}
    (h : jv.at_ "central_Freq" = .error e) :
    (Message.signal_of_json P t tr jv).toOption = none ↔ tr = .Response := by
  by_cases htr : tr = .Response
  · simp [Message.signal_of_json, htr, h, bind, Except.bind, Except.toOption]
  · simp [Message.signal_of_json, htr, Except.toOption]

/-- Of a plain `Message` a request's or an error's type is enough, if it is one the factory
knows; a response needs the fields it does not have, except under `raw`. -/
theorem createMessage_base (t : String) (tr : Transaction) :
    (creator_message P).createMessage t (transactionBack (.base t tr))
        ((Message.base t tr).serialize P).reparsed = none
      ↔ t ≠ "raw" ∧ ((t = "signal" ∨ t = "information") → tr = .Response) := by
  have hback : transactionBack (.base t tr) = .Response ↔ tr = .Response :=
    transactionBack_eq_response (.base t tr)
  have hcores : ((Message.base t tr).serialize P).reparsed.at_ "numberCore"
      = .error (.out_of_range "numberCore") := rfl
  have hfreq : ((Message.base t tr).serialize P).reparsed.at_ "central_Freq"
      = .error (.out_of_range "central_Freq") := rfl
  rw [createMessage_eq]
  by_cases hraw : t = "raw"
  · simp only [hraw, if_true, reduceCtorEq, ne_eq, not_true_eq_false, false_and]
  by_cases hinformation : t = "information"
  · rw [if_neg hraw, if_pos hinformation, information_of_json_of_absent hcores, hback]
    exact ⟨fun htr => ⟨hraw, fun _ => htr⟩, fun h => h.2 (.inr hinformation)⟩
  rw [if_neg hraw, if_neg hinformation]
  by_cases hsignal : t = "signal"
  · rw [if_pos hsignal, signal_of_json_of_absent hfreq, hback]
    exact ⟨fun htr => ⟨hraw, fun _ => htr⟩, fun h => h.2 (.inl hsignal)⟩
  · rw [if_neg hsignal]
    exact ⟨fun _ => ⟨hraw, fun h => (h.elim hsignal hinformation).elim⟩, fun _ => rfl⟩

/-! ## Agreement -/

/-- What is left to ask once the payload has been decoded. -/
theorem agrees_iff {m : Message} (hrt : P.RoundTrips (m.serialize P)) :
    Agrees P m ↔ transactionBack m = m.transaction ∧
      (Typed m → ∃ m', (creator_message P).createMessage m.type (transactionBack m)
        (m.serialize P).reparsed = some m' ∧ ∀ field ∈ emitted P m, Has m' field) := by
  constructor
  · rintro ⟨type, transaction, parsed, hreceived, -, ⟨htransaction, -⟩, -, hfields⟩
    rw [received_eq hrt, Except.ok.injEq, Prod.mk.injEq, Prod.mk.injEq] at hreceived
    obtain ⟨rfl, rfl, rfl⟩ := hreceived
    exact ⟨htransaction, hfields⟩
  · rintro ⟨htransaction, hfields⟩
    refine ⟨_, _, _, received_eq hrt, ⟨rfl, rfl⟩, ⟨htransaction, htransaction⟩, fun m' hm' => ?_, hfields⟩
    rw [← htransaction]
    exact createMessage_carries hm'

/-- Of a `SignalMessage` the frequency is always written, and read of a response. -/
theorem agrees_signal_iff {tr : Transaction} {freq : Option Int32}
    {samples : List (FloatBits × FloatBits)}
    (hrt : P.RoundTrips ((Message.SignalMessage "signal" tr freq samples).serialize P))
    (hs : SamplesSurvive P (.SignalMessage "signal" tr freq samples)) :
    Agrees P (.SignalMessage "signal" tr freq samples) ↔ tr = .Response := by
  rw [agrees_iff hrt, Message.type, createMessage_signal tr freq samples hs]
  constructor
  · rintro ⟨-, hfields⟩
    by_contra htr
    obtain ⟨m', hm', hhas⟩ := hfields trivial
    rw [if_neg htr] at hm'
    obtain rfl := Option.some.inj hm'
    cases hhas _ (List.mem_cons_self ..)
  · rintro rfl
    refine ⟨rfl, fun _ => ⟨_, rfl, fun field hfield => ?_⟩⟩
    rcases List.mem_cons.mp hfield with rfl | hfield
    · rfl
    · rw [List.mem_singleton.mp hfield]
      rfl

/-- Of an `InformationMessage` every transaction comes back; the cores are written under
`Tests` too, and not read there. -/
theorem agrees_information_iff {tr : Transaction} {cores : Option Int32}
    (hrt : P.RoundTrips ((Message.InformationMessage "information" tr cores).serialize P)) :
    Agrees P (.InformationMessage "information" tr cores) ↔ tr ≠ .Tests := by
  rw [agrees_iff hrt, Message.type, createMessage_information tr cores]
  constructor
  · rintro ⟨-, hfields⟩ rfl
    obtain ⟨m', hm', hhas⟩ := hfields trivial
    obtain rfl := Option.some.inj hm'
    cases hhas _ (List.mem_cons_self ..)
  · intro htr
    refine ⟨informationNumber_back tr, fun _ => ⟨_, rfl, fun field hfield => ?_⟩⟩
    by_cases hresponse : tr = .Response
    · subst hresponse
      rw [List.mem_singleton.mp hfield]
      rfl
    · simp only [emitted, hresponse, htr, or_self, if_false, List.not_mem_nil] at hfield

/-- Of a `RawMessage` the bytes are always written, and read of a response. -/
theorem agrees_raw_iff {tr : Transaction} {bytes : List UInt8}
    (hrt : P.RoundTrips ((Message.RawMessage "raw" tr bytes).serialize P)) :
    Agrees P (.RawMessage "raw" tr bytes) ↔ tr = .Response ∨ tr ≠ .Tests ∧ bytes = [] := by
  rw [agrees_iff hrt, Message.type, createMessage_raw tr bytes]
  have hback : transactionBack (.RawMessage "raw" tr bytes) = tr ↔ tr ≠ .Tests := numberBack_eq_iff tr
  constructor
  · rintro ⟨htransaction, hfields⟩
    obtain ⟨m', hm', hhas⟩ := hfields trivial
    obtain rfl := Option.some.inj hm'
    have hbytes : (if tr = .Response then bytes else []) = bytes := hhas _ (List.mem_cons_self ..)
    by_cases htr : tr = .Response
    · exact .inl htr
    · rw [if_neg htr] at hbytes
      exact .inr ⟨hback.mp htransaction, hbytes.symm⟩
  · intro h
    have htests : tr ≠ .Tests := by
      rcases h with rfl | ⟨h, -⟩
      · simp
      · exact h
    refine ⟨hback.mpr htests, fun _ => ⟨_, rfl, fun field hfield => ?_⟩⟩
    rw [List.mem_singleton.mp hfield]
    show (if tr = .Response then bytes else []) = bytes
    rcases h with rfl | ⟨-, rfl⟩
    · rfl
    · exact ite_self _

/-- **When encoder and decoder agree.** For every message whose type names its class, under
every transaction and with every content; and a plain `Message`, which has no fields, is
not parsed exactly if the factory does not know its type, or knows it and wants the fields of
a response. -/
theorem encoder_and_decoder_agree_iff (m : Message) (hname : NamesClass m)
    (hrt : P.RoundTrips (m.serialize P)) (hs : SamplesSurvive P m) :
    (Agrees P m ↔ AgreesWhen m) ∧ ∀ t tr, m = .base t tr →
      (received P m = .ok (t, transactionBack m, none)
        ↔ t ≠ "raw" ∧ ((t = "signal" ∨ t = "information") → tr = .Response)) := by
  constructor
  · cases m with
    | base t tr => exact (agrees_iff hrt).trans ((and_iff_left nofun).trans (numberBack_eq_iff tr))
    | SignalMessage t tr freq samples =>
      obtain rfl : t = "signal" := hname
      exact agrees_signal_iff hrt hs
    | InformationMessage t tr cores =>
      obtain rfl : t = "information" := hname
      exact agrees_information_iff hrt
    | RawMessage t tr bytes =>
      obtain rfl : t = "raw" := hname
      exact agrees_raw_iff hrt
  · rintro t tr rfl
    rw [received_eq hrt, Except.ok.injEq, Prod.mk.injEq, Prod.mk.injEq, ← createMessage_base (P := P)]
    exact ⟨fun h => h.2.2, fun h => ⟨rfl, rfl, h⟩⟩

/-- A response with one sample. -/
def oneSample : Message := .SignalMessage "signal" .Response (some 5) [(0, 0)]

theorem one_sample_agrees : Agrees jsonPlatform oneSample := by
  refine (encoder_and_decoder_agree_iff (P := jsonPlatform) oneSample rfl
    (roundTrips_plain (plain_serialize (by decide))) ?_).1.mpr rfl
  rintro t tr freq samples hm c hc
  cases hm
  rw [List.mem_singleton.mp hc]
  exact ⟨rfl, rfl⟩

/-- A plain message under `Tests`. -/
def testMessage : Message := .base "signal" .Tests

/-- **The transaction of a test is read back as an error.** -/
theorem tests_read_back_as_error : NamesClass testMessage ∧
    jsonPlatform.RoundTrips (testMessage.serialize jsonPlatform) ∧
    SamplesSurvive jsonPlatform testMessage ∧ ¬ Agrees jsonPlatform testMessage := by
  have hrt : jsonPlatform.RoundTrips (testMessage.serialize jsonPlatform) :=
    roundTrips_plain (plain_serialize (by decide))
  refine ⟨trivial, hrt, nofun, fun h => ?_⟩
  cases ((agrees_iff hrt).mp h).1

end NetworkApplication.Encoding
