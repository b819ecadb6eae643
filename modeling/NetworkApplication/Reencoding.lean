/-
Encoding a message again that was decoded.

A message object is built in memory that held something before, and a constructor need not
set every member. What is read of a member that was not set is then what the memory held.
This file runs the program twice over one `TransportMessage`, in memory with different
contents, and compares what is sent.

A member is written as it is, set or not (`serialize_inMemory`), so all depends on whether
some unset member is written at all (`Unset`). The two constructors set theirs for a response
and for nothing else. `InformationMessage::serialize` writes `numberCore` for responses and
tests; `SignalMessage::serialize` writes `central_Freq` always, one line above the branch that
`signal` is written in. So a request for a signal, decoded and encoded again, has four bytes of
memory in it.
-/
import NetworkApplication.Decoding
import NetworkApplication.Encoding

set_option autoImplicit false

namespace NetworkApplication.Reencoding

open JsonText MessageHandler

variable {P : Platform}

/-! ## Memory -/

/-- What the memory holds in the place of a member. -/
structure Contents where
  int : Int32
  transaction : Transaction

/-- The same platform in memory with these contents. -/
def inMemory (P : Platform) (held : Contents) : Platform :=
  { P with uninitInt := held.int, uninitTransaction := held.transaction }

/-- One run: the message is built in this memory and encoded there. -/
def reencoded (P : Platform) (held : Contents) (tm : TransportMessage) : TransportMessage :=
  serialize (inMemory P held) (parse (inMemory P held) tm)

/-- The same bytes in any two runs. -/
def SameBytes (P : Platform) (tm : TransportMessage) : Prop :=
  ∀ held held', (reencoded P held tm).payload = (reencoded P held' tm).payload

/-- The loop over the samples does not look at the memory. -/
theorem readSignal_inMemory (held : Contents) (l : List Json) :
    Message.readSignal (inMemory P held) l = Message.readSignal P l := by
  fun_induction Message.readSignal P l with
  | case1 => rfl
  | case2 re im rest ih =>
    simp only [Message.readSignal, ih]
    rfl
  | case3 v rest hnot ih =>
    rw [Message.readSignal, ih]
    exact hnot

/-- Nor does any other part of the decoding. -/
theorem parse_inMemory (held : Contents) (tm : TransportMessage) :
    parse (inMemory P held) tm = parse P tm := by
  have hsignal : Message.signal_of_json (inMemory P held) = Message.signal_of_json P := by
    funext t tr jv
    simp only [Message.signal_of_json, readSignal_inMemory]
  simp only [parse, creator_message, hsignal]
  rfl

/-! ## What is written of it -/

/-- A member that was never set is written. -/
def Unset : Message → Prop
  | .SignalMessage _ _ none _ => True
  | .InformationMessage _ tr none => tr = .Response ∨ tr = .Tests
  | _ => False

/-- The message with its unset member set. -/
def filled (k : Int32) : Message → Message
  | .SignalMessage t tr none samples => .SignalMessage t tr (some k) samples
  | .InformationMessage t tr none => .InformationMessage t tr (some k)
  | m => m

/-- The memory is written as if it were the member's value. -/
theorem serialize_inMemory (held : Contents) (m : Message) :
    m.serialize (inMemory P held) = (filled held.int m).serialize P := by
  cases m with
  | base t tr => rfl
  | SignalMessage t tr freq samples => cases freq <;> rfl
  | InformationMessage t tr cores => cases cores <;> rfl
  | RawMessage t tr bytes => rfl

/-- What is set is written whatever the memory held. -/
theorem serialize_filled {m : Message} (h : ¬ Unset m) (k : Int32) :
    (filled k m).serialize P = m.serialize P := by
  cases m with
  | base t tr => rfl
  | SignalMessage t tr freq samples =>
    cases freq with
    | none => exact absurd trivial h
    | some freq => rfl
  | InformationMessage t tr cores =>
    cases cores with
    | none =>
      have hnot : ¬ (tr = .Response ∨ tr = .Tests) := h
      simp only [filled, Message.serialize, if_neg hnot]
    | some cores => rfl
  | RawMessage t tr bytes => rfl

/-- boost reads back what it writes of an object with a string and two integers. -/
structure PlainTexts (P : Platform) : Prop where
  signal (tr : Transaction) (htr : tr ≠ .Response) (k : Int32) :
    P.RoundTrips ((Message.SignalMessage "signal" tr (some k) []).serialize P)
  information (k : Int32) :
    P.RoundTrips ((Message.InformationMessage "information" .Tests (some k)).serialize P)

/-- Values whose texts are read back have different texts if a field of theirs differs. -/
theorem int64_of_same_text {v v' : Json} {key : String} {n n' : Int64}
    (hv : P.RoundTrips v) (hv' : P.RoundTrips v') (hn : v.at_ key = .ok (.int64 n))
    (hn' : v'.at_ key = .ok (.int64 n')) (h : P.serialize v = P.serialize v') : n = n' := by
  have hresult : (⟨.success, v.reparsed⟩ : ParseResult) = ⟨.success, v'.reparsed⟩ := by
    rw [← hv, ← hv', h]
  have hvalue : v.reparsed = v'.reparsed := congrArg ParseResult.value hresult
  have hfield : (Except.ok (.int64 n) : Except Exception Json) = .ok (.int64 n') := by
    rw [← show v.reparsed.at_ key = .ok (.int64 n) from Json.at_reparsed hn,
      ← show v'.reparsed.at_ key = .ok (.int64 n') from Json.at_reparsed hn', hvalue]
  exact Json.int64.inj (Except.ok.inj hfield)

/-! ## What the decoding sets -/

/-- The types and transactions whose constructor sets all that is written afterwards. -/
def AllSet (tm : TransportMessage) : Prop :=
  (tm.type = "signal" → tm.transaction = .Response) ∧
    (tm.type = "information" → tm.transaction ≠ .Tests)

/-- The frequency and the samples are set by a response only. -/
theorem signal_of_json_members {t : String} {tr : Transaction} {jv : Json} {m : Message}
    (h : Message.signal_of_json P t tr jv = .ok m) :
    (tr = .Response ∧ ∃ freq samples, m = .SignalMessage t tr (some freq) samples) ∨
      tr ≠ .Response ∧ m = .SignalMessage t tr none [] := by
  by_cases htr : tr = .Response
  · subst htr
    obtain ⟨n, -, samples, -, -, -, rfl⟩ := Decoding.signal_eq_ok_iff.mp h
    exact .inl ⟨rfl, n.toInt32, samples, rfl⟩
  · rw [Message.signal_of_json, if_neg htr, Except.ok.injEq] at h
    exact .inr ⟨htr, h.symm⟩

/-- So is the number of cores. -/
theorem information_of_json_members {t : String} {tr : Transaction} {jv : Json} {m : Message}
    (h : Message.information_of_json t tr jv = .ok m) :
    (tr = .Response ∧ ∃ cores, m = .InformationMessage t tr (some cores)) ∨
      tr ≠ .Response ∧ m = .InformationMessage t tr none := by
  by_cases htr : tr = .Response
  · subst htr
    obtain ⟨n, -, rfl⟩ := Decoding.information_eq_ok_iff.mp h
    exact .inl ⟨rfl, n.toInt32, rfl⟩
  · rw [Message.information_of_json, if_neg htr, Except.ok.injEq] at h
    exact .inr ⟨htr, h.symm⟩

/-- What an accepted `TransportMessage` leaves unset, by its type and its transaction. -/
theorem parse_members {tm : TransportMessage} {m : Message} (haccepted : parse P tm = some m) :
    (tm.type = "raw" ∧ ∃ bytes, m = .RawMessage "raw" tm.transaction bytes) ∨
    (tm.type = "information" ∧
      ((tm.transaction = .Response ∧ ∃ cores, m = .InformationMessage "information" .Response (some cores)) ∨
        tm.transaction ≠ .Response ∧ m = .InformationMessage "information" tm.transaction none)) ∨
    (tm.type = "signal" ∧
      ((tm.transaction = .Response ∧ ∃ freq samples, m = .SignalMessage "signal" .Response (some freq) samples) ∨
        tm.transaction ≠ .Response ∧ m = .SignalMessage "signal" tm.transaction none [])) := by
  cases hvalid : (P.parse tm.payload).error.failed with
  | true =>
    rw [parse_of_failed P hvalid] at haccepted
    cases haccepted
  | false =>
    rw [Decoding.parse_of_valid hvalid, createMessage_eq] at haccepted
    split at haccepted
    · next hraw =>
      obtain ⟨bytes, hbytes⟩ := raw_of_json_class tm.type tm.transaction (P.parse tm.payload).value
      rw [hbytes, Option.some.injEq, hraw] at haccepted
      exact .inl ⟨hraw, bytes, haccepted.symm⟩
    split at haccepted
    · next hinformation =>
      rw [hinformation] at haccepted
      refine .inr (.inl ⟨hinformation, ?_⟩)
      rcases information_of_json_members (except_toOption_eq_some.mp haccepted) with
        ⟨htr, cores, rfl⟩ | h
      · exact .inl ⟨htr, cores, by rw [htr]⟩
      · exact .inr h
    split at haccepted
    · next hsignal =>
      rw [hsignal] at haccepted
      refine .inr (.inr ⟨hsignal, ?_⟩)
      rcases signal_of_json_members (except_toOption_eq_some.mp haccepted) with
        ⟨htr, freq, samples, rfl⟩ | h
      · exact .inl ⟨htr, freq, samples, by rw [htr]⟩
      · exact .inr h
    · cases haccepted

/-! ## Two runs -/

/-- The bytes of a run. -/
theorem payload_reencoded {tm : TransportMessage} {m : Message} (haccepted : parse P tm = some m)
    (held : Contents) :
    (reencoded P held tm).payload = P.serialize ((filled held.int m).serialize P) := by
  rw [reencoded, parse_inMemory, haccepted, ← serialize_inMemory]
  rfl

/-- Two runs never differ in the bytes of a member that was set. -/
theorem sameBytes_of_not_unset {tm : TransportMessage} {m : Message}
    (haccepted : parse P tm = some m) (h : ¬ Unset m) : SameBytes P tm := by
  intro held held'
  rw [payload_reencoded haccepted, payload_reencoded haccepted, serialize_filled h,
    serialize_filled h]

/-- Memory that differs in an unset member is seen, if its text is. -/
theorem not_sameBytes (key : String) {tm : TransportMessage} {m : Message}
    (haccepted : parse P tm = some m) (hrt : ∀ k, P.RoundTrips ((filled k m).serialize P))
    (hkey : ∀ k, ((filled k m).serialize P).at_ key = .ok (.int64 k.toInt64)) :
    ¬ SameBytes P tm := by
  intro hsame
  have htexts : P.serialize ((filled 0 m).serialize P) = P.serialize ((filled 1 m).serialize P) := by
    rw [← payload_reencoded haccepted ⟨0, .Request⟩, ← payload_reencoded haccepted ⟨1, .Request⟩]
    exact hsame _ _
  have hsame : (0 : Int32).toInt64 = (1 : Int32).toInt64 :=
    int64_of_same_text (hrt 0) (hrt 1) (hkey 0) (hkey 1) htexts
  exact absurd hsame (by decide)

/-- **When the bytes depend only on what was decoded**: for every `TransportMessage` that is
accepted, of any type, transaction and payload. -/
theorem reencoding_same_bytes_iff (hplain : PlainTexts P) {tm : TransportMessage} {m : Message}
    (haccepted : parse P tm = some m) : SameBytes P tm ↔ AllSet tm := by
  rcases parse_members haccepted with ⟨ht, bytes, rfl⟩ | ⟨ht, hm⟩ | ⟨ht, hm⟩
  · refine iff_of_true (sameBytes_of_not_unset haccepted id) ⟨fun h => ?_, fun h => ?_⟩
    · exact absurd (ht.symm.trans h) (by decide)
    · exact absurd (ht.symm.trans h) (by decide)
  · have hsignal : tm.type ≠ "signal" := fun h => absurd (ht.symm.trans h) (by decide)
    rcases hm with ⟨htr, cores, rfl⟩ | ⟨htr, rfl⟩
    · exact iff_of_true (sameBytes_of_not_unset haccepted id)
        ⟨fun h => absurd h hsignal, fun _ => by simp [htr]⟩
    · by_cases htests : tm.transaction = .Tests
      · refine iff_of_false ?_ (fun h => h.2 ht htests)
        rw [htests] at haccepted
        exact not_sameBytes "numberCore" haccepted hplain.information (fun _ => rfl)
      · exact iff_of_true (sameBytes_of_not_unset haccepted (not_or.mpr ⟨htr, htests⟩))
          ⟨fun h => absurd h hsignal, fun _ => htests⟩
  · rcases hm with ⟨htr, freq, samples, rfl⟩ | ⟨htr, rfl⟩
    · exact iff_of_true (sameBytes_of_not_unset haccepted id) ⟨fun _ => htr, fun _ => by simp [htr]⟩
    · exact iff_of_false (not_sameBytes "central_Freq" haccepted (hplain.signal _ htr) (fun _ => rfl))
        (fun h => htr (h.1 ht))

/-! ## Two requests -/

theorem plainTexts_jsonPlatform : PlainTexts jsonPlatform where
  signal _ _ _ := roundTrips_plain (plain_serialize plainString_signal)
  information _ := roundTrips_plain (plain_serialize plainString_information)

/-- A request for a signal, as a client writes it. -/
def signalRequest : TransportMessage := ⟨"signal", .Request, headerText "signal" 0⟩

/-- **A request for a signal is sent on with memory in it.** -/
theorem signal_request_shows_memory : PlainTexts jsonPlatform ∧
    parse jsonPlatform signalRequest = some (.SignalMessage "signal" .Request none []) ∧
    ¬ SameBytes jsonPlatform signalRequest := by
  have haccepted : parse jsonPlatform signalRequest = some (.SignalMessage "signal" .Request none []) :=
    parse_serialize jsonPlatform .signalRequest (roundTrips_plain (plain_serialize (by decide))) nofun
  refine ⟨plainTexts_jsonPlatform, haccepted, fun h => ?_⟩
  have hbytes := h ⟨0, .Request⟩ ⟨1, .Request⟩
  revert hbytes
  decide +kernel

/-- A request for information. -/
def informationRequest : TransportMessage := ⟨"information", .Request, headerText "information" 0⟩

theorem information_request_same_bytes : SameBytes jsonPlatform informationRequest :=
  (reencoding_same_bytes_iff plainTexts_jsonPlatform
    (parse_serialize jsonPlatform .informationRequest (roundTrips_plain (plain_serialize (by decide)))
      nofun)).mpr ⟨by decide, by decide⟩

end NetworkApplication.Reencoding
