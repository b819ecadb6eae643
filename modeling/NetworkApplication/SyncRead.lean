/-
What one synchronous read reports.

The peer's side of the connection is a finite stream of bytes: a read gets the
bytes it asks for as long as the stream lasts and an error after that. This file
follows `TransportHandler::read(Sync)` through its stages for every such stream and
says which call of `onAllRead` comes out of it.

The stages leave `read_sync` at five places, and four of them go through
`errorHandler`. The fifth is the decoding of `type` and `transaction`, whose
accessors throw: a payload that is JSON but not an object with a string `type` and
an `int64` `transaction` makes the call throw, after `onReadHandler` and without
`onAllRead`. `write` has a `try` block around its callbacks and `read_sync` has
none. So the result is an equivalence, with that kind of payload as its exception.
-/
import NetworkApplication.JsonText
import NetworkApplication.Session

set_option autoImplicit false

namespace NetworkApplication.SyncRead

open NetworkApplication.Program TransportHandler JsonText

variable {P : Platform} {ids : Nat → UInt64} {env : Op → World → Choice} {cut : ErrorCode}
  {th : TransportHandler} {w : World}

/-! ## The peer's stream and the callbacks -/

/-- The environment reads from the peer's stream: what has arrived is read as long
as it lasts, and then every read reports `cut`. -/
def ReadsStream (env : Op → World → Choice) (cut : ErrorCode) : Prop :=
  ∀ a n w, env (.read a n) w
    = if n ≤ (w.sessions a).rx.length then .ok n else .fail cut (w.sessions a).rx.length

/-- The calls of `onAllRead` so far. -/
def readCalls (w : World) : List (ErrorCode × TransportMessage) :=
  w.events.filterMap (fun
    | .onAllRead ec message => some (ec, message)
    | _ => none)

/-- A callback that only records its call. -/
def record : ErrorCode × TransportMessage → NetProg Unit :=
  fun (ec, message) => call (.event (.onAllRead ec message))

/-- A callback that returns and makes no call of `onAllRead`. -/
def Quiet (ids : Nat → UInt64) (env : Op → World → Choice) (p : NetProg Unit) : Prop :=
  ∀ w, ∃ w', Prog.run (sem ids) env p w = some (.ok (), w') ∧ readCalls w' = readCalls w

/-- A handler whose calls of `onAllRead` are observed and whose other callbacks, if
set, are quiet. -/
structure Observed (ids : Nat → UInt64) (env : Op → World → Choice) (th : TransportHandler) :
    Prop where
  onAllRead : th.onAllRead = some record
  onError : ∀ ec, Quiet ids env (invoke th.onError ec)
  onReadHandler : ∀ x, Quiet ids env (invoke th.onReadHandler x)

theorem readCalls_congr {w₁ : World} (h : w₁.events = w.events) : readCalls w₁ = readCalls w := by
  rw [readCalls, h, readCalls]

theorem run_record (ids : Nat → UInt64) (env : Op → World → Choice) (w : World)
    (x : ErrorCode × TransportMessage) :
    ∃ w', Prog.run (sem ids) env (record x) w = some (.ok (), w') ∧
      readCalls w' = readCalls w ++ [x] := by
  refine ⟨{ w with events := w.events ++ [.onAllRead x.1 x.2] }, rfl, ?_⟩
  simp only [readCalls, List.filterMap_append, List.filterMap_cons, List.filterMap_nil]

/-! ## The stages -/

/-- Without an error the handler does nothing. -/
theorem errorHandler_of_not_failed {ec : ErrorCode} (h : ec.failed = false) :
    th.errorHandler ec = Prog.pure false := by
  simp [errorHandler, check_error_of_not_failed h, h]

/-- With an error, critical or not, it reports the error message once. -/
theorem run_errorHandler_of_failed (hobs : Observed ids env th) {ec : ErrorCode}
    (h : ec.failed = true) :
    ∃ w', Prog.run (sem ids) env (th.errorHandler ec) w = some (.ok true, w') ∧
      readCalls w' = readCalls w ++ [(ec, setErrorMessage)] := by
  obtain ⟨w₁, hrun₁, hcalls₁⟩ : ∃ w₁,
      Prog.run (sem ids) env (Prog.when (check_error ec) (invoke th.onError ec)) w
        = some (.ok (), w₁) ∧ readCalls w₁ = readCalls w := by
    cases check_error ec with
    | true => exact hobs.onError ec w
    | false => exact ⟨w, rfl, rfl⟩
  obtain ⟨w₂, hrun₂, hcalls₂⟩ := run_record ids env w₁
    (ec, setErrorMessage)
  refine ⟨w₂, ?_, by rw [hcalls₂, hcalls₁]⟩
  unfold errorHandler
  rw [Prog.run_bind_ok hrun₁, if_pos h, hobs.onAllRead]
  exact Prog.run_bind_ok hrun₂

/-- An error exit of a read: the error message once, and nothing behind it runs. -/
theorem run_error_exit (hobs : Observed ids env th) {ec : ErrorCode} (h : ec.failed = true) :
    ∃ w', (∀ rest : NetProg Unit, Prog.run (sem ids) env
        (th.errorHandler ec >>= fun b => if b = true then Prog.pure () else rest) w
          = some (.ok (), w')) ∧
      readCalls w' = readCalls w ++ [(ec, setErrorMessage)] := by
  obtain ⟨w', hrun, hcalls⟩ := run_errorHandler_of_failed (w := w) hobs h
  refine ⟨w', fun rest => ?_, hcalls⟩
  rw [Prog.run_bind_ok hrun]
  rfl

/-- The payload's JSON does not parse. -/
theorem run_read_json_of_failed (hobs : Observed ids env th) {payload : List UInt8}
    (h : (P.parse payload).error.failed = true) :
    ∃ w', Prog.run (sem ids) env (th.read_json P payload) w = some (.ok (), w') ∧
      readCalls w' = readCalls w ++ [((P.parse payload).error, setErrorMessage)] := by
  obtain ⟨w', hrun, hcalls⟩ := run_error_exit (w := w) hobs h
  exact ⟨w', hrun _, hcalls⟩

/-- What is left of a read whose payload parses and decodes. -/
theorem read_json_of_decode {payload : List UInt8} {type : String} {transaction : Transaction}
    (h : (P.parse payload).error.failed = false)
    (hdec : decode (P.parse payload).value = .ok (type, transaction)) :
    th.read_json P payload
      = invoke th.onReadHandler (0, payload, payload.length + 1) >>= fun _ =>
          invoke th.onAllRead ((P.parse payload).error, ⟨type, transaction, payload⟩) := by
  unfold read_json
  simp only [errorHandler_of_not_failed h, Prog.pure_bind', Bool.false_eq_true, if_false, hdec]

/-- The payload parses and is a message. -/
theorem run_read_json_of_decode (hobs : Observed ids env th) {payload : List UInt8}
    {type : String} {transaction : Transaction}
    (h : (P.parse payload).error.failed = false)
    (hdec : decode (P.parse payload).value = .ok (type, transaction)) :
    ∃ w', Prog.run (sem ids) env (th.read_json P payload) w = some (.ok (), w') ∧
      readCalls w' = readCalls w ++ [((P.parse payload).error, ⟨type, transaction, payload⟩)] := by
  obtain ⟨w₁, hrun₁, hcalls₁⟩ := hobs.onReadHandler (0, payload, payload.length + 1) w
  obtain ⟨w₂, hrun₂, hcalls₂⟩ := run_record ids env w₁
    ((P.parse payload).error, ⟨type, transaction, payload⟩)
  refine ⟨w₂, ?_, by rw [hcalls₂, hcalls₁]⟩
  rw [read_json_of_decode h hdec, Prog.run_bind_ok hrun₁, hobs.onAllRead]
  exact hrun₂

/-- The payload parses and is not a message: the exception leaves the call, and
`onAllRead` has not been made. -/
theorem run_read_json_of_throw (hobs : Observed ids env th) {payload : List UInt8}
    {e : Exception} (h : (P.parse payload).error.failed = false)
    (hdec : decode (P.parse payload).value = .error e) :
    ∃ w', Prog.run (sem ids) env (th.read_json P payload) w = some (.thrown e, w') ∧
      readCalls w' = readCalls w := by
  obtain ⟨w₁, hrun₁, hcalls₁⟩ := hobs.onReadHandler (0, payload, payload.length + 1) w
  refine ⟨w₁, ?_, hcalls₁⟩
  unfold read_json
  simp only [errorHandler_of_not_failed h, Prog.pure_bind', Bool.false_eq_true, if_false]
  rw [Prog.run_bind_ok hrun₁, hdec]
  rfl

/-- A read the stream covers takes its bytes off the stream. -/
theorem run_read_of_le (henv : ReadsStream env cut) {a n : Nat} (hopen : w.isOpen a = true)
    (hn : n ≤ (w.sessions a).rx.length) (k : Except ErrorCode (List UInt8) → NetProg Unit) :
    Prog.run (sem ids) env (call (.read a n) >>= k) w
      = Prog.run (sem ids) env (k (.ok ((w.sessions a).rx.take n)))
          (w.modify a (fun s => { s with rx := s.rx.drop n })) := by
  apply Prog.run_op
  simp only [henv a n w, sem, readSem, hopen, true_and, hn, or_true, if_true]

/-- A read past the end of the stream reports `cut`. -/
theorem run_read_of_lt (ids : Nat → UInt64) (henv : ReadsStream env cut) (hcut : cut.failed = true) {a n : Nat}
    (hopen : w.isOpen a = true) (hn : (w.sessions a).rx.length < n) :
    ∃ w₁, (∀ k : Except ErrorCode (List UInt8) → NetProg Unit,
        Prog.run (sem ids) env (call (.read a n) >>= k) w
          = Prog.run (sem ids) env (k (.error cut)) w₁) ∧
      w₁.events = w.events := by
  refine ⟨w.modify a (fun s => { s with rx := s.rx.drop (w.sessions a).rx.length }),
    fun k => ?_, rfl⟩
  apply Prog.run_op
  simp only [henv a n w, if_neg (Nat.not_le.mpr hn), sem, readSem, hn, hcut, hopen, true_or,
    and_self, if_true]

/-! ## From the header to the payload -/

theorem magicOf_take (stream : List UInt8) : magicOf (stream.take 8) = magicOf stream := by
  rw [magicOf, magicOf, List.take_take]
  rfl

theorem lengthOf_take (stream : List UInt8) : lengthOf (stream.take 8) = lengthOf stream := by
  rw [lengthOf, lengthOf, List.drop_take, List.take_take]
  rfl

/-- **No complete frame with the right magic**: short header, wrong magic and short
payload all end in one error report. -/
theorem run_read_sync_of_no_frame (henv : ReadsStream env cut) (hcut : cut.failed = true)
    (hobs : Observed ids env th) (hopen : w.isOpen th.socket = true)
    (h : takeFrame th.magicNumber (w.sessions th.socket).rx = none) :
    ∃ ec w', ec.failed = true ∧
      Prog.run (sem ids) env (th.read_sync P) w = some (.ok (), w') ∧
      readCalls w' = readCalls w ++ [(ec, setErrorMessage)] := by
  unfold read_sync
  by_cases h8 : 8 ≤ (w.sessions th.socket).rx.length
  · rw [run_read_of_le henv hopen h8]
    simp only [readError, errorHandler_of_not_failed ErrorCode.failed_success, Prog.pure_bind',
      Bool.false_eq_true, if_false, Except.toOption, Option.getD_some, magicOf_take, lengthOf_take]
    -- short header, wrong magic, short payload: the three ways in which no frame is there
    by_cases hmagic : magicOf (w.sessions th.socket).rx = th.magicNumber
    · -- the header is complete and right, so it is the payload that is cut off
      have hlen : ((w.sessions th.socket).rx.drop 8).length < lengthOf (w.sessions th.socket).rx := by
        rw [takeFrame] at h
        by_cases hl : lengthOf (w.sessions th.socket).rx ≤ ((w.sessions th.socket).rx.drop 8).length
        · rw [if_pos ⟨h8, hmagic, hl⟩] at h
          cases h
        · omega
      rw [if_neg (not_not.mpr hmagic)]
      unfold read_payload
      set w₁ := w.modify th.socket (fun s => { s with rx := s.rx.drop 8 }) with hw₁
      have hopen₁ : w₁.isOpen th.socket = true := by
        rw [World.isOpen, hw₁, World.modify_sessions_self]
        exact hopen
      have hrx₁ : (w₁.sessions th.socket).rx = (w.sessions th.socket).rx.drop 8 := by
        rw [hw₁, World.modify_sessions_self]
      obtain ⟨w₂, hread, hevents₂⟩ := run_read_of_lt ids henv hcut hopen₁ (by rwa [hrx₁])
      obtain ⟨w', hrun', hcalls'⟩ := run_error_exit (w := w₂) hobs hcut
      refine ⟨cut, w', hcut, ?_, by rw [hcalls', readCalls_congr hevents₂]; rfl⟩
      rw [hread]
      exact hrun' _
    · rw [if_pos hmagic]
      obtain ⟨w', hrun', hcalls'⟩ := run_errorHandler_of_failed
        (w := w.modify th.socket (fun s => { s with rx := s.rx.drop 8 })) hobs
        (show ErrorCode.eof.failed = true from rfl)
      exact ⟨.eof, w', rfl, Prog.run_bind_ok hrun', hcalls'⟩
  · obtain ⟨w₂, hread, hevents₂⟩ :=
      run_read_of_lt ids henv hcut hopen (Nat.lt_of_not_le h8)
    obtain ⟨w', hrun', hcalls'⟩ := run_error_exit (w := w₂) hobs hcut
    refine ⟨cut, w', hcut, ?_, by rw [hcalls', readCalls_congr hevents₂]⟩
    rw [hread]
    exact hrun' _

/-- **A complete frame with the right magic** is taken off the stream, and its
payload decides the rest. -/
theorem run_read_sync_of_frame (henv : ReadsStream env cut) (hopen : w.isOpen th.socket = true)
    {payload rest : List UInt8}
    (h : takeFrame th.magicNumber (w.sessions th.socket).rx = some (payload, rest)) :
    Prog.run (sem ids) env (th.read_sync P) w
      = Prog.run (sem ids) env (th.read_json P payload)
          (w.modify th.socket (fun s => { s with rx := rest })) := by
  unfold takeFrame at h
  split at h
  · next hc =>
    obtain ⟨h8, hmagic, hlen⟩ := hc
    simp only [Option.some.injEq, Prod.mk.injEq] at h
    unfold read_sync
    rw [run_read_of_le henv hopen h8]
    simp only [readError, errorHandler_of_not_failed ErrorCode.failed_success, Prog.pure_bind',
      Bool.false_eq_true, if_false, Except.toOption, Option.getD_some, magicOf_take, lengthOf_take]
    rw [if_neg (not_not.mpr hmagic)]
    unfold read_payload
    set w₁ := w.modify th.socket (fun s => { s with rx := s.rx.drop 8 }) with hw₁
    have hopen₁ : w₁.isOpen th.socket = true := by
      rw [World.isOpen, hw₁, World.modify_sessions_self]
      exact hopen
    have hrx₁ : (w₁.sessions th.socket).rx = (w.sessions th.socket).rx.drop 8 := by
      rw [hw₁, World.modify_sessions_self]
    rw [run_read_of_le henv hopen₁ (by rwa [hrx₁])]
    simp only [readError, errorHandler_of_not_failed ErrorCode.failed_success, Prog.pure_bind',
      Bool.false_eq_true, if_false, Except.toOption, Option.getD_some]
    rw [hrx₁, h.1, hw₁, World.modify_modify, ← h.2]
    rfl
  · cases h

/-! ## One report for every input -/

/-- The payload parses as a JSON object with a string `type` and an `int64`
`transaction`. -/
def Decodes (P : Platform) (payload : List UInt8) (type : String) (transaction : Int64) : Prop :=
  (P.parse payload).error.failed = false ∧
    ∃ fields, (P.parse payload).value = .object fields ∧
      fields.lookup "type" = some (.string type) ∧
      fields.lookup "transaction" = some (.int64 transaction)

/-- The stream starts with the right magic, a length and that many bytes. -/
def Framed (magicNumber : UInt32) (stream payload : List UInt8) : Prop :=
  ∃ (json_len : UInt32) (rest : List UInt8), payload.length = json_len.toNat ∧
    stream = bytes32 magicNumber ++ (bytes32 json_len ++ (payload ++ rest))

/-- The text of a message without content is decoded. -/
theorem decodes_headerText {type : String} (htype : PlainString type) (n : Int64) :
    Decodes jsonPlatform (headerText type n) type n := by
  unfold Decodes
  rw [parse_headerText htype]
  exact ⟨rfl, _, rfl, rfl, rfl⟩

/-- What a read has to report for the stream: the message, without an error, if the
stream starts with a complete frame of a well-formed message, and otherwise an
error with the error message. -/
def Expected (P : Platform) (magicNumber : UInt32) (stream : List UInt8)
    (report : ErrorCode × TransportMessage) : Prop :=
  (∀ payload type transaction, Framed magicNumber stream payload →
    Decodes P payload type transaction →
      report.1.failed = false ∧
        report.2 = ⟨type, setTypeTransaction transaction.toInt32, payload⟩) ∧
  ((∀ payload type transaction, Framed magicNumber stream payload →
    ¬ Decodes P payload type transaction) →
      report.1.failed = true ∧ report.2 = ⟨"error", .Error, []⟩)

/-- One call of `read(Sync)` returns and makes exactly one call of `onAllRead`, with
what the stream in front of the socket has to be reported as. -/
def ReportsOnce (P : Platform) (ids : Nat → UInt64) (env : Op → World → Choice)
    (th : TransportHandler) (w : World) : Prop :=
  ∃ w' report, Prog.run (sem ids) env (th.read_sync P) w = some (.ok (), w') ∧
    readCalls w' = readCalls w ++ [report] ∧
    Expected P th.magicNumber (w.sessions th.socket).rx report

/-- The stream starts with a complete frame whose payload is JSON, but not an
object with a string `type` and an `int64` `transaction`. -/
def WrongShape (P : Platform) (magicNumber : UInt32) (stream : List UInt8) : Prop :=
  ∃ payload, Framed magicNumber stream payload ∧ (P.parse payload).error.failed = false ∧
    ∀ type transaction, ¬ Decodes P payload type transaction

theorem framed_iff (magicNumber : UInt32) (stream payload : List UInt8) :
    Framed magicNumber stream payload
      ↔ ∃ rest, takeFrame magicNumber stream = some (payload, rest) := by
  simp only [takeFrame_eq_some_iff]
  exact exists_comm

/-- A stream starts with at most one frame. -/
theorem framed_unique {magicNumber : UInt32} {stream payload payload' rest : List UInt8}
    (h : takeFrame magicNumber stream = some (payload, rest))
    (h' : Framed magicNumber stream payload') : payload' = payload := by
  obtain ⟨rest', hrest'⟩ := (framed_iff ..).mp h'
  rw [h, Option.some.injEq, Prod.mk.injEq] at hrest'
  exact hrest'.1.symm

/-- A frame alone. -/
theorem takeFrame_self (magicNumber : UInt32) {payload : List UInt8} (h : payload.length < 2 ^ 32) :
    takeFrame magicNumber (frame magicNumber payload) = some (payload, []) := by
  have htake := takeFrame_frame magicNumber payload [] h
  rw [List.append_nil] at htake
  exact htake

theorem framed_frame (magicNumber : UInt32) {payload : List UInt8} (h : payload.length < 2 ^ 32) :
    Framed magicNumber (frame magicNumber payload) payload :=
  (framed_iff ..).mpr ⟨[], takeFrame_self magicNumber h⟩

/-- Decoding succeeds exactly on the objects the two accessors accept. -/
theorem decode_eq_ok_iff (json_val : Json) (type : String) (tr : Transaction) :
    decode json_val = .ok (type, tr)
      ↔ ∃ fields transaction, json_val = .object fields ∧
          fields.lookup "type" = some (.string type) ∧
          fields.lookup "transaction" = some (.int64 transaction) ∧
          tr = setTypeTransaction transaction.toInt32 := by
  constructor
  · intro h
    obtain ⟨v₁, hv₁, h₁⟩ := except_bind_eq_ok.mp h
    obtain ⟨s, hs, h₂⟩ := except_bind_eq_ok.mp h₁
    obtain ⟨v₂, hv₂, h₃⟩ := except_bind_eq_ok.mp h₂
    obtain ⟨n, hn, h₄⟩ := except_bind_eq_ok.mp h₃
    simp only [pure, Except.pure, Except.ok.injEq, Prod.mk.injEq] at h₄
    obtain ⟨fields, rfl, hlookup₁⟩ := Json.at_eq_ok_iff.mp hv₁
    obtain ⟨fields', hfields, hlookup₂⟩ := Json.at_eq_ok_iff.mp hv₂
    obtain rfl := Json.object.inj hfields
    rw [Json.as_string_eq_ok_iff] at hs
    rw [Json.as_int64_eq_ok_iff] at hn
    rw [hs, h₄.1] at hlookup₁
    rw [hn] at hlookup₂
    exact ⟨fields, n, rfl, hlookup₁, hlookup₂, h₄.2.symm⟩
  · rintro ⟨fields, n, rfl, htype, htransaction, rfl⟩
    simp only [decode, Json.at_, htype, htransaction, Json.as_string, Json.as_int64, bind,
      Except.bind, pure, Except.pure]

/-- A payload decodes for `read_sync` exactly when it is what `Decodes` says. -/
theorem decodes_of_decode {payload : List UInt8} {type : String} {tr : Transaction}
    (hparse : (P.parse payload).error.failed = false)
    (h : decode (P.parse payload).value = .ok (type, tr)) :
    ∃ transaction, Decodes P payload type transaction ∧
      tr = setTypeTransaction transaction.toInt32 := by
  obtain ⟨fields, n, hvalue, htype, htransaction, htr⟩ := (decode_eq_ok_iff ..).mp h
  exact ⟨n, ⟨hparse, fields, hvalue, htype, htransaction⟩, htr⟩

theorem decode_of_decodes {payload : List UInt8} {type : String} {transaction : Int64}
    (h : Decodes P payload type transaction) :
    decode (P.parse payload).value = .ok (type, setTypeTransaction transaction.toInt32) := by
  obtain ⟨-, fields, hvalue, htype, htransaction⟩ := h
  exact (decode_eq_ok_iff ..).mpr ⟨fields, transaction, hvalue, htype, htransaction, rfl⟩

/-- An error report is the expected one where no well-formed message starts the
stream. -/
theorem expected_error {magicNumber : UInt32} {stream : List UInt8} {ec : ErrorCode}
    (hec : ec.failed = true)
    (h : ∀ payload type transaction, Framed magicNumber stream payload →
      ¬ Decodes P payload type transaction) :
    Expected P magicNumber stream (ec, setErrorMessage) := by
  refine ⟨fun payload type transaction hframed hdec => ?_, fun _ => ⟨hec, rfl⟩⟩
  exact absurd hdec (h payload type transaction hframed)

/-- **One synchronous read reports every input exactly once, unless the payload is
JSON of the wrong shape**: for every stream, wherever it is cut off, and every magic
number, the call returns and makes exactly one call of `onAllRead`, the right one,
if and only if the stream does not start with a complete frame whose payload parses
without being an object with a string `type` and an `int64` `transaction`. -/
theorem read_sync_reports_once_iff (P : Platform) (ids : Nat → UInt64)
    (env : Op → World → Choice) (cut : ErrorCode) (th : TransportHandler) (w : World)
    (henv : ReadsStream env cut) (hcut : cut.failed = true) (hobs : Observed ids env th)
    (hopen : w.isOpen th.socket = true) :
    ReportsOnce P ids env th w
      ↔ ¬ WrongShape P th.magicNumber (w.sessions th.socket).rx := by
  cases htake : takeFrame th.magicNumber (w.sessions th.socket).rx with
  | none =>
    -- the stream holds no frame, so an error is due, and it is what is reported
    have hno : ∀ payload, ¬ Framed th.magicNumber (w.sessions th.socket).rx payload := by
      intro payload hframed
      obtain ⟨rest, hrest⟩ := (framed_iff ..).mp hframed
      rw [htake] at hrest
      cases hrest
    refine iff_of_true ?_ (fun ⟨payload, hframed, _⟩ => hno payload hframed)
    obtain ⟨ec, w', hec, hrun, hcalls⟩ :=
      run_read_sync_of_no_frame (P := P) henv hcut hobs hopen htake
    exact ⟨w', _, hrun, hcalls, expected_error hec (fun payload _ _ hf _ => hno payload hf)⟩
  | some frame =>
    obtain ⟨payload, rest⟩ := frame
    have hframed : Framed th.magicNumber (w.sessions th.socket).rx payload :=
      (framed_iff ..).mpr ⟨rest, htake⟩
    -- the header and the payload are taken, and what is left is what the payload says
    have hrun : Prog.run (sem ids) env (th.read_sync P) w = _ :=
      run_read_sync_of_frame henv hopen htake
    cases hparse : (P.parse payload).error.failed with
    | true =>
      have hno : ∀ p type transaction, Framed th.magicNumber (w.sessions th.socket).rx p →
          ¬ Decodes P p type transaction := by
        intro p type transaction hp hdec
        rw [framed_unique htake hp] at hdec
        rw [hdec.1] at hparse
        cases hparse
      refine iff_of_true ?_ ?_
      · obtain ⟨w', hrun', hcalls⟩ := run_read_json_of_failed
          (w := w.modify th.socket (fun s => { s with rx := rest })) hobs hparse
        exact ⟨w', _, hrun.trans hrun', hcalls, expected_error hparse hno⟩
      · rintro ⟨p, hp, hok, -⟩
        rw [framed_unique htake hp, hparse] at hok
        cases hok
    | false =>
      cases hdec : decode (P.parse payload).value with
      | ok decoded =>
        obtain ⟨type, tr⟩ := decoded
        obtain ⟨transaction, hdecodes, rfl⟩ := decodes_of_decode hparse hdec
        refine iff_of_true ?_ ?_
        · obtain ⟨w', hrun', hcalls⟩ := run_read_json_of_decode
            (w := w.modify th.socket (fun s => { s with rx := rest })) hobs hparse hdec
          refine ⟨w', _, hrun.trans hrun', hcalls, fun p t n hp hd => ?_, fun hno => ?_⟩
          · obtain rfl := framed_unique htake hp
            have hdec' := decode_of_decodes hd
            rw [hdec, Except.ok.injEq, Prod.mk.injEq] at hdec'
            exact ⟨hparse, by rw [hdec'.1, hdec'.2]⟩
          · exact absurd hdecodes (hno payload type transaction hframed)
        · rintro ⟨p, hp, -, hwrong⟩
          obtain rfl := framed_unique htake hp
          exact hwrong type transaction hdecodes
      | error e =>
        refine iff_of_false ?_ (not_not.mpr ⟨payload, hframed, hparse, fun type transaction hd => ?_⟩)
        · -- the exception escapes: the call does not return at all
          obtain ⟨w', hrun', -⟩ := run_read_json_of_throw
            (w := w.modify th.socket (fun s => { s with rx := rest })) hobs hparse hdec
          rintro ⟨w'', report, hrun'', -⟩
          rw [hrun, hrun'] at hrun''
          cases hrun''
        · rw [decode_of_decodes hd] at hdec
          cases hdec

/-! ## The payload `1`

The shortest payload that is JSON and not a message. -/

/-- The peer's stream ends in `eof`, and nothing else fails. -/
def streamEnv : Op → World → Choice
  | .read a n, w => if n ≤ (w.sessions a).rx.length then .ok n else .fail .eof (w.sessions a).rx.length
  | _, _ => .code .success

/-- A handler on socket `0` that only records what it reports. -/
def recorder : TransportHandler := ⟨0, 7, none, none, some record, none, none⟩

/-- An open socket with a stream in front of it. -/
def receiving (stream : List UInt8) : World :=
  World.init.modify 0 (fun s => { s with isOpen := true, rx := stream })

theorem observed_recorder (ids : Nat → UInt64) : Observed ids streamEnv recorder where
  onAllRead := rfl
  onError := fun _ w => ⟨w, rfl, rfl⟩
  onReadHandler := fun _ w => ⟨w, rfl, rfl⟩

/-- The read of the frame around `1` throws, and reports nothing. -/
theorem read_sync_throws_on_number :
    ReadsStream streamEnv .eof ∧ Observed UInt64.ofNat streamEnv recorder ∧
      (receiving (frame 7 [0x31])).isOpen recorder.socket = true ∧
      ¬ ReportsOnce jsonPlatform UInt64.ofNat streamEnv recorder (receiving (frame 7 [0x31])) := by
  refine ⟨fun _ _ _ => rfl, observed_recorder _, rfl, ?_⟩
  rintro ⟨w', report, hrun, -⟩
  have hparse : jsonPlatform.parse [0x31] = ⟨.success, .int64 1⟩ :=
    parse_plain (v := .int64 1) (by decide) trivial
  rw [run_read_sync_of_frame (show ReadsStream streamEnv .eof from fun _ _ _ => rfl) rfl
    (takeFrame_frame 7 [0x31] [] (by decide))] at hrun
  obtain ⟨w₁, hthrow, -⟩ := run_read_json_of_throw (P := jsonPlatform) (e := .not_object)
    (observed_recorder _) (congrArg (fun r => r.error.failed) hparse) (by rw [hparse]; rfl)
  rw [hthrow] at hrun
  cases hrun

/-- The read of the frame around a request reports the request, once. -/
theorem read_sync_reports_request :
    ReportsOnce jsonPlatform UInt64.ofNat streamEnv recorder
      (receiving (frame 7 (headerText "signal" 0))) := by
  refine (read_sync_reports_once_iff jsonPlatform UInt64.ofNat streamEnv .eof recorder _
    (fun _ _ _ => rfl) rfl (observed_recorder _) rfl).mpr ?_
  rintro ⟨payload, hframed, -, hwrong⟩
  obtain rfl := framed_unique (takeFrame_self 7 (by decide)) hframed
  exact hwrong "signal" 0 (decodes_headerText (by decide) 0)

end NetworkApplication.SyncRead
