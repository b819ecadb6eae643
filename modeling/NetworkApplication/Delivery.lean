/-
End-to-end delivery over a session.

Two sessions with the same magic number are joined by a reliable ordered stream:
every write goes through, in pieces of any size the environment likes, and the
reader's reads get what the writer sent. The result is about lists of messages of
any length: they are written in order with `Session::write` and then read with as
many calls of `Session::read`.

The chain is: `asio_write` sends the whole frame whatever its pieces; `read_sync`
takes exactly one frame back off (`SyncRead.lean`); the type and the transaction
that it decodes out of the JSON are the message's own; and `parse` gives back
`delivered m` (`MessageHandler.lean`). One message leaves the reader's stream where
the next one starts, so the list goes through by induction.

The reply to a request the server cannot answer is the one message that does not
come through as a message: the factory does not know the type `unknown`, so the
receiver's callback gets a null pointer, and no error.
-/
import NetworkApplication.SyncRead

set_option autoImplicit false

namespace NetworkApplication.Delivery

open NetworkApplication.Program NetworkApplication.SyncRead

variable {P : Platform} {ids : Nat → UInt64} {env : Op → World → Choice} {cut : ErrorCode}
  {w : World}

/-! ## The stream and the callbacks -/

/-- Every `write_some` goes through, with a piece of any size it may have. -/
def SendsStream (env : Op → World → Choice) : Prop :=
  ∀ a sent rest w, rest ≠ [] →
    ∃ n, env (.write_some a sent rest) w = .ok n ∧ 0 < n ∧ n ≤ rest.length ∧ n ≤ 65536

/-- The calls of `on_all_read` so far. -/
def allReads (w : World) : List (ErrorCode × Option Message) :=
  w.events.filterMap (fun
    | .on_all_read ec message => some (ec, message)
    | _ => none)

/-- The reader's `on_all_read`. -/
def recordMessage : ErrorCode × Option Message → NetProg Unit :=
  fun (ec, message) => call (.event (.on_all_read ec message))

/-- A callback that returns, does not touch the sessions and makes no call of
`on_all_read`. -/
def Passive (ids : Nat → UInt64) (env : Op → World → Choice) (p : NetProg Unit) : Prop :=
  ∀ w, ∃ w', Prog.run (sem ids) env p w = some (.ok (), w') ∧ w'.sessions = w.sessions ∧
    allReads w' = allReads w

theorem run_recordMessage (ids : Nat → UInt64) (env : Op → World → Choice) (w : World)
    (x : ErrorCode × Option Message) :
    ∃ w', Prog.run (sem ids) env (recordMessage x) w = some (.ok (), w') ∧
      w'.sessions = w.sessions ∧ allReads w' = allReads w ++ [x] := by
  refine ⟨{ w with events := w.events ++ [.on_all_read x.1 x.2] }, rfl, rfl, ?_⟩
  simp only [allReads, List.filterMap_append, List.filterMap_cons, List.filterMap_nil]

/-! ## Writing -/

/-- What has been put on the stream of a session, one piece more. -/
def sendOn (w : World) (a : Nat) (bytes : List UInt8) : World :=
  w.modify a (fun s => { s with tx := s.tx ++ bytes })

theorem sendOn_nil (a : Nat) : sendOn w a [] = w := by
  simp only [sendOn, World.modify, List.append_nil, Function.update_eq_self]

theorem sendOn_sendOn (a : Nat) (x y : List UInt8) :
    sendOn (sendOn w a x) a y = sendOn w a (x ++ y) := by
  simp only [sendOn, World.modify_modify, List.append_assoc]

theorem isOpen_sendOn (a : Nat) (x : List UInt8) : (sendOn w a x).isOpen a = w.isOpen a := by
  simp only [sendOn, World.isOpen, World.modify_sessions_self]

/-- One piece of a composed write. -/
theorem run_write_some {a sent n : Nat} {rest : List UInt8} (hopen : w.isOpen a = true)
    (hchoice : env (.write_some a sent rest) w = .ok n) (hpos : 0 < n) (hle : n ≤ rest.length)
    (hmax : n ≤ 65536) (k : Except ErrorCode Nat → NetProg ErrorCode) :
    Prog.run (sem ids) env (call (.write_some a sent rest) >>= k) w
      = Prog.run (sem ids) env (k (.ok n)) (sendOn w a (rest.take n)) := by
  apply Prog.run_op
  simp only [hchoice, sem, writeSem, hopen, hpos, hle, hmax, and_self, if_true, sendOn]

/-- **The composed write sends everything**, however it is cut into pieces. The
induction is on the bound, which the rest never exceeds. -/
theorem run_asio_write (henv : SendsStream env) (a : Nat) (hopen : w.isOpen a = true)
    (bound sent : Nat) (rest : List UInt8) (hbound : rest.length ≤ bound) :
    Prog.run (sem ids) env (asio_write a bound sent rest) w
      = some (.ok .success, sendOn w a rest) := by
  induction bound generalizing sent rest w with
  | zero =>
    obtain rfl : rest = [] := List.length_eq_zero_iff.mp (by omega)
    rw [sendOn_nil]
    rfl
  | succ bound ih =>
    by_cases hrest : rest = []
    · subst hrest
      rw [sendOn_nil]
      rfl
    · obtain ⟨n, hchoice, hpos, hle, hmax⟩ := henv a sent rest w hrest
      have hdrop : (rest.drop n).length ≤ bound := by
        rw [List.length_drop]
        omega
      unfold asio_write
      rw [if_neg (by simpa using hrest), run_write_some hopen hchoice hpos hle hmax,
        ih (by rw [isOpen_sendOn]; exact hopen) (sent + n) (rest.drop n) hdrop, sendOn_sendOn,
        List.take_append_drop]

/-- The frame of a message. -/
def frameOf (P : Platform) (magicNumber : UInt32) (m : Message) : List UInt8 :=
  frame magicNumber (P.serialize (m.serialize P))

/-- **`Session::write` puts the message's frame on the stream**, and nothing else. -/
theorem run_write (henv : SendsStream env) {s : Session} (hopen : w.isOpen s.addr = true)
    (hwrite : ∀ ec, Passive ids env (invoke s.on_all_write ec)) (m : Message) :
    ∃ w', Prog.run (sem ids) env (s.write P (some m)) w = some (.ok (), w') ∧
      w'.sessions = (sendOn w s.addr (frameOf P s.magicNumber m)).sessions ∧
      allReads w' = allReads w := by
  have hsend : Prog.run (sem ids) env
      (asio_write s.addr (frameOf P s.magicNumber m).length 0 (frameOf P s.magicNumber m)) w = _ :=
    run_asio_write henv s.addr hopen _ 0 _ (Nat.le_refl _)
  obtain ⟨w', hrun, hsessions, hreads⟩ :=
    hwrite .success (sendOn w s.addr (frameOf P s.magicNumber m))
  refine ⟨w', ?_, hsessions, hreads⟩
  apply Prog.run_tryCatch_ok
  refine (Prog.run_bind_ok hsend).trans ?_
  -- no error, so of the two callbacks only `onAllWrite` is left
  show Prog.run (sem ids) env (invoke s.on_all_write .success >>= fun _ => Prog.pure ()) _ = _
  rw [Prog.run_bind_ok hrun]
  rfl

/-- Write a list of messages, in order. -/
def writeAll (P : Platform) (s : Session) : List Message → NetProg Unit
  | [] => pure ()
  | m :: rest => do
    s.write P (some m)
    writeAll P s rest

/-- The frames of a list of messages. -/
def framesOf (P : Platform) (magicNumber : UInt32) (msgs : List Message) : List UInt8 :=
  (msgs.map (frameOf P magicNumber)).flatten

theorem run_writeAll (henv : SendsStream env) {s : Session} (hopen : w.isOpen s.addr = true)
    (hwrite : ∀ ec, Passive ids env (invoke s.on_all_write ec)) (msgs : List Message) :
    ∃ w', Prog.run (sem ids) env (writeAll P s msgs) w = some (.ok (), w') ∧
      w'.sessions = (sendOn w s.addr (framesOf P s.magicNumber msgs)).sessions ∧
      allReads w' = allReads w := by
  induction msgs generalizing w with
  | nil => exact ⟨w, rfl, by rw [framesOf, List.map_nil, List.flatten_nil, sendOn_nil], rfl⟩
  | cons m rest ih =>
    obtain ⟨w₁, hrun₁, hsessions₁, hreads₁⟩ := run_write (P := P) henv hopen hwrite m
    have hopen₁ : w₁.isOpen s.addr = true := by
      rw [World.isOpen, hsessions₁]
      exact (isOpen_sendOn ..).trans hopen
    obtain ⟨w₂, hrun₂, hsessions₂, hreads₂⟩ := ih hopen₁
    refine ⟨w₂, (Prog.run_bind_ok hrun₁).trans hrun₂, ?_, hreads₂.trans hreads₁⟩
    have hcongr : (sendOn w₁ s.addr (framesOf P s.magicNumber rest)).sessions
        = (sendOn (sendOn w s.addr (frameOf P s.magicNumber m)) s.addr
            (framesOf P s.magicNumber rest)).sessions := by
      simp only [sendOn, World.modify, hsessions₁]
    rw [hsessions₂, hcongr, sendOn_sendOn]
    rfl

/-! ## Reading -/

/-- The transaction a message the program builds is written with reads back as its
own. -/
theorem setTypeTransaction_written {m : Message} (hm : MessageHandler.Built m) :
    setTypeTransaction m.writtenTransaction.toInt32 = m.transaction := by
  cases hm <;> rfl

/-- What has to hold of the platform for a message: boost::json reads back what it
wrote, the samples survive, and the length fits its field. -/
structure Carried (P : Platform) (m : Message) : Prop where
  built : MessageHandler.Built m
  round_trips : P.RoundTrips (m.serialize P)
  samples_survive : MessageHandler.SamplesSurvive P m
  fits : (P.serialize (m.serialize P)).length < 2 ^ 32

/-- The payload of a message decodes to the message's own type and transaction. -/
theorem decode_payload {m : Message} (hm : Carried P m) :
    TransportHandler.decode (P.parse (P.serialize (m.serialize P))).value
      = .ok (m.type, m.transaction) := by
  have htype := Json.at_reparsed (Message.serialize_at_type P m)
  have htransaction := Json.at_reparsed (Message.serialize_at_transaction P m)
  rw [hm.round_trips]
  simp only [TransportHandler.decode, htype, htransaction, Json.reparsed, Json.as_string,
    Json.as_int64, bind, Except.bind, pure, Except.pure, setTypeTransaction_written hm.built]

/-- On an open socket `Session::read` is the transport layer's read. -/
theorem run_read_of_open {s : Session} (hopen : w.isOpen s.addr = true) :
    Prog.run (sem ids) env (s.read P) w
      = Prog.run (sem ids) env ((s.transport_handler P).read_sync P) w := by
  have hop : sem ids (.isOpen s.addr) (env (.isOpen s.addr) w) w = some (true, w) := by
    rw [sem, hopen]
  exact run_call hop _

/-- **`Session::read` on a message's frame** makes one call of `on_all_read` and
leaves the stream where the frame ends. -/
theorem run_read (henv : ReadsStream env cut) {s : Session} (hopen : w.isOpen s.addr = true)
    (hread : s.on_all_read = some recordMessage)
    (hhandler : ∀ x, Passive ids env (invoke s.onReadHandler x)) {m : Message}
    (hm : Carried P m) {rest : List UInt8}
    (hrx : (w.sessions s.addr).rx = frameOf P s.magicNumber m ++ rest) :
    ∃ w', Prog.run (sem ids) env (s.read P) w = some (.ok (), w') ∧
      w'.sessions = (w.modify s.addr (fun x => { x with rx := rest })).sessions ∧
      allReads w' = allReads w ++ [(.success, MessageHandler.delivered m)] := by
  have htake : takeFrame (s.transport_handler P).magicNumber (w.sessions s.addr).rx
      = some (P.serialize (m.serialize P), rest) := by
    rw [hrx]
    exact takeFrame_frame _ _ _ hm.fits
  have hparse : P.parse (P.serialize (m.serialize P)) = ⟨.success, (m.serialize P).reparsed⟩ :=
    hm.round_trips
  have hdelivered : MessageHandler.parse P ⟨m.type, m.transaction, P.serialize (m.serialize P)⟩
      = MessageHandler.delivered m :=
    MessageHandler.parse_serialize P hm.built hm.round_trips hm.samples_survive
  obtain ⟨w₁, hrun₁, hsessions₁, hreads₁⟩ := hhandler
    (0, P.serialize (m.serialize P), (P.serialize (m.serialize P)).length + 1)
    (w.modify s.addr (fun x => { x with rx := rest }))
  obtain ⟨w₂, hrun₂, hsessions₂, hreads₂⟩ :=
    run_recordMessage ids env w₁ (.success, MessageHandler.delivered m)
  refine ⟨w₂, ?_, hsessions₂.trans hsessions₁, by rw [hreads₂, hreads₁]; rfl⟩
  rw [run_read_of_open hopen, run_read_sync_of_frame henv hopen htake,
    read_json_of_decode (by rw [hparse]; rfl) (decode_payload hm), hparse]
  refine (Prog.run_bind_ok hrun₁).trans ?_
  show Prog.run (sem ids) env (invoke s.on_all_read (.success, MessageHandler.parse P _)) _ = _
  rw [hdelivered, hread]
  exact hrun₂

/-- Call `read` a number of times. -/
def readTimes (P : Platform) (s : Session) : Nat → NetProg Unit
  | 0 => pure ()
  | n + 1 => do
    s.read P
    readTimes P s n

theorem run_readTimes (henv : ReadsStream env cut) {s : Session} (hopen : w.isOpen s.addr = true)
    (hread : s.on_all_read = some recordMessage)
    (hhandler : ∀ x, Passive ids env (invoke s.onReadHandler x)) (msgs : List Message)
    (hmsgs : ∀ m ∈ msgs, Carried P m)
    (hrx : (w.sessions s.addr).rx = framesOf P s.magicNumber msgs) :
    ∃ w', Prog.run (sem ids) env (readTimes P s msgs.length) w = some (.ok (), w') ∧
      allReads w' = allReads w
        ++ msgs.map (fun m => (.success, MessageHandler.delivered m)) := by
  induction msgs generalizing w with
  | nil => exact ⟨w, rfl, (List.append_nil _).symm⟩
  | cons m rest ih =>
    have hfirst : (w.sessions s.addr).rx
        = frameOf P s.magicNumber m ++ framesOf P s.magicNumber rest := by
      rw [hrx, framesOf, framesOf, List.map_cons, List.flatten_cons]
    obtain ⟨w₁, hrun₁, hsessions₁, hreads₁⟩ := run_read henv hopen hread hhandler
      (hmsgs m (List.mem_cons_self ..)) hfirst
    have hopen₁ : w₁.isOpen s.addr = true := by
      rw [World.isOpen, hsessions₁, World.modify_sessions_self]
      exact hopen
    have hrx₁ : (w₁.sessions s.addr).rx = framesOf P s.magicNumber rest := by
      rw [hsessions₁, World.modify_sessions_self]
    obtain ⟨w₂, hrun₂, hreads₂⟩ :=
      ih hopen₁ (fun m' hm' => hmsgs m' (List.mem_cons_of_mem _ hm')) hrx₁
    refine ⟨w₂, (Prog.run_bind_ok hrun₁).trans hrun₂, ?_⟩
    rw [hreads₂, hreads₁, List.map_cons, List.append_assoc]
    rfl

/-! ## From one session to the other -/

/-- The stream between two sessions: what `a` has sent is in front of `b`. -/
def handOver (w : World) (a b : Session) : World :=
  w.modify b.addr (fun s => { s with rx := (w.sessions a.addr).tx })

/-- Two sessions on the two ends of a reliable ordered stream, with the reader's
callback set and no callback that interferes. -/
structure Joined (ids : Nat → UInt64) (env : Op → World → Choice) (a b : Session) (w : World) :
    Prop where
  sends : SendsStream env
  reads : ∃ cut, ReadsStream env cut
  magicNumber : a.magicNumber = b.magicNumber
  distinct : a.addr ≠ b.addr
  writer_open : w.isOpen a.addr = true
  reader_open : w.isOpen b.addr = true
  nothing_sent : (w.sessions a.addr).tx = []
  on_all_write : ∀ ec, Passive ids env (invoke a.on_all_write ec)
  on_all_read : b.on_all_read = some recordMessage
  onReadHandler : ∀ x, Passive ids env (invoke b.onReadHandler x)

/-- The messages `msgs` are written in order to `a` and read one by one from `b`; the
calls of `on_all_read` are one for each message, in order, related by `R`. -/
def Delivers (R : Message → ErrorCode × Option Message → Prop) (P : Platform)
    (ids : Nat → UInt64) (env : Op → World → Choice) (a b : Session) (w : World)
    (msgs : List Message) : Prop :=
  ∃ w₁ w₂ calls, Prog.run (sem ids) env (writeAll P a msgs) w = some (.ok (), w₁) ∧
    Prog.run (sem ids) env (readTimes P b msgs.length) (handOver w₁ a b) = some (.ok (), w₂) ∧
    allReads w₂ = allReads w ++ calls ∧ List.Forall₂ R msgs calls

/-- The call brings the message without an error: its type, its transaction, and
for a response the message itself. -/
def Brings (m : Message) (call : ErrorCode × Option Message) : Prop :=
  call.1.failed = false ∧ ∃ r, call.2 = some r ∧ r.type = m.type ∧
    r.transaction = m.transaction ∧ (m.transaction = .Response → r = m)

/-- The reply to a request the server cannot answer. -/
def errorReply : Message := .base "unknown" .Error

/-- As `Brings`, but the error reply comes as a call without an error and without a
message. -/
def Arrives (m : Message) (call : ErrorCode × Option Message) : Prop :=
  if m = errorReply then call.1.failed = false ∧ call.2 = none else Brings m call

theorem arrives_delivered {m : Message} (hm : MessageHandler.Built m) :
    Arrives m (.success, MessageHandler.delivered m) := by
  cases hm with
  | errorReply => exact ⟨rfl, rfl⟩
  | signalRequest => exact ⟨rfl, _, rfl, rfl, rfl, fun h => by cases h⟩
  | informationRequest => exact ⟨rfl, _, rfl, rfl, rfl, fun h => by cases h⟩
  | signal freq samples => exact ⟨rfl, _, rfl, rfl, rfl, fun _ => rfl⟩
  | information cores => exact ⟨rfl, _, rfl, rfl, rfl, fun _ => rfl⟩
  | raw data => exact ⟨rfl, _, rfl, rfl, rfl, fun _ => rfl⟩

/-- The calls that come out, exactly. -/
theorem run_delivery {a b : Session} (hj : Joined ids env a b w) (msgs : List Message)
    (hmsgs : ∀ m ∈ msgs, Carried P m) :
    ∃ w₁ w₂, Prog.run (sem ids) env (writeAll P a msgs) w = some (.ok (), w₁) ∧
      Prog.run (sem ids) env (readTimes P b msgs.length) (handOver w₁ a b) = some (.ok (), w₂) ∧
      allReads w₂ = allReads w ++ msgs.map (fun m => (.success, MessageHandler.delivered m)) := by
  obtain ⟨cut, hreads⟩ := hj.reads
  obtain ⟨w₁, hrun₁, hsessions₁, hreads₁⟩ :=
    run_writeAll (P := P) hj.sends hj.writer_open hj.on_all_write msgs
  have hsent : (w₁.sessions a.addr).tx = framesOf P a.magicNumber msgs := by
    rw [hsessions₁, sendOn, World.modify_sessions_self, hj.nothing_sent, List.nil_append]
  have hopen : (handOver w₁ a b).isOpen b.addr = true := by
    rw [World.isOpen, handOver, World.modify_sessions_self, hsessions₁, sendOn,
      World.modify_sessions_of_ne _ (Ne.symm hj.distinct)]
    exact hj.reader_open
  have hrx : ((handOver w₁ a b).sessions b.addr).rx = framesOf P b.magicNumber msgs := by
    rw [handOver, World.modify_sessions_self, hsent, hj.magicNumber]
  obtain ⟨w₂, hrun₂, hreads₂⟩ :=
    run_readTimes hreads hopen hj.on_all_read hj.onReadHandler msgs hmsgs hrx
  refine ⟨w₁, w₂, hrun₁, hrun₂, ?_⟩
  rw [hreads₂, ← hreads₁]
  rfl

/-- **End-to-end delivery**: for every list of messages the program builds, writing
them in order and reading as many times makes one call of `on_all_read` for each, in
order and without an error. Every message arrives with its type and transaction, and
a response as itself; only the error reply arrives as a call without a message. -/
theorem session_delivers (P : Platform) (ids : Nat → UInt64) (env : Op → World → Choice)
    (a b : Session) (w : World) (hj : Joined ids env a b w) (msgs : List Message)
    (hmsgs : ∀ m ∈ msgs, Carried P m) : Delivers Arrives P ids env a b w msgs := by
  obtain ⟨w₁, w₂, hwrite, hread, hcalls⟩ := run_delivery hj msgs hmsgs
  refine ⟨w₁, w₂, _, hwrite, hread, hcalls, ?_⟩
  rw [List.forall₂_map_right_iff, List.forall₂_same]
  exact fun m hm => arrives_delivered (hmsgs m hm).built

/-! ## Two lists of one message -/

/-- A session at an address, with no callback but `on_all_read`. -/
def plainSession (addr : Nat) : Session where
  addr := addr
  magicNumber := 7
  onReadHandler := none
  onError := none
  on_connect := none
  on_accept := none
  on_disconnect := none
  on_all_write := none
  on_all_read := some recordMessage

/-- Every piece is one byte. -/
def byteEnv : Op → World → Choice
  | .write_some _ _ _, _ => .ok 1
  | o, w => streamEnv o w

/-- Two open sockets. -/
def twoOpen : World :=
  (World.init.modify 0 (fun s => { s with isOpen := true })).modify 1
    (fun s => { s with isOpen := true })

theorem joined_plainSession (ids : Nat → UInt64) :
    Joined ids byteEnv (plainSession 0) (plainSession 1) twoOpen where
  sends := fun _ _ rest _ h => ⟨1, rfl, by decide, List.length_pos_iff.mpr h, by decide⟩
  reads := ⟨.eof, fun _ _ _ => rfl⟩
  magicNumber := rfl
  distinct := by decide
  writer_open := rfl
  reader_open := rfl
  nothing_sent := rfl
  on_all_write := fun _ w => ⟨w, rfl, rfl, rfl⟩
  on_all_read := rfl
  onReadHandler := fun _ w => ⟨w, rfl, rfl, rfl⟩

theorem carried_errorReply : Carried jsonPlatform errorReply where
  built := .errorReply
  round_trips := JsonText.roundTrips_plain (JsonText.plain_serialize (by decide))
  samples_survive := fun _ _ _ _ h => by cases h
  fits := by decide

/-- **The error reply is not delivered as a message.** -/
theorem error_reply_not_brought :
    Joined UInt64.ofNat byteEnv (plainSession 0) (plainSession 1) twoOpen ∧
      (∀ m ∈ [errorReply], Carried jsonPlatform m) ∧
      ¬ Delivers Brings jsonPlatform UInt64.ofNat byteEnv (plainSession 0) (plainSession 1)
        twoOpen [errorReply] := by
  have hcarried : ∀ m ∈ [errorReply], Carried jsonPlatform m := by
    intro m hm
    rw [List.mem_singleton.mp hm]
    exact carried_errorReply
  refine ⟨joined_plainSession _, hcarried, ?_⟩
  rintro ⟨w₁, w₂, calls, hwrite, hread, hcalls, hbrings⟩
  obtain ⟨w₁', w₂', hwrite', hread', hcalls'⟩ :=
    run_delivery (joined_plainSession UInt64.ofNat) [errorReply] hcarried
  -- a run has one outcome, so the calls are the ones `run_delivery` names
  rw [hwrite] at hwrite'
  obtain rfl : w₁ = w₁' := by simpa using hwrite'
  rw [hread] at hread'
  obtain rfl : w₂ = w₂' := by simpa using hread'
  rw [hcalls, List.append_cancel_left_eq] at hcalls'
  subst hcalls'
  obtain ⟨⟨-, r, hr, -⟩, -⟩ := List.forall₂_cons.mp hbrings
  cases hr

theorem carried_information :
    Carried jsonPlatform (.InformationMessage "information" .Response (some 4)) where
  built := .information 4
  round_trips := JsonText.roundTrips_plain (JsonText.plain_serialize (by decide))
  samples_survive := fun _ _ _ _ h => by cases h
  fits := by decide

/-- Three information responses, sent byte by byte. -/
theorem session_delivers_three_responses :
    Delivers Arrives jsonPlatform UInt64.ofNat byteEnv (plainSession 0) (plainSession 1)
      twoOpen (List.replicate 3 (.InformationMessage "information" .Response (some 4))) := by
  refine session_delivers _ _ _ _ _ _ (joined_plainSession _) _ (fun m hm => ?_)
  rw [List.eq_of_mem_replicate hm]
  exact carried_information

end NetworkApplication.Delivery
