/-
What becomes of a request.

`createResponse` has a branch for a null message and one for a type that it does not know, and
both build the error reply. Two components stand in front of it. The factory makes no message
of a type that it does not know, so an unknown type arrives as null; and the callback of
`sessionWork` looks at what it gets before it hands it on, so null is not handed on. The two
branches are never reached from a session.

The callback is the same in both modes. They differ in when the read and the write behind it
are completed, so a read of the loop is written here with its mode, and its completions are
part of it.
-/
import NetworkApplication.Widths

set_option autoImplicit false

namespace NetworkApplication

open NetworkApplication.Program

/-- `TransportHandler::write` with its completion. An asynchronous one sends what it finds in
`json_len` when it gets there, and that is `four`. -/
def TransportHandler.writeIn (th : TransportHandler) (mode : Accepts.IOMode) (four : List UInt8)
    (transportMessage : TransportMessage) : NetProg Unit :=
  match mode with
  | .Sync => th.write transportMessage
  | .Async => do
    let payload := transportMessage.payload
    invoke th.onWriteHandler (payload, payload.length)
    let buffers := bytes32 th.magicNumber ++ (four ++ payload)
    let error ← asio_write th.socket buffers.length 0 buffers
    th.written transportMessage error

namespace Session

variable (P : Platform) (s : Session)

/-- `Session::read` in its mode. -/
def readIn (mode : Accepts.IOMode) : NetProg Unit := do
  let is_open ← call (.isOpen s.addr)
  Prog.when is_open ((s.transport_handler P).read P mode)

/-- `Session::write` in its mode. -/
def writeIn (mode : Accepts.IOMode) (four : List UInt8) (message : Option Message) : NetProg Unit :=
  (s.transport_handler P).writeIn mode four (MessageHandler.serialize P message)

end Session

namespace SegmentServer

variable (P : Platform) (server : SegmentServer) (mode : Accepts.IOMode) (four : List UInt8)
  (ptr : SessionPtr)

/-- The callback that `sessionWork` sets, in the server's mode. -/
def onAllReadIn : ErrorCode × Option Message → NetProg Unit := fun (_, msg) =>
  match msg with
  | none => pure ()
  | some m =>
    if m.type = "raw" then pure ()
    else do
      let new_msg ← RequestResponseHandler.createResponse (some m)
      (server.session ptr).writeIn P mode four (some new_msg)

/-- The session as its reader uses it, in the server's mode. -/
def readerSessionIn : Session :=
  server.sessionManager.session ptr (some (server.onAllReadIn P mode four ptr))

/-- The `session->read()` of `sessionWork`. -/
def sessionRead : NetProg Unit := (server.readerSessionIn P mode four ptr).readIn P mode

/-- In the `Sync` mode it is the one of `SegmentServer.sessionWork`. -/
theorem sessionRead_sync : server.sessionRead P .Sync four ptr = (server.readerSession P ptr).read P :=
  rfl

end SegmentServer

namespace Requests

open TransportHandler SyncRead Delivery BadPayload SegmentServer RequestResponseHandler Replies
  JsonText

variable {P : Platform} {ids : Nat → UInt64} {a : Nat} {payload rx tx rest four : List UInt8}
  {w : World} {mode : Accepts.IOMode}

/-! ## A read of one frame -/

section Read

variable {th : TransportHandler} {type : String} {transaction : Int64}

/-- The read of a frame goes as far as its payload. -/
theorem twp_readSized (size : List UInt8 → Nat) {post : Unit → World → Prop}
    (hlength : payload.length < 2 ^ 32)
    (h : At th.socket (frame th.magicNumber payload ++ rest) tx w)
    (hjson : ∀ w', At th.socket rest tx w' →
      Prog.twp (succeeding ids) post (th.readJsonSized P size payload) w') :
    Prog.twp (succeeding ids) post (th.readSized P size) w := by
  -- the header comes first, and says how long the payload is
  have hheader : At th.socket ((bytes32 th.magicNumber ++ bytes32 (UInt32.ofNat payload.length))
      ++ (payload ++ rest)) tx w := by
    rwa [frame, List.append_assoc] at h
  have hmagic : magicOf (bytes32 th.magicNumber ++ bytes32 (UInt32.ofNat payload.length))
      = th.magicNumber := by
    rw [magicOf, take_append_four _ _ rfl, uint32_of_bytes32]
  have hcount : lengthOf (bytes32 th.magicNumber ++ bytes32 (UInt32.ofNat payload.length))
      = payload.length := by
    rw [lengthOf, drop_append_four _ _ rfl, List.take_of_length_le (by rfl), uint32_of_bytes32,
      UInt32.toNat_ofNat']
    omega
  unfold readSized
  refine twp_read rfl hheader (fun w₁ h₁ => ?_)
  simp only [readError, errorHandler_of_not_failed ErrorCode.failed_success, Prog.pure_bind',
    Bool.false_eq_true, if_false, Except.toOption, Option.getD_some, hmagic, hcount]
  rw [if_neg (show ¬ th.magicNumber ≠ th.magicNumber from not_not.mpr rfl)]
  unfold readPayloadSized
  -- then the payload
  refine twp_read rfl h₁ (fun w₂ h₂ => ?_)
  simp only [readError, errorHandler_of_not_failed ErrorCode.failed_success, Prog.pure_bind',
    Bool.false_eq_true, if_false, Except.toOption, Option.getD_some]
  exact hjson w₂ h₂

/-- So does it in either mode. -/
theorem twp_readMode (th : TransportHandler) {post : Unit → World → Prop}
    (hlength : payload.length < 2 ^ 32)
    (h : At th.socket (frame th.magicNumber payload ++ rest) tx w)
    (hjson : ∀ size w', At th.socket rest tx w' →
      Prog.twp (succeeding ids) post (th.readJsonSized P size payload) w') :
    Prog.twp (succeeding ids) post (th.read P mode) w := by
  cases mode with
  | Sync =>
    rw [TransportHandler.read, read_sync_eq]
    exact twp_readSized _ hlength h (hjson _)
  | Async =>
    rw [TransportHandler.read, read_async_eq]
    exact twp_readSized _ hlength h (hjson _)

/-- A payload that decodes goes on to `onAllRead`. -/
theorem twp_readJsonSized (size : List UInt8 → Nat) {post : Unit → World → Prop}
    (hdecodes : Decodes P payload type transaction) (h : At th.socket rest tx w)
    (hread : ∀ x w, At th.socket rest tx w →
      Prog.twp (succeeding ids) (fun _ w' => At th.socket rest tx w') (invoke th.onReadHandler x) w)
    (hall : ∀ w, At th.socket rest tx w → Prog.twp (succeeding ids) post (invoke th.onAllRead
      ((P.parse payload).error, ⟨type, setTypeTransaction transaction.toInt32, payload⟩)) w) :
    Prog.twp (succeeding ids) post (th.readJsonSized P size payload) w := by
  unfold readJsonSized
  simp only [errorHandler_of_not_failed hdecodes.1, Prog.pure_bind', Bool.false_eq_true, if_false,
    decode_of_decodes hdecodes]
  exact Prog.twp_bind (Prog.twp_mono (hread _ w h) (fun _ w₁ h₁ => hall w₁ h₁))

end Read

/-! ## A reply -/

/-- The bytes of a reply. -/
def sentIn (P : Platform) (mode : Accepts.IOMode) (four : List UInt8) (magicNumber : UInt32)
    (reply : Option Message) : List UInt8 :=
  match mode, reply with
  | _, none => []
  | .Sync, some r => frameOf P magicNumber r
  | .Async, some r => bytes32 magicNumber ++ (four ++ (MessageHandler.serialize P (some r)).payload)

variable {server : SegmentServer} {ptr : SessionPtr}

/-- `Session::write` sends the message, in either mode. -/
theorem twp_writeIn {s : Session} (hs : s.on_all_write = none) (r : Message)
    (h : At s.addr rx tx w) :
    Prog.twp (succeeding ids)
      (fun _ w' => At s.addr rx (tx ++ sentIn P mode four s.magicNumber (some r)) w')
      (s.writeIn P mode four (some r)) w := by
  set message := MessageHandler.serialize P (some r)
  -- the completion handler of a write that went through has nothing to do
  have hcompleted : ((s.transport_handler P).written message .success) = pure () := by
    show s.onAllWrite (.success, message) = pure ()
    rw [Session.onAllWrite, hs]
    rfl
  have hsent : ∀ buffers, Prog.twp (succeeding ids) (fun _ w' => At s.addr rx (tx ++ buffers) w')
      (asio_write s.addr buffers.length 0 buffers >>= (s.transport_handler P).written message) w := by
    intro buffers
    refine Prog.twp_bind (Prog.twp_mono (twp_asio_write _ 0 _ (Nat.le_refl _) h.isOpen) ?_)
    rintro ec w' ⟨rfl, rfl⟩
    have hat := h.modify (g := fun s => { s with tx := s.tx ++ buffers }) (fun _ => rfl)
      (fun _ => rfl)
    rw [h.rx, h.tx] at hat
    rw [hcompleted]
    exact hat
  cases mode with
  | Sync => exact Prog.twp_tryCatch (hsent (frame s.magicNumber message.payload))
  | Async => exact hsent (bytes32 s.magicNumber ++ (four ++ message.payload))

/-- The callback of `sessionWork` sends the reply. -/
theorem twp_onAllReadIn (ec : ErrorCode) (h : At ptr.addr rx tx w) :
    Prog.twp (succeeding ids) (fun _ w' => ∃ reply, ReplyTo P payload reply ∧
        At ptr.addr rx (tx ++ sentIn P mode four server.magicNumber reply) w')
      (server.onAllReadIn P mode four ptr (ec, parsedMessage P payload)) w := by
  have hnothing : At ptr.addr rx (tx ++ sentIn P mode four server.magicNumber none) w := by
    rw [sentIn, List.append_nil]
    exact h
  unfold onAllReadIn ReplyTo
  cases parsedMessage P payload with
  | none => exact ⟨none, rfl, hnothing⟩
  | some m =>
    simp only
    split
    -- a response is not answered
    · exact ⟨none, rfl, hnothing⟩
    · refine Prog.twp_bind (Prog.twp_mono (twp_createResponse m) ?_)
      rintro r w' ⟨hanswer, rfl⟩
      exact Prog.twp_mono (twp_writeIn rfl r h)
        (fun _ w'' hat => ⟨some r, ⟨r, rfl, hanswer⟩, hat⟩)

/-- One read of the loop takes one frame and sends what that frame is answered with. -/
theorem twp_sessionRead (hpayload : WellFormed P payload)
    (h : At ptr.addr (frame server.magicNumber payload ++ rest) tx w) :
    Prog.twp (succeeding ids) (fun _ w' => ∃ reply, ReplyTo P payload reply ∧
        At ptr.addr rest (tx ++ sentIn P mode four server.magicNumber reply) w')
      (server.sessionRead P mode four ptr) w := by
  obtain ⟨hlength, type, transaction, hdecodes⟩ := hpayload
  refine twp_ask (fun c => congrArg some (Prod.ext h.isOpen rfl)) ?_
  have hread : ∀ x w₁, At ptr.addr rest tx w₁ → Prog.twp (succeeding ids)
      (fun _ w' => At ptr.addr rest tx w') (invoke server.sessionManager.readHandlerForSession x) w₁ :=
    fun x _ h₁ => twp_onReadHandler x h₁
  refine twp_readMode ((server.readerSessionIn P mode four ptr).transport_handler P) hlength h
    (fun size w₀ h₀ => twp_readJsonSized size hdecodes h₀ hread (fun w₁ h₁ => ?_))
  have hinvoke : ∀ x, invoke ((server.readerSessionIn P mode four ptr).transport_handler P).onAllRead x
      = (server.readerSessionIn P mode four ptr).onAllRead P x := fun _ => rfl
  rw [hinvoke, Session.onAllRead_of_not_critical P _ (check_error_of_not_failed hdecodes.1),
    ← parsedMessage_of_decodes hdecodes]
  exact twp_onAllReadIn (P.parse payload).error h₁

/-! ## A request -/

/-- The reply that a request is due: a response to the two types that there are responses for,
and the error message to all the others. -/
def Due (type : String) (r : Message) : Prop :=
  if type = "signal" then ∃ freq samples, r = .SignalMessage "signal" .Response (some freq) samples
  else if type = "information" then
    ∃ cores, r = .InformationMessage "information" .Response (some cores)
  else r = unknownReply

/-- The request is answered: there is a run of the read, and every run takes the frame and sends
the reply that is due. -/
def RequestAnswered (P : Platform) (ids : Nat → UInt64) (server : SegmentServer)
    (mode : Accepts.IOMode) (four : List UInt8) (ptr : SessionPtr) (type : String)
    (tx rest : List UInt8) (w : World) : Prop :=
  (∃ out w', Prog.Runs (succeeding ids) (server.sessionRead P mode four ptr) w out w') ∧
    ∀ out w', Prog.Runs (succeeding ids) (server.sessionRead P mode four ptr) w out w' →
      ∃ r, Due type r ∧ At ptr.addr rest (tx ++ sentIn P mode four server.magicNumber (some r)) w'

variable {type : String}

/-- What the factory makes of a request: of its contents nothing is looked at. -/
theorem parsedMessage_request (hdecodes : Decodes P payload type 0) (hraw : type ≠ "raw") :
    parsedMessage P payload
      = if type = "information" then some (.InformationMessage type .Request none)
        else if type = "signal" then some (.SignalMessage type .Request none []) else none := by
  rw [parsedMessage_of_decodes hdecodes]
  unfold MessageHandler.parse
  simp only [hdecodes.1, Bool.false_eq_true, if_false, MessageHandler.createMessage_eq, if_neg hraw]
  have hrequest : setTypeTransaction (Int64.toInt32 0) ≠ .Response := by decide
  rw [Message.information_of_json, Message.signal_of_json, if_neg hrequest, if_neg hrequest]
  rfl

/-- What is sent for a request: what is due if there is a response for its type, and nothing
otherwise. -/
theorem replyTo_request (hdecodes : Decodes P payload type 0) (hraw : type ≠ "raw")
    {reply : Option Message} (h : ReplyTo P payload reply) :
    if type = "signal" ∨ type = "information" then ∃ r, reply = some r ∧ Due type r
    else reply = none := by
  unfold ReplyTo at h
  rw [parsedMessage_request hdecodes hraw] at h
  -- of the two types that there are responses for the reply is the response
  by_cases hinformation : type = "information"
  · subst hinformation
    obtain ⟨r, rfl, hanswer⟩ := h
    obtain ⟨n, -, -, rfl⟩ := hanswer
    exact ⟨_, rfl, n, rfl⟩
  by_cases hsignal : type = "signal"
  · subst hsignal
    obtain ⟨r, rfl, hanswer⟩ := h
    obtain ⟨freq, samples, -, -, -, -, rfl⟩ := hanswer
    exact ⟨_, rfl, freq, samples, rfl⟩
  · rw [if_neg hinformation, if_neg hsignal] at h
    rw [if_neg (not_or.mpr ⟨hsignal, hinformation⟩)]
    exact h

/-- A reply is never empty. -/
theorem sentIn_ne_nil (magicNumber : UInt32) (r : Message) :
    sentIn P mode four magicNumber (some r) ≠ [] := by
  cases mode with
  | Sync => exact List.cons_ne_nil _ _
  | Async => exact List.cons_ne_nil _ _

/-- A type that there is no response for is not answered. -/
theorem not_answered (hlength : payload.length < 2 ^ 32) (hdecodes : Decodes P payload type 0)
    (hraw : type ≠ "raw") (hother : ¬ (type = "signal" ∨ type = "information"))
    (h : At ptr.addr (frame server.magicNumber payload ++ rest) tx w) :
    ¬ RequestAnswered P ids server mode four ptr type tx rest w := by
  rintro ⟨⟨out, w', hrun⟩, hall⟩
  have hread : Prog.twp (succeeding ids) _ (server.sessionRead P mode four ptr) w :=
    twp_sessionRead ⟨hlength, type, 0, hdecodes⟩ h
  obtain ⟨-, -, reply, hreply, hat⟩ := (Prog.runs_of_twp hread).2 out w' hrun
  have hnone := replyTo_request hdecodes hraw hreply
  rw [if_neg hother] at hnone
  subst hnone
  -- the same run would have to have sent a reply and nothing
  obtain ⟨r, -, hat'⟩ := hall out w' hrun
  have hsent := hat'.tx.symm.trans hat.tx
  rw [sentIn, List.append_cancel_left_eq] at hsent
  exact sentIn_ne_nil _ r hsent

/-- **When a request is answered**: in either mode, for every request that is not raw and
whatever else is in it, exactly if it asks for a signal or for information. -/
theorem request_answered_iff (hlength : payload.length < 2 ^ 32)
    (hdecodes : Decodes P payload type 0) (hraw : type ≠ "raw")
    (h : At ptr.addr (frame server.magicNumber payload ++ rest) tx w) :
    RequestAnswered P ids server mode four ptr type tx rest w
      ↔ type = "signal" ∨ type = "information" := by
  constructor
  · intro hanswered
    by_contra hother
    exact not_answered hlength hdecodes hraw hother h hanswered
  · intro htype
    have hread : Prog.twp (succeeding ids) _ (server.sessionRead P mode four ptr) w :=
      twp_sessionRead ⟨hlength, type, 0, hdecodes⟩ h
    -- every run takes the frame and sends the one reply
    refine ⟨(Prog.runs_of_twp hread).1, fun out w' hrun => ?_⟩
    obtain ⟨-, -, reply, hreply, hat⟩ := (Prog.runs_of_twp hread).2 out w' hrun
    have hdue := replyTo_request hdecodes hraw hreply
    rw [if_pos htype] at hdue
    obtain ⟨r, rfl, hr⟩ := hdue
    exact ⟨r, hr, hat⟩

/-- A request of a type. -/
def asking (type : String) : List UInt8 := headerText type 0

/-- A server and a session of it with one request in front of it. -/
def plainServer : SegmentServer := ⟨false, 7, false⟩

def asked (type : String) : World :=
  { World.init with isWork := true, sessions := fun _ =>
    { SessionObject.new with isOpen := true, rx := frame 7 (asking type) } }

theorem at_asked (type : String) : At 0 (frame 7 (asking type) ++ []) [] (asked type) := by
  rw [List.append_nil]
  exact ⟨rfl, rfl, rfl, rfl, rfl⟩

/-- A request for a signal is answered. -/
theorem signal_request_answered : RequestAnswered jsonPlatform (fun _ => 0) plainServer .Sync
    [33, 0, 0, 0] ⟨0, 0⟩ "signal" [] [] (asked "signal") :=
  (request_answered_iff (by decide) (decodes_headerText (by decide) 0) (by decide)
    (at_asked "signal")).mpr (.inl rfl)

/-- **A request of a type that the factory does not know gets nothing**, neither in the one mode
nor in the other. -/
theorem unknown_request_dropped : Decodes jsonPlatform (asking "status") "status" 0 ∧
    At 0 (frame 7 (asking "status") ++ []) [] (asked "status") ∧
    ∀ mode, ¬ RequestAnswered jsonPlatform (fun _ => 0) plainServer mode [33, 0, 0, 0] ⟨0, 0⟩
      "status" [] [] (asked "status") :=
  ⟨decodes_headerText (by decide) 0, at_asked "status", fun _ => not_answered (by decide)
    (decodes_headerText (by decide) 0) (by decide) (by decide) (at_asked "status")⟩

end Requests

end NetworkApplication
