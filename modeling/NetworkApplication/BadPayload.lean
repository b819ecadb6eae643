/-
Payloads that are not JSON.

A frame says how long its payload is, so a payload that does not parse is off the stream
when the parser has seen it, and the next read starts at the next frame. Whether it costs
the connection is decided by `check_error`. Of all the errors of the parser it knows one,
`syntax`: that is reported to `on_all_read` with a null message, and nothing else happens.
Every other one (a text that is cut off, or goes on behind its value, or is nested too
deeply) is critical like a lost connection: `onError` is called, the flag is set and the
session is disconnected, with the frames behind it unread.

What is observed are the calls of the session's callbacks; the callbacks may do what they
like as long as they return and leave this session's receiving side alone.
-/
import NetworkApplication.AsyncRead
import NetworkApplication.Delivery

set_option autoImplicit false

namespace NetworkApplication.BadPayload

open NetworkApplication.Program
open SyncRead AsyncRead Delivery JsonText

variable {P : Platform} {ids : Nat → UInt64} {env : Op → World → Choice} {cut : ErrorCode}
  {s : Session} {w w' w'' : World}

/-! ## What is observed of a session -/

/-- The receiving side of the session at `a` is as it was. -/
structure Unmoved (a : Nat) (w w' : World) : Prop where
  rx : (w'.sessions a).rx = (w.sessions a).rx
  isOpen : w'.isOpen a = w.isOpen a
  hasError : w'.hasError a = w.hasError a

theorem Unmoved.refl (a : Nat) (w : World) : Unmoved a w w := ⟨rfl, rfl, rfl⟩

theorem Unmoved.trans {a : Nat} (h : Unmoved a w w') (h' : Unmoved a w' w'') : Unmoved a w w'' :=
  ⟨h'.rx.trans h.rx, h'.isOpen.trans h.isOpen, h'.hasError.trans h.hasError⟩

/-- The calls of the session's callbacks. -/
def sessionEvents (w : World) : List Event :=
  callsOf (fun
    | .onError _ | .on_all_read _ _ | .on_disconnect _ => true
    | _ => false) w

/-- A callback that returns, leaves the session alone and reports no such call itself. -/
def Considerate (ids : Nat → UInt64) (env : Op → World → Choice) (a : Nat) (p : NetProg Unit) :
    Prop :=
  ∀ w, ∃ w', Prog.run (sem ids) env p w = some (.ok (), w') ∧ Unmoved a w w' ∧
    sessionEvents w' = sessionEvents w

/-- The session's callbacks are considerate. -/
structure Careful (ids : Nat → UInt64) (env : Op → World → Choice) (s : Session) : Prop where
  onReadHandler : ∀ x, Considerate ids env s.addr (invoke s.onReadHandler x)
  onError : ∀ ec, Considerate ids env s.addr (invoke s.onError ec)
  on_disconnect : ∀ ec, Considerate ids env s.addr (invoke s.on_disconnect ec)
  on_all_read : ∀ x, Considerate ids env s.addr (invoke s.on_all_read x)

/-- The call of `on_all_read`, with its arguments. -/
def readEvent : ErrorCode × Option Message → Event := fun (ec, message) => .on_all_read ec message

/-- The session with the calls of its callbacks reported. -/
def observed (s : Session) : Session :=
  { s with
    onError := observe Event.onError s.onError
    on_disconnect := observe Event.on_disconnect s.on_disconnect
    on_all_read := observe readEvent s.on_all_read }

/-- The environment answers the calls that close a socket with a code. -/
def AnswersClose (env : Op → World → Choice) : Prop :=
  ∀ a w, (∃ ec, env (.shutdown a) w = .code ec) ∧ ∃ ec, env (.close a) w = .code ec

/-- A callback behind the report of its call. -/
theorem run_observed {α : Type} {event : α → Event} {callback : Option (α → NetProg Unit)}
    (hevent : ∀ a, (match event a with
      | .onError _ | .on_all_read _ _ | .on_disconnect _ => true
      | _ => false) = true) {a : Nat}
    (hcallback : ∀ x, Considerate ids env a (invoke callback x)) (x : α) (w : World) :
    ∃ w', Prog.run (sem ids) env (invoke (observe event callback) x) w = some (.ok (), w') ∧
      Unmoved a w w' ∧ sessionEvents w' = sessionEvents w ++ callOf event callback x := by
  obtain ⟨w', hrun, hunmoved, hevents⟩ := run_observe
    (R := fun w w' => Unmoved a w w' ∧ sessionEvents w' = sessionEvents w)
    (fun w => ⟨Unmoved.refl a w, rfl⟩) hcallback x w
  exact ⟨w', hrun, ⟨hunmoved.rx, hunmoved.isOpen, hunmoved.hasError⟩,
    hevents.trans (callsOf_callOf hevent _ _ w)⟩

theorem run_onError (hs : Careful ids env s) (ec : ErrorCode) (w : World) :
    ∃ w', Prog.run (sem ids) env (invoke (observed s).onError ec) w = some (.ok (), w') ∧
      Unmoved s.addr w w' ∧ sessionEvents w' = sessionEvents w ++ callOf Event.onError s.onError ec :=
  run_observed (fun _ => rfl) hs.onError ec w

theorem run_on_all_read (hs : Careful ids env s) (x : ErrorCode × Option Message) (w : World) :
    ∃ w', Prog.run (sem ids) env (invoke (observed s).on_all_read x) w = some (.ok (), w') ∧
      Unmoved s.addr w w' ∧ sessionEvents w' = sessionEvents w ++ callOf readEvent s.on_all_read x :=
  run_observed (fun _ => rfl) hs.on_all_read x w

theorem run_on_disconnect (hs : Careful ids env s) (ec : ErrorCode) (w : World) :
    ∃ w', Prog.run (sem ids) env (invoke (observed s).on_disconnect ec) w = some (.ok (), w') ∧
      Unmoved s.addr w w' := by
  obtain ⟨w', hrun, hunmoved, -⟩ : ∃ w', Prog.run (sem ids) env
      (invoke (observe Event.on_disconnect s.on_disconnect) ec) w = some (.ok (), w') ∧
      Unmoved s.addr w w' ∧ sessionEvents w' = _ :=
    run_observed (fun _ => rfl) hs.on_disconnect ec w
  exact ⟨w', hrun, hunmoved⟩

/-! ## One frame -/

/-- What comes of a payload. -/
def parsedMessage (P : Platform) (payload : List UInt8) : Option Message :=
  if (P.parse payload).error.failed then none
  else match TransportHandler.decode (P.parse payload).value with
    | .ok (type, transaction) => MessageHandler.parse P ⟨type, transaction, payload⟩
    | .error _ => none

/-- What is reported of a payload: its message, or the parser's error and no message. -/
def reported (P : Platform) (s : Session) (payload : List UInt8) : List Event :=
  callOf readEvent s.on_all_read ((P.parse payload).error, parsedMessage P payload)

/-- The payload is no JSON, or it is a message. -/
def Payload (P : Platform) (payload : List UInt8) : Prop :=
  payload.length < 2 ^ 32 ∧ ((P.parse payload).error.failed = true ∨
    ∃ type transaction, Decodes P payload type transaction)

/-- The error of the payload, if it has one, is not critical. -/
def Harmless (P : Platform) (payload : List UInt8) : Prop :=
  (P.parse payload).error.failed = true → check_error (P.parse payload).error = false

/-- Of the parser's errors that is `syntax`. -/
theorem harmless_iff_syntax_error {payload : List UInt8}
    (hjson : (P.parse payload).error.failed = true → (P.parse payload).error.category = .json) :
    Harmless P payload ↔ ((P.parse payload).error.failed = true →
      (P.parse payload).error = ErrorCode.syntax_) := by
  refine forall_congr' (fun hfailed => ?_)
  rw [check_error_eq_false_iff, hfailed]
  have hcategory := hjson hfailed
  constructor
  · rintro (h | h | h | h)
    · cases h
    · rw [h] at hcategory
      cases hcategory
    · exact h
    · rw [h] at hcategory
      cases hcategory
  · exact fun h => .inr (.inr (.inl h))

/-- The message that stands for an error is of a type the factory does not know. -/
theorem parse_errorMessage (P : Platform) :
    MessageHandler.parse P TransportHandler.setErrorMessage = none := by
  unfold MessageHandler.parse
  simp only
  split
  · rfl
  · rw [MessageHandler.createMessage_eq]
    rfl

/-- A read of a session in front of a frame is what its payload's stage makes of it. -/
theorem run_read_frame (henv : ReadsStream env cut) (hopen : w.isOpen s.addr = true)
    {payload rest : List UInt8} (hlen : payload.length < 2 ^ 32)
    (hrx : (w.sessions s.addr).rx = frame s.magicNumber payload ++ rest) :
    Prog.run (sem ids) env ((observed s).read P) w
      = Prog.run (sem ids) env (((observed s).transport_handler P).read_json P payload)
          (w.modify s.addr (fun x => { x with rx := rest })) := by
  have htake : takeFrame ((observed s).transport_handler P).magicNumber (w.sessions s.addr).rx
      = some (payload, rest) := by
    rw [hrx]
    exact takeFrame_frame _ _ _ hlen
  have hread : Prog.run (sem ids) env ((observed s).read P) w = _ := run_read_of_open hopen
  rw [hread]
  exact run_read_sync_of_frame henv hopen htake

theorem unmoved_modify (w : World) (a : Nat) (rest : List UInt8) :
    (w.modify a (fun x => { x with rx := rest })).isOpen a = w.isOpen a ∧
      (w.modify a (fun x => { x with rx := rest })).hasError a = w.hasError a ∧
      ((w.modify a (fun x => { x with rx := rest })).sessions a).rx = rest := by
  refine ⟨?_, ?_, ?_⟩
  · rw [World.isOpen, World.modify_sessions_self, World.isOpen]
  · rw [World.hasError, World.modify_sessions_self, World.hasError]
  · rw [World.modify_sessions_self]

/-- **A harmless frame** is taken off the stream and reported, and nothing else. -/
theorem run_read_harmless (henv : ReadsStream env cut) (hs : Careful ids env s)
    (hopen : w.isOpen s.addr = true) {payload rest : List UInt8} (hpayload : Payload P payload)
    (hharmless : Harmless P payload)
    (hrx : (w.sessions s.addr).rx = frame s.magicNumber payload ++ rest) :
    ∃ w', Prog.run (sem ids) env ((observed s).read P) w = some (.ok (), w') ∧
      w'.isOpen s.addr = true ∧ w'.hasError s.addr = w.hasError s.addr ∧
      (w'.sessions s.addr).rx = rest ∧ sessionEvents w' = sessionEvents w ++ reported P s payload := by
  obtain ⟨hlen, hkind⟩ := hpayload
  obtain ⟨hopen₁, herror₁, hrx₁⟩ := unmoved_modify w s.addr rest
  rw [run_read_frame henv hopen hlen hrx]
  rcases hkind with hfailed | ⟨type, transaction, hdecodes⟩
  · -- no JSON: the report is all there is of the error handler
    have hcheck := hharmless hfailed
    obtain ⟨w₁, hrun, hunmoved, hevents⟩ := run_on_all_read hs ((P.parse payload).error, none)
      (w.modify s.addr (fun x => { x with rx := rest }))
    refine ⟨w₁, ?_, ?_, ?_, ?_, ?_⟩
    · have hhandler : ((observed s).transport_handler P).errorHandler (P.parse payload).error
          = invoke (observed s).on_all_read ((P.parse payload).error, none) >>= fun _ =>
            pure true := by
        show (do
          Prog.when (check_error (P.parse payload).error) _
          if (P.parse payload).error.failed then
            (observed s).onAllRead P ((P.parse payload).error, TransportHandler.setErrorMessage)
            return true
          else return false) = _
        rw [hcheck, hfailed, Session.onAllRead_of_not_critical P _ hcheck, parse_errorMessage]
        rfl
      unfold TransportHandler.read_json
      simp only [hhandler]
      rw [Prog.bind_assoc', Prog.run_bind_ok hrun]
      rfl
    · rw [hunmoved.isOpen, hopen₁]
      exact hopen
    · rw [hunmoved.hasError, herror₁]
    · rw [hunmoved.rx, hrx₁]
    · rw [hevents, reported, parsedMessage, if_pos hfailed]
      rfl
  · have hdecode := decode_of_decodes hdecodes
    obtain ⟨w₁, hrun₁, hunmoved₁, hevents₁⟩ := hs.onReadHandler
      (0, payload, payload.length + 1) (w.modify s.addr (fun x => { x with rx := rest }))
    obtain ⟨w₂, hrun₂, hunmoved₂, hevents₂⟩ := run_on_all_read hs ((P.parse payload).error,
      MessageHandler.parse P ⟨type, setTypeTransaction transaction.toInt32, payload⟩) w₁
    have hunmoved := hunmoved₁.trans hunmoved₂
    refine ⟨w₂, ?_, ?_, ?_, ?_, ?_⟩
    · have honAllRead := Session.onAllRead_of_not_critical P (observed s)
        (check_error_of_not_failed hdecodes.1)
        ⟨type, setTypeTransaction transaction.toInt32, payload⟩
      rw [read_json_of_decode hdecodes.1 hdecode]
      refine (Prog.run_bind_ok hrun₁).trans ?_
      rw [← hrun₂, ← honAllRead]
      rfl
    · rw [hunmoved.isOpen, hopen₁]
      exact hopen
    · rw [hunmoved.hasError, herror₁]
    · rw [hunmoved.rx, hrx₁]
    · rw [hevents₂, hevents₁, reported, parsedMessage, if_neg (by rw [hdecodes.1]; exact nofun), hdecode]
      rfl

/-- `disconnect` closes the socket, and does not touch the flag. -/
theorem run_disconnect (henv : AnswersClose env) (hs : Careful ids env s)
    (hopen : w.isOpen s.addr = true) :
    ∃ w', Prog.run (sem ids) env (observed s).disconnect w = some (.ok (), w') ∧
      w'.isOpen s.addr = false ∧ w'.hasError s.addr = w.hasError s.addr := by
  have hreport : ∀ b ec w, ∃ w', Prog.run (sem ids) env
      (Prog.when b (invoke (observed s).onError ec)) w = some (.ok (), w') ∧ Unmoved s.addr w w' := by
    intro b ec w
    cases b with
    | true =>
      obtain ⟨w', hrun, hunmoved, -⟩ := run_onError hs ec w
      exact ⟨w', hrun, hunmoved⟩
    | false => exact ⟨w, rfl, Unmoved.refl ..⟩
  obtain ⟨⟨ec₁, hshutdown⟩, -⟩ := henv s.addr w
  obtain ⟨w₁, hrun₁, hunmoved₁⟩ := hreport ec₁.failed ec₁ w
  obtain ⟨-, ec₂, hclose⟩ := henv s.addr w₁
  obtain ⟨w₂, hrun₂, hunmoved₂⟩ := hreport ec₂.failed ec₂
    (w₁.modify s.addr (fun x => { x with isOpen := false }))
  obtain ⟨w₃, hrun₃, hunmoved₃⟩ := run_on_disconnect hs ec₂ w₂
  have hunmoved := hunmoved₂.trans hunmoved₃
  refine ⟨w₃, ?_, ?_, ?_⟩
  · unfold Session.disconnect ConnectHandler.disconnect
    have hop : sem ids (.isOpen s.addr) (env (.isOpen s.addr) w) w = some (true, w) := by
      rw [sem, hopen]
    have hop₁ : sem ids (.shutdown s.addr) (env (.shutdown s.addr) w) w = some (ec₁, w) := by
      rw [hshutdown]
      rfl
    have hop₂ : sem ids (.close s.addr) (env (.close s.addr) w₁) w₁
        = some (ec₂, w₁.modify s.addr (fun x => { x with isOpen := false })) := by
      rw [hclose]
      rfl
    refine (run_call hop _).trans ((run_call hop₁ _).trans ?_)
    refine (Prog.run_bind_ok hrun₁).trans ((run_call hop₂ _).trans ?_)
    exact (Prog.run_bind_ok hrun₂).trans hrun₃
  · rw [hunmoved.isOpen, World.isOpen, World.modify_sessions_self]
  · rw [hunmoved.hasError, World.hasError, World.modify_sessions_self]
    exact hunmoved₁.hasError

/-- **A frame with a critical error** costs the connection. -/
theorem run_read_critical (henv : ReadsStream env cut) (hclose : AnswersClose env)
    (hs : Careful ids env s) (hopen : w.isOpen s.addr = true) {payload rest : List UInt8}
    (hlen : payload.length < 2 ^ 32) (hcheck : check_error (P.parse payload).error = true)
    (hrx : (w.sessions s.addr).rx = frame s.magicNumber payload ++ rest) :
    ∃ w', Prog.run (sem ids) env ((observed s).read P) w = some (.ok (), w') ∧
      w'.isOpen s.addr = false ∧ w'.hasError s.addr = true := by
  have hfailed := failed_of_check_error hcheck
  obtain ⟨hopen₀, -, -⟩ := unmoved_modify w s.addr rest
  rw [run_read_frame henv hopen hlen hrx]
  obtain ⟨w₁, hrun₁, hunmoved₁, -⟩ := run_onError hs (P.parse payload).error
    (w.modify s.addr (fun x => { x with rx := rest }))
  obtain ⟨w₂, hrun₂, hunmoved₂, -⟩ := run_on_all_read hs ((P.parse payload).error, none) w₁
  have hopen₃ : (w₂.modify s.addr (fun x => { x with criticalError := true })).isOpen s.addr
      = true := by
    rw [World.isOpen, World.modify_sessions_self]
    exact ((hunmoved₁.trans hunmoved₂).isOpen.trans hopen₀).trans hopen
  obtain ⟨w₃, hrun₃, hclosed, herror⟩ := run_disconnect hclose hs hopen₃
  refine ⟨w₃, ?_, hclosed, ?_⟩
  · have hhandler : ((observed s).transport_handler P).errorHandler (P.parse payload).error
        = invoke (observed s).onError (P.parse payload).error >>= fun _ =>
          (observed s).onAllRead P ((P.parse payload).error, TransportHandler.setErrorMessage)
            >>= fun _ => pure true := by
      show (do
        Prog.when (check_error (P.parse payload).error) _
        if (P.parse payload).error.failed then
          (observed s).onAllRead P ((P.parse payload).error, TransportHandler.setErrorMessage)
          return true
        else return false) = _
      rw [hcheck, hfailed]
      rfl
    unfold TransportHandler.read_json
    simp only [hhandler]
    rw [Session.onAllRead_of_critical P _ hcheck]
    simp only [Prog.bind_assoc']
    refine (Prog.run_bind_ok hrun₁).trans ((Prog.run_bind_ok hrun₂).trans ?_)
    -- the flag, then the socket
    refine (run_call (o := Op.setCriticalError s.addr) rfl _).trans ?_
    exact Prog.run_bind_ok hrun₃
  · rw [herror, World.hasError, World.modify_sessions_self]

/-! ## A sequence of frames -/

/-- The frames of a list of payloads. -/
def framed (magicNumber : UInt32) (payloads : List (List UInt8)) : List UInt8 :=
  (payloads.map (frame magicNumber)).flatten

theorem framed_cons (magicNumber : UInt32) (payload : List UInt8) (payloads : List (List UInt8)) :
    framed magicNumber (payload :: payloads) = frame magicNumber payload ++ framed magicNumber payloads := rfl

/-- The payloads that are messages. -/
def messages (P : Platform) (payloads : List (List UInt8)) : List (List UInt8) :=
  payloads.filter (fun payload => !(P.parse payload).error.failed)

/-- The frames are read, one `read` each, with one report for each and no other call of a
callback, and the session is as open and as free of errors as before. -/
def Reads (P : Platform) (ids : Nat → UInt64) (env : Op → World → Choice) (s : Session)
    (payloads : List (List UInt8)) (w : World) : Prop :=
  ∃ w', Prog.run (sem ids) env (readTimes P (observed s) payloads.length) w = some (.ok (), w') ∧
    sessionEvents w' = sessionEvents w ++ payloads.flatMap (reported P s) ∧
    w'.isOpen s.addr = true ∧ w'.hasError s.addr = false

/-- **Bad payloads do not cost the connection**: all the frames are read so; and so are the
messages alone, each with the report that it has among the others. -/
def Survives (P : Platform) (ids : Nat → UInt64) (env : Op → World → Choice) (s : Session)
    (payloads : List (List UInt8)) (rest : List UInt8) (w : World) : Prop :=
  Reads P ids env s payloads
      (w.modify s.addr (fun x => { x with rx := framed s.magicNumber payloads ++ rest })) ∧
    Reads P ids env s (messages P payloads)
      (w.modify s.addr (fun x => { x with rx := framed s.magicNumber (messages P payloads) ++ rest }))

/-- The induction is on the list; a harmless frame leaves the session in front of the next. -/
theorem reads_of_harmless (henv : ReadsStream env cut) (hs : Careful ids env s)
    (payloads : List (List UInt8)) (rest : List UInt8)
    (hpayloads : ∀ payload ∈ payloads, Payload P payload ∧ Harmless P payload)
    (hopen : w.isOpen s.addr = true) (herror : w.hasError s.addr = false)
    (hrx : (w.sessions s.addr).rx = framed s.magicNumber payloads ++ rest) :
    Reads P ids env s payloads w := by
  induction payloads generalizing w with
  | nil => exact ⟨w, rfl, (List.append_nil _).symm, hopen, herror⟩
  | cons payload payloads ih =>
    obtain ⟨hpayload, hharmless⟩ := hpayloads payload (List.mem_cons_self ..)
    rw [framed_cons, List.append_assoc] at hrx
    obtain ⟨w₁, hrun₁, hopen₁, herror₁, hrx₁, hevents₁⟩ :=
      run_read_harmless henv hs hopen hpayload hharmless hrx
    obtain ⟨w₂, hrun₂, hevents₂, hopen₂, herror₂⟩ :=
      ih (fun p hp => hpayloads p (List.mem_cons_of_mem _ hp)) hopen₁ (herror₁.trans herror) hrx₁
    refine ⟨w₂, (Prog.run_bind_ok hrun₁).trans hrun₂, ?_, hopen₂, herror₂⟩
    rw [hevents₂, hevents₁, List.flatMap_cons, List.append_assoc]

/-- A closed session is not read. -/
theorem run_readTimes_of_closed (n : Nat) (hclosed : w.isOpen s.addr = false) :
    Prog.run (sem ids) env (readTimes P s n) w = some (.ok (), w) := by
  induction n with
  | zero => rfl
  | succ n ih =>
    have hop : sem ids (.isOpen s.addr) (env (.isOpen s.addr) w) w = some (false, w) := by
      rw [sem, hclosed]
    have hread : Prog.run (sem ids) env (s.read P) w = some (.ok (), w) := run_call hop _
    exact (Prog.run_bind_ok hread).trans ih

/-- The first critical error sets the flag, and it stays. -/
theorem harmless_of_reads (henv : ReadsStream env cut) (hclose : AnswersClose env)
    (hs : Careful ids env s) (payloads : List (List UInt8)) (rest : List UInt8)
    (hpayloads : ∀ payload ∈ payloads, Payload P payload) (hopen : w.isOpen s.addr = true)
    (hrx : (w.sessions s.addr).rx = framed s.magicNumber payloads ++ rest)
    (hreads : ∃ w', Prog.run (sem ids) env (readTimes P (observed s) payloads.length) w
      = some (.ok (), w') ∧ w'.hasError s.addr = false) :
    ∀ payload ∈ payloads, Harmless P payload := by
  induction payloads generalizing w with
  | nil => exact nofun
  | cons payload payloads ih =>
    have hpayload := hpayloads payload (List.mem_cons_self ..)
    rw [framed_cons, List.append_assoc] at hrx
    obtain ⟨w', hrun, herror⟩ := hreads
    have hharmless : Harmless P payload := by
      intro hfailed
      by_contra hcheck
      rw [Bool.not_eq_false] at hcheck
      obtain ⟨w₁, hrun₁, hclosed₁, herror₁⟩ :=
        run_read_critical henv hclose hs hopen hpayload.1 hcheck hrx
      have hrest : Prog.run (sem ids) env (readTimes P (observed s) payloads.length) w₁
          = some (.ok (), w₁) := run_readTimes_of_closed _ hclosed₁
      rw [List.length_cons, readTimes, Prog.run_bind_ok hrun₁, hrest, Option.some.injEq,
        Prod.mk.injEq] at hrun
      rw [← hrun.2, herror₁] at herror
      cases herror
    obtain ⟨w₁, hrun₁, hopen₁, -, hrx₁, -⟩ :=
      run_read_harmless henv hs hopen hpayload hharmless hrx
    rw [List.length_cons, readTimes, Prog.run_bind_ok hrun₁] at hrun
    intro p hp
    rcases List.mem_cons.mp hp with rfl | hp
    · exact hharmless
    · exact ih (fun p hp => hpayloads p (List.mem_cons_of_mem _ hp)) hopen₁ hrx₁
        ⟨w', hrun, herror⟩ p hp

section Survives

variable {payloads : List (List UInt8)} {rest : List UInt8}

/-- Other bytes in front of the session change neither its socket nor its flag. -/
theorem receives_stream (hopen : w.isOpen s.addr = true) (herror : w.hasError s.addr = false)
    (stream : List UInt8) :
    (w.modify s.addr (fun x => { x with rx := stream })).isOpen s.addr = true ∧
      (w.modify s.addr (fun x => { x with rx := stream })).hasError s.addr = false ∧
      ((w.modify s.addr (fun x => { x with rx := stream })).sessions s.addr).rx = stream := by
  obtain ⟨h₁, h₂, h₃⟩ := unmoved_modify w s.addr stream
  exact ⟨h₁.trans hopen, h₂.trans herror, h₃⟩

theorem survives_of_harmless (henv : ReadsStream env cut) (hs : Careful ids env s)
    (hpayloads : ∀ payload ∈ payloads, Payload P payload) (hopen : w.isOpen s.addr = true)
    (herror : w.hasError s.addr = false) (hharmless : ∀ payload ∈ payloads, Harmless P payload) :
    Survives P ids env s payloads rest w := by
  have hall : ∀ payload ∈ payloads, Payload P payload ∧ Harmless P payload :=
    fun payload hp => ⟨hpayloads payload hp, hharmless payload hp⟩
  obtain ⟨hopen₁, herror₁, hrx₁⟩ :=
    receives_stream hopen herror (framed s.magicNumber payloads ++ rest)
  obtain ⟨hopen₂, herror₂, hrx₂⟩ :=
    receives_stream hopen herror (framed s.magicNumber (messages P payloads) ++ rest)
  refine ⟨reads_of_harmless henv hs payloads rest hall hopen₁ herror₁ hrx₁, ?_⟩
  exact reads_of_harmless henv hs _ rest (fun payload hp => hall payload (List.mem_filter.mp hp).1)
    hopen₂ herror₂ hrx₂

theorem harmless_of_survives (henv : ReadsStream env cut) (hclose : AnswersClose env)
    (hs : Careful ids env s) (hpayloads : ∀ payload ∈ payloads, Payload P payload)
    (hopen : w.isOpen s.addr = true) (herror : w.hasError s.addr = false)
    (hsurvives : Survives P ids env s payloads rest w) : ∀ payload ∈ payloads, Harmless P payload := by
  obtain ⟨⟨w', hrun, -, -, herror'⟩, -⟩ := hsurvives
  obtain ⟨hopen₁, -, hrx₁⟩ := receives_stream hopen herror (framed s.magicNumber payloads ++ rest)
  exact harmless_of_reads henv hclose hs payloads rest hpayloads hopen₁ hrx₁ ⟨w', hrun, herror'⟩

end Survives

/-- **When bad payloads do not cost the connection**: exactly if every payload that does not
parse has an error that `check_error` does not call critical. -/
theorem bad_payloads_survived_iff (henv : ReadsStream env cut) (hclose : AnswersClose env)
    (hs : Careful ids env s) (payloads : List (List UInt8)) (rest : List UInt8)
    (hpayloads : ∀ payload ∈ payloads, Payload P payload) (hopen : w.isOpen s.addr = true)
    (herror : w.hasError s.addr = false) :
    Survives P ids env s payloads rest w ↔ ∀ payload ∈ payloads, Harmless P payload :=
  ⟨harmless_of_survives henv hclose hs hpayloads hopen herror,
    survives_of_harmless henv hs hpayloads hopen herror⟩

/-- With the library's parser, exactly if the error of every payload that does not parse is
`syntax`. -/
theorem survives_iff_syntax_error (henv : ReadsStream env cut) (hclose : AnswersClose env)
    (hs : Careful ids env s) {payloads : List (List UInt8)} {rest : List UInt8}
    (hpayloads : ∀ payload ∈ payloads, Payload P payload) (hopen : w.isOpen s.addr = true)
    (herror : w.hasError s.addr = false)
    (hjson : ∀ payload ∈ payloads, (P.parse payload).error.failed = true →
      (P.parse payload).error.category = .json) :
    Survives P ids env s payloads rest w ↔
      ∀ payload ∈ payloads, (P.parse payload).error.failed = true →
        (P.parse payload).error = ErrorCode.syntax_ := by
  constructor
  · intro hsurvives payload hp
    have hharmless := harmless_of_survives henv hclose hs hpayloads hopen herror hsurvives
    exact (harmless_iff_syntax_error (hjson payload hp)).mp (hharmless payload hp)
  · intro honly
    refine survives_of_harmless henv hs hpayloads hopen herror (fun payload hp => ?_)
    exact (harmless_iff_syntax_error (hjson payload hp)).mpr (honly payload hp)

/-- A session whose callbacks do nothing. -/
def quietSession : Session := { plainSession 0 with on_all_read := some (fun _ => pure ()) }

theorem careful_quietSession : Careful UInt64.ofNat streamEnv quietSession where
  onReadHandler := fun _ w => ⟨w, rfl, Unmoved.refl _ w, rfl⟩
  onError := fun _ w => ⟨w, rfl, Unmoved.refl _ w, rfl⟩
  on_disconnect := fun _ w => ⟨w, rfl, Unmoved.refl _ w, rfl⟩
  on_all_read := fun _ w => ⟨w, rfl, Unmoved.refl _ w, rfl⟩

/-- The payload of a request. -/
abbrev request : List UInt8 := headerText "signal" 0

/-- A payload with a syntax error, and a message behind it. -/
theorem syntax_error_survived : Survives jsonPlatform UInt64.ofNat streamEnv quietSession
    [ascii "x", request] [] (receiving []) := by
  have henv : ReadsStream streamEnv .eof := fun _ _ _ => rfl
  have hclose : AnswersClose streamEnv := fun _ _ => ⟨⟨_, rfl⟩, _, rfl⟩
  refine (bad_payloads_survived_iff henv hclose careful_quietSession _ [] (fun payload hp => ?_) rfl
    rfl).mpr (fun payload hp => ?_)
  · rcases List.mem_pair.mp hp with rfl | rfl
    · exact ⟨by decide, .inl (by rw [parse_x]; rfl)⟩
    · exact ⟨by decide, .inr ⟨"signal", 0, decodes_headerText (by decide) 0⟩⟩
  · rcases List.mem_pair.mp hp with rfl | rfl
    · intro _
      rw [parse_x]
      rfl
    · intro hfailed
      rw [(decodes_headerText (by decide) 0).1] at hfailed
      cases hfailed

/-- `boost::json::error::incomplete`. -/
def incomplete : ErrorCode := ⟨3, .json⟩

/-- A platform that finds the text of a message, and every other one cut off. -/
def cutOffPlatform : Platform :=
  { jsonPlatform with
    parse := fun bytes => if bytes = request then jsonPlatform.parse bytes else ⟨incomplete, .null⟩ }

/-- **A payload that is cut off costs the connection**, here `{` in front of a message. -/
theorem incomplete_payload_disconnects :
    ReadsStream streamEnv .eof ∧ AnswersClose streamEnv ∧
      Careful UInt64.ofNat streamEnv quietSession ∧
      (∀ payload ∈ [[0x7b], request], Payload cutOffPlatform payload) ∧
      ¬ Survives cutOffPlatform UInt64.ofNat streamEnv quietSession [[0x7b], request] []
        (receiving []) := by
  have henv : ReadsStream streamEnv .eof := fun _ _ _ => rfl
  have hclose : AnswersClose streamEnv := fun _ _ => ⟨⟨_, rfl⟩, _, rfl⟩
  have hpayloads : ∀ payload ∈ [[0x7b], request], Payload cutOffPlatform payload := by
    intro payload hp
    rcases List.mem_pair.mp hp with rfl | rfl
    · exact ⟨by decide, .inl rfl⟩
    · exact ⟨by decide, .inr ⟨"signal", 0, decodes_headerText (by decide) 0⟩⟩
  refine ⟨henv, hclose, careful_quietSession, hpayloads, ?_⟩
  intro hsurvives
  have hharmless := harmless_of_survives henv hclose careful_quietSession hpayloads rfl rfl
    hsurvives [0x7b] (List.mem_cons_self ..)
  cases hharmless rfl

end NetworkApplication.BadPayload
