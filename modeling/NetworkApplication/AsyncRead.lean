/-
`TransportHandler::read_async`, beside `read_sync`.

An asynchronous read is two operations that the io thread completes, with a handler for each.
The header's handler starts the payload's read, so what is called is the same six stages as
in `read_sync`, in the same order and with the same exits. The two copies differ in one
argument: `onReadHandler` gets the payload's size from one and that size plus one from the
other.

Everything here is about any callbacks that return. What is observed of them are their
calls, so a callback is wrapped in one that reports its arguments first (`observed`).
-/
import NetworkApplication.SyncRead

set_option autoImplicit false

namespace NetworkApplication

open NetworkApplication.Program

namespace TransportHandler

variable (P : Platform) (th : TransportHandler)

/-- The completion handler of the header's read; it returns the length of the payload whose
read it starts, if it starts one. -/
def headersRead (headers : Except ErrorCode (List UInt8)) : NetProg (Option Nat) := do
  if ← errorHandler th (readError headers) then
    return none
  let bytes := headers.toOption.getD []
  if magicOf bytes ≠ th.magicNumber then
    let _ ← errorHandler th .eof
    return none
  return some (lengthOf bytes)

/-- The completion handler of the payload's read. -/
def payloadRead (payload : Except ErrorCode (List UInt8)) : NetProg Unit := do
  if ← errorHandler th (readError payload) then
    return
  let bytes := payload.toOption.getD []
  let json := P.parse bytes
  if ← errorHandler th json.error then
    return
  invoke th.onReadHandler (0, bytes, bytes.length)
  match decode json.value with
  | .error e => Prog.throw e
  | .ok (type, transaction) => invoke th.onAllRead (json.error, ⟨type, transaction, bytes⟩)

/-- `read_async` and its completions: the io thread completes the header's read and, if that
starts one, the payload's. -/
def read_async : NetProg Unit := do
  let headers ← call (.read th.socket 8)
  match ← headersRead th headers with
  | none => return
  | some json_len =>
    let payload ← call (.read th.socket json_len)
    payloadRead P th payload

/-! ## One read with the size left open -/

/-- `read_json` with `size` for what `onReadHandler` is told. -/
def readJsonSized (size : List UInt8 → Nat) (payload : List UInt8) : NetProg Unit := do
  let json := P.parse payload
  if ← errorHandler th json.error then
    return
  invoke th.onReadHandler (0, payload, size payload)
  match decode json.value with
  | .error e => Prog.throw e
  | .ok (type, transaction) => invoke th.onAllRead (json.error, ⟨type, transaction, payload⟩)

/-- The read of a payload, with it. -/
def readPayloadSized (size : List UInt8 → Nat) (json_len : Nat) : NetProg Unit := do
  let payload ← call (.read th.socket json_len)
  if ← errorHandler th (readError payload) then
    return
  readJsonSized P th size (payload.toOption.getD [])

/-- A read, with it. -/
def readSized (size : List UInt8 → Nat) : NetProg Unit := do
  let headers ← call (.read th.socket 8)
  if ← errorHandler th (readError headers) then
    return
  let bytes := headers.toOption.getD []
  if magicOf bytes ≠ th.magicNumber then
    let _ ← errorHandler th .eof
    return
  readPayloadSized P th size (lengthOf bytes)

theorem read_sync_eq : th.read_sync P = th.readSized P (fun payload => payload.length + 1) := rfl

/-- The handlers one after the other are the stages of one read. -/
theorem read_async_eq : th.read_async P = th.readSized P List.length := by
  refine congrArg (Prog.op (E := Net) (Op.read th.socket 8)) (funext fun headers => ?_)
  show headersRead th headers >>= _ = errorHandler th (readError headers) >>= _
  unfold headersRead
  rw [Prog.bind_assoc']
  refine congrArg (errorHandler th (readError headers) >>= ·) (funext fun failed => ?_)
  cases failed with
  | true => rfl
  | false =>
    by_cases hmagic : magicOf (headers.toOption.getD []) = th.magicNumber
    · simp only [hmagic, ne_eq, not_true_eq_false, if_false, Bool.false_eq_true]
      rfl
    · simp only [hmagic, ne_eq, not_false_eq_true, if_true, if_false, Bool.false_eq_true]
      rw [Prog.bind_assoc']
      rfl

end TransportHandler

namespace AsyncRead

open TransportHandler SyncRead JsonText

variable {P : Platform} {ids : Nat → UInt64} {env : Op → World → Choice} {cut : ErrorCode}
  {th : TransportHandler} {w : World}

/-! ## The calls of the callbacks -/

/-- The callback, if it is set, with its call reported. -/
def observe {α : Type} (event : α → Event) (callback : Option (α → NetProg Unit)) :
    Option (α → NetProg Unit) :=
  callback.map (fun f a => call (.event (event a)) >>= fun _ => f a)

/-- The call of a callback, if it is set. -/
def callOf {α : Type} (event : α → Event) (callback : Option (α → NetProg Unit)) (a : α) :
    List Event :=
  if callback.isSome then [event a] else []

/-- A callback that returns and does to the shared state what `R` says does so behind the
report of its call. -/
theorem run_observe {α : Type} {event : α → Event} {callback : Option (α → NetProg Unit)}
    {R : World → World → Prop} (hrefl : ∀ w, R w w)
    (hcallback : ∀ a w, ∃ w', Prog.run (sem ids) env (invoke callback a) w = some (.ok (), w') ∧
      R w w') (a : α) (w : World) :
    ∃ w', Prog.run (sem ids) env (invoke (observe event callback) a) w = some (.ok (), w') ∧
      R { w with events := w.events ++ callOf event callback a } w' := by
  cases callback with
  | none =>
    refine ⟨w, rfl, ?_⟩
    have hnothing : { w with events := w.events ++ callOf event none a } = w := by
      show { w with events := w.events ++ [] } = w
      rw [List.append_nil]
    rw [hnothing]
    exact hrefl w
  | some f => exact hcallback a { w with events := w.events ++ [event a] }

/-- The calls of some callbacks, so far. -/
def callsOf (shown : Event → Bool) (w : World) : List Event := w.events.filter shown

theorem callsOf_append {shown : Event → Bool} {event : Event} (h : shown event = true)
    (w : World) : callsOf shown { w with events := w.events ++ [event] } = callsOf shown w ++ [event] := by
  unfold callsOf
  rw [List.filter_append, List.filter_cons, if_pos h, List.filter_nil]

theorem callsOf_callOf {α : Type} {shown : Event → Bool} {event : α → Event}
    (h : ∀ a, shown (event a) = true) (callback : Option (α → NetProg Unit)) (a : α) (w : World) :
    callsOf shown { w with events := w.events ++ callOf event callback a }
      = callsOf shown w ++ callOf event callback a := by
  unfold callOf
  split
  · exact callsOf_append (h a) w
  · rw [List.append_nil, List.append_nil]

/-- The calls a read makes of its handler's callbacks. -/
def readEvents (w : World) : List Event :=
  callsOf (fun
    | .onError _ | .onReadHandler _ _ _ | .onAllRead _ _ => true
    | _ => false) w

/-- A callback that returns, and reports no such call of its own. -/
def Silent (ids : Nat → UInt64) (env : Op → World → Choice) (p : NetProg Unit) : Prop :=
  ∀ w, ∃ w', Prog.run (sem ids) env p w = some (.ok (), w') ∧ readEvents w' = readEvents w

/-- The calls of two callbacks, with their arguments. -/
def readHandlerEvent : Nat × List UInt8 × Nat → Event := fun (id, data, size) =>
  .onReadHandler id data size

def allReadEvent : ErrorCode × TransportMessage → Event := fun (ec, message) =>
  .onAllRead ec message

/-- The handler with the calls of its callbacks reported. -/
def observed (th : TransportHandler) : TransportHandler :=
  { th with
    onError := observe Event.onError th.onError
    onReadHandler := observe readHandlerEvent th.onReadHandler
    onAllRead := observe allReadEvent th.onAllRead }

/-- The handler's callbacks return. -/
structure Returning (ids : Nat → UInt64) (env : Op → World → Choice) (th : TransportHandler) :
    Prop where
  onError : ∀ ec, Silent ids env (invoke th.onError ec)
  onReadHandler : ∀ x, Silent ids env (invoke th.onReadHandler x)
  onAllRead : ∀ x, Silent ids env (invoke th.onAllRead x)

theorem run_onError (hth : Returning ids env th) (ec : ErrorCode) (w : World) :
    ∃ w', Prog.run (sem ids) env (invoke (observed th).onError ec) w = some (.ok (), w') ∧
      readEvents w' = readEvents w ++ callOf Event.onError th.onError ec := by
  obtain ⟨w', hrun, hevents⟩ := run_observe (R := fun w w' => readEvents w' = readEvents w)
    (fun _ => rfl) hth.onError ec w
  exact ⟨w', hrun, hevents.trans (callsOf_callOf (fun _ => rfl) _ _ w)⟩

theorem run_onAllRead (hth : Returning ids env th) (x : ErrorCode × TransportMessage) (w : World) :
    ∃ w', Prog.run (sem ids) env (invoke (observed th).onAllRead x) w = some (.ok (), w') ∧
      readEvents w' = readEvents w ++ callOf allReadEvent th.onAllRead x := by
  obtain ⟨w', hrun, hevents⟩ := run_observe (R := fun w w' => readEvents w' = readEvents w)
    (fun _ => rfl) hth.onAllRead x w
  exact ⟨w', hrun, hevents.trans (callsOf_callOf (fun _ => rfl) _ _ w)⟩

theorem run_onReadHandler (hth : Returning ids env th) (x : Nat × List UInt8 × Nat) (w : World) :
    ∃ w', Prog.run (sem ids) env (invoke (observed th).onReadHandler x) w = some (.ok (), w') ∧
      readEvents w' = readEvents w ++ callOf readHandlerEvent th.onReadHandler x := by
  obtain ⟨w', hrun, hevents⟩ := run_observe (R := fun w w' => readEvents w' = readEvents w)
    (fun _ => rfl) hth.onReadHandler x w
  exact ⟨w', hrun, hevents.trans (callsOf_callOf (fun _ => rfl) _ _ w)⟩

/-! ## The stages -/

/-- What an error exit calls. -/
def errorCalls (th : TransportHandler) (ec : ErrorCode) : List Event :=
  (if check_error ec then callOf Event.onError th.onError ec else []) ++
    callOf allReadEvent th.onAllRead (ec, setErrorMessage)

/-- An error exit of a read. -/
theorem run_errorHandler (hth : Returning ids env th) {ec : ErrorCode} (hec : ec.failed = true)
    (w : World) :
    ∃ w', Prog.run (sem ids) env ((observed th).errorHandler ec) w = some (.ok true, w') ∧
      readEvents w' = readEvents w ++ errorCalls th ec := by
  obtain ⟨w₁, hrun₁, hevents₁⟩ : ∃ w₁, Prog.run (sem ids) env
      (Prog.when (check_error ec) (invoke (observed th).onError ec)) w = some (.ok (), w₁) ∧
      readEvents w₁ = readEvents w
        ++ if check_error ec then callOf Event.onError th.onError ec else [] := by
    cases check_error ec with
    | true => exact run_onError hth ec w
    | false => exact ⟨w, rfl, (List.append_nil _).symm⟩
  obtain ⟨w₂, hrun₂, hevents₂⟩ := run_onAllRead hth (ec, setErrorMessage) w₁
  refine ⟨w₂, ?_, by rw [hevents₂, hevents₁, errorCalls, List.append_assoc]⟩
  unfold errorHandler
  rw [Prog.run_bind_ok hrun₁, if_pos hec]
  exact Prog.run_bind_ok hrun₂

/-- Nothing runs behind it. -/
theorem run_exit (hth : Returning ids env th) {ec : ErrorCode} (hec : ec.failed = true) (w : World) :
    ∃ w', (∀ rest : NetProg Unit, Prog.run (sem ids) env
        ((observed th).errorHandler ec >>= fun b => if b = true then Prog.pure () else rest) w
          = some (.ok (), w')) ∧
      readEvents w' = readEvents w ++ errorCalls th ec := by
  obtain ⟨w', hrun, hevents⟩ := run_errorHandler hth hec w
  refine ⟨w', fun rest => ?_, hevents⟩
  rw [Prog.run_bind_ok hrun]
  rfl

/-- What a complete payload calls. -/
def payloadCalls (P : Platform) (th : TransportHandler) (size : List UInt8 → Nat)
    (payload : List UInt8) : List Event :=
  if (P.parse payload).error.failed then errorCalls th (P.parse payload).error
  else callOf readHandlerEvent th.onReadHandler (0, payload, size payload) ++
    match decode (P.parse payload).value with
    | .error _ => []
    | .ok (type, transaction) => callOf allReadEvent th.onAllRead
        ((P.parse payload).error, ⟨type, transaction, payload⟩)

theorem run_readJsonSized (size : List UInt8 → Nat) (hth : Returning ids env th) (payload : List UInt8) (w : World) :
    ∃ out w', Prog.run (sem ids) env ((observed th).readJsonSized P size payload) w
        = some (out, w') ∧
      readEvents w' = readEvents w ++ payloadCalls P th size payload := by
  unfold readJsonSized payloadCalls
  by_cases hfailed : (P.parse payload).error.failed = true
  · obtain ⟨w', hrun, hevents⟩ := run_exit hth hfailed w
    exact ⟨_, w', hrun _, by rw [hevents, if_pos hfailed]⟩
  · rw [Bool.not_eq_true] at hfailed
    obtain ⟨w₁, hrun₁, hevents₁⟩ := run_onReadHandler hth (0, payload, size payload) w
    simp only [errorHandler_of_not_failed hfailed, Prog.pure_bind', Bool.false_eq_true, if_false,
      hfailed]
    rw [Prog.run_bind_ok hrun₁]
    cases decode (P.parse payload).value with
    | error e => exact ⟨_, w₁, rfl, by rw [hevents₁, List.append_nil]⟩
    | ok message =>
      obtain ⟨w₂, hrun₂, hevents₂⟩ :=
        run_onAllRead hth ((P.parse payload).error, ⟨message.1, message.2, payload⟩) w₁
      exact ⟨_, w₂, hrun₂, by rw [hevents₂, hevents₁, List.append_assoc]⟩

/-- The payload is there, or cut off. -/
theorem run_readPayloadSized (size : List UInt8 → Nat) (henv : ReadsStream env cut) (hcut : cut.failed = true)
    (hth : Returning ids env th) (hopen : w.isOpen th.socket = true) (json_len : Nat) :
    ∃ out w', Prog.run (sem ids) env ((observed th).readPayloadSized P size json_len) w
        = some (out, w') ∧
      readEvents w' = readEvents w ++ if json_len ≤ (w.sessions th.socket).rx.length
        then payloadCalls P th size ((w.sessions th.socket).rx.take json_len)
        else errorCalls th cut := by
  unfold readPayloadSized
  by_cases hlen : json_len ≤ (w.sessions th.socket).rx.length
  · obtain ⟨out, w', hrun, hevents⟩ := run_readJsonSized (P := P) size hth
      ((w.sessions th.socket).rx.take json_len)
      (w.modify th.socket (fun s => { s with rx := s.rx.drop json_len }))
    refine ⟨out, w', ?_, by rw [hevents, if_pos hlen]; rfl⟩
    refine (run_read_of_le henv hopen hlen _).trans ?_
    simp only [readError, errorHandler_of_not_failed ErrorCode.failed_success, Prog.pure_bind',
      Bool.false_eq_true, if_false, Except.toOption, Option.getD_some]
    exact hrun
  · obtain ⟨w₁, hread, hevents₁⟩ := run_read_of_lt ids henv hcut hopen (Nat.lt_of_not_le hlen)
    obtain ⟨w', hrun, hevents⟩ := run_exit hth hcut w₁
    refine ⟨_, w', (hread _).trans (hrun _), ?_⟩
    rw [hevents, readEvents, callsOf, hevents₁, if_neg hlen]
    rfl

/-- What a read of the stream calls: the error exits of a stream that does not start with a
frame, and otherwise what its payload calls. -/
def streamCalls (P : Platform) (th : TransportHandler) (cut : ErrorCode) (size : List UInt8 → Nat)
    (stream : List UInt8) : List Event :=
  match takeFrame th.magicNumber stream with
  | some (payload, _) => payloadCalls P th size payload
  | none =>
    errorCalls th (if 8 ≤ stream.length ∧ magicOf stream ≠ th.magicNumber then .eof else cut)

/-- **The calls of a read** are a function of the stream, the magic number and the callbacks
that are set. -/
theorem run_readSized (size : List UInt8 → Nat) (henv : ReadsStream env cut) (hcut : cut.failed = true)
    (hth : Returning ids env th) (hopen : w.isOpen th.socket = true) :
    ∃ out w', Prog.run (sem ids) env ((observed th).readSized P size) w = some (out, w') ∧
      readEvents w' = readEvents w ++ streamCalls P th cut size (w.sessions th.socket).rx := by
  unfold readSized streamCalls takeFrame
  by_cases h8 : 8 ≤ (w.sessions th.socket).rx.length
  · set w₁ := w.modify th.socket (fun s => { s with rx := s.rx.drop 8 }) with hw₁
    have hheaders : ∀ k : Except ErrorCode (List UInt8) → NetProg Unit,
        Prog.run (sem ids) env (call (.read th.socket 8) >>= k) w = _ :=
      fun k => run_read_of_le henv hopen h8 k
    simp only [h8, true_and]
    -- the payload is asked for behind a header with the right magic number, and only then
    by_cases hmagic : magicOf (w.sessions th.socket).rx = th.magicNumber
    · have hopen₁ : w₁.isOpen th.socket = true := by
        rw [World.isOpen, hw₁, World.modify_sessions_self]
        exact hopen
      have hrx₁ : (w₁.sessions th.socket).rx = (w.sessions th.socket).rx.drop 8 := by
        rw [hw₁, World.modify_sessions_self]
      obtain ⟨out, w', hrun, hevents⟩ := run_readPayloadSized (P := P) size henv hcut hth hopen₁
        (lengthOf (w.sessions th.socket).rx)
      refine ⟨out, w', (hheaders _).trans ?_, ?_⟩
      · simp only [readError, errorHandler_of_not_failed ErrorCode.failed_success, Prog.pure_bind',
          Bool.false_eq_true, if_false, Except.toOption, Option.getD_some, magicOf_take,
          lengthOf_take]
        rw [if_neg (not_not.mpr (show _ = (observed th).magicNumber from hmagic))]
        exact hrun
      · rw [hevents, hrx₁]
        simp only [hmagic, true_and, ne_eq, not_true_eq_false, if_false]
        split
        · rfl
        · rfl
    · obtain ⟨w', hrun, hevents⟩ :=
        run_errorHandler hth (show ErrorCode.eof.failed = true from rfl) w₁
      refine ⟨.ok (), w', (hheaders _).trans ?_, ?_⟩
      · simp only [readError, errorHandler_of_not_failed ErrorCode.failed_success, Prog.pure_bind',
          Bool.false_eq_true, if_false, Except.toOption, Option.getD_some, magicOf_take]
        rw [if_pos (show _ ≠ (observed th).magicNumber from hmagic)]
        exact Prog.run_bind_ok hrun
      · rw [hevents]
        simp only [hmagic, false_and, if_false, ne_eq, not_false_eq_true, if_true]
        rfl
  · obtain ⟨w₁, hread, hevents₁⟩ := run_read_of_lt ids henv hcut hopen (Nat.lt_of_not_le h8)
    obtain ⟨w', hrun, hevents⟩ := run_exit hth hcut w₁
    refine ⟨_, w', (hread _).trans (hrun _), ?_⟩
    simp only [h8, false_and, if_false]
    rw [hevents, readEvents, callsOf, hevents₁]
    rfl

/-! ## The two reads -/

/-- The synchronous and the asynchronous read make the same calls, with the same arguments,
and what `onReadHandler` is told is the size of the payload it is given. -/
def ReadsAgree (P : Platform) (ids : Nat → UInt64) (env : Op → World → Choice)
    (th : TransportHandler) (w : World) : Prop :=
  ∃ outSync wSync outAsync wAsync calls,
    Prog.run (sem ids) env ((observed th).read_sync P) w = some (outSync, wSync) ∧
    Prog.run (sem ids) env ((observed th).read_async P) w = some (outAsync, wAsync) ∧
    readEvents wSync = readEvents w ++ calls ∧ readEvents wAsync = readEvents w ++ calls ∧
    ∀ id data size, .onReadHandler id data size ∈ calls → size = data.length

/-- Only `onReadHandler` is told a size. -/
theorem errorCalls_no_size (th : TransportHandler) (ec : ErrorCode) (id : Nat) (data : List UInt8)
    (size : Nat) : .onReadHandler id data size ∉ errorCalls th ec := by
  unfold errorCalls callOf
  rw [List.mem_append]
  repeat' split
  all_goals simp [allReadEvent]

/-- Where it is not called, the size does not matter. -/
theorem payloadCalls_of_not_told {payload : List UInt8} (size size' : List UInt8 → Nat)
    (h : th.onReadHandler = none ∨ (P.parse payload).error.failed = true) :
    payloadCalls P th size payload = payloadCalls P th size' payload ∧
      ∀ id data n, .onReadHandler id data n ∉ payloadCalls P th size payload := by
  unfold payloadCalls
  by_cases hfailed : (P.parse payload).error.failed = true
  · rw [if_pos hfailed, if_pos hfailed]
    exact ⟨rfl, errorCalls_no_size th _⟩
  · have hnone := h.resolve_right hfailed
    rw [if_neg hfailed, if_neg hfailed, hnone]
    refine ⟨rfl, fun id data n => ?_⟩
    unfold callOf
    repeat' split
    all_goals simp [allReadEvent] at *

/-- Where it is called, the synchronous read tells it one byte too many. -/
theorem not_readsAgree (henv : ReadsStream env cut) (hcut : cut.failed = true)
    (hth : Returning ids env th) (hopen : w.isOpen th.socket = true) {payload : List UInt8}
    (hset : th.onReadHandler ≠ none)
    (hframed : Framed th.magicNumber (w.sessions th.socket).rx payload)
    (hparses : (P.parse payload).error.failed = false) : ¬ ReadsAgree P ids env th w := by
  rintro ⟨outSync', wSync', outAsync', wAsync', calls, hsync', -, hcalls, -, hsizes⟩
  obtain ⟨outSync, wSync, hsync, hevents⟩ := run_readSized (P := P)
    (fun payload => payload.length + 1) henv hcut hth hopen
  rw [← read_sync_eq, hsync', Option.some.injEq, Prod.mk.injEq] at hsync
  obtain ⟨-, rfl⟩ := hsync
  obtain rfl := List.append_cancel_left (hevents.symm.trans hcalls)
  obtain ⟨rest, htake⟩ := (framed_iff ..).mp hframed
  have hcall : .onReadHandler 0 payload (payload.length + 1) ∈ streamCalls P th cut
      (fun payload => payload.length + 1) (w.sessions th.socket).rx := by
    simp only [streamCalls, htake, payloadCalls, hparses, Bool.false_eq_true, if_false, callOf,
      Option.isSome_iff_ne_none.mpr hset, if_true]
    exact List.mem_append_left _ (List.mem_singleton_self _)
  have hsize := hsizes 0 payload (payload.length + 1) hcall
  omega

/-- Where it is not called, the reads are the same. -/
theorem readsAgree (henv : ReadsStream env cut) (hcut : cut.failed = true)
    (hth : Returning ids env th) (hopen : w.isOpen th.socket = true)
    (h : th.onReadHandler = none ∨
      ∀ payload, Framed th.magicNumber (w.sessions th.socket).rx payload →
        (P.parse payload).error.failed = true) : ReadsAgree P ids env th w := by
  have hsame : streamCalls P th cut (fun payload => payload.length + 1) (w.sessions th.socket).rx
      = streamCalls P th cut List.length (w.sessions th.socket).rx ∧
      ∀ id data n, .onReadHandler id data n ∉ streamCalls P th cut
        (fun payload => payload.length + 1) (w.sessions th.socket).rx := by
    unfold streamCalls
    cases htake : takeFrame th.magicNumber (w.sessions th.socket).rx with
    | none => exact ⟨rfl, errorCalls_no_size th _⟩
    | some frame =>
      obtain ⟨payload, rest⟩ := frame
      exact payloadCalls_of_not_told _ _ (h.imp_right (fun hall =>
        hall payload ((framed_iff ..).mpr ⟨rest, htake⟩)))
  obtain ⟨outSync, wSync, hsync, heventsSync⟩ := run_readSized (P := P)
    (fun payload => payload.length + 1) henv hcut hth hopen
  obtain ⟨outAsync, wAsync, hasync, heventsAsync⟩ := run_readSized (P := P) List.length
    henv hcut hth hopen
  rw [← read_sync_eq] at hsync
  rw [← read_async_eq] at hasync
  refine ⟨outSync, wSync, outAsync, wAsync, _, hsync, hasync, heventsSync, ?_, ?_⟩
  · rw [heventsAsync, hsame.1]
  · exact fun id data n hmem => absurd hmem (hsame.2 id data n)

/-- **When the two reads are the same operation**: for every stream, magic number and set of
callbacks that return, exactly if no `onReadHandler` is set or the stream does not start with
a complete frame, with the right magic, whose payload parses. -/
theorem reads_agree_iff (henv : ReadsStream env cut) (hcut : cut.failed = true)
    (hth : Returning ids env th) (hopen : w.isOpen th.socket = true) :
    ReadsAgree P ids env th w ↔ th.onReadHandler = none ∨
      ∀ payload, Framed th.magicNumber (w.sessions th.socket).rx payload →
        (P.parse payload).error.failed = true := by
  constructor
  · intro hagree
    by_contra hnot
    rw [not_or] at hnot
    obtain ⟨hset, hparses⟩ := hnot
    refine hparses (fun payload hframed => ?_)
    by_contra hfailed
    rw [Bool.not_eq_true] at hfailed
    exact not_readsAgree henv hcut hth hopen hset hframed hfailed hagree
  · exact readsAgree henv hcut hth hopen

/-- A handler on socket `0` whose callbacks are all set and do nothing. -/
def listener : TransportHandler :=
  ⟨0, 7, some (fun _ => pure ()), none, some (fun _ => pure ()), none, some (fun _ => pure ())⟩

theorem returning_listener : Returning UInt64.ofNat streamEnv listener where
  onError := fun _ w => ⟨w, rfl, rfl⟩
  onReadHandler := fun _ w => ⟨w, rfl, rfl⟩
  onAllRead := fun _ w => ⟨w, rfl, rfl⟩

/-- A frame around what is not JSON is reported alike. -/
theorem reads_agree_on_syntax_error :
    ReadsAgree jsonPlatform UInt64.ofNat streamEnv listener (receiving (frame 7 (ascii "x"))) := by
  have henv : ReadsStream streamEnv .eof := fun _ _ _ => rfl
  refine (reads_agree_iff henv rfl returning_listener rfl).mpr (.inr fun payload hframed => ?_)
  have hshort : (ascii "x").length < 2 ^ 32 := by decide
  obtain rfl := framed_unique (takeFrame_self 7 hshort) hframed
  rw [parse_x]
  rfl

/-- **One byte too many**: of a request the synchronous read's handler is told that it is one
byte longer than it is. -/
theorem reads_differ_on_request :
    ReadsStream streamEnv .eof ∧ Returning UInt64.ofNat streamEnv listener ∧
      ¬ ReadsAgree jsonPlatform UInt64.ofNat streamEnv listener
        (receiving (frame 7 (headerText "signal" 0))) := by
  have henv : ReadsStream streamEnv .eof := fun _ _ _ => rfl
  have hframed : Framed 7 (frame 7 (headerText "signal" 0)) (headerText "signal" 0) :=
    framed_frame 7 (by decide)
  have hparses : (jsonPlatform.parse (headerText "signal" 0)).error.failed = false :=
    (decodes_headerText (by decide) 0).1
  exact ⟨henv, returning_listener,
    not_readsAgree henv rfl returning_listener rfl nofun hframed hparses⟩

end AsyncRead

end NetworkApplication
