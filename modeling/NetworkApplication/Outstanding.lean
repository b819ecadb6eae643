/-
`SegmentServer::sessionWork` and the reads it has outstanding.

The loop calls `Session::read` again as soon as that has returned. In the `Sync` mode the read
is over by then. In the `Async` mode it has been started: the io thread completes its header,
starts the read of its payload and completes that, and all the while the loop starts more
reads of the same socket. Nothing in the loop waits for a completion.

The loop, the reads and the stream are a state machine here. A read remembers what it has
taken, so that it can be said whose bytes are whose: in a run in which no read begins beside
another, the bytes of the reads lie one behind the other on the stream and each message that
is delivered is that of the next frame. The run at the end has a second read outstanding,
which takes the payload of the first for its own header.

What a read of the machine does when a stage completes or fails is what the completion handlers
of `read_async` do as programs (`follows_of_completes`, `follows_of_fails`).

One session has one call of `sessionWork`, unless its id is handed out again: then there is
another call for the session that is in the map.
-/
import NetworkApplication.AsyncRead
import NetworkApplication.Accepts

set_option autoImplicit false

namespace NetworkApplication

open NetworkApplication.Program

namespace TransportHandler

variable (P : Platform) (th : TransportHandler)

/-- What becomes of a payload: what `onAllRead` is called with, or the exception. -/
def payloadResult (payload : List UInt8) : Except Exception (ErrorCode × TransportMessage) :=
  let json := P.parse payload
  if json.error.failed then .ok (json.error, setErrorMessage)
  else
    match decode json.value with
    | .error e => .error e
    | .ok (type, transaction) => .ok (json.error, ⟨type, transaction, payload⟩)

/-- The handler of an error tells the user and then `onAllRead`. -/
theorem errorHandler_of_failed {error : ErrorCode} (h : error.failed = true) :
    errorHandler th error
      = Prog.when (check_error error) (invoke th.onError error) >>= fun _ =>
        invoke th.onAllRead (error, setErrorMessage) >>= fun _ => pure true := by
  unfold errorHandler
  rw [if_pos h]

/-- A header that is there: the payload's read is next if it has the right magic. -/
theorem headersRead_ok (bytes : List UInt8) :
    headersRead th (.ok bytes)
      = if magicOf bytes ≠ th.magicNumber then errorHandler th .eof >>= fun _ => pure none
        else pure (some (lengthOf bytes)) := by
  show (if magicOf bytes ≠ th.magicNumber then _ else _) = _
  rfl

/-- A payload that is there: `onAllRead` is called with what became of it. -/
theorem payloadRead_ok (payload : List UInt8) :
    payloadRead P th (.ok payload)
      = if (P.parse payload).error.failed then
          errorHandler th (P.parse payload).error >>= fun _ => pure ()
        else
          invoke th.onReadHandler (0, payload, payload.length) >>= fun _ =>
            match payloadResult P payload with
            | .error e => Prog.throw e
            | .ok result => invoke th.onAllRead result := by
  show (errorHandler th (P.parse payload).error >>= fun failed => if failed = true then _ else _) = _
  -- a payload that does not parse is reported, and nothing is decoded
  cases hfailed : (P.parse payload).error.failed with
  | true =>
    rw [errorHandler_of_failed th hfailed, if_pos rfl]
    simp only [Prog.bind_assoc']
    rfl
  | false =>
    have hnothing : errorHandler th (P.parse payload).error = pure false := by
      unfold errorHandler
      rw [check_error_of_not_failed hfailed, hfailed]
      rfl
    have hresult : payloadResult P payload = match decode (P.parse payload).value with
        | .error e => .error e
        | .ok (type, transaction) => .ok ((P.parse payload).error, ⟨type, transaction, payload⟩) :=
      if_neg (by rw [hfailed]; exact Bool.false_ne_true)
    rw [hnothing, if_neg Bool.false_ne_true, hresult]
    refine congrArg (invoke th.onReadHandler (0, payload, payload.length) >>= ·)
      (funext fun _ => ?_)
    show (match decode (P.parse payload).value with
      | .error e => _
      | .ok (type, transaction) => _) = _
    cases decode (P.parse payload).value with
    | error e => rfl
    | ok decoded => rfl

/-- A header's read that has failed, and a payload's: the error is reported. -/
theorem headersRead_error {ec : ErrorCode} (h : ec.failed = true) :
    headersRead th (.error ec) = errorHandler th ec >>= fun _ => pure none := by
  show (errorHandler th ec >>= fun failed => if failed = true then _ else _) = _
  rw [errorHandler_of_failed th h]
  simp only [Prog.bind_assoc']
  rfl

theorem payloadRead_error {ec : ErrorCode} (h : ec.failed = true) :
    payloadRead P th (.error ec) = errorHandler th ec >>= fun _ => pure () := by
  show (errorHandler th ec >>= fun failed => if failed = true then _ else _) = _
  rw [errorHandler_of_failed th h]
  simp only [Prog.bind_assoc']
  rfl

end TransportHandler

namespace Outstanding

open TransportHandler Accepts

/-! ## The state -/

/-- Where a read is: at its header, at its payload, behind a critical error and in front of the
`disconnect()` of its callback, or over. -/
inductive Stage where
  | headers
  | payload (json_len : Nat)
  | disconnect
  | ended
  deriving DecidableEq

/-- A read. `taken` and `result` are history variables: the bytes it has taken off the stream,
and what it has called `onAllRead` with. -/
structure Read where
  stage : Stage
  taken : List UInt8
  result : Option (ErrorCode × TransportMessage)

/-- A read that has been started. -/
def Read.new : Read := ⟨.headers, [], none⟩

/-- How many bytes have been taken at the end of a stage. -/
def Read.need (r : Read) : Nat :=
  match r.stage with
  | .headers => 8
  | .payload json_len => 8 + json_len
  | .disconnect | .ended => 0

/-- Where a call of `sessionWork` is: at one of the three tests, in front of the read, in a
read that is called and has not returned, or behind the loop. -/
inductive Position where
  | isWork
  | hasError
  | isOpen
  | read
  | reading (k : Nat)
  | left
  deriving DecidableEq

/-- A session, the calls of `sessionWork` for it, and its reads in the order in which they
were started. `arrived` and `delivered` are history variables: all that has come in on the
stream, and the calls of `onAllRead`. -/
structure State where
  mode : IOMode
  magicNumber : UInt32
  calls : List Position
  isWork : Bool
  hasError : Bool
  isOpen : Bool
  terminated : Bool
  rx : List UInt8
  reads : List Read
  arrived : List UInt8
  delivered : List (ErrorCode × TransportMessage)

/-- A registered session, and `n` calls of `sessionWork` for it. -/
def start (mode : IOMode) (magicNumber : UInt32) (n : Nat) : State where
  mode := mode
  magicNumber := magicNumber
  calls := List.replicate n .isWork
  isWork := true
  hasError := false
  isOpen := true
  terminated := false
  rx := []
  reads := []
  arrived := []
  delivered := []

/-! ## The loop -/

variable (P : Platform)

/-- The next step of call `j` of `sessionWork`. The last test is that of `Session::read`; a
read blocks the call in the `Sync` mode only. -/
def State.sessionWork (s : State) (j : Nat) : Position → Option State
  | .isWork => some { s with calls := s.calls.set j (if s.isWork then .hasError else .left) }
  | .hasError => some { s with calls := s.calls.set j (if s.hasError then .left else .isOpen) }
  | .isOpen => some { s with calls := s.calls.set j (if s.isOpen then .read else .isWork) }
  | .read =>
    some { s with
      reads := s.reads ++ [Read.new]
      calls := s.calls.set j (match s.mode with
        | .Sync => .reading s.reads.length
        | .Async => .isWork) }
  | .reading _ => none
  | .left => none

/-! ## The handlers -/

/-- The call that waits for read `k`, if there is one, goes on at `p`. -/
def resume (k : Nat) (p : Position) (calls : List Position) : List Position :=
  calls.map (fun q => if q = .reading k then p else q)

/-- Read `k` goes on as `r`. -/
def State.goesOn (s : State) (k : Nat) (r : Read) : State :=
  { s with reads := s.reads.set k r }

/-- Read `k` is over; a call that waits for it goes on with its loop. -/
def State.returned (s : State) (k : Nat) (r : Read) : State :=
  { s with
    reads := s.reads.set k { r with stage := .ended }
    calls := resume k .isWork s.calls }

/-- Read `k` ends with an exception. It ends the loop in the `Sync` mode; nobody catches it on
the io thread. -/
def State.thrown (s : State) (k : Nat) (r : Read) : State :=
  match s.mode with
  | .Sync =>
    { s with
      reads := s.reads.set k { r with stage := .ended }
      calls := resume k .left s.calls }
  | .Async =>
    { s with
      reads := s.reads.set k { r with stage := .ended }
      terminated := true }

/-- The `onAllRead` that `Session::read` sets, up to the `disconnect()` of its error branch.
`raises` says how the session's own callback ends that it calls. -/
def State.onAllRead (s : State) (k : Nat) (r : Read) (result : ErrorCode × TransportMessage)
    (raises : Bool) : State :=
  let s' := { s with delivered := s.delivered ++ [result] }
  let r' := { r with result := some result }
  if check_error result.1 then { s' with hasError := true }.goesOn k { r' with stage := .disconnect }
  else if raises then s'.thrown k r'
  else s'.returned k r'

/-- The completion of a header's read. -/
def State.headersRead (s : State) (k : Nat) (r : Read) (raises : Bool) : State :=
  if magicOf r.taken ≠ s.magicNumber then s.onAllRead k r (.eof, setErrorMessage) raises
  else s.goesOn k { r with stage := .payload (lengthOf r.taken) }

/-- The completion of a payload's read. -/
def State.payloadRead (s : State) (k : Nat) (r : Read) (raises : Bool) : State :=
  match payloadResult P (r.taken.drop 8) with
  | .error _ => s.thrown k r
  | .ok result => s.onAllRead k r result raises

/-! ## The steps -/

/-- What can happen next: a call of `sessionWork` makes its next step; bytes arrive, and a read
takes some of them; a stage of a read completes or fails; a callback disconnects behind a
critical error. Besides, `start` and `stop` set `isWork`, the write of a reply may set the
error flag, and anyone may disconnect the session. -/
inductive Action where
  | sessionWork (j : Nat)
  | arrives (bytes : List UInt8)
  | takes (k n : Nat)
  | completes (k : Nat) (raises : Bool)
  | fails (k : Nat) (ec : ErrorCode) (raises : Bool)
  | disconnects (k : Nat)
  | setIsWork (b : Bool)
  | writeFails
  | closes

/-- A step of read `k`. -/
def State.readStep (s : State) (k : Nat) (r : Read) : Action → Option State
  | .takes _ n =>
    if s.isOpen = true ∧ 0 < n ∧ n ≤ s.rx.length ∧ r.taken.length + n ≤ r.need then
      some ({ s with rx := s.rx.drop n }.goesOn k { r with taken := r.taken ++ s.rx.take n })
    else none
  | .completes _ raises =>
    if r.taken.length = r.need then
      match r.stage with
      | .headers => some (s.headersRead k r raises)
      | .payload _ => some (s.payloadRead P k r raises)
      | .disconnect | .ended => none
    else none
  | .fails _ ec raises =>
    if ec.failed = true ∧ r.taken.length < r.need ∧ (s.isOpen = true ∨ ec.ofClosed = true) then
      some (s.onAllRead k r (ec, setErrorMessage) raises)
    else none
  | .disconnects _ =>
    if r.stage = .disconnect then some ({ s with isOpen := false }.returned k r) else none
  | _ => none

/-- One step. There is none behind an exception on the io thread: it ends the program. -/
def step (s : State) (a : Action) : Option State :=
  if s.terminated then none
  else
    match a with
    | .sessionWork j => s.calls[j]?.bind (s.sessionWork j)
    | .arrives bytes => some { s with rx := s.rx ++ bytes, arrived := s.arrived ++ bytes }
    | .setIsWork b => some { s with isWork := b }
    | .writeFails => some { s with hasError := true }
    | .closes => some { s with isOpen := false }
    | .takes k _ | .completes k _ | .fails k _ _ | .disconnects k =>
      s.reads[k]?.bind (fun r => s.readStep P k r a)

/-- The condition on a step: no read begins while another is outstanding, which the `Sync` mode
sees to itself where the session has one call of `sessionWork`; and no read that has taken
something fails with an error that `check_error` does not count. -/
def Allowed (s : State) : Action → Prop
  | .sessionWork j => s.calls[j]? = some .read → (s.mode = .Sync → s.calls.length ≠ 1) →
      ∀ r ∈ s.reads, r.stage = .ended
  | .fails k ec _ => check_error ec = false → ∀ r, s.reads[k]? = some r → r.taken = []
  | _ => True

/-- The states that runs from `s` with such steps reach. -/
inductive Reaches (Allowed : State → Action → Prop) (s : State) : State → Prop where
  | refl : Reaches Allowed s s
  | step {s₁ s₂ : State} {a : Action} : Reaches Allowed s s₁ → Allowed s₁ a →
      step P s₁ a = some s₂ → Reaches Allowed s s₂

/-! ## The steps and the programs -/

/-- How the handler of a stage ends: it starts the payload's read, calls `onAllRead`, or throws. -/
inductive Ending where
  | payload (json_len : Nat)
  | onAllRead (result : ErrorCode × TransportMessage)
  | exception (e : Exception)

/-- A program that ends so. -/
def Ending.program (th : TransportHandler) : Ending → NetProg (Option Nat)
  | .payload json_len => pure (some json_len)
  | .onAllRead result => invoke th.onAllRead result >>= fun _ => pure none
  | .exception e => Prog.throw e

/-- Read `k`, when its handler ends so. -/
def State.ends (s : State) (k : Nat) (r : Read) (raises : Bool) : Ending → State
  | .payload json_len => s.goesOn k { r with stage := .payload json_len }
  | .onAllRead result => s.onAllRead k r result raises
  | .exception _ => s.thrown k r

/-- What the user may be told before. -/
inductive Tells (th : TransportHandler) : NetProg Unit → Prop
  | nothing : Tells th (pure ())
  | onError (ec : ErrorCode) : Tells th (invoke th.onError ec)
  | onReadHandler (data : Nat × List UInt8 × Nat) : Tells th (invoke th.onReadHandler data)

/-- The program tells the user something and ends as the read does on its way from `s` to `s'`. -/
def Follows (th : TransportHandler) (k : Nat) (r : Read) (raises : Bool) (s s' : State)
    (p : NetProg (Option Nat)) : Prop :=
  ∃ tells ending, Tells th tells ∧ p = (tells >>= fun _ => Ending.program th ending) ∧
    s' = s.ends k r raises ending

/-- The completion handler of a stage, with all the bytes that the read has taken or with the
error. -/
def handler (th : TransportHandler) : Stage → Except ErrorCode (List UInt8) → NetProg (Option Nat)
  | .headers, headers => headersRead th headers
  | .payload _, payload => payloadRead P th (payload.map (List.drop 8)) >>= fun _ => pure none
  | .disconnect, _ | .ended, _ => pure none

section Programs

variable {P} {th : TransportHandler} {s s' : State} {k : Nat} {r : Read} {raises : Bool}

theorem tells_when (b : Bool) (ec : ErrorCode) : Tells th (Prog.when b (invoke th.onError ec)) := by
  cases b with
  | false => exact .nothing
  | true => exact .onError ec

/-- An error is reported. -/
theorem follows_errorHandler {ec : ErrorCode} (hfailed : ec.failed = true) :
    Follows th k r raises s (s.onAllRead k r (ec, setErrorMessage) raises)
      (errorHandler th ec >>= fun _ => pure none) := by
  refine ⟨_, .onAllRead (ec, setErrorMessage), tells_when (check_error ec) ec, ?_, rfl⟩
  rw [errorHandler_of_failed th hfailed]
  simp only [Prog.bind_assoc']
  rfl

theorem follows_headersRead (hmagic : th.magicNumber = s.magicNumber) :
    Follows th k r raises s (s.headersRead k r raises) (headersRead th (.ok r.taken)) := by
  unfold State.headersRead
  rw [headersRead_ok, hmagic]
  by_cases hwrong : magicOf r.taken ≠ s.magicNumber
  · rw [if_pos hwrong, if_pos hwrong]
    exact follows_errorHandler rfl
  · rw [if_neg hwrong, if_neg hwrong]
    exact ⟨pure (), .payload (lengthOf r.taken), .nothing, rfl, rfl⟩

theorem follows_payloadRead :
    Follows th k r raises s (s.payloadRead P k r raises)
      (payloadRead P th (.ok (r.taken.drop 8)) >>= fun _ => pure none) := by
  unfold State.payloadRead
  rw [payloadRead_ok]
  by_cases hfailed : (P.parse (r.taken.drop 8)).error.failed = true
  · -- the payload does not parse
    rw [if_pos hfailed, Prog.bind_assoc',
      show payloadResult P (r.taken.drop 8) = _ from if_pos hfailed]
    exact follows_errorHandler hfailed
  · rw [if_neg hfailed, Prog.bind_assoc']
    cases payloadResult P (r.taken.drop 8) with
    | error e => exact ⟨_, .exception e, .onReadHandler _, rfl, rfl⟩
    | ok result => exact ⟨_, .onAllRead result, .onReadHandler _, rfl, rfl⟩

/-- **A read whose stage completes does what the handler does** with the bytes it has taken. -/
theorem follows_of_completes (hmagic : th.magicNumber = s.magicNumber)
    (h : s.readStep P k r (.completes k raises) = some s') :
    Follows th k r raises s s' (handler P th r.stage (.ok r.taken)) := by
  simp only [State.readStep, Option.ite_none_right_eq_some] at h
  obtain ⟨-, h⟩ := h
  cases hstage : r.stage with
  | headers =>
    rw [hstage] at h
    obtain rfl := Option.some.inj h
    exact follows_headersRead hmagic
  | payload json_len =>
    rw [hstage] at h
    obtain rfl := Option.some.inj h
    exact follows_payloadRead
  | disconnect | ended =>
    rw [hstage] at h
    cases h

/-- **And one whose stage fails**, what it does with the error. -/
theorem follows_of_fails {ec : ErrorCode} (h : s.readStep P k r (.fails k ec raises) = some s') :
    Follows th k r raises s s' (handler P th r.stage (.error ec)) := by
  simp only [State.readStep, Option.ite_none_right_eq_some] at h
  obtain ⟨⟨hfailed, hneed, -⟩, h⟩ := h
  obtain rfl := Option.some.inj h
  unfold Read.need at hneed
  cases hstage : r.stage with
  | headers =>
    show Follows _ _ _ _ _ _ (headersRead th (.error ec))
    rw [headersRead_error th hfailed]
    exact follows_errorHandler hfailed
  | payload json_len =>
    show Follows _ _ _ _ _ _ (payloadRead P th (.error ec) >>= fun _ => pure none)
    rw [payloadRead_error P th hfailed, Prog.bind_assoc']
    exact follows_errorHandler hfailed
  | disconnect | ended =>
    simp only [hstage] at hneed
    omega

end Programs

/-! ## What a read is -/

/-- The message that a call of `onAllRead` delivers, if it reports no error. -/
def delivery (result : ErrorCode × TransportMessage) : Option TransportMessage :=
  if result.1.failed then none else some result.2

/-- The message of a frame. -/
def messageOf (payload : List UInt8) : Option TransportMessage :=
  (payloadResult P payload).toOption.bind delivery

/-- The messages that have been delivered. -/
def State.received (s : State) : List TransportMessage := s.delivered.filterMap delivery

/-- The reads that have not ended. -/
def State.outstanding (s : State) : List Read := s.reads.filter (fun r => r.stage ≠ .ended)

variable {P} {s s₁ s' : State} {a : Action} {k : Nat} {r r' : Read} {magicNumber : UInt32}

/-- The read has taken one frame and has done with it what its payload asks for. -/
def Read.IsFrame (P : Platform) (magicNumber : UInt32) (r : Read) : Prop :=
  ∃ payload, payload.length < 2 ^ 32 ∧ r.taken = frame magicNumber payload ∧
    r.result = (payloadResult P payload).toOption

/-- The read has left the stream at the head of a frame. -/
def Read.Settled (P : Platform) (magicNumber : UInt32) (r : Read) : Prop :=
  r.taken = [] ∧ r.result.bind delivery = none ∨ r.IsFrame P magicNumber

/-- The read has ended with a critical error. -/
def Read.Critical (r : Read) : Prop :=
  ∃ result, r.result = some result ∧ check_error result.1 = true

/-- What a read has taken and called at each of its stages. -/
def Read.Proper (P : Platform) (magicNumber : UInt32) (r : Read) : Prop :=
  match r.stage with
  | .headers => r.taken.length ≤ 8 ∧ r.result = none
  | .payload json_len => 8 ≤ r.taken.length ∧ r.taken.length ≤ 8 + json_len ∧
      magicOf r.taken = magicNumber ∧ lengthOf r.taken = json_len ∧ r.result = none
  | .disconnect => r.Critical
  | .ended => r.Settled P magicNumber ∨ r.Critical

theorem delivery_of_check_error {result : ErrorCode × TransportMessage}
    (h : check_error result.1 = true) : delivery result = none := by
  unfold delivery
  rw [if_pos (failed_of_check_error h)]

theorem Read.Critical.delivers (h : r.Critical) : r.result.bind delivery = none := by
  obtain ⟨result, hresult, hcritical⟩ := h
  rw [hresult]
  exact delivery_of_check_error hcritical

/-- A message is delivered by a read that has taken a frame. -/
theorem Read.Proper.delivers (h : r.Proper P magicNumber) :
    r.result.bind delivery = none ∨ r.IsFrame P magicNumber := by
  unfold Read.Proper at h
  split at h
  · rw [h.2]
    exact .inl rfl
  · rw [h.2.2.2.2]
    exact .inl rfl
  · exact .inl h.delivers
  · rcases h with (⟨-, hnone⟩ | hframe) | hcritical
    · exact .inl hnone
    · exact .inr hframe
    · exact .inl hcritical.delivers

theorem Read.IsFrame.taken_ne_nil (h : r.IsFrame P magicNumber) : r.taken ≠ [] := by
  obtain ⟨payload, -, htaken, -⟩ := h
  intro hnil
  have hlength := length_frame magicNumber payload
  rw [← htaken, hnil, List.length_nil] at hlength
  omega

/-- All of a header and its payload is a frame. -/
theorem eq_frame {taken : List UInt8} (hmagic : magicOf taken = magicNumber)
    (hlength : taken.length = 8 + lengthOf taken) :
    (taken.drop 8).length < 2 ^ 32 ∧ taken = frame magicNumber (taken.drop 8) := by
  have hdrop : (taken.drop 8).length = lengthOf taken := by
    rw [List.length_drop]
    omega
  have hlen : UInt32.ofNat (taken.drop 8).length = uint32_of_bytes ((taken.drop 4).take 4) := by
    rw [hdrop, lengthOf, UInt32.ofNat_toNat]
  refine ⟨?_, ?_⟩
  · rw [hdrop]
    exact UInt32.toNat_lt _
  · rw [frame, hlen, List.append_assoc, ← hmagic]
    exact eq_header_append taken (by omega)

/-! ## What a step does to the reads -/

/-- A step of read `k`, which goes on as `r'`: what it takes comes from the head of the stream,
and what it calls `onAllRead` with is remembered. -/
structure Moves (P : Platform) (s s' : State) (k : Nat) (r r' : Read) : Prop where
  read : s.reads[k]? = some r
  outstanding : r.stage ≠ .ended
  reads : s'.reads = s.reads.set k r'
  mode : s'.mode = s.mode
  magicNumber : s'.magicNumber = s.magicNumber
  arrived : s'.arrived = s.arrived
  stream : r'.taken ++ s'.rx = r.taken ++ s.rx
  takes : r'.taken ≠ [] → r.taken ≠ [] ∨ s.isOpen = true
  isOpen : s'.isOpen = true → s.isOpen = true
  delivered : s'.delivered = s.delivered ∧ r'.result = r.result ∨
    r.result = none ∧ s'.delivered = s.delivered ++ r'.result.toList
  proper : r'.Proper P s.magicNumber
  critical : r'.stage = .ended → r'.Critical → s'.isOpen = false
  calls : s'.calls = s.calls ∨ r'.stage = .ended ∧ ∃ p, s'.calls = resume k p s.calls

/-- A step that is none of a read's: bytes arrive, or a call of `sessionWork` that is not in a
read makes a test. -/
structure Quiet (s s' : State) : Prop where
  reads : s'.reads = s.reads
  mode : s'.mode = s.mode
  magicNumber : s'.magicNumber = s.magicNumber
  arrived : ∃ bytes, s'.arrived = s.arrived ++ bytes ∧ s'.rx = s.rx ++ bytes
  isOpen : s'.isOpen = true → s.isOpen = true
  delivered : s'.delivered = s.delivered
  calls : s'.calls = s.calls ∨ ∃ j p q, s.calls[j]? = some p ∧ (∀ k, p ≠ .reading k) ∧
    s'.calls = s.calls.set j q

/-- Call `j` of `sessionWork` begins a read. -/
structure Begins (s s' : State) (j : Nat) : Prop where
  call : s.calls[j]? = some .read
  reads : s'.reads = s.reads ++ [Read.new]
  mode : s'.mode = s.mode
  magicNumber : s'.magicNumber = s.magicNumber
  arrived : s'.arrived = s.arrived
  rx : s'.rx = s.rx
  isOpen : s'.isOpen = s.isOpen
  delivered : s'.delivered = s.delivered
  calls : s.mode = .Sync → s'.calls = s.calls.set j (.reading s.reads.length)

section Ending

variable {result : Option (ErrorCode × TransportMessage)}

/-- A read that returns, or ends with an exception: it has called nothing before, and now what
`result` says. -/
theorem moves_returned (hk : s.reads[k]? = some r) (hr : r.stage ≠ .ended) (hnone : r.result = none)
    (hsettled : ({ r with stage := .ended, result := result } : Read).Settled P s.magicNumber)
    (hcritical : ¬ ({ r with stage := .ended, result := result } : Read).Critical) :
    Moves P s ({ s with delivered := s.delivered ++ result.toList }.returned k
      { r with result := result }) k r { r with stage := .ended, result := result } where
  read := hk
  outstanding := hr
  reads := rfl
  mode := rfl
  magicNumber := rfl
  arrived := rfl
  stream := rfl
  takes := .inl
  isOpen := id
  delivered := .inr ⟨hnone, rfl⟩
  proper := .inl hsettled
  critical := fun _ h => absurd h hcritical
  calls := .inr ⟨rfl, _, rfl⟩

theorem moves_thrown (hk : s.reads[k]? = some r) (hr : r.stage ≠ .ended) (hnone : r.result = none)
    (hsettled : ({ r with stage := .ended, result := result } : Read).Settled P s.magicNumber)
    (hcritical : ¬ ({ r with stage := .ended, result := result } : Read).Critical) :
    Moves P s ({ s with delivered := s.delivered ++ result.toList }.thrown k
      { r with result := result }) k r { r with stage := .ended, result := result } := by
  unfold State.thrown
  cases hmode : s.mode with
  | Sync =>
    exact ⟨hk, hr, rfl, hmode.symm, rfl, rfl, rfl, .inl, id, .inr ⟨hnone, rfl⟩, .inl hsettled,
      fun _ h => absurd h hcritical, .inr ⟨rfl, _, rfl⟩⟩
  | Async =>
    exact ⟨hk, hr, rfl, hmode.symm, rfl, rfl, rfl, .inl, id, .inr ⟨hnone, rfl⟩, .inl hsettled,
      fun _ h => absurd h hcritical, .inl rfl⟩

end Ending

/-- The callback of `Session::read`, of a read that has called nothing before. -/
theorem moves_onAllRead {result : ErrorCode × TransportMessage} {raises : Bool}
    (hk : s.reads[k]? = some r) (hr : r.stage ≠ .ended) (hnone : r.result = none)
    (hsettled : check_error result.1 = false →
      ({ r with stage := .ended, result := some result } : Read).Settled P s.magicNumber) :
    ∃ r', Moves P s (s.onAllRead k r result raises) k r r' := by
  unfold State.onAllRead
  cases hcheck : check_error result.1 with
  | true =>
    exact ⟨{ r with stage := .disconnect, result := some result }, hk, hr, rfl, rfl, rfl, rfl, rfl,
      .inl, id, .inr ⟨hnone, rfl⟩, ⟨result, rfl, hcheck⟩, (fun h => by cases h), .inl rfl⟩
  | false =>
    have hcritical : ¬ ({ r with stage := .ended, result := some result } : Read).Critical := by
      rintro ⟨_, hresult, htrue⟩
      cases hresult
      rw [hcheck] at htrue
      cases htrue
    cases raises with
    | false => exact ⟨_, moves_returned hk hr hnone (hsettled hcheck) hcritical⟩
    | true => exact ⟨_, moves_thrown hk hr hnone (hsettled hcheck) hcritical⟩

/-- The completion of a header. -/
theorem moves_headersRead {raises : Bool} (hk : s.reads[k]? = some r) (hstage : r.stage = .headers)
    (hproper : r.Proper P s.magicNumber) (hall : r.taken.length = r.need) :
    ∃ r', Moves P s (s.headersRead k r raises) k r r' := by
  have hr : r.stage ≠ .ended := by rw [hstage]; intro h; cases h
  simp only [Read.Proper, hstage] at hproper
  simp only [Read.need, hstage] at hall
  unfold State.headersRead
  by_cases hmagic : magicOf r.taken ≠ s.magicNumber
  · rw [if_pos hmagic]
    exact moves_onAllRead hk hr hproper.2 (fun h => by cases h)
  · rw [if_neg hmagic]
    refine ⟨{ r with stage := .payload (lengthOf r.taken) }, hk, hr, rfl, rfl, rfl, rfl, rfl, .inl, id,
      .inl ⟨rfl, rfl⟩, ⟨Nat.le_of_eq hall.symm, Nat.le_trans (Nat.le_of_eq hall) (Nat.le_add_right 8 _), not_not.mp hmagic, rfl,
        hproper.2⟩,
      (fun h => by cases h), .inl rfl⟩

/-- The completion of a payload: the read has taken a frame. -/
theorem moves_payloadRead {raises : Bool} {json_len : Nat} (hk : s.reads[k]? = some r)
    (hstage : r.stage = .payload json_len) (hproper : r.Proper P s.magicNumber)
    (hall : r.taken.length = r.need) : ∃ r', Moves P s (s.payloadRead P k r raises) k r r' := by
  have hr : r.stage ≠ .ended := by rw [hstage]; intro h; cases h
  simp only [Read.Proper, hstage] at hproper
  simp only [Read.need, hstage] at hall
  obtain ⟨-, -, hmagic, hlength, hnone⟩ := hproper
  obtain ⟨hlt, hframe⟩ := eq_frame hmagic (by omega)
  unfold State.payloadRead
  cases hresult : payloadResult P (r.taken.drop 8) with
  | error e =>
    have hs : { s with delivered := s.delivered ++ Option.toList none } = s := by
      rw [Option.toList_none, List.append_nil]
    have hr' : ({ r with result := none } : Read) = r := by rw [← hnone]
    have hmoves : Moves P s ({ s with delivered := s.delivered ++ Option.toList none }.thrown k
        { r with result := none }) k r { r with stage := .ended, result := none } :=
      moves_thrown hk hr hnone (.inr ⟨_, hlt, hframe, by rw [hresult]; rfl⟩)
        (fun ⟨_, h, _⟩ => by cases h)
    rw [hs, hr'] at hmoves
    exact ⟨_, hmoves⟩
  | ok result =>
    exact moves_onAllRead hk hr hnone (fun _ => .inr ⟨_, hlt, hframe, by rw [hresult]; rfl⟩)

/-- Bytes off the head of the stream go to a read that waits for them. -/
theorem Read.Proper.takes (h : r.Proper P magicNumber) {bytes : List UInt8} (hpos : 0 < bytes.length)
    (hneed : r.taken.length + bytes.length ≤ r.need) :
    ({ r with taken := r.taken ++ bytes } : Read).Proper P magicNumber := by
  unfold Read.Proper at h ⊢
  unfold Read.need at hneed
  cases hstage : r.stage with
  | headers =>
    simp only [hstage] at h hneed ⊢
    refine ⟨?_, h.2⟩
    rw [List.length_append]
    exact hneed
  | payload json_len =>
    simp only [hstage] at h hneed ⊢
    obtain ⟨hheader, -, hmagic, hlength, hnone⟩ := h
    have hmagic' : magicOf (r.taken ++ bytes) = magicOf r.taken := by
      rw [magicOf, List.take_append_of_le_length (by omega), magicOf]
    have hlength' : lengthOf (r.taken ++ bytes) = lengthOf r.taken := by
      rw [lengthOf, List.drop_append_of_le_length (by omega), List.take_append_of_le_length, lengthOf]
      rw [List.length_drop]
      omega
    rw [hmagic', hlength', List.length_append]
    exact ⟨by omega, hneed, hmagic, hlength, hnone⟩
  | disconnect =>
    simp only [hstage] at hneed
    omega
  | ended =>
    simp only [hstage] at hneed
    omega

/-- A read that still needs bytes has called nothing, and is not over. -/
theorem Read.Proper.waits (h : r.Proper P magicNumber) (hneed : 0 < r.need) :
    r.stage ≠ .ended ∧ r.result = none := by
  unfold Read.Proper at h
  unfold Read.need at hneed
  cases hstage : r.stage with
  | headers =>
    simp only [hstage] at h
    exact ⟨(fun h => by cases h), h.2⟩
  | payload json_len =>
    simp only [hstage] at h
    exact ⟨(fun h => by cases h), h.2.2.2.2⟩
  | disconnect =>
    simp only [hstage] at hneed
    omega
  | ended =>
    simp only [hstage] at hneed
    omega

/-- What a step of a read is. -/
theorem readStep_moves (hk : s.reads[k]? = some r) (hproper : r.Proper P s.magicNumber)
    (hallowed : ∀ k ec raises, a = .fails k ec raises → check_error ec = false → r.taken = [])
    (h : s.readStep P k r a = some s') : ∃ r', Moves P s s' k r r' := by
  cases a with
  | takes k' n =>
    simp only [State.readStep, Option.ite_none_right_eq_some, Option.some.injEq] at h
    obtain ⟨⟨hopen, hpos, hrx, hneed⟩, rfl⟩ := h
    have hlength : (s.rx.take n).length = n := by
      rw [List.length_take]
      omega
    obtain ⟨hr, hnone⟩ := hproper.waits (by omega)
    refine ⟨{ r with taken := r.taken ++ s.rx.take n }, hk, hr, rfl, rfl, rfl, rfl, ?_,
      fun _ => .inr hopen, id, .inl ⟨rfl, rfl⟩, hproper.takes (by omega) (by omega),
      fun h => absurd h hr, .inl rfl⟩
    show r.taken ++ s.rx.take n ++ s.rx.drop n = r.taken ++ s.rx
    rw [List.append_assoc, List.take_append_drop]
  | completes k' raises =>
    simp only [State.readStep, Option.ite_none_right_eq_some] at h
    obtain ⟨hall, h⟩ := h
    cases hstage : r.stage with
    | headers =>
      rw [hstage] at h
      cases h
      exact moves_headersRead hk hstage hproper hall
    | payload json_len =>
      rw [hstage] at h
      cases h
      exact moves_payloadRead hk hstage hproper hall
    | disconnect =>
      rw [hstage] at h
      cases h
    | ended =>
      rw [hstage] at h
      cases h
  | fails k' ec raises =>
    simp only [State.readStep, Option.ite_none_right_eq_some, Option.some.injEq] at h
    obtain ⟨⟨hfailed, hneed, -⟩, rfl⟩ := h
    obtain ⟨hr, hnone⟩ := hproper.waits (by omega)
    refine moves_onAllRead hk hr hnone (fun hcheck => .inl ⟨hallowed _ _ _ rfl hcheck, ?_⟩)
    exact if_pos hfailed
  -- the error has been reported before
  | disconnects k' =>
    simp only [State.readStep, Option.ite_none_right_eq_some, Option.some.injEq] at h
    obtain ⟨hstage, rfl⟩ := h
    simp only [Read.Proper, hstage] at hproper
    refine ⟨{ r with stage := .ended }, hk, ?_, rfl, rfl, rfl, rfl, rfl, .inl,
      (fun h => by cases h), .inl ⟨rfl, rfl⟩, .inr hproper, fun _ _ => rfl, .inr ⟨rfl, _, rfl⟩⟩
    rw [hstage]
    intro h
    cases h
  | sessionWork j => cases h
  | arrives bytes => cases h
  | setIsWork b => cases h
  | writeFails => cases h
  | closes => cases h

/-- A test moves the call that makes it. -/
theorem quiet_call {j : Nat} {p q : Position} (hj : s.calls[j]? = some p)
    (hp : ∀ k, p ≠ .reading k) : Quiet s { s with calls := s.calls.set j q } where
  reads := rfl
  mode := rfl
  magicNumber := rfl
  arrived := ⟨[], (List.append_nil _).symm, (List.append_nil _).symm⟩
  isOpen := id
  delivered := rfl
  calls := .inr ⟨j, p, q, hj, hp, rfl⟩

/-- What a step of `sessionWork` is. -/
theorem sessionWork_cases {j : Nat} {p : Position} (hj : s.calls[j]? = some p)
    (h : s.sessionWork j p = some s') : Begins s s' j ∨ Quiet s s' := by
  cases p with
  | isWork =>
    cases h
    exact .inr (quiet_call hj (fun k h => by cases h))
  | hasError =>
    cases h
    exact .inr (quiet_call hj (fun k h => by cases h))
  | isOpen =>
    cases h
    exact .inr (quiet_call hj (fun k h => by cases h))
  | read =>
    cases h
    refine .inl ⟨hj, rfl, rfl, rfl, rfl, rfl, rfl, rfl, fun hmode => ?_⟩
    simp only [hmode]
  | reading k => cases h
  | left => cases h

/-- **What a step does.** A call of `sessionWork` begins a read, with nothing outstanding if the
condition asks for that; or one read goes on; or none of this. -/
theorem step_cases (hproper : ∀ r ∈ s.reads, r.Proper P s.magicNumber) (hallowed : Allowed s a)
    (h : step P s a = some s') :
    (∃ j, Begins s s' j ∧ ((s.mode = .Sync → s.calls.length ≠ 1) → ∀ r ∈ s.reads, r.stage = .ended)) ∨
    (∃ k r r', Moves P s s' k r r') ∨ Quiet s s' := by
  unfold step at h
  rw [Option.ite_none_left_eq_some] at h
  replace h := h.2
  -- the actions that name a read are steps of that read
  have hmoves : ∀ k, (s.reads[k]?.bind fun r => s.readStep P k r a) = some s' →
      (∀ k' ec raises, a = .fails k' ec raises → k' = k) → ∃ k r r', Moves P s s' k r r' := by
    intro k hstep hk'
    obtain ⟨r, hk, hr⟩ := Option.bind_eq_some_iff.mp hstep
    obtain ⟨r', hmoves⟩ := readStep_moves hk (hproper r (List.mem_of_getElem? hk))
      (fun k' ec raises ha hcheck => by
        subst ha
        exact hallowed hcheck r (hk' k' ec raises rfl ▸ hk)) hr
    exact ⟨k, r, r', hmoves⟩
  cases a with
  | sessionWork j =>
    obtain ⟨p, hj, hp⟩ := Option.bind_eq_some_iff.mp h
    rcases sessionWork_cases hj hp with hbegins | hquiet
    · exact .inl ⟨j, hbegins, hallowed hbegins.call⟩
    · exact .inr (.inr hquiet)
  | arrives bytes =>
    cases h
    exact .inr (.inr ⟨rfl, rfl, rfl, ⟨bytes, rfl, rfl⟩, id, rfl, .inl rfl⟩)
  | takes k n => exact .inr (.inl (hmoves k h (fun _ _ _ h => by cases h)))
  | completes k raises => exact .inr (.inl (hmoves k h (fun _ _ _ h => by cases h)))
  | fails k ec raises => exact .inr (.inl (hmoves k h (fun _ _ _ h => by cases h; rfl)))
  | disconnects k => exact .inr (.inl (hmoves k h (fun _ _ _ h => by cases h)))
  | setIsWork b =>
    cases h
    exact .inr (.inr ⟨rfl, rfl, rfl, ⟨[], (List.append_nil _).symm, (List.append_nil _).symm⟩, id, rfl,
      .inl rfl⟩)
  | writeFails =>
    cases h
    exact .inr (.inr ⟨rfl, rfl, rfl, ⟨[], (List.append_nil _).symm, (List.append_nil _).symm⟩, id, rfl,
      .inl rfl⟩)
  | closes =>
    cases h
    exact .inr (.inr ⟨rfl, rfl, rfl, ⟨[], (List.append_nil _).symm, (List.append_nil _).symm⟩,
      (fun h => by cases h), rfl, .inl rfl⟩)

/-! ## The invariant -/

/-- Only the last read may be outstanding, the reads have the stream one behind the other, and
bytes are taken only behind reads that have left it at the head of a frame. In the `Sync` mode
one call of `sessionWork` waits for the read that is outstanding. -/
structure InOrder (P : Platform) (s : State) : Prop where
  alone : s.reads.Pairwise (fun r _ => r.stage = .ended)
  proper : ∀ r ∈ s.reads, r.Proper P s.magicNumber
  critical : ∀ r ∈ s.reads, r.stage = .ended → r.Critical → s.isOpen = false
  settled : s.reads.Pairwise (fun r later => later.taken ≠ [] → r.Settled P s.magicNumber)
  arrived : s.arrived = (s.reads.map Read.taken).flatten ++ s.rx
  delivered : s.delivered = s.reads.filterMap Read.result
  waits : s.mode = .Sync → ∀ p, s.calls = [p] →
    ∀ k r, s.reads[k]? = some r → r.stage ≠ .ended → p = .reading k

theorem inOrder_start (mode : IOMode) (magicNumber : UInt32) (n : Nat) :
    InOrder P (start mode magicNumber n) where
  alone := .nil
  proper := fun _ h => by cases h
  critical := fun _ h => by cases h
  settled := .nil
  arrived := rfl
  delivered := rfl
  waits := fun _ _ _ _ _ h => by cases h

/-- A read that is outstanding is the last one, and the others are over. -/
theorem InOrder.last (h : InOrder P s) (hk : s.reads[k]? = some r) (hr : r.stage ≠ .ended) :
    ∃ before, s.reads = before ++ [r] ∧ before.length = k ∧ ∀ b ∈ before, b.stage = .ended := by
  obtain ⟨hlt, rfl⟩ := List.getElem?_eq_some_iff.mp hk
  have hsplit : s.reads = s.reads.take k ++ s.reads[k] :: s.reads.drop (k + 1) := by
    rw [← List.drop_eq_getElem_cons hlt, List.take_append_drop]
  have halone := h.alone
  rw [hsplit, List.pairwise_append] at halone
  obtain ⟨-, hafter, hbefore⟩ := halone
  -- behind a read that is not over there is no other
  have hnil : s.reads.drop (k + 1) = [] := by
    cases hdrop : s.reads.drop (k + 1) with
    | nil => rfl
    | cons later rest =>
      rw [hdrop] at hafter
      exact absurd ((List.pairwise_cons.mp hafter).1 later (List.mem_cons_self ..)) hr
  refine ⟨s.reads.take k, ?_, List.length_take_of_le (Nat.le_of_lt hlt), fun b hb => ?_⟩
  · rw [hnil] at hsplit
    exact hsplit
  · exact hbefore b hb _ (List.mem_cons_self ..)

/-- Where the one call of `sessionWork` is not in a read, none is outstanding. -/
theorem InOrder.none_outstanding (h : InOrder P s) (hmode : s.mode = .Sync)
    {j : Nat} {p : Position} (hj : s.calls[j]? = some p) (hp : ∀ k, p ≠ .reading k)
    (hone : s.calls.length = 1) : ∀ r ∈ s.reads, r.stage = .ended := by
  obtain ⟨p', hp'⟩ := List.length_eq_one_iff.mp hone
  have hpp' : p = p' := by
    have hmem := List.mem_of_getElem? hj
    rw [hp'] at hmem
    exact List.mem_singleton.mp hmem
  intro r hr
  by_contra hout
  obtain ⟨k, hk⟩ := List.mem_iff_getElem?.mp hr
  exact hp k (hpp'.trans (h.waits hmode p' hp' k r hk hout))

/-- A read begins behind reads that are over. -/
theorem InOrder.begins {j : Nat} (h : InOrder P s) (hb : Begins s s' j)
    (hover : ∀ r ∈ s.reads, r.stage = .ended) : InOrder P s' where
  alone := by
    rw [hb.reads, List.pairwise_append]
    exact ⟨h.alone, List.pairwise_singleton .., fun r hr _ _ => hover r hr⟩
  proper := by
    intro r hr
    rw [hb.magicNumber]
    rw [hb.reads, List.mem_append, List.mem_singleton] at hr
    rcases hr with hr | rfl
    · exact h.proper r hr
    · exact ⟨Nat.zero_le 8, rfl⟩
  critical := by
    intro r hr hstage hcritical
    rw [hb.isOpen]
    rw [hb.reads, List.mem_append, List.mem_singleton] at hr
    rcases hr with hr | rfl
    · exact h.critical r hr hstage hcritical
    · cases hstage
  settled := by
    rw [hb.reads, hb.magicNumber, List.pairwise_append]
    -- the new read has taken nothing yet
    refine ⟨h.settled, List.pairwise_singleton .., fun r _ later hlater hne => ?_⟩
    rw [List.mem_singleton.mp hlater] at hne
    exact absurd rfl hne
  arrived := by
    rw [hb.arrived, hb.reads, hb.rx, h.arrived, List.map_append, List.flatten_append]
    exact congrArg (· ++ s.rx) (List.append_nil _).symm
  delivered := by
    rw [hb.delivered, hb.reads, h.delivered, List.filterMap_append]
    exact (List.append_nil _).symm
  waits := by
    intro hmode p hp k r hk hr
    rw [hb.mode] at hmode
    rw [hb.reads] at hk
    obtain ⟨hlt, -⟩ := List.getElem?_eq_some_iff.mp hk
    -- the only read that is not over is the new one
    have hnew : k = s.reads.length := by
      by_contra hne
      rw [List.length_append, List.length_singleton] at hlt
      rw [List.getElem?_append_left (by omega)] at hk
      exact hr (hover r (List.mem_of_getElem? hk))
    have hcalls := hb.calls hmode
    have hmem : Position.reading s.reads.length ∈ s'.calls := by
      rw [hcalls]
      exact List.mem_set (List.getElem?_eq_some_iff.mp hb.call).1 _
    rw [hp] at hmem
    rw [hnew]
    exact (List.mem_singleton.mp hmem).symm

/-- A step that is none of a read's. -/
theorem InOrder.quiet (h : InOrder P s) (hq : Quiet s s') : InOrder P s' where
  alone := by
    rw [hq.reads]
    exact h.alone
  proper := by
    rw [hq.reads, hq.magicNumber]
    exact h.proper
  critical := by
    intro r hr hstage hcritical
    rw [hq.reads] at hr
    have hclosed := h.critical r hr hstage hcritical
    rw [Bool.eq_false_iff] at hclosed ⊢
    exact fun hopen => hclosed (hq.isOpen hopen)
  settled := by
    rw [hq.reads, hq.magicNumber]
    exact h.settled
  arrived := by
    obtain ⟨bytes, harrived, hrx⟩ := hq.arrived
    rw [harrived, hrx, hq.reads, h.arrived, List.append_assoc]
  delivered := by
    rw [hq.delivered, hq.reads]
    exact h.delivered
  waits := by
    intro hmode p hp k r hk hr
    rw [hq.mode] at hmode
    rw [hq.reads] at hk
    rcases hq.calls with hsame | ⟨j, p', q, hj, hp', hset⟩
    · exact h.waits hmode p (hsame ▸ hp) k r hk hr
    · have hone : s.calls.length = 1 := by
        rw [← List.length_set, ← hset, hp]
        rfl
      exact absurd (h.none_outstanding hmode hj hp' hone r (List.mem_of_getElem? hk)) hr

/-- A read that has ended with no critical error has left the stream at the head of a frame. -/
theorem InOrder.settled_of_open (h : InOrder P s) (hopen : s.isOpen = true) (hr : r ∈ s.reads)
    (hstage : r.stage = .ended) : r.Settled P s.magicNumber := by
  have hproper := h.proper r hr
  simp only [Read.Proper, hstage] at hproper
  refine hproper.resolve_right fun hcritical => ?_
  rw [h.critical r hr hstage hcritical] at hopen
  cases hopen

/-- The read that goes on is the last one before and after. -/
theorem InOrder.splits (h : InOrder P s) (hm : Moves P s s' k r r') :
    ∃ before, s.reads = before ++ [r] ∧ s'.reads = before ++ [r'] ∧ before.length = k ∧
      ∀ b ∈ before, b ∈ s.reads ∧ b.stage = .ended := by
  obtain ⟨before, hreads, hlen, hbefore⟩ := h.last hm.read hm.outstanding
  refine ⟨before, hreads, ?_, hlen, fun b hb => ⟨?_, hbefore b hb⟩⟩
  · rw [hm.reads, hreads, ← hlen, List.set_append_right _ _ (Nat.le_refl _), Nat.sub_self]
    rfl
  · rw [hreads]
    exact List.mem_append_left _ hb

/-- What is delivered is what the reads have called `onAllRead` with, also by the read that
goes on. -/
theorem Moves.delivers {before : List Read} (hm : Moves P s s' k r r')
    (hdelivered : s.delivered = (before ++ [r]).filterMap Read.result) :
    s'.delivered = (before ++ [r']).filterMap Read.result := by
  rw [List.filterMap_append] at hdelivered
  rw [List.filterMap_append]
  rcases hm.delivered with ⟨hsame, hresult⟩ | ⟨hnone, happend⟩
  · rw [hsame, hdelivered]
    simp only [List.filterMap_cons, hresult]
  · rw [happend, hdelivered]
    cases hresult : r'.result with
    | none => simp only [List.filterMap_cons, List.filterMap_nil, hnone, hresult, Option.toList_none,
        List.append_nil]
    | some result => simp only [List.filterMap_cons, List.filterMap_nil, hnone, hresult,
        Option.toList_some, List.append_nil]

/-- A read goes on. -/
theorem InOrder.moves (h : InOrder P s) (hm : Moves P s s' k r r') : InOrder P s' where
  alone := by
    obtain ⟨before, hreads, hreads', -, hbefore⟩ := h.splits hm
    have halone := h.alone
    rw [hreads, List.pairwise_append] at halone
    rw [hreads', List.pairwise_append]
    exact ⟨halone.1, List.pairwise_singleton .., fun b hb _ _ => (hbefore b hb).2⟩
  proper := by
    obtain ⟨before, -, hreads', -, hbefore⟩ := h.splits hm
    intro b hb
    rw [hm.magicNumber]
    rw [hreads', List.mem_append, List.mem_singleton] at hb
    rcases hb with hb | rfl
    · exact h.proper b (hbefore b hb).1
    · exact hm.proper
  critical := by
    obtain ⟨before, -, hreads', -, hbefore⟩ := h.splits hm
    intro b hb hstage hcritical
    rw [hreads', List.mem_append, List.mem_singleton] at hb
    rcases hb with hb | rfl
    · have hclosed := h.critical b (hbefore b hb).1 hstage hcritical
      rw [Bool.eq_false_iff] at hclosed ⊢
      exact fun hopen => hclosed (hm.isOpen hopen)
    · exact hm.critical hstage hcritical
  settled := by
    obtain ⟨before, hreads, hreads', -, hbefore⟩ := h.splits hm
    have hsettled := h.settled
    rw [hreads, List.pairwise_append] at hsettled
    rw [hreads', hm.magicNumber, List.pairwise_append]
    refine ⟨hsettled.1, List.pairwise_singleton .., fun b hb later hlater hne => ?_⟩
    rw [List.mem_singleton.mp hlater] at hne
    -- what it takes, it takes from an open socket: the reads before it have ended well
    rcases hm.takes hne with hne' | hopen
    · exact hsettled.2.2 b hb r (List.mem_singleton_self r) hne'
    · exact h.settled_of_open hopen (hbefore b hb).1 (hbefore b hb).2
  arrived := by
    obtain ⟨before, hreads, hreads', -, -⟩ := h.splits hm
    have harrived := h.arrived
    rw [hreads, List.map_append, List.flatten_append, List.append_assoc] at harrived
    rw [hm.arrived, harrived, hreads', List.map_append, List.flatten_append, List.append_assoc]
    simp only [List.map_cons, List.map_nil, List.flatten_cons, List.flatten_nil, List.append_nil]
    rw [hm.stream]
  delivered := by
    obtain ⟨before, hreads, hreads', -, -⟩ := h.splits hm
    have hdelivered := h.delivered
    rw [hreads] at hdelivered
    rw [hreads']
    exact hm.delivers hdelivered
  waits := by
    obtain ⟨before, hreads, -, hlen, -⟩ := h.splits hm
    intro hmode p hp k' r'' hk' hr''
    rw [hm.mode] at hmode
    rw [hm.reads] at hk'
    by_cases hkk : k = k'
    · subst hkk
      obtain ⟨hlt, -⟩ := List.getElem?_eq_some_iff.mp hm.read
      rw [List.getElem?_set_self hlt] at hk'
      cases hk'
      have hsame := hm.calls.resolve_right (fun hended => hr'' hended.1)
      exact h.waits hmode p (hsame ▸ hp) k r hm.read hm.outstanding
    · -- there is no other read that is outstanding
      rw [List.getElem?_set_ne hkk] at hk'
      obtain ⟨before', hreads'', hlen', -⟩ := h.last hk' hr''
      rw [hreads] at hreads''
      have hlength := congrArg List.length hreads''
      rw [List.length_append, List.length_append, hlen, hlen'] at hlength
      exact absurd (Nat.add_right_cancel hlength) hkk

/-- **The invariant of the runs**, and the magic number they keep. -/
theorem inOrder_of_reaches {mode : IOMode} {n : Nat}
    (h : Reaches P Allowed (start mode magicNumber n) s) :
    InOrder P s ∧ s.magicNumber = magicNumber := by
  induction h with
  | refl => exact ⟨inOrder_start mode magicNumber n, rfl⟩
  | @step s₁ s₂ a _ hallowed hstep ih =>
    obtain ⟨horder, hmagic⟩ := ih
    rcases step_cases horder.proper hallowed hstep with
      ⟨j, hbegins, hover⟩ | ⟨k, r, r', hmoves⟩ | hquiet
    · refine ⟨horder.begins hbegins ?_, hbegins.magicNumber.trans hmagic⟩
      -- in the `Sync` mode the one call is at its read, so nothing is outstanding
      by_cases hone : s₁.mode = .Sync ∧ s₁.calls.length = 1
      · exact horder.none_outstanding hone.1 hbegins.call (fun k h => by cases h) hone.2
      · exact hover (fun hsync hlength => hone ⟨hsync, hlength⟩)
    · exact ⟨horder.moves hmoves, hmoves.magicNumber.trans hmagic⟩
    · exact ⟨horder.quiet hquiet, hquiet.magicNumber.trans hmagic⟩

/-! ## The frames -/

/-- What reads have taken is a number of frames and something behind them, and what they have
delivered are the messages of these frames. -/
theorem frames_of_reads {reads : List Read} (hproper : ∀ r ∈ reads, r.Proper P magicNumber)
    (hsettled : reads.Pairwise (fun r later => later.taken ≠ [] → r.Settled P magicNumber))
    (rx : List UInt8) :
    ∃ (payloads : List (List UInt8)) (rest : List UInt8),
      (∀ payload ∈ payloads, payload.length < 2 ^ 32) ∧
      (reads.map Read.taken).flatten ++ rx = (payloads.map (frame magicNumber)).flatten ++ rest ∧
      reads.filterMap (fun r => r.result.bind delivery) = payloads.filterMap (messageOf P) := by
  induction reads with
  | nil => exact ⟨[], rx, List.forall_mem_nil _, rfl, rfl⟩
  | cons r later ih =>
    obtain ⟨hfirst, hlater⟩ := List.pairwise_cons.mp hsettled
    have hproper' : ∀ r ∈ later, r.Proper P magicNumber :=
      fun r hr => hproper r (List.mem_cons_of_mem _ hr)
    obtain ⟨payloads, rest, hlt, hstream, hmessages⟩ := ih hproper' hlater
    -- the first read has taken a frame, or delivers nothing
    by_cases hframe : r.IsFrame P magicNumber
    · obtain ⟨payload, hlength, htaken, hresult⟩ := hframe
      refine ⟨payload :: payloads, rest, ?_, ?_, ?_⟩
      · intro payload' h'
        rcases List.mem_cons.mp h' with rfl | h'
        · exact hlength
        · exact hlt payload' h'
      · rw [List.map_cons, List.flatten_cons, List.map_cons, List.flatten_cons, List.append_assoc,
          List.append_assoc, hstream, htaken]
      · rw [List.filterMap_cons, List.filterMap_cons, hmessages, hresult]
        rfl
    have hnone := (hproper r (List.mem_cons_self ..)).delivers.resolve_right hframe
    by_cases htaken : r.taken = []
    · refine ⟨payloads, rest, hlt, ?_, ?_⟩
      · rw [List.map_cons, List.flatten_cons, htaken, List.nil_append]
        exact hstream
      · rw [List.filterMap_cons, hnone]
        exact hmessages
    · -- nothing is taken behind a read that is not settled, so nothing is delivered
      have hnothing : ∀ r' ∈ later, r'.taken = [] := by
        intro r' hr'
        by_contra hne
        rcases hfirst r' hr' hne with ⟨hnil, -⟩ | h'
        · exact htaken hnil
        · exact hframe h'
      have hflatten : (later.map Read.taken).flatten = [] := by
        rw [List.flatten_eq_nil_iff]
        intro taken hmem
        obtain ⟨r', hr', rfl⟩ := List.mem_map.mp hmem
        exact hnothing r' hr'
      have hdelivers : later.filterMap (fun r => r.result.bind delivery) = [] := by
        rw [List.filterMap_eq_nil_iff]
        intro r' hr'
        exact (hproper' r' hr').delivers.resolve_right
          (fun h' => h'.taken_ne_nil (hnothing r' hr'))
      refine ⟨[], r.taken ++ rx, List.forall_mem_nil _, ?_, ?_⟩
      · rw [List.map_cons, List.flatten_cons, hflatten, List.append_nil]
        rfl
      · rw [List.filterMap_cons, hnone]
        exact hdelivers

/-- The reads of a session do not get in each other's way: there is at most one outstanding,
what they have taken lies one behind the other on the stream, a read takes something only
where those before it have left the stream at the head of a frame, and the messages that have
been delivered are those of the first frames of the stream, in this order. -/
structure OneAtATime (P : Platform) (magicNumber : UInt32) (s : State) : Prop where
  outstanding : s.outstanding.length ≤ 1
  stream : s.arrived = (s.reads.map Read.taken).flatten ++ s.rx
  settled : s.reads.Pairwise (fun r later => later.taken ≠ [] → r.Settled P magicNumber)
  received : ∃ payloads rest, takeFrames magicNumber payloads.length s.arrived = some (payloads, rest) ∧
    s.received = payloads.filterMap (messageOf P)

/-- At most one read is outstanding if the others are over. -/
theorem InOrder.outstanding_le (h : InOrder P s) : s.outstanding.length ≤ 1 := by
  have hpairs := h.alone.filter (fun r => decide (r.stage ≠ .ended))
  unfold State.outstanding
  cases hreads : s.reads.filter (fun r => decide (r.stage ≠ .ended)) with
  | nil => exact Nat.zero_le 1
  | cons r later =>
    rw [hreads] at hpairs
    have hr : r ∈ s.reads.filter (fun r => decide (r.stage ≠ .ended)) := by
      rw [hreads]
      exact List.mem_cons_self ..
    have hout := of_decide_eq_true (List.mem_filter.mp hr).2
    cases later with
    | nil => exact Nat.le_refl 1
    | cons r' rest => exact absurd ((List.pairwise_cons.mp hpairs).1 r' (List.mem_cons_self ..)) hout

/-- **One read at a time.** In a run in which no read begins beside another, and a read that has
taken something fails with critical errors only, the reads take one frame each, in the order
of the stream. In the `Sync` mode no read can begin beside another, as long as the session has
one call of `sessionWork`. -/
theorem one_read_at_a_time {mode : IOMode} {n : Nat}
    (h : Reaches P Allowed (start mode magicNumber n) s) : OneAtATime P magicNumber s := by
  obtain ⟨horder, rfl⟩ := inOrder_of_reaches h
  obtain ⟨payloads, rest, hlt, hstream, hmessages⟩ :=
    frames_of_reads horder.proper horder.settled s.rx
  refine ⟨horder.outstanding_le, horder.arrived, horder.settled, payloads, rest, ?_, ?_⟩
  · rw [horder.arrived, hstream]
    exact takeFrames_frames _ payloads rest hlt
  · rw [State.received, horder.delivered, List.filterMap_filterMap]
    exact hmessages

/-- A request. -/
def request : List UInt8 := JsonText.headerText "signal" 0

/-- One round of the loop, up to the read that it begins. -/
def round (j : Nat) : List Action := List.replicate 4 (.sessionWork j)

/-- Several steps, each of them allowed. -/
def run (Allowed : State → Action → Prop) [∀ s a, Decidable (Allowed s a)] (P : Platform) (s : State)
    (actions : List Action) : Option State :=
  actions.foldlM (fun s a => if Allowed s a then step P s a else none) s

theorem reaches_of_run {Q : State → Action → Prop} [∀ s a, Decidable (Q s a)] (actions : List Action)
    {s₁ s₂ : State} (h : Reaches P Q s s₁) (hrun : run Q P s₁ actions = some s₂) :
    Reaches P Q s s₂ := by
  induction actions generalizing s₁ with
  | nil =>
    cases hrun
    exact h
  | cons a actions ih =>
    rw [run, List.foldlM_cons] at hrun
    obtain ⟨s₃, hstep, hrest⟩ := Option.bind_eq_some_iff.mp hrun
    rw [Option.ite_none_right_eq_some] at hstep
    exact ih (h.step hstep.1 hstep.2) hrest

instance (s : State) (a : Action) : Decidable (Allowed s a) :=
  match a with
  | .sessionWork j => inferInstanceAs (Decidable (s.calls[j]? = some .read →
      (s.mode = .Sync → s.calls.length ≠ 1) → ∀ r ∈ s.reads, r.stage = .ended))
  | .fails k ec _ => inferInstanceAs (Decidable (check_error ec = false →
      ∀ r ∈ s.reads[k]?, r.taken = []))
  | .arrives _ | .takes _ _ | .completes _ _ | .disconnects _ | .setIsWork _ | .writeFails | .closes =>
    inferInstanceAs (Decidable True)

/-- The io thread is faster than the loop: the second read begins when the first is over. -/
def apart : List Action :=
  round 0 ++ [.arrives (frame 7 request ++ frame 7 request), .takes 0 8, .completes 0 false, .takes 0 33,
    .completes 0 false] ++ round 0 ++ [.takes 1 8, .completes 1 false, .takes 1 33]

/-- Two requests in the `Async` mode, the second one about to be delivered. -/
theorem requests_read_apart : ∃ s, Reaches jsonPlatform Allowed (start .Async 7 1) s ∧
    OneAtATime jsonPlatform 7 s ∧ s.received = [⟨"signal", .Request, request⟩] := by
  have hdelivered : (run Allowed jsonPlatform (start .Async 7 1) apart).map State.received
      = some [⟨"signal", .Request, request⟩] := by decide +kernel
  obtain ⟨s, hrun, hreceived⟩ := Option.map_eq_some_iff.mp hdelivered
  have hreaches := reaches_of_run apart .refl hrun
  exact ⟨s, hreaches, one_read_at_a_time hreaches, hreceived⟩

/-- A frame comes in while the loop has two reads outstanding. The first takes the header, and
the second, which is next at the socket, the payload. -/
def overlapping : List Action :=
  round 0 ++ round 0 ++ [.arrives (frame 7 [1, 2, 3, 4, 5, 6, 7, 8]), .takes 0 8, .takes 1 8,
    .completes 0 false, .completes 1 false]

/-- **The second read takes the payload of the first for its own header**: a frame with the
right magic is on the stream, nothing of it is delivered, and the connection is given up for a
wrong magic number. In the `Sync` mode two reads are outstanding where an id is handed out
twice. -/
theorem payload_taken_as_header :
    (∃ s, Reaches jsonPlatform (fun _ _ => True) (start .Async 7 1) s ∧ ¬ OneAtATime jsonPlatform 7 s ∧
      s.arrived = frame 7 [1, 2, 3, 4, 5, 6, 7, 8] ∧
      s.reads.map Read.taken = [[7, 0, 0, 0, 8, 0, 0, 0], [1, 2, 3, 4, 5, 6, 7, 8]] ∧
      s.delivered = [(.eof, setErrorMessage)] ∧ s.hasError = true) ∧
    ∃ s, Reaches jsonPlatform (fun _ _ => True) (start .Sync 7 2) s ∧ ¬ OneAtATime jsonPlatform 7 s := by
  refine ⟨⟨_, reaches_of_run overlapping .refl rfl, ?_, rfl, rfl, rfl, rfl⟩,
    _, reaches_of_run (round 0 ++ round 1) .refl rfl, ?_⟩
  · intro h
    exact absurd h.outstanding (by decide)
  · intro h
    exact absurd h.outstanding (by decide)

end Outstanding

end NetworkApplication
