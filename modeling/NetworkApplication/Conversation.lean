/-
A client and a server that talk to each other.

The main thread of the client writes the lines it is given, then stops the client; the client's
worker reads. At the other end a session's worker reads, and answers what it gets. Either side may
be stopped at any time by a thread of its own, any call into a socket may fail with an error that
ends the connection, and the network brings the bytes in pieces of any size, whenever it likes.

What all this is for is said by `Exchange.lean`: questions and answers, in order. What the two
programs have asked, received, answered and heard is a state of that protocol in every state of
every run (`conversation_in_order`). No request is lost before one that is received, none is
answered twice or with another's answer, and what the user of the client is told are the answers
in the order of the questions, up to where the connection broke.
-/
import NetworkApplication.Echo
import NetworkApplication.Exchange
import NetworkApplication.SegmentClient
import NetworkApplication.SessionPool
import NetworkApplication.StreamEnds

set_option autoImplicit false

namespace NetworkApplication.Conversation

open NetworkApplication.Program NetworkApplication.Pool NetworkApplication.Disciplines
open Delivery BadPayload RequestResponseHandler Replies Echo StreamRoles StreamEnds Exchange

/-! ## What is asked and answered -/

/-- The texts that the client writes for the lines it is given. -/
def texts (P : Platform) (lines : List (List UInt8)) : List (List UInt8) :=
  lines.map (fun data => textOf P (SegmentServer.messageOf data))

/-- The payload is answered: it is parsed to a message, and that is not raw. -/
def wantsReply (P : Platform) (payload : List UInt8) : Bool :=
  match parsedMessage P payload with
  | some m => m.type != "raw"
  | none => false

/-- The protocol of a client that writes these lines: the payloads are the questions and the
answers, and those that do not parse are passed over in silence on either side. -/
def protocol (P : Platform) (lines : List (List UInt8)) :
    Exchange.Protocol (List UInt8) (List UInt8) where
  script := (texts P lines).filter (parses P)
  wants := wantsReply P
  Answers := fun payload text => ∃ r, ReplyTo P payload (some r) ∧ text = textOf P r
  audible := parses P

/-! ## The system -/

/-- What both programs are set up with, the lines the client's user types, and whether the two
sides are ever stopped. Both have a read handler. -/
structure Setup where
  magicNumber : UInt32
  multiConnect : Bool
  socket : Nat
  ptr : SessionPtr
  worker : Nat
  lines : List (List UInt8)
  stops : Bool

def Setup.client (setup : Setup) : SegmentClient := ⟨setup.socket, setup.magicNumber, true⟩

def Setup.server (setup : Setup) : SegmentServer := ⟨setup.multiConnect, setup.magicNumber, true⟩

/-- The two programs, and how much of what each has sent the other has got. -/
structure Talk where
  client : World
  server : World
  up : Nat
  down : Nat

/-- The threads of the two programs, and the network in either direction. -/
inductive Party where
  | caller
  | listener
  | clientControl
  | answerer
  | serverControl
  | uplink
  | downlink
  deriving DecidableEq

/-- Their loops. -/
inductive TalkLabel where
  | readTask
  | server (l : ServerLabel)
  | uplink
  | downlink
  deriving DecidableEq

section

variable (P : Platform) (ids : Nat → UInt64) (setup : Setup)

/-- The input loop of the client's `main`, over the lines that are read before `stop`. -/
def inputLoop : List (List UInt8) → NetProg Unit
  | [] => pure ()
  | data :: rest => do
    let isWork ← call .getIsWork
    Prog.when isWork (do
      setup.client.write P (SegmentServer.messageOf data)
      inputLoop rest)

/-- The client's main thread, with the `stop` behind its loop. -/
def mainThread : NetProg (Option TalkLabel) := do
  inputLoop P setup setup.lines
  Prog.when setup.stops setup.client.stop
  return none

/-- Another thread of the client that calls `stop`. -/
def clientControl : NetProg (Option TalkLabel) := do
  setup.client.stop
  return none

/-- The task of the client's worker is done. -/
def taskDone : NetProg (Option TalkLabel) := do
  call .mainTaskDone
  return none

/-- The task of the client's worker; an exception ends it. -/
def readTask : NetProg (Option TalkLabel) :=
  Prog.tryCatch (setup.client.readTask P (pure (some .readTask)) taskDone) (fun _ => taskDone)

/-- A thread of the server. -/
def ofServer (p : NetProg (Option ServerLabel)) : NetProg (Option TalkLabel) := do
  let next ← p
  return next.map .server

/-- The network, in the direction that the label says. -/
def link (l : TalkLabel) : NetProg (Option TalkLabel) := do
  call .network
  return some l

/-- The blocks. -/
def block : TalkLabel → NetProg (Option TalkLabel)
  | .readTask => readTask P setup
  | .server l => ofServer (setup.server.block P l)
  | .uplink => link .uplink
  | .downlink => link .downlink

/-- What the client has sent. -/
def Talk.asked (t : Talk) : List UInt8 := (t.client.sessions setup.socket).tx

/-- What the session has sent. -/
def Talk.answered (t : Talk) : List UInt8 := (t.server.sessions setup.ptr.addr).tx

/-- The network brings the next bytes of what has been sent, in a piece of any size. -/
def carry (sent : List UInt8) (brought a : Nat) (c : Choice) (w : World) : Option (Nat × World) :=
  match c with
  | .delivered _ bytes =>
    if bytes ≠ [] ∧ bytes <+: sent.drop brought then
      (networkSem (.delivered a bytes) w).map (fun x => (brought + bytes.length, x.2))
    else none
  | _ => none

/-- What each operation may do: a thread's on its own program, the network's on what the
programs have sent. -/
def talkSem : Party → (o : Op) → Choice → Talk → Option (o.Res × Talk)
  | .caller, o, c, t | .listener, o, c, t | .clientControl, o, c, t =>
    (sem ids o c t.client).map (fun x => (x.1, { t with client := x.2 }))
  | .answerer, o, c, t | .serverControl, o, c, t =>
    (sem ids o c t.server).map (fun x => (x.1, { t with server := x.2 }))
  | .uplink, .network, c, t =>
    (carry (t.asked setup) t.up setup.ptr.addr c t.server).map
      (fun x => ((), { t with up := x.1, server := x.2 }))
  | .downlink, .network, c, t =>
    (carry (t.answered setup) t.down setup.socket c t.client).map
      (fun x => ((), { t with down := x.1, client := x.2 }))
  | _, _, _, _ => none

/-- The two programs and the network between them. -/
abbrev system : System where
  sig := Net
  Exn := Exception
  Tid := Party
  Label := TalkLabel
  World := Talk
  Choice := Choice
  decTid := inferInstance
  sem := talkSem ids setup
  block := block P setup

/-- The connection is there, and nothing has been sent. -/
def connected (t : Talk) : (system P ids setup).State where
  world := t
  threads := fun
    | .caller => mainThread P setup
    | .listener => .pure (some .readTask)
    | .clientControl => if setup.stops then clientControl setup else .pure none
    | .answerer => .pure (some (.server (.sessionWork setup.worker setup.ptr)))
    | .serverControl => if setup.stops then ofServer setup.server.stop else .pure none
    | .uplink => .pure (some .uplink)
    | .downlink => .pure (some .downlink)

/-- A call into a socket that fails, fails with an error that ends the connection. -/
def cutting (_ : (system P ids setup).State) (_ : Party) (c : Choice) : Prop := Cuts c

/-- Nothing has been sent yet, and nothing handed over. -/
structure Fresh (t : Talk) : Prop where
  client_rx : (t.client.sessions setup.socket).rx = []
  client_tx : (t.client.sessions setup.socket).tx = []
  client_handed : handedOf t.client = []
  server_rx : (t.server.sessions setup.ptr.addr).rx = []
  server_tx : (t.server.sessions setup.ptr.addr).tx = []
  server_handed : handedOf t.server = []
  up : t.up = 0
  down : t.down = 0

end

/-! ## The roles -/

section

variable (P : Platform) (setup : Setup)

/-- The payload is refused, and the connection with it. -/
def Refused (payload : List UInt8) : Prop := check_error (P.parse payload).error = true

/-- The client's main thread writes the texts, in order. -/
def callerRole : Role where
  mayRead := fun _ => False
  mayHand := fun _ _ => False
  writes := True
  mayBegin := fun l bytes => ∃ asked text, l.begun = asked.map (frame setup.magicNumber) ∧
    bytes = frame setup.magicNumber text ∧ asked ++ [text] <+: texts P setup.lines
  mayEnd := fun _ => setup.stops = true
  mayRemove := fun _ => False

/-- The client's reader takes the next frame when it has handed over the last one. -/
def listenerRole : Role where
  mayRead := fun l => l.handed = l.taken.filter (parses P)
  mayHand := fun l payload => l.handed ++ [payload] = l.taken.filter (parses P)
  writes := False
  mayBegin := fun _ _ => False
  mayEnd := fun l => ∃ payload ∈ l.taken, Refused P payload
  mayRemove := fun _ => False

/-- What has been handed over is answered. -/
def Settled (l : Ledger) : Prop :=
  ∃ answers, l.begun = answers.map (frame setup.magicNumber) ∧
    Served (protocol P setup.lines) l.handed answers

/-- The session's reader takes the next frame when it has handed over and answered the last one. -/
def answererRole : Role where
  mayRead := fun l => l.handed = l.taken.filter (parses P) ∧ l.rest = [] ∧ Settled P setup l
  mayHand := fun l payload => l.handed ++ [payload] = l.taken.filter (parses P) ∧ Settled P setup l
  writes := True
  mayBegin := fun l bytes => ∃ answers text, l.begun = answers.map (frame setup.magicNumber) ∧
    bytes = frame setup.magicNumber text ∧ Served (protocol P setup.lines) l.handed (answers ++ [text])
  mayEnd := fun l => ∃ payload ∈ l.taken, Refused P payload
  mayRemove := fun id => id = setup.ptr.sessionID

end

variable {P : Platform} {setup : Setup} {magicNumber : UInt32} {role : Role} {f : Knows}

theorem filter_take_of_failed {l : Ledger} {payload : List UInt8}
    (h : (P.parse payload).error.failed = true) :
    (l.take payload).taken.filter (parses P) = l.taken.filter (parses P) := by
  show (l.taken ++ [payload]).filter (parses P) = _
  rw [List.filter_append, List.filter_cons_of_neg (by simp [parses, h]), List.filter_nil,
    List.append_nil]

theorem filter_take_of_parsed {l : Ledger} {payload : List UInt8}
    (h : (P.parse payload).error.failed = false) :
    (l.take payload).taken.filter (parses P) = l.taken.filter (parses P) ++ [payload] := by
  show (l.taken ++ [payload]).filter (parses P) = _
  rw [List.filter_append, List.filter_cons_of_pos (by simp [parses, h]), List.filter_nil]

theorem refused_take {l : Ledger} {payload : List UInt8} (h : Refused P payload) :
    ∃ payload' ∈ (l.take payload).taken, Refused P payload' :=
  ⟨payload, List.mem_append_right _ (List.mem_singleton.mpr rfl), h⟩

/-! ## The sessions -/

theorem discreet_client : Discreet setup.client.session.magicNumber role setup.client.session where
  onError := fun _ _ _ => rfl
  on_disconnect := fun _ => quiet_pure
  on_all_write := fun _ => quiet_pure
  on_all_read_none := fun _ => quiet_pure

theorem listens_client : Listens P (listenerRole P) setup.client.session where
  toDiscreet := discreet_client
  skip := fun l payload hl hfailed => by
    show l.handed = (l.take payload).taken.filter (parses P)
    rw [filter_take_of_failed hfailed]
    exact hl
  refuse := fun _ _ h => refused_take h
  onReadHandler := fun f l payload hl hledger hparsed => by
    refine Follows.call ?_ (fun _ _ => rfl)
    show f.ledger.handed ++ [payload] = f.ledger.taken.filter (parses P)
    rw [hledger, filter_take_of_parsed hparsed]
    exact congrArg (· ++ [payload]) hl
  on_all_read := fun f l payload ec hposition hl hledger hsound hparsed => by
    refine .inl ⟨hposition, ?_, hsound⟩
    show f.ledger.handed = f.ledger.taken.filter (parses P)
    rw [hledger]
    exact (congrArg (· ++ [payload]) hl).trans (filter_take_of_parsed hparsed).symm

theorem quiet_removeSession {id : UInt32} (hremove : role.mayRemove id) :
    QuietlyEnds magicNumber setup.ptr.addr role (SessionManager.removeSession id) := by
  intro f hend
  refine Follows.step trivial (fun found _ => ?_)
  cases found with
  | none => exact rfl
  | some ptr => exact Follows.call ⟨hend, hremove⟩ (fun _ _ => rfl)

theorem discreet_server (on_all_read : Option (ErrorCode × Option Message → NetProg Unit))
    (hremove : role.mayRemove setup.ptr.sessionID)
    (hnone : ∀ ec, Quiet setup.magicNumber setup.ptr.addr role (invoke on_all_read (ec, none))) :
    Discreet setup.magicNumber role (setup.server.sessionManager.session setup.ptr on_all_read) where
  onError := fun _ => quiet_removeSession hremove
  on_disconnect := fun _ => quiet_pure
  on_all_write := fun _ => quiet_pure
  on_all_read_none := hnone

/-- What is parsed from a payload decides whether it wants a reply. -/
theorem wantsReply_of_parsed {payload : List UInt8} {m : Message} (h : parsedMessage P payload = some m) :
    wantsReply P payload = (m.type != "raw") := by
  rw [wantsReply, h]

/-- The callback of `sessionWork`, for a payload that has been handed over. -/
theorem returns_onAllRead {l : Ledger} {payload : List UInt8} (ec : ErrorCode)
    (hposition : f.position = .head) (hl : (answererRole P setup).mayRead l)
    (hledger : f.ledger = (l.take payload).hand payload) (hsound : f.broken = true → f.closed = true)
    (hparsed : (P.parse payload).error.failed = false) :
    Returns setup.magicNumber setup.ptr.addr (answererRole P setup)
      (fun _ f' => Round (answererRole P setup) f') f
      (setup.server.onAllRead P setup.ptr (ec, parsedMessage P payload)) := by
  obtain ⟨hhanded, hrest, answers, hbegun, hserved⟩ := hl
  have hall : f.ledger.handed = f.ledger.taken.filter (parses P) := by
    rw [hledger]
    exact (congrArg (· ++ [payload]) hhanded).trans (filter_take_of_parsed hparsed).symm
  have hbegun' : f.ledger.begun = answers.map (frame setup.magicNumber) := by
    rw [hledger]
    exact hbegun
  have hrest' : f.ledger.rest = [] := by
    rw [hledger]
    exact hrest
  have hhanded' : f.ledger.handed = l.handed ++ [payload] := by
    rw [hledger]
    rfl
  -- a payload that wants no reply
  have hnothing : wantsReply P payload = false → Round (answererRole P setup) f := by
    intro hwants
    refine .inl ⟨hposition, ⟨hall, hrest', answers, hbegun', ?_⟩, hsound⟩
    rw [hhanded']
    exact (served_concat_of_not_wants hwants).mpr hserved
  cases hmessage : parsedMessage P payload with
  | none => exact hnothing (by rw [wantsReply, hmessage])
  | some m =>
    unfold SegmentServer.onAllRead
    by_cases hraw : m.type = "raw"
    · simp only [if_pos hraw]
      exact hnothing (by rw [wantsReply_of_parsed hmessage, hraw]; rfl)
    simp only [if_neg hraw]
    refine Follows.bind (returns_createResponse m) ?_
    rintro r f' ⟨hanswer, rfl⟩
    have hreply : ReplyTo P payload (some r) := by
      rw [ReplyTo, hmessage]
      simp only [if_neg hraw]
      exact ⟨r, rfl, hanswer⟩
    have hwants : wantsReply P payload = true := by
      rw [wantsReply_of_parsed hmessage]
      simpa using hraw
    have hserved' : Served (protocol P setup.lines) f'.ledger.handed (answers ++ [textOf P r]) := by
      rw [hhanded']
      exact (served_concat_of_wants hwants).mpr ⟨answers, _, rfl, hserved, r, hreply, rfl⟩
    have hmay : (answererRole P setup).mayBegin f'.ledger (frameOf P setup.magicNumber r) :=
      ⟨answers, textOf P r, hbegun', rfl, hserved'⟩
    refine (returns_write (s := setup.server.session setup.ptr)
      (discreet_server none rfl (fun _ => quiet_pure)) trivial hrest' hmay hsound).mono ?_ (fun _ _ h => h)
    rintro _ f'' (rfl | ⟨hflagged, -⟩)
    · refine .inl ⟨hposition, ⟨hall, rfl, answers ++ [textOf P r], ?_, hserved'⟩, hsound⟩
      show f'.ledger.begun ++ [_] = _
      rw [hbegun', List.map_append]
      rfl
    · exact .inr hflagged

theorem listens_server :
    Listens P (answererRole P setup) (setup.server.readerSession P setup.ptr) where
  toDiscreet := discreet_server _ rfl (fun _ => quiet_pure)
  skip := fun l payload hl hfailed => by
    obtain ⟨hhanded, hrest, hsettled⟩ := hl
    refine ⟨?_, hrest, hsettled⟩
    rw [filter_take_of_failed hfailed]
    exact hhanded
  refuse := fun _ _ h => refused_take h
  onReadHandler := fun f l payload hl hledger hparsed => by
    obtain ⟨hhanded, -, hsettled⟩ := hl
    refine Follows.call ⟨?_, ?_⟩ (fun _ _ => rfl)
    · rw [hledger, filter_take_of_parsed hparsed]
      exact congrArg (· ++ [payload]) hhanded
    · rw [hledger]
      exact hsettled
  on_all_read := fun f l payload ec hposition hl hledger hsound hparsed =>
    returns_onAllRead ec hposition hl hledger hsound hparsed

end NetworkApplication.Conversation
