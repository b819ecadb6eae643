/-
The magic number on its way to the socket.

It is set on the server and on the client, and what compares it is the `TransportHandler` of a
session. On the server's side it goes through the `SessionManager` to get there. Each of these
objects has a member for it that no constructor initialises, and each hands it on only
`if(magicNumber)`: a number that is zero is taken for one that has not been set, and the member
behind it keeps what was in its memory.

Elsewhere in this development the number is taken as it arrives. Here are the steps before that,
with the contents of the memory for a parameter.
-/
import NetworkApplication.Requests
import NetworkApplication.SegmentClient

set_option autoImplicit false

namespace NetworkApplication

open NetworkApplication.Program

namespace Session

/-- `Session::setMagicNumber`, which is that of its `transport_handler`. -/
def setMagicNumber (s : Session) (magicNumber : UInt32) : Session :=
  { s with magicNumber := magicNumber }

end Session

namespace SessionManager

/-- `SessionManager::setMagicNumber`. -/
def setMagicNumber (manager : SessionManager) (n : UInt32) : SessionManager :=
  { manager with magicNumber := n }

/-- The session that `addSession` makes, on a transport handler with `memory` in it. -/
def addedSession (manager : SessionManager) (memory : UInt32) (ptr : SessionPtr)
    (on_all_read : Option (ErrorCode × Option Message → NetProg Unit)) : Session :=
  let session := { manager.session ptr on_all_read with magicNumber := memory }
  if manager.magicNumber ≠ 0 then session.setMagicNumber manager.magicNumber else session

end SessionManager

namespace SegmentServer

/-- `SegmentServer::setMagicNumber`. -/
def setMagicNumber (server : SegmentServer) (n : UInt32) : SegmentServer :=
  { server with magicNumber := n }

/-- The session manager that `start` makes, with `memory` in it. -/
def startedManager (server : SegmentServer) (memory : UInt32) : SessionManager :=
  let sessionManager := { server.sessionManager with magicNumber := memory }
  if server.magicNumber ≠ 0 then sessionManager.setMagicNumber server.magicNumber
  else sessionManager

end SegmentServer

namespace SegmentClient

/-- `SegmentClient::setMagicNumber`. -/
def setMagicNumber (client : SegmentClient) (n : UInt32) : SegmentClient :=
  { client with magicNumber := n }

/-- The client's session when `start` has begun, on a transport handler with `memory` in it. -/
def startedSession (client : SegmentClient) (memory : UInt32) : Session :=
  let session := { client.session with magicNumber := memory }
  if client.magicNumber ≠ 0 then session.setMagicNumber client.magicNumber else session

end SegmentClient

namespace Magic

open TransportHandler SyncRead AsyncRead Replies Requests RequestResponseHandler

variable {P : Platform} {mode : Accepts.IOMode}

/-! ## The test -/

/-- What a read does once it has the header. -/
def behindHeader (header : List UInt8) : NetProg Unit → NetProg Unit
  | .op (.read _ _) k => k (.ok header)
  | p => p

/-- The operation that a program begins with. -/
def first : NetProg Unit → Option Op
  | .op o _ => some o
  | _ => none

/-- A session accepts a header: it goes on to read the payload which that announces. -/
def AcceptsHeader (P : Platform) (mode : Accepts.IOMode) (s : Session) (header : List UInt8) : Prop :=
  first (behindHeader header ((s.transport_handler P).read P mode))
    = some (.read s.addr (lengthOf header))

theorem behindHeader_call (header : List UInt8) (a n : Nat)
    (k : Except ErrorCode (List UInt8) → NetProg Unit) :
    behindHeader header (call (.read a n) >>= k) = k (.ok header) := rfl

/-- Behind the header both reads are the same. -/
theorem behindHeader_read (th : TransportHandler) (header : List UInt8) :
    ∃ size, behindHeader header (th.read P mode)
      = if magicOf header ≠ th.magicNumber then errorHandler th .eof >>= fun _ => pure ()
        else readPayloadSized P th size (lengthOf header) := by
  have hsized : ∀ size, behindHeader header (th.readSized P size)
      = if magicOf header ≠ th.magicNumber then errorHandler th .eof >>= fun _ => pure ()
        else readPayloadSized P th size (lengthOf header) := by
    intro size
    rw [readSized, behindHeader_call]
    simp only [readError, errorHandler_of_not_failed ErrorCode.failed_success, Prog.pure_bind',
      Bool.false_eq_true, if_false, Except.toOption, Option.getD_some]
    rfl
  cases mode with
  | Sync =>
    rw [TransportHandler.read, read_sync_eq]
    exact ⟨_, hsized _⟩
  | Async =>
    rw [TransportHandler.read, read_async_eq]
    exact ⟨_, hsized _⟩

/-- What a session does about a header with another number is not a read. -/
def Refuses (P : Platform) (s : Session) : Prop :=
  ∀ n, first (errorHandler (s.transport_handler P) .eof >>= fun _ => pure ())
    ≠ some (.read s.addr n)

theorem acceptsHeader_iff {s : Session} (hs : Refuses P s) (header : List UInt8) :
    AcceptsHeader P mode s header ↔ magicOf header = s.magicNumber := by
  obtain ⟨size, hread⟩ := behindHeader_read (P := P) (s.transport_handler P) header
  have hnumber : (s.transport_handler P).magicNumber = s.magicNumber := rfl
  rw [AcceptsHeader, hread, hnumber]
  by_cases hmagic : magicOf header = s.magicNumber
  · rw [if_neg (not_not.mpr hmagic)]
    exact iff_of_true rfl hmagic
  · rw [if_pos hmagic]
    exact iff_of_false (hs _) hmagic

/-! ## Two peers -/

/-- `reader` accepts the header of every frame that `writer` writes, in whatever modes they are and
whatever an asynchronous write finds in `json_len`. -/
def AcceptsFramesOf (P : Platform) (reader writer : Session) : Prop :=
  ∀ ids mode mode' four r rx tx w out w' sent, List.length four = 4 → At writer.addr rx tx w →
    Prog.Runs (succeeding ids) (writer.writeIn P mode four (some r)) w out w' →
    (w'.sessions writer.addr).tx = tx ++ sent → AcceptsHeader P mode' reader (sent.take 8)

/-- Every frame starts with the number of the session that writes it. -/
theorem magicOf_sentIn (magicNumber : UInt32) (four : List UInt8) (r : Message) :
    magicOf ((sentIn P mode four magicNumber (some r)).take 8) = magicNumber := by
  have htake : ∀ rest, magicOf ((bytes32 magicNumber ++ rest).take 8) = magicNumber := by
    intro rest
    rw [magicOf, List.take_take, show min 4 8 = 4 from rfl, take_append_four _ _ rfl, uint32_of_bytes32]
  cases mode with
  | Sync =>
    rw [sentIn, Delivery.frameOf, frame, List.append_assoc]
    exact htake _
  | Async => exact htake _

variable {reader writer : Session}

/-- What is accepted are the frames with the reader's own number. -/
theorem acceptsFramesOf_iff (hreader : Refuses P reader) (hwriter : writer.on_all_write = none) :
    AcceptsFramesOf P reader writer ↔ writer.magicNumber = reader.magicNumber := by
  constructor
  · intro h
    -- any frame will do
    set w : World := { World.init with isWork := true, sessions := fun _ =>
      { SessionObject.new with isOpen := true } }
    have hat : At writer.addr [] [] w := ⟨rfl, rfl, rfl, rfl, rfl⟩
    have hwrite : Prog.twp (succeeding (fun _ => 0)) _
        (writer.writeIn P .Sync [0, 0, 0, 0] (some unknownReply)) w := twp_writeIn hwriter _ hat
    obtain ⟨⟨out, w', hrun⟩, hall⟩ := Prog.runs_of_twp hwrite
    obtain ⟨-, -, hsent⟩ := hall out w' hrun
    have haccepts := h (fun _ => 0) .Sync .Sync [0, 0, 0, 0] _ _ _ w out w' _ rfl hat hrun hsent.tx
    rwa [acceptsHeader_iff hreader, magicOf_sentIn] at haccepts
  · intro hnumber ids mode mode' four r rx tx w out w' sent _ hat hrun htx
    -- a frame that has been written starts with the number of the writer
    have hwrite : Prog.twp (succeeding ids) _ (writer.writeIn P mode four (some r)) w :=
      twp_writeIn hwriter r hat
    obtain ⟨-, -, hsent⟩ := (Prog.runs_of_twp hwrite).2 out w' hrun
    obtain rfl := List.append_cancel_left (htx.symm.trans hsent.tx)
    rw [acceptsHeader_iff hreader, magicOf_sentIn, hnumber]

/-! ## A server and a client -/

/-- What the constructors leave in the members that they do not initialise: in the server, its
session manager and the transport handler of its session, and in the client and the transport
handler of its own. -/
structure Memory where
  segmentServer : UInt32
  sessionManager : UInt32
  serverSession : UInt32
  segmentClient : UInt32
  clientSession : UInt32

/-- A session of a server on which `ms` has been set before it was started. -/
def serverSession (memory : Memory) (multiConnect readHandler : Bool) (ms : UInt32)
    (ptr : SessionPtr) (on_all_read : Option (ErrorCode × Option Message → NetProg Unit)) : Session :=
  let server : SegmentServer := ⟨multiConnect, memory.segmentServer, readHandler⟩
  ((server.setMagicNumber ms).startedManager memory.sessionManager).addedSession
    memory.serverSession ptr on_all_read

/-- The session of a client on which `mc` has been set before it was started. -/
def clientSession (memory : Memory) (socket : Nat) (readHandler : Bool) (mc : UInt32) : Session :=
  let client : SegmentClient := ⟨socket, memory.segmentClient, readHandler⟩
  (client.setMagicNumber mc).startedSession memory.clientSession

/-- What a session of the server has when nobody hands it a number. -/
def inherited (memory : Memory) : UInt32 :=
  if memory.sessionManager ≠ 0 then memory.sessionManager else memory.serverSession

variable {memory : Memory} {multiConnect readHandler readHandler' : Bool} {ms mc : UInt32}
  {ptr : SessionPtr} {on_all_read : Option (ErrorCode × Option Message → NetProg Unit)}
  {socket : Nat}

theorem serverSession_magicNumber :
    (serverSession memory multiConnect readHandler ms ptr on_all_read).magicNumber
      = if ms ≠ 0 then ms else inherited memory := by
  unfold serverSession SessionManager.addedSession SegmentServer.startedManager inherited
  -- the number is handed on twice, and each time only if it is not 0
  by_cases hms : ms = 0
  · subst hms
    by_cases hmanager : memory.sessionManager = 0
    · simp [SegmentServer.setMagicNumber, hmanager]
    · simp [SegmentServer.setMagicNumber, hmanager, Session.setMagicNumber]
  · simp [SegmentServer.setMagicNumber, SessionManager.setMagicNumber, hms, Session.setMagicNumber]

theorem clientSession_magicNumber :
    (clientSession memory socket readHandler' mc).magicNumber
      = if mc ≠ 0 then mc else memory.clientSession := by
  unfold clientSession SegmentClient.startedSession
  by_cases hmc : mc = 0
  · simp [SegmentClient.setMagicNumber, hmc]
  · simp [SegmentClient.setMagicNumber, hmc, Session.setMagicNumber]

/-- A session of the server answers a wrong number by removing itself, -/
theorem refuses_serverSession :
    Refuses P (serverSession memory multiConnect readHandler ms ptr on_all_read) := by
  intro n
  unfold serverSession SessionManager.addedSession
  simp only
  split
  · intro h
    cases h
  · intro h
    cases h

/-- and that of a client by setting its error flag. -/
theorem refuses_clientSession : Refuses P (clientSession memory socket readHandler' mc) := by
  intro n
  unfold clientSession SegmentClient.startedSession
  simp only
  split
  · intro h
    cases h
  · intro h
    cases h

theorem serverSession_on_all_write :
    (serverSession memory multiConnect readHandler ms ptr on_all_read).on_all_write = none := by
  unfold serverSession SessionManager.addedSession
  simp only
  split
  · rfl
  · rfl

theorem clientSession_on_all_write :
    (clientSession memory socket readHandler' mc).on_all_write = none := by
  unfold clientSession SegmentClient.startedSession
  simp only
  split
  · rfl
  · rfl

/-- The two accept each other's frames. -/
def Talk (P : Platform) (server client : Session) : Prop :=
  AcceptsFramesOf P server client ∧ AcceptsFramesOf P client server

/-- They do if they have ended up with one number. -/
theorem talk_iff :
    Talk P (serverSession memory multiConnect readHandler ms ptr on_all_read)
        (clientSession memory socket readHandler' mc)
      ↔ (if ms ≠ 0 then ms else inherited memory) = if mc ≠ 0 then mc else memory.clientSession := by
  unfold Talk
  rw [acceptsFramesOf_iff refuses_serverSession clientSession_on_all_write,
    acceptsFramesOf_iff refuses_clientSession serverSession_on_all_write,
    serverSession_magicNumber, clientSession_magicNumber]
  constructor
  · intro h
    exact h.2
  · intro h
    exact ⟨h.symm, h⟩

/-- What has been left in the memory does no harm: where one of the two numbers is zero, it is
not the other one, and where both are, it is the same on both sides. -/
def LeftInMemory (memory : Memory) (ms mc : UInt32) : Prop :=
  (ms = 0 → mc = 0 → inherited memory = memory.clientSession) ∧
    (ms = 0 → mc ≠ 0 → inherited memory ≠ mc) ∧ (ms ≠ 0 → mc = 0 → memory.clientSession ≠ ms)

/-- **When the peers that talk are those with the same number**: for all numbers, whatever is in
the memory, exactly if none of the numbers is zero or what has been left in the memory does no
harm. -/
theorem talk_iff_configured_iff :
    (Talk P (serverSession memory multiConnect readHandler ms ptr on_all_read)
        (clientSession memory socket readHandler' mc) ↔ ms = mc)
      ↔ LeftInMemory memory ms mc := by
  rw [talk_iff, LeftInMemory]
  -- a number that is set stands, and 0 stands for what is in the memory
  by_cases hms : ms = 0
  · by_cases hmc : mc = 0
    · simp [hms, hmc]
    · have hne : ms ≠ mc := fun h => hmc (h.symm.trans hms)
      simp [hms, hmc, Ne.symm hmc]
  · by_cases hmc : mc = 0
    · simp [hms, hmc, eq_comm]
    · simp [hms, hmc]

/-- A session manager and two transport handlers with something in their memory. -/
def strayMemory : Memory := ⟨0, 0xABABABAB, 5, 0, 0⟩

/-- **Zero on both sides does not talk**, and zero talks to what was in the memory. -/
theorem zero_is_not_a_number :
    (¬ (Talk jsonPlatform (serverSession strayMemory false false 0 ⟨0, 0⟩ none)
      (clientSession strayMemory 0 false 0) ↔ (0 : UInt32) = 0)) ∧
    ¬ (Talk jsonPlatform (serverSession strayMemory false false 0 ⟨0, 0⟩ none)
      (clientSession strayMemory 0 false 0xABABABAB) ↔ (0 : UInt32) = 0xABABABAB) := by
  constructor
  · rw [talk_iff]
    decide
  · rw [talk_iff]
    decide

end Magic

end NetworkApplication
