/-
The functions of a session, for any property that composition keeps.

A property of programs such as "cannot crash" or "keeps its frames whole" is proved of a
function by going through its body: every operation has the property, so has every
branch, so has the sequence. That walk is the same for every such property, so it is
made once here, for the functions of `core/session` and everything below them.

The one operation that is not taken for granted is `write_some`: what is asked of the
composed write is a hypothesis, about the frame of the message only.
-/
import NetworkApplication.SessionPool

set_option autoImplicit false

namespace NetworkApplication.Composition

open NetworkApplication.Program NetworkApplication.Pool

/-- The operations that a session's functions, its users and the network perform, apart
from `write_some`. -/
def SessionOp : Op → Prop
  | .isOpen _ | .read _ _ | .shutdown _ | .close _ | .getCriticalError _ | .setCriticalError _
  | .mapGet _ | .mapErase _ | .getIsWork | .uniform_int _ _ | .uniform_real
  | .event _ | .command | .network => True
  | _ => False

variable {Q : {α : Type} → NetProg α → Prop} (hQ : Prog.Compositional (E := Net) Q SessionOp)
variable {P : Platform} {s : Session}

/-- The callbacks of a session have the property. -/
structure Callbacks (Q : {α : Type} → NetProg α → Prop) (s : Session) : Prop where
  onError : ∀ ec, Q (invoke s.onError ec)
  onReadHandler : ∀ x, Q (invoke s.onReadHandler x)
  on_disconnect : ∀ ec, Q (invoke s.on_disconnect ec)
  on_all_write : ∀ ec, Q (invoke s.on_all_write ec)
  on_all_read : ∀ x, Q (invoke s.on_all_read x)

include hQ

theorem of_disconnect (hs : Callbacks Q s) : Q s.disconnect := by
  unfold Session.disconnect ConnectHandler.disconnect
  refine hQ.bind (hQ.call _ trivial) (fun is_open => ?_)
  split
  · exact hQ.pure ()
  refine hQ.bind (hQ.call _ trivial) (fun ec => ?_)
  refine hQ.bind (hQ.when (hs.onError ec)) (fun _ => ?_)
  refine hQ.bind (hQ.call _ trivial) (fun ec => ?_)
  exact hQ.bind (hQ.when (hs.onError ec)) (fun _ => hs.on_disconnect ec)

theorem of_criticalError (hs : Callbacks Q s) : Q s.criticalError :=
  hQ.bind (hQ.call _ trivial) (fun _ => of_disconnect hQ hs)

theorem of_onAllRead (hs : Callbacks Q s) (x : ErrorCode × TransportMessage) :
    Q (invoke (s.transport_handler P).onAllRead x) := by
  show Q (s.onAllRead P x)
  unfold Session.onAllRead
  dsimp only
  split
  · exact hs.on_all_read _
  · exact hQ.bind (hs.on_all_read _) (fun _ => of_criticalError hQ hs)

theorem of_errorHandler (hs : Callbacks Q s) (ec : ErrorCode) :
    Q ((s.transport_handler P).errorHandler ec) := by
  unfold TransportHandler.errorHandler
  refine hQ.bind (hQ.when (hs.onError ec)) (fun _ => ?_)
  split
  · exact hQ.bind (of_onAllRead hQ hs _) (fun _ => hQ.pure true)
  · exact hQ.pure false

/-- An error exit of `read_sync`, and what comes after it. -/
theorem of_exit (hs : Callbacks Q s) (ec : ErrorCode) {rest : NetProg Unit} (hrest : Q rest) :
    Q ((s.transport_handler P).errorHandler ec >>= fun b =>
      if b = true then Prog.pure () else rest) := by
  refine hQ.bind (of_errorHandler hQ hs ec) (fun b => ?_)
  split
  · exact hQ.pure ()
  · exact hrest

theorem of_read_json (hs : Callbacks Q s) (payload : List UInt8) :
    Q ((s.transport_handler P).read_json P payload) := by
  unfold TransportHandler.read_json
  apply of_exit hQ hs
  refine hQ.bind (hs.onReadHandler _) (fun _ => ?_)
  split
  · exact hQ.throw _
  · exact of_onAllRead hQ hs _

theorem of_read (hs : Callbacks Q s) : Q (s.read P) := by
  unfold Session.read TransportHandler.read_sync TransportHandler.read_payload
  refine hQ.bind (hQ.call _ trivial) (fun is_open => hQ.when ?_)
  refine hQ.bind (hQ.call _ trivial) (fun headers => of_exit hQ hs _ ?_)
  dsimp only
  split
  · exact hQ.bind (of_errorHandler hQ hs _) (fun _ => hQ.pure ())
  · refine hQ.bind (hQ.call _ trivial) (fun payload => of_exit hQ hs _ ?_)
    exact of_read_json hQ hs _

/-- What has to be known of the composed write of a message. -/
def Writes (Q : {α : Type} → NetProg α → Prop) (P : Platform) (s : Session)
    (message : Option Message) : Prop :=
  Q (asio_write s.addr (frame s.magicNumber (MessageHandler.serialize P message).payload).length 0
    (frame s.magicNumber (MessageHandler.serialize P message).payload))

theorem of_write (hs : Callbacks Q s) {message : Option Message} (hwrite : Writes Q P s message) :
    Q (s.write P message) := by
  refine hQ.tryCatch (hQ.bind hwrite (fun ec => ?_)) (fun _ => hQ.pure ())
  refine hQ.bind (hQ.when (hs.onError ec)) (fun _ => ?_)
  refine hQ.bind (hs.on_all_write ec) (fun _ => ?_)
  exact hQ.when (of_criticalError hQ hs)

/-- One round of the reader's loop. -/
theorem of_readRound {α : Type} (hs : Callbacks Q s) {again done : NetProg α} (hagain : Q again)
    (hdone : Q done) : Q (s.readRound P again done) := by
  unfold Session.readRound
  refine hQ.bind (hQ.call _ trivial) (fun isWork => ?_)
  split
  · refine hQ.bind (hQ.call _ trivial) (fun hasError => ?_)
    split
    · exact hdone
    · exact hQ.bind (of_read hQ hs) (fun _ => hagain)
  · exact hdone

theorem of_removeSession (id : UInt32) : Q (SessionManager.removeSession id) := by
  unfold SessionManager.removeSession SessionManager.getSession
  refine hQ.bind (hQ.call _ trivial) (fun found => ?_)
  cases found with
  | none => exact hQ.pure ()
  | some ptr => exact hQ.call _ trivial

theorem of_createResponse (message : Option Message) :
    Q (RequestResponseHandler.createResponse message) := by
  have hdraw : ∀ n, Q (RequestResponseHandler.drawSamples n) := by
    intro n
    induction n with
    | zero => exact hQ.pure []
    | succ n ih =>
      refine hQ.bind (hQ.call _ trivial) (fun _ => hQ.bind (hQ.call _ trivial) (fun _ => ?_))
      exact hQ.bind ih (fun _ => hQ.pure _)
  unfold RequestResponseHandler.createResponse
  split
  · exact hQ.pure _
  split
  · exact hQ.pure _
  split
  · refine hQ.bind (hQ.call _ trivial) (fun n => hQ.bind (hdraw _) (fun _ => ?_))
    exact hQ.bind (hQ.call _ trivial) (fun _ => hQ.pure _)
  split
  · exact hQ.bind (hQ.call _ trivial) (fun _ => hQ.pure _)
  · exact hQ.pure _

/-! ## The sessions of a server and of a client -/

/-- A session of a server, with any `on_all_read` that has the property. -/
theorem callbacks_server (server : SegmentServer) (ptr : SessionPtr)
    {on_all_read : Option (ErrorCode × Option Message → NetProg Unit)}
    (hread : ∀ x, Q (invoke on_all_read x)) :
    Callbacks Q (server.sessionManager.session ptr on_all_read) where
  onError := fun _ => of_removeSession hQ _
  onReadHandler := fun x => by
    show Q (invoke server.sessionManager.readHandlerForSession x)
    unfold SegmentServer.sessionManager
    split
    · exact hQ.call _ trivial
    · exact hQ.pure ()
  on_disconnect := fun _ => hQ.pure ()
  on_all_write := fun _ => hQ.pure ()
  on_all_read := hread

/-- A session of a server as any thread but its reader uses it. -/
theorem callbacks_session (server : SegmentServer) (ptr : SessionPtr) :
    Callbacks Q (server.session ptr) :=
  callbacks_server hQ server ptr (fun _ => hQ.pure ())

/-- A session of a server as its reader uses it: the reply is written on it. -/
theorem callbacks_readerSession (server : SegmentServer) (ptr : SessionPtr)
    (hwrite : ∀ m, Writes Q P (server.session ptr) (some m)) :
    Callbacks Q (server.readerSession P ptr) := by
  refine callbacks_server hQ server ptr (fun x => ?_)
  obtain ⟨ec, message⟩ := x
  show Q (server.onAllRead P ptr (ec, message))
  unfold SegmentServer.onAllRead
  cases message with
  | none => exact hQ.pure ()
  | some m =>
    dsimp only
    split
    · exact hQ.pure ()
    · exact hQ.bind (of_createResponse hQ _)
        (fun reply => of_write hQ (callbacks_session hQ server ptr) (hwrite reply))

theorem callbacks_client (client : SegmentClient) : Callbacks Q client.session where
  onError := fun _ => hQ.pure ()
  onReadHandler := fun x => by
    show Q (invoke client.connected.onReadHandler x)
    unfold SegmentClient.connected
    split
    · exact hQ.call _ trivial
    · exact hQ.pure ()
  on_disconnect := fun _ => hQ.pure ()
  on_all_write := fun _ => hQ.pure ()
  on_all_read := fun _ => hQ.pure ()

/-! ## The accept loop -/

/-- The operations by which the accept loop keeps or refuses a client. -/
def KeepOp : Op → Prop
  | .mapSize | .addSessionWorker _ => True
  | o => SessionOp o

/-- The operations of the accept loop, from the id it has taken to its head. -/
def AcceptOp : Op → Prop
  | .async_accept _ | .acceptResult _ | .makeSession _ | .mapFind _ | .mapInsert _ _ => True
  | o => KeepOp o

omit hQ in
theorem keepOp_of_sessionOp (o : Op) (ho : SessionOp o) : KeepOp o := by
  cases o with
  | mapSize => trivial
  | addSessionWorker => trivial
  | _ => exact ho

omit hQ in
theorem acceptOp_of_keepOp (o : Op) (ho : KeepOp o) : AcceptOp o := by
  cases o with
  | async_accept => trivial
  | acceptResult => trivial
  | makeSession => trivial
  | mapFind => trivial
  | mapInsert => trivial
  | _ => exact ho

omit hQ in
theorem of_addSession (hA : Prog.Compositional (E := Net) Q AcceptOp) (server : SegmentServer)
    (id : UInt32) : Q (server.sessionManager.addSession id) := by
  unfold SessionManager.addSession
  refine hA.bind (hA.call _ trivial) (fun found => ?_)
  split
  · exact hA.pure ()
  refine hA.bind (hA.call _ trivial) (fun ptr => ?_)
  refine hA.bind (hA.call _ trivial) (fun _ => hA.bind (hA.call _ trivial) (fun ec => ?_))
  refine hA.bind (hA.when (hA.pure ())) (fun _ => ?_)
  show Q (SessionManager.onAccept ptr.sessionID ptr ec)
  unfold SessionManager.onAccept
  split
  · refine hA.bind (hA.call _ trivial) (fun found => ?_)
    split
    · have hK := hA.mono acceptOp_of_keepOp
      exact of_removeSession (hK.mono keepOp_of_sessionOp) _
    · exact hA.pure ()
  · exact hA.call _ trivial

omit hQ in
theorem of_keepOrRefuse (hK : Prog.Compositional (E := Net) Q KeepOp)
    (hcrash : Q (Prog.crash : NetProg Unit)) (server : SegmentServer) (ID : UInt64) :
    Q (server.keepOrRefuse ID) := by
  have hkeep : Q (SegmentServer.keep ID) :=
    hK.bind (hK.call _ trivial) (fun _ => hK.bind (hK.when (hK.call _ trivial)) (fun _ => hK.pure _))
  unfold SegmentServer.keepOrRefuse
  split
  · exact hkeep
  refine hK.bind (hK.call _ trivial) (fun count => ?_)
  split
  · refine hK.bind (hK.bind (hK.call _ trivial) (fun found => ?_)) (fun _ => hK.pure _)
    cases found with
    | some ptr =>
      have hS := hK.mono keepOp_of_sessionOp
      exact of_disconnect hS (callbacks_session hS server ptr)
    | none => exact hcrash
  · exact hkeep

/-! ## The composed write -/

/-- A property that every `write_some` has. -/
theorem of_asio_write (hwrite : ∀ a sent rest, Q (call (.write_some a sent rest)))
    (a bound sent : Nat) (rest : List UInt8) : Q (asio_write a bound sent rest) := by
  induction bound generalizing sent rest with
  | zero => exact hQ.pure _
  | succ bound ih =>
    unfold asio_write
    split
    · exact hQ.pure _
    · refine hQ.bind (hwrite ..) (fun r => ?_)
      cases r with
      | ok n => exact ih _ _
      | error ec => exact hQ.pure _

omit hQ

/-! ## The other threads of a server -/

/-- The operations by which a session gets into the map. -/
def Enters : Op → Prop
  | .distributeID | .makeSession _ | .mapInsert _ _ | .makeSessionManager => True
  | _ => False

theorem not_enters_of_keepOp (o : Op) (ho : KeepOp o) : ¬ Enters o := by
  cases o with
  | distributeID => exact ho.elim
  | makeSession => exact ho.elim
  | mapInsert => exact ho.elim
  | makeSessionManager => exact ho.elim
  | _ => exact not_false

theorem not_enters_of_sessionOp (o : Op) (ho : SessionOp o) : ¬ Enters o :=
  not_enters_of_keepOp o (keepOp_of_sessionOp o ho)

variable (hE : Prog.Compositional (E := Net) Q (fun o => ¬ Enters o))

include hE

theorem writes_of_not_enters (s : Session) (message : Option Message) : Writes Q P s message :=
  of_asio_write (hE.mono not_enters_of_sessionOp) (fun _ _ _ => hE.call _ not_false) _ _ _ _

theorem of_taskDone (n : Nat) : Q (SegmentServer.taskDone n) :=
  hE.bind (hE.call _ not_false) (fun _ => hE.pure _)

theorem of_sessionWork (server : SegmentServer) (n : Nat) (ptr : SessionPtr) :
    Q (server.sessionWork P n ptr) := by
  have hS := hE.mono not_enters_of_sessionOp
  have hs := callbacks_readerSession hS server ptr (fun _ => writes_of_not_enters (P := P) hE _ _)
  exact hE.tryCatch (of_readRound hS hs (hE.pure _) (of_taskDone hE n)) (fun _ => of_taskDone hE n)

/-- `write` of a session as the user calls it. -/
theorem of_sessionWrite (server : SegmentServer) (ptr : SessionPtr) (message : Option Message) :
    Q ((server.session ptr).write P message) :=
  of_write (hE.mono not_enters_of_sessionOp)
    (callbacks_session (hE.mono not_enters_of_sessionOp) server ptr) (writes_of_not_enters hE _ _)

/-- `disconnect` of a session as the user, the accept loop and `stop` call it. -/
theorem of_sessionDisconnect (server : SegmentServer) (ptr : SessionPtr) :
    Q (server.session ptr).disconnect :=
  of_disconnect (hE.mono not_enters_of_sessionOp)
    (callbacks_session (hE.mono not_enters_of_sessionOp) server ptr)

theorem of_serverWrite (server : SegmentServer) (id : UInt64) (data : List UInt8) :
    Q (server.write P id data) := by
  refine hE.bind (hE.call _ not_false) (fun found => ?_)
  cases found with
  | none => exact hE.pure _
  | some ptr => exact of_sessionWrite hE server ptr _

theorem of_closeAcceptor : Q SessionManager.closeAcceptor := by
  refine hE.bind (hE.call _ not_false) (fun is_open => ?_)
  split
  · refine hE.bind (hE.call _ not_false) (fun _ => ?_)
    exact hE.bind (hE.call _ not_false) (fun _ => hE.pure _)
  · exact hE.pure _

theorem of_stop (server : SegmentServer) : Q server.stop := by
  have hall : ∀ ptrs, Q (SegmentServer.stop.disconnectAll server ptrs) := by
    intro ptrs
    induction ptrs with
    | nil => exact hE.pure _
    | cons ptr rest ih => exact hE.bind (of_sessionDisconnect hE server ptr) (fun _ => ih)
  unfold SegmentServer.stop
  refine hE.bind (hE.call _ not_false) (fun isWork => ?_)
  split
  · refine hE.bind (hE.call _ not_false) (fun _ => hE.bind (of_closeAcceptor hE) (fun _ => ?_))
    refine hE.bind (hE.call _ not_false) (fun copy_map => ?_)
    refine hE.bind (hE.call _ not_false) (fun count => ?_)
    exact hE.bind (hE.when (hall _)) (fun _ => hE.pure _)
  · exact hE.pure _

theorem of_flushMain : Q SegmentServer.flushMain :=
  hE.bind (hE.call _ not_false) (fun _ => hE.pure _)

theorem of_flushWorkers (n : Nat) : Q (SegmentServer.flushWorkers n) := by
  refine hE.bind (hE.call _ not_false) (fun size => ?_)
  split
  · exact hE.bind (hE.call _ not_false) (fun _ => hE.pure _)
  · exact hE.pure _

theorem of_networkLoop : Q SegmentServer.networkLoop :=
  hE.bind (hE.call _ not_false) (fun _ => hE.pure _)

/-- The user's thread besides may call `disconnect` with an id that is missing. -/
theorem of_userLoop (server : SegmentServer) (hcrash : Q (Prog.crash : NetProg Unit)) :
    Q (server.userLoop P) := by
  refine hE.bind (hE.call _ not_false) (fun command => ?_)
  cases command with
  | disconnect id =>
    refine hE.bind (hE.bind (hE.call _ not_false) (fun found => ?_)) (fun _ => hE.pure _)
    cases found with
    | some ptr => exact of_sessionDisconnect hE server ptr
    | none => exact hcrash
  | write id data => exact hE.bind (of_serverWrite hE server id data) (fun _ => hE.pure _)
  | sessionDisconnect => exact hE.pure _
  | sessionWrite m => exact hE.pure _

end NetworkApplication.Composition
