/-
The interface between the program and everything it shares or calls.

One operation is one access to shared state or one call into asio: a socket
operation, an access to `sessionMap` under its mutex, a read or a store of an
atomic, a callback of the user. The functions of `core/session`, `server` and
`client` are programs over this interface, and the other threads run between any
two operations.

`sem` says what an operation may do. A socket call succeeds only on an open
socket; on a closed one it fails with an error of `ErrorCode.ofClosed`; on an
open one it may fail with any error code. `asio::read` returns exactly the bytes
asked for, and does not touch the socket when that is none at all; `write_some`
sends a nonempty prefix of at most 65536 bytes. `close` always leaves the socket
closed. An accept completes on the io thread, and only
while the acceptor is open can it succeed.

A session object is identified by its address; a `shared_ptr<Session>` also
carries the id that the callbacks set by `SessionManager::addSession` captured.
-/
import NetworkApplication.MessageHandler
import NetworkApplication.Program
import Mathlib.Data.List.AList

set_option autoImplicit false

namespace NetworkApplication

open NetworkApplication.Program

/-- A `shared_ptr<Session>`: the object, and the session id its callbacks captured. -/
structure SessionPtr where
  addr : Nat
  sessionID : UInt32
  deriving DecidableEq

/-- A call of a user's callback, with its arguments. -/
inductive Event where
  | onError (ec : ErrorCode)
  | onReadHandler (id : Nat) (data : List UInt8) (size : Nat)
  | onAllRead (ec : ErrorCode) (message : TransportMessage)
  | onAllWrite (ec : ErrorCode) (message : TransportMessage)
  | on_all_read (ec : ErrorCode) (message : Option Message)
  | on_all_write (ec : ErrorCode)
  | on_connect (ec : ErrorCode)
  | on_disconnect (ec : ErrorCode)
  deriving DecidableEq

/-- What a user's thread calls next: an operator command of a server, or a call on
one session. -/
inductive Command where
  | disconnect (id : UInt64)
  | write (id : UInt64) (data : List UInt8)
  | sessionDisconnect
  | sessionWrite (message : Message)
  deriving DecidableEq

/-- The operations. -/
inductive Op where
  -- the socket of a session
  | isOpen (addr : Nat)
  | connect (addr : Nat)
  | read (addr : Nat) (n : Nat)
  | write_some (addr : Nat) (sent : Nat) (rest : List UInt8)
  | shutdown (addr : Nat)
  | close (addr : Nat)
  -- the acceptor
  | async_accept (addr : Nat)
  | acceptResult (addr : Nat)
  | acceptorIsOpen
  | acceptorCancel
  | acceptorClose
  -- members of a session
  | makeSession (sessionID : UInt32)
  | getCriticalError (addr : Nat)
  | setCriticalError (addr : Nat)
  -- sessionMap
  | mapFind (sessionID : UInt32)
  | mapGet (sessionID : UInt32)
  | mapErase (sessionID : UInt32)
  | mapInsert (sessionID : UInt32) (session : SessionPtr)
  | mapSize
  | mapCopy
  -- members of a server or a client
  | makeSessionManager
  | getIsWork
  | setIsWork (b : Bool)
  | distributeID
  | addMainTask
  | mainTaskDone
  | flushMainWorker
  | addSessionWorker (id : UInt64)
  | takeTask (n : Nat)
  | sessionTaskDone (n : Nat)
  | sessionWorkersSize
  | flushSessionWorker (n : Nat)
  -- random numbers, callbacks, the user and the network
  | uniform_int (lo hi : Int32)
  | uniform_real
  | event (e : Event)
  | command
  | network

/-- The result of each operation. -/
abbrev Op.Res : Op → Type
  | .isOpen _ | .acceptorIsOpen | .getCriticalError _ | .mapFind _ | .getIsWork => Bool
  | .read _ _ => Except ErrorCode (List UInt8)
  | .write_some _ _ _ => Except ErrorCode Nat
  | .connect _ | .shutdown _ | .close _ | .acceptResult _ | .acceptorCancel | .acceptorClose =>
    ErrorCode
  | .makeSession _ => SessionPtr
  | .mapGet _ => Option SessionPtr
  | .mapCopy => List SessionPtr
  | .mapSize | .sessionWorkersSize => Nat
  | .distributeID | .takeTask _ => UInt64
  | .uniform_int _ _ => Int32
  | .uniform_real => FloatBits
  | .command => Command
  | _ => Unit

/-- The interface. -/
abbrev Net : Signature := ⟨Op, Op.Res⟩

/-- A program over it; what it throws is a `std::exception`. -/
abbrev NetProg := Prog Net Exception

/-- An accept started on a session's socket. -/
inductive Accept where
  | idle
  | pending
  | done (ec : ErrorCode)
  deriving DecidableEq

/-- The mutable members of a session object and of its socket: the bytes the peer
has sent and the session has not read, the bytes it has sent itself, the error
flag and the accept started on the socket. -/
structure SessionObject where
  isOpen : Bool
  rx : List UInt8
  tx : List UInt8
  criticalError : Bool
  accept : Accept

/-- A newly constructed session. -/
def SessionObject.new : SessionObject := ⟨false, [], [], false, .idle⟩

/-- The shared state of one server or client. `registered` is a history variable:
every session that was ever put into the map. -/
structure World where
  sessions : Nat → SessionObject
  allocated : Nat
  sessionMap : AList (fun _ : UInt32 => SessionPtr)
  registered : List SessionPtr
  acceptorOpen : Bool
  isWork : Bool
  handed : Nat
  mainTasks : Nat
  sessionWorkers : List UInt64
  finished : Nat → Bool
  events : List Event

/-- Nothing has happened yet. -/
def World.init : World :=
  ⟨fun _ => .new, 0, ∅, [], false, false, 0, 0, [], fun _ => false, []⟩

/-- What the environment chooses for an operation. -/
inductive Choice where
  | go
  | ok (n : Nat)
  | fail (ec : ErrorCode) (n : Nat)
  | code (ec : ErrorCode)
  | int (n : Int32)
  | bits (u : FloatBits)
  | command (c : Command)
  | accepted (addr : Nat) (ec : ErrorCode)
  | delivered (addr : Nat) (bytes : List UInt8)
  deriving DecidableEq

namespace World

/-- Change one session object. -/
def modify (w : World) (addr : Nat) (f : SessionObject → SessionObject) : World :=
  { w with sessions := Function.update w.sessions addr (f (w.sessions addr)) }

/-- The session's socket is open. -/
def isOpen (w : World) (addr : Nat) : Bool := (w.sessions addr).isOpen

/-- The session's `criticalError`. -/
def hasError (w : World) (addr : Nat) : Bool := (w.sessions addr).criticalError

/-- The session that `getSession(sessionID)` returns. -/
def getSession (w : World) (sessionID : UInt32) : Option SessionPtr :=
  w.sessionMap.lookup sessionID

@[simp] theorem modify_sessions_self (w : World) (a : Nat)
    (f : SessionObject → SessionObject) :
    (w.modify a f).sessions a = f (w.sessions a) := Function.update_self ..

theorem modify_sessions_of_ne (w : World) {a b : Nat} (h : b ≠ a)
    (f : SessionObject → SessionObject) : (w.modify a f).sessions b = w.sessions b :=
  Function.update_of_ne h ..

theorem modify_modify (w : World) (a : Nat) (f g : SessionObject → SessionObject) :
    (w.modify a f).modify a g = w.modify a (fun s => g (f s)) := by
  simp only [modify, Function.update_self, Function.update_idem]

@[simp] theorem modify_allocated (w : World) (a : Nat) (f : SessionObject → SessionObject) :
    (w.modify a f).allocated = w.allocated := rfl

@[simp] theorem modify_sessionMap (w : World) (a : Nat) (f : SessionObject → SessionObject) :
    (w.modify a f).sessionMap = w.sessionMap := rfl

@[simp] theorem modify_registered (w : World) (a : Nat) (f : SessionObject → SessionObject) :
    (w.modify a f).registered = w.registered := rfl

@[simp] theorem modify_isWork (w : World) (a : Nat) (f : SessionObject → SessionObject) :
    (w.modify a f).isWork = w.isWork := rfl

@[simp] theorem modify_events (w : World) (a : Nat) (f : SessionObject → SessionObject) :
    (w.modify a f).events = w.events := rfl

end World

/-- A code reported to the caller: a bare choice of the environment. -/
def reported (c : Choice) (w : World) : Option (ErrorCode × World) :=
  match c with
  | .code ec => some (ec, w)
  | _ => none

/-- `asio::read` of `n` bytes. A failing read may have taken some bytes; a read of
no bytes returns at once, without a call into the socket. -/
def readSem (a n : Nat) (c : Choice) (w : World) :
    Option (Except ErrorCode (List UInt8) × World) :=
  match c with
  | .ok _ =>
    if n = 0 ∨ w.isOpen a ∧ n ≤ (w.sessions a).rx.length then
      some (.ok ((w.sessions a).rx.take n), w.modify a (fun s => { s with rx := s.rx.drop n }))
    else none
  | .fail ec m =>
    if m < n ∧ ec.failed ∧ (w.isOpen a ∨ ec.ofClosed) then
      some (.error ec, w.modify a (fun s => { s with rx := s.rx.drop m }))
    else none
  | _ => none

/-- One `write_some` of a composed write with `rest` still to send. -/
def writeSem (a : Nat) (rest : List UInt8) (c : Choice) (w : World) :
    Option (Except ErrorCode Nat × World) :=
  match c with
  | .ok n =>
    if w.isOpen a ∧ 0 < n ∧ n ≤ rest.length ∧ n ≤ 65536 then
      some (.ok n, w.modify a (fun s => { s with tx := s.tx ++ rest.take n }))
    else none
  | .fail ec _ =>
    if ec.failed ∧ (w.isOpen a ∨ ec.ofClosed) then some (.error ec, w) else none
  | _ => none

theorem reported_eq_some {c : Choice} {w w₁ : World} {ec : ErrorCode}
    (h : reported c w = some (ec, w₁)) : w₁ = w := by
  cases c with
  | code ec' => exact (Prod.mk.inj (Option.some.inj h)).2.symm
  | _ => cases h

/-- A read changes nothing but the bytes in front of the socket. -/
theorem readSem_eq_some {a n : Nat} {c : Choice} {w w₁ : World}
    {r : Except ErrorCode (List UInt8)} (h : readSem a n c w = some (r, w₁)) :
    ∃ rx, w₁ = w.modify a (fun s => { s with rx := rx }) := by
  cases c with
  | ok m =>
    simp only [readSem, Option.ite_none_right_eq_some, Option.some.injEq, Prod.mk.injEq] at h
    exact ⟨(w.sessions a).rx.drop n, h.2.2.symm⟩
  | fail ec m =>
    simp only [readSem, Option.ite_none_right_eq_some, Option.some.injEq, Prod.mk.injEq] at h
    exact ⟨(w.sessions a).rx.drop m, h.2.2.symm⟩
  | _ => cases h

/-- A `write_some` changes nothing but the bytes sent. -/
theorem writeSem_eq_some {a : Nat} {rest : List UInt8} {c : Choice} {w w₁ : World}
    {r : Except ErrorCode Nat} (h : writeSem a rest c w = some (r, w₁)) :
    ∃ tx, w₁ = w.modify a (fun s => { s with tx := tx }) := by
  cases c with
  | ok n =>
    simp only [writeSem, Option.ite_none_right_eq_some, Option.some.injEq, Prod.mk.injEq] at h
    exact ⟨(w.sessions a).tx ++ rest.take n, h.2.2.symm⟩
  | fail ec m =>
    simp only [writeSem, Option.ite_none_right_eq_some, Option.some.injEq, Prod.mk.injEq] at h
    refine ⟨(w.sessions a).tx, ?_⟩
    rw [← h.2.2]
    simp only [World.modify, Function.update_eq_self]
  | _ => cases h

/-- A step of the network or the io thread: an accept completes, or bytes of the
peer arrive. -/
def networkSem (c : Choice) (w : World) : Option (Unit × World) :=
  match c with
  | .accepted a ec =>
    if (w.sessions a).accept = .pending ∧ (ec.failed ∨ w.acceptorOpen) then
      some ((), w.modify a (fun s => { s with accept := .done ec, isOpen := !ec.failed }))
    else none
  | .delivered a bytes =>
    if w.isOpen a then some ((), w.modify a (fun s => { s with rx := s.rx ++ bytes })) else none
  | _ => none

/-- What each operation may do; `ids n` is the `n`-th value of the id
distribution handler. -/
def sem (ids : Nat → UInt64) : (o : Op) → Choice → World → Option (o.Res × World)
  | .isOpen a, _, w => some (w.isOpen a, w)
  | .connect a, .code ec, w =>
    if ec.failed then some (ec, w)
    else some (ec, w.modify a (fun s => { s with isOpen := true, rx := [], tx := [] }))
  | .connect a, .fail ec _, w =>
    -- the socket was opened for the connect and stays open when it fails
    if ec.failed then some (ec, w.modify a (fun s => { s with isOpen := true })) else none
  | .connect _, _, _ => none
  | .read a n, c, w => readSem a n c w
  | .write_some a _ rest, c, w => writeSem a rest c w
  | .shutdown _, c, w => reported c w
  | .close a, c, w => reported c (w.modify a (fun s => { s with isOpen := false }))
  | .async_accept a, _, w => some ((), w.modify a (fun s => { s with accept := .pending }))
  | .acceptResult a, _, w =>
    match (w.sessions a).accept with
    | .done ec => some (ec, w)
    | _ => none
  | .acceptorIsOpen, _, w => some (w.acceptorOpen, w)
  | .acceptorCancel, c, w => reported c w
  | .acceptorClose, c, w => reported c { w with acceptorOpen := false }
  | .makeSession sessionID, _, w =>
    some (⟨w.allocated, sessionID⟩,
      { w.modify w.allocated (fun _ => .new) with allocated := w.allocated + 1 })
  | .getCriticalError a, _, w => some (w.hasError a, w)
  | .setCriticalError a, _, w => some ((), w.modify a (fun s => { s with criticalError := true }))
  | .mapFind sessionID, _, w => some ((w.getSession sessionID).isSome, w)
  | .mapGet sessionID, _, w => some (w.getSession sessionID, w)
  | .mapErase sessionID, _, w =>
    some ((), { w with sessionMap := w.sessionMap.erase sessionID })
  | .mapInsert sessionID session, _, w =>
    some ((), { w with sessionMap := w.sessionMap.insert sessionID session,
                       registered := w.registered ++ [session] })
  | .mapSize, _, w => some (w.sessionMap.entries.length, w)
  | .mapCopy, _, w => some (w.sessionMap.entries.map Sigma.snd, w)
  | .makeSessionManager, _, w => some ((), { w with sessionMap := ∅, acceptorOpen := true })
  | .getIsWork, _, w => some (w.isWork, w)
  | .setIsWork b, _, w => some ((), { w with isWork := b })
  | .distributeID, _, w => some (ids w.handed, { w with handed := w.handed + 1 })
  | .addMainTask, _, w => some ((), { w with mainTasks := w.mainTasks + 1 })
  | .mainTaskDone, _, w => some ((), { w with mainTasks := w.mainTasks - 1 })
  | .flushMainWorker, _, w => if w.mainTasks = 0 then some ((), w) else none
  | .addSessionWorker id, _, w =>
    some ((), { w with sessionWorkers := w.sessionWorkers ++ [id] })
  | .takeTask n, _, w =>
    match w.sessionWorkers[n]? with
    | some id => some (id, w)
    | none => none
  | .sessionTaskDone n, _, w => some ((), { w with finished := Function.update w.finished n true })
  | .sessionWorkersSize, _, w => some (w.sessionWorkers.length, w)
  | .flushSessionWorker n, _, w => if w.finished n then some ((), w) else none
  | .uniform_int lo hi, .int n, w => if lo ≤ n ∧ n ≤ hi then some (n, w) else none
  | .uniform_int _ _, _, _ => none
  | .uniform_real, .bits u, w => some (u, w)
  | .uniform_real, _, _ => none
  | .event e, _, w => some ((), { w with events := w.events ++ [e] })
  | .command, .command c, w => some (c, w)
  | .command, _, _ => none
  | .network, c, w => networkSem c w

/-! ## What an operation may change -/

/-- What an operation that goes through does to the shared state, whatever the
environment chose. -/
def Op.Effect : Op → World → World → Prop
  | .connect a, w, w' => w' = w ∨ ∃ rx tx,
    w' = w.modify a (fun s => { s with isOpen := true, rx := rx, tx := tx })
  | .read a _, w, w' => ∃ rx, w' = w.modify a (fun s => { s with rx := rx })
  | .write_some a _ _, w, w' => ∃ tx, w' = w.modify a (fun s => { s with tx := tx })
  | .close a, w, w' => w' = w.modify a (fun s => { s with isOpen := false })
  | .async_accept a, w, w' => w' = w.modify a (fun s => { s with accept := .pending })
  | .acceptorClose, w, w' => w' = { w with acceptorOpen := false }
  | .makeSession _, w, w' =>
    w' = { w.modify w.allocated (fun _ => .new) with allocated := w.allocated + 1 }
  | .setCriticalError a, w, w' => w' = w.modify a (fun s => { s with criticalError := true })
  | .mapErase id, w, w' => w' = { w with sessionMap := w.sessionMap.erase id }
  | .mapInsert id ptr, w, w' =>
    w' = { w with sessionMap := w.sessionMap.insert id ptr, registered := w.registered ++ [ptr] }
  | .makeSessionManager, w, w' => w' = { w with sessionMap := ∅, acceptorOpen := true }
  | .setIsWork b, w, w' => w' = { w with isWork := b }
  | .distributeID, w, w' => w' = { w with handed := w.handed + 1 }
  | .addMainTask, w, w' => w' = { w with mainTasks := w.mainTasks + 1 }
  | .mainTaskDone, w, w' => w' = { w with mainTasks := w.mainTasks - 1 }
  | .addSessionWorker id, w, w' => w' = { w with sessionWorkers := w.sessionWorkers ++ [id] }
  | .sessionTaskDone n, w, w' => w' = { w with finished := Function.update w.finished n true }
  | .event e, w, w' => w' = { w with events := w.events ++ [e] }
  | .network, w, w' =>
    (∃ a ec, (w.sessions a).accept = .pending ∧ (ec.failed ∨ w.acceptorOpen) ∧
      w' = w.modify a (fun s => { s with accept := .done ec, isOpen := !ec.failed })) ∨
    (∃ a rx, w' = w.modify a (fun s => { s with rx := rx }))
  | _, w, w' => w' = w

/-- The one place where the operations are gone through: what an operation keeps is read
off its effect. -/
theorem effect_of_sem {ids : Nat → UInt64} {o : Op} {c : Choice} {r : o.Res} {w w' : World}
    (h : sem ids o c w = some (r, w')) : o.Effect w w' := by
  have hifSome : ∀ {p : Prop} [Decidable p] {x : o.Res × World},
      (if p then some x else none) = some (r, w') → p ∧ w' = x.2 := by
    intro p _ x hx
    rw [Option.ite_none_right_eq_some] at hx
    exact ⟨hx.1, (congrArg Prod.snd (Option.some.inj hx.2)).symm⟩
  cases o with
  | connect a =>
    cases c with
    | code ec =>
      by_cases hec : ec.failed
      · rw [sem, if_pos hec] at h
        exact .inl (Prod.mk.inj (Option.some.inj h)).2.symm
      · rw [sem, if_neg hec] at h
        exact .inr ⟨[], [], (Prod.mk.inj (Option.some.inj h)).2.symm⟩
    | fail ec m => exact .inr ⟨_, _, (hifSome h).2⟩
    | _ => cases h
  | read a n => exact readSem_eq_some h
  | write_some a sent rest => exact writeSem_eq_some h
  | shutdown a => exact reported_eq_some h
  | close a => exact reported_eq_some h
  | acceptorCancel => exact reported_eq_some h
  | acceptorClose => exact reported_eq_some h
  | acceptResult a =>
    cases ha : (w.sessions a).accept with
    | done ec =>
      simp only [sem, ha] at h
      exact (Prod.mk.inj (Option.some.inj h)).2.symm
    | _ => simp [sem, ha] at h
  | takeTask n =>
    cases hn : w.sessionWorkers[n]? with
    | some id =>
      simp only [sem, hn] at h
      exact (Prod.mk.inj (Option.some.inj h)).2.symm
    | none => simp [sem, hn] at h
  | flushMainWorker => exact (hifSome h).2
  | flushSessionWorker n => exact (hifSome h).2
  | uniform_int lo hi =>
    cases c with
    | int n => exact (hifSome h).2
    | _ => cases h
  | uniform_real =>
    cases c with
    | bits u => exact (Prod.mk.inj (Option.some.inj h)).2.symm
    | _ => cases h
  | command =>
    cases c with
    | command cmd => exact (Prod.mk.inj (Option.some.inj h)).2.symm
    | _ => cases h
  | network =>
    cases c with
    | accepted a ec =>
      obtain ⟨hpending, rfl⟩ := hifSome h
      exact .inl ⟨a, ec, hpending.1, hpending.2, rfl⟩
    | delivered a bytes =>
      obtain ⟨-, rfl⟩ := hifSome h
      exact .inr ⟨a, _, rfl⟩
    | _ => cases h
  | _ => exact (Prod.mk.inj (Option.some.inj h)).2.symm

/-- Perform an operation of the interface. -/
def call (o : Op) : NetProg o.Res := Prog.perform (E := Net) o

/-- One operation of a program that runs on its own. -/
theorem run_call {α : Type} {ids : Nat → UInt64} {env : Op → World → Choice} {w w₁ : World}
    {o : Op} {r : o.Res} (h : sem ids o (env o w) w = some (r, w₁)) (k : o.Res → NetProg α) :
    Prog.run (sem ids) env (call o >>= k) w = Prog.run (sem ids) env (k r) w₁ := by
  apply Prog.run_op
  exact h

end NetworkApplication
