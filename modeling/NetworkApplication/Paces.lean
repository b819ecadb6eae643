/-
What the threads of a server pay for their rounds with.

A server is left alone and takes in every client, and a call into a socket fails with an error only
that the session takes for one. A round of the accept loop needs a client of its own. A round of a
worker takes at least one byte off its stream, or finds the socket closed, or sets the error flag; and
a worker that finds the error flag set goes round no more.

That a closed socket costs anything is what the order in `criticalError` is good for: it closes the
socket behind the flag, and nobody else closes it. So a worker that finds its socket closed finds the
flag set in its next round (`Paced.closed`). All of this is a discipline that goes beside the one of
`Registry.lean` (`pacing`).
-/
import NetworkApplication.Starvation

set_option autoImplicit false

namespace NetworkApplication.Rest

open NetworkApplication.Program NetworkApplication.Pool NetworkApplication.Disciplines
open SegmentServer StreamRoles StreamEnds Conversation Clients
open Registry (Facts Knowledge Consistent Later DistinctIDs FreshID)
open Admission (unattended)

/-! ## What a round is paid with -/

/-- Where a thread is with its round. The accept loop has finished one, looks for an id, has one, waits
for the accept on a session, has its result, or has put the session in the map. A worker has no task, or
no session yet; or it serves the session at `a`, has paid for its next round or not, and knows that the
error flag is set or does not. -/
inductive Pace where
  | home
  | looking
  | drawn
  | calling (a : Nat)
  | taken
  | placed
  | idle
  | fresh
  | serving (a : Nat) (paid doomed : Bool)

namespace Pace

/-- What an operation of a thread does to its pace. -/
def next : Thread → Pace → (o : Op) → o.Res → Pace
  | .main, .home, .getIsWork, _ => .looking
  | .main, .looking, .distributeID, _ => .drawn
  | .main, .drawn, .async_accept a, _ => .calling a
  | .main, .calling _, .acceptResult _, _ => .taken
  | .main, .taken, .mapInsert _ _, _ => .placed
  | .main, _, .addSessionWorker _, _ => .home
  | .reader _, .idle, .takeTask _, _ => .fresh
  | .reader _, .fresh, .mapGet _, some ptr => .serving ptr.addr true false
  | .reader _, .serving a _ doomed, .getIsWork, _ => .serving a false doomed
  | .reader _, .serving a _ _, .isOpen _, false => .serving a true true
  | .reader _, .serving a _ _, .setCriticalError _, _ => .serving a true true
  | .reader _, .serving a paid doomed, .read _ n, .ok _ => .serving a (paid || n != 0) doomed
  | _, g, _, _ => g

/-- The thread has paid for its next round. -/
def paid : Pace → Bool
  | .home | .idle | .fresh => true
  | .serving _ paid _ => paid
  | _ => false

/-- It knows that the error flag of its session is set. -/
def doomed : Pace → Bool
  | .serving _ _ doomed => doomed
  | _ => false

end Pace

/-- What a worker does with the session at `a` besides closing it. -/
def WorkOp (a : Nat) : Op → Prop
  | .isOpen b | .read b _ | .write_some b _ _ | .shutdown b | .setCriticalError b => b = a
  | .mapGet _ | .mapErase _ | .uniform_int _ _ | .uniform_real | .event _ => True
  | _ => False

/-- What a thread may do. -/
def May : Thread → Pace → Op → Prop
  | .main, .home, .getIsWork => True
  | .main, .looking, .distributeID => True
  | .main, .drawn, .mapFind _ | .main, .drawn, .makeSession _ | .main, .drawn, .async_accept _ => True
  | .main, .calling a, .acceptResult b => b = a
  | .main, .taken, .mapFind _ | .main, .taken, .mapInsert _ _ => True
  | .main, .taken, .getIsWork | .main, .taken, .addSessionWorker _ => True
  | .main, .placed, .getIsWork | .main, .placed, .addSessionWorker _ => True
  | .reader n, .idle, .takeTask m => m = n
  | .reader _, .fresh, .mapGet _ | .reader _, .fresh, .sessionTaskDone _ => True
  | .reader _, .serving _ _ _, .getIsWork | .reader _, .serving _ _ _, .sessionTaskDone _ => True
  | .reader _, .serving a _ _, .getCriticalError b => b = a
  | .reader _, .serving a _ doomed, .close b => b = a ∧ doomed = true
  | .reader _, .serving a paid doomed, o => WorkOp a o ∧ (doomed = true → paid = true)
  | .network, _, .network => True
  | _, _, _ => False

/-- What a thread may see: who knows of the error flag sees it set, and a read fails with an error. -/
def Possible : Thread → Pace → (o : Op) → o.Res → Prop
  | .main, _, .getIsWork, isWork => isWork = true
  | .main, _, .mapFind _, found => found = false
  | .reader _, g, .getCriticalError _, hasError => g.doomed = true → hasError = true
  | .reader _, _, .read _ _, .error ec => check_error ec = true
  | _, _, _, _ => True

/-- The discipline of thread `t`. -/
def rules (t : Thread) : Discipline Net Pace where
  Allowed := May t
  Possible := Possible t
  next := Pace.next t
  Crash := fun _ => True

/-- What is known at a label. -/
def atLabel : Thread → Pace → ServerLabel → Prop
  | .main, g, .acceptLoop => g = .home
  | .reader n, g, .sessionWork m ptr => m = n ∧ ∃ doomed, g = .serving ptr.addr true doomed
  | .network, _, .networkLoop => True
  | _, _, _ => False

/-- What is known where a block ends. -/
def atNext (t : Thread) : Option ServerLabel → Pace → Prop
  | some l, g => atLabel t g l
  | none, _ => True

variable {P : Platform} {server : SegmentServer} {ids : Nat → UInt64} {t : Thread} {n : Nat}
  {ptr : SessionPtr} {a : Nat} {g : Pace} {o : Op} {r : o.Res} {c : Choice} {w w' : World}

/-! ## The functions -/

/-- The worker serves the session still, and has paid and knows what it has before. -/
def Gains (a : Nat) (paid doomed : Bool) (g : Pace) : Prop :=
  ∃ paid' doomed', g = .serving a paid' doomed' ∧ (paid = true → paid' = true) ∧
    (doomed = true → doomed' = true) ∧ (doomed' = true → paid' = true)

/-- A program that a worker performs within a round. -/
def Works (n a : Nat) {α : Type} (p : NetProg α) : Prop :=
  ∀ paid doomed, (doomed = true → paid = true) → Follows (rules (.reader n))
    (fun _ g => Gains a paid doomed g) (fun _ g => Gains a paid doomed g) (.serving a paid doomed) p

theorem gains_refl {paid doomed : Bool} (h : doomed = true → paid = true) :
    Gains a paid doomed (.serving a paid doomed) := ⟨paid, doomed, rfl, id, id, h⟩

theorem gains_both {paid doomed : Bool} : Gains a paid doomed (.serving a true true) :=
  ⟨true, true, rfl, fun _ => rfl, fun _ => rfl, fun _ => rfl⟩

theorem Gains.trans {paid doomed paid' doomed' : Bool} (hpaid : paid = true → paid' = true)
    (hdoomed : doomed = true → doomed' = true) (h : Gains a paid' doomed' g) : Gains a paid doomed g := by
  obtain ⟨paid'', doomed'', rfl, hpaid', hdoomed', hboth⟩ := h
  exact ⟨paid'', doomed'', rfl, fun h => hpaid' (hpaid h), fun h => hdoomed' (hdoomed h), hboth⟩

/-- What is done behind something in a round. -/
theorem Works.after {α : Type} {p : NetProg α} {paid doomed : Bool} (hp : Works n a p)
    (h : Gains a paid doomed g) : Follows (rules (.reader n)) (fun _ g => Gains a paid doomed g)
      (fun _ g => Gains a paid doomed g) g p := by
  obtain ⟨paid', doomed', rfl, hpaid, hdoomed, hboth⟩ := h
  exact (hp paid' doomed' hboth).mono (fun _ _ h => h.trans hpaid hdoomed)
    (fun _ _ h => h.trans hpaid hdoomed)

theorem gains_next {paid doomed : Bool} (h : doomed = true → paid = true) (ho : WorkOp a o) (r : o.Res) :
    Gains a paid doomed (Pace.next (.reader n) (.serving a paid doomed) o r) := by
  cases o with
  | isOpen b =>
    cases r with
    | true => exact gains_refl h
    | false => exact gains_both
  | setCriticalError b => exact gains_both
  | read b k =>
    cases r with
    | error ec => exact gains_refl h
    | ok bytes =>
      refine ⟨paid || k != 0, doomed, rfl, fun hpaid => ?_, id, fun hdoomed => ?_⟩
      · rw [hpaid, Bool.true_or]
      · rw [h hdoomed, Bool.true_or]
  | getIsWork => exact ho.elim
  | _ => exact gains_refl h

theorem may_workOp {paid doomed : Bool} (h : doomed = true → paid = true) (ho : WorkOp a o) :
    May (.reader n) (.serving a paid doomed) o := by
  cases o with
  | getIsWork | sessionTaskDone | getCriticalError | close => exact ho.elim
  | _ => exact ⟨ho, h⟩

/-- Sequences and handlers of such programs are such programs. -/
theorem works (n a : Nat) : Prog.Compositional (E := Net) (Works n a) (WorkOp a) where
  pure := fun _ _ _ h => gains_refl h
  throw := fun _ _ _ h => gains_refl h
  call := fun _ ho _ _ h => Follows.call (may_workOp h ho) (fun r _ => gains_next h ho r)
  bind := fun hp hf paid doomed h =>
    Follows.bind (hp paid doomed h) (fun x _ hg => (hf x).after hg)
  tryCatch := fun hp hh paid doomed h =>
    Follows.tryCatch (hp paid doomed h) (fun e _ hg => (hh e).after hg)

theorem works_removeSession (n a : Nat) (id : UInt32) : Works n a (SessionManager.removeSession id) := by
  have hW := works n a
  refine hW.bind (hW.call (.mapGet id) trivial) (fun found => ?_)
  cases found with
  | none => exact hW.pure ()
  | some q => exact hW.call (.mapErase id) trivial

/-- **Behind the flag** the socket may be closed. -/
theorem disconnect_follows {exn : Exception → Pace → Prop} :
    Follows (rules (.reader n)) (fun _ g => g = .serving ptr.addr true true) exn
      (.serving ptr.addr true true) (server.session ptr).disconnect := by
  have hremove : ∀ b, Follows (rules (.reader n)) (fun _ g => g = .serving ptr.addr true true) exn
      (.serving ptr.addr true true) (Prog.when b (SessionManager.removeSession ptr.sessionID)) := by
    refine fun b => Follows.when (fun _ => ?_) (fun _ => rfl)
    refine Follows.step ⟨trivial, fun _ => rfl⟩ (fun found _ => ?_)
    cases found with
    | none => exact rfl
    | some q => exact Follows.call ⟨trivial, fun _ => rfl⟩ (fun _ _ => rfl)
  unfold Session.disconnect ConnectHandler.disconnect
  refine Follows.step ⟨rfl, fun _ => rfl⟩ (fun is_open _ => ?_)
  cases is_open with
  | false => exact rfl
  | true =>
    refine Follows.step ⟨rfl, fun _ => rfl⟩ (fun ec _ => Follows.bind (hremove _) ?_)
    rintro _ _ rfl
    refine Follows.step ⟨rfl, rfl⟩ (fun ec _ => Follows.bind (hremove _) ?_)
    rintro _ _ rfl
    exact rfl

/-- **`criticalError`** pays for the next round, and is the end of the one after it. -/
theorem criticalError_follows {paid doomed : Bool} (h : doomed = true → paid = true)
    {exn : Exception → Pace → Prop} :
    Follows (rules (.reader n)) (fun _ g => g = .serving ptr.addr true true) exn
      (.serving ptr.addr paid doomed) (server.session ptr).criticalError :=
  Follows.step ⟨rfl, h⟩ (fun _ _ => disconnect_follows)

theorem works_criticalError : Works n ptr.addr (server.session ptr).criticalError := by
  intro paid doomed h
  refine (criticalError_follows h).mono ?_ (fun _ _ h => h)
  rintro _ _ rfl
  exact gains_both

theorem works_asio_write (n a bound sent : Nat) (rest : List UInt8) :
    Works n a (asio_write a bound sent rest) := by
  have hW := works n a
  induction bound generalizing sent rest with
  | zero => exact hW.pure _
  | succ bound ih =>
    unfold asio_write
    split
    · exact hW.pure _
    · refine hW.bind (hW.call _ rfl) (fun r => ?_)
      cases r with
      | ok m => exact ih _ _
      | error ec => exact hW.pure _

theorem works_write (message : Option Message) :
    Works n ptr.addr ((server.session ptr).write P message) := by
  have hW := works n ptr.addr
  refine hW.tryCatch (hW.bind (works_asio_write n ptr.addr _ _ _) (fun ec => ?_)) (fun _ => hW.pure ())
  refine hW.bind (hW.when (works_removeSession n ptr.addr ptr.sessionID)) (fun _ => ?_)
  exact hW.bind (hW.pure ()) (fun _ => hW.when works_criticalError)

theorem works_createResponse (n a : Nat) (message : Option Message) :
    Works n a (RequestResponseHandler.createResponse message) := by
  have hW := works n a
  have hdraw : ∀ m, Works n a (RequestResponseHandler.drawSamples m) := by
    intro m
    induction m with
    | zero => exact hW.pure []
    | succ m ih =>
      refine hW.bind (hW.call _ trivial) (fun _ => hW.bind (hW.call _ trivial) (fun _ => ?_))
      exact hW.bind ih (fun _ => hW.pure _)
  unfold RequestResponseHandler.createResponse
  split
  · exact hW.pure _
  split
  · exact hW.pure _
  split
  · refine hW.bind (hW.call _ trivial) (fun m => hW.bind (hdraw _) (fun _ => ?_))
    exact hW.bind (hW.call _ trivial) (fun _ => hW.pure _)
  split
  · exact hW.bind (hW.call _ trivial) (fun _ => hW.pure _)
  · exact hW.pure _

/-- The callback of `sessionWork`. -/
theorem works_answer (x : ErrorCode × Option Message) :
    Works n ptr.addr (invoke (server.readerSession P ptr).on_all_read x) := by
  have hW := works n ptr.addr
  obtain ⟨ec, message⟩ := x
  show Works n ptr.addr (server.onAllRead P ptr (ec, message))
  cases message with
  | none => exact hW.pure ()
  | some m =>
    unfold SegmentServer.onAllRead
    dsimp only
    split
    · exact hW.pure ()
    · exact hW.bind (works_createResponse n ptr.addr _) (fun _ => works_write _)

theorem works_onAllRead (x : ErrorCode × TransportMessage) :
    Works n ptr.addr (invoke ((server.readerSession P ptr).transport_handler P).onAllRead x) := by
  have hW := works n ptr.addr
  show Works n ptr.addr ((server.readerSession P ptr).onAllRead P x)
  unfold Session.onAllRead
  dsimp only
  split
  · exact works_answer _
  · have hcritical : Works n ptr.addr (server.session ptr).criticalError := works_criticalError
    exact hW.bind (works_answer _) (fun _ => hcritical)

theorem works_errorHandler (ec : ErrorCode) :
    Works n ptr.addr (((server.readerSession P ptr).transport_handler P).errorHandler ec) := by
  have hW := works n ptr.addr
  unfold TransportHandler.errorHandler
  refine hW.bind (hW.when (works_removeSession n ptr.addr ptr.sessionID)) (fun _ => ?_)
  split
  · exact hW.bind (works_onAllRead _) (fun _ => hW.pure true)
  · exact hW.pure false

/-- **An error** pays for the next round. -/
theorem errorHandler_pays {ec : ErrorCode} (hec : check_error ec = true) {paid doomed : Bool}
    (h : doomed = true → paid = true) : Follows (rules (.reader n))
      (fun b g => b = true ∧ g = .serving ptr.addr true true)
      (fun _ g => Gains ptr.addr paid doomed g) (.serving ptr.addr paid doomed)
      (((server.readerSession P ptr).transport_handler P).errorHandler ec) := by
  unfold TransportHandler.errorHandler
  rw [hec, Prog.when_true, if_pos (failed_of_check_error hec)]
  refine Follows.bind (works_removeSession n ptr.addr ptr.sessionID paid doomed h) ?_
  rintro _ _ ⟨paid', doomed', rfl, -, -, hboth⟩
  show Follows _ _ _ _ ((server.readerSession P ptr).onAllRead P (ec, _) >>= fun _ => Prog.pure true)
  rw [Session.onAllRead_of_critical P _ hec]
  have hcritical : Follows (rules (.reader n)) (fun _ g => g = .serving ptr.addr true true)
      (fun _ g => Gains ptr.addr paid doomed g) (.serving ptr.addr paid' doomed')
      (server.session ptr).criticalError := criticalError_follows hboth
  refine Follows.bind hcritical ?_
  rintro _ _ rfl
  exact ⟨rfl, rfl⟩

theorem works_exit (ec : ErrorCode) {rest : NetProg Unit} (hrest : Works n ptr.addr rest) :
    Works n ptr.addr (((server.readerSession P ptr).transport_handler P).errorHandler ec >>= fun b =>
      if b = true then Prog.pure () else rest) := by
  have hW := works n ptr.addr
  refine hW.bind (works_errorHandler ec) (fun b => ?_)
  split
  · exact hW.pure ()
  · exact hrest

theorem works_read_json (payload : List UInt8) :
    Works n ptr.addr (((server.readerSession P ptr).transport_handler P).read_json P payload) := by
  have hW := works n ptr.addr
  unfold TransportHandler.read_json
  apply works_exit
  refine hW.bind ?_ (fun _ => ?_)
  · show Works n ptr.addr (invoke server.sessionManager.readHandlerForSession _)
    unfold SegmentServer.sessionManager
    dsimp only
    split
    · exact hW.call (.event _) trivial
    · exact hW.pure ()
  · split
    · exact hW.throw _
    · exact works_onAllRead _

/-- What is done behind the header. -/
theorem works_behindHeader (bytes : List UInt8) : Works n ptr.addr
    (if magicOf bytes ≠ server.magicNumber then
      ((server.readerSession P ptr).transport_handler P).errorHandler .eof >>= fun _ => Prog.pure ()
    else ((server.readerSession P ptr).transport_handler P).read_payload P (lengthOf bytes)) := by
  have hW := works n ptr.addr
  split
  · exact hW.bind (works_errorHandler _) (fun _ => hW.pure ())
  · unfold TransportHandler.read_payload
    exact hW.bind (hW.call _ rfl) (fun payload => works_exit _ (works_read_json _))

/-- **`read` pays for the next round**: something has been taken off the stream, or the error flag is
set, or the socket is closed. -/
theorem read_follows : Follows (rules (.reader n))
    (fun _ g => ∃ doomed, g = .serving ptr.addr true doomed)
    (fun _ g => ∃ paid doomed, g = .serving ptr.addr paid doomed)
    (.serving ptr.addr false false) ((server.readerSession P ptr).read P) := by
  have hserves : ∀ {paid doomed g}, Gains ptr.addr paid doomed g →
      ∃ paid doomed, g = .serving ptr.addr paid doomed := by
    rintro paid doomed g ⟨paid', doomed', rfl, -, -, -⟩
    exact ⟨paid', doomed', rfl⟩
  have hgains : ∀ {doomed g}, Gains ptr.addr true doomed g → ∃ doomed, g = .serving ptr.addr true doomed := by
    rintro doomed g ⟨paid', doomed', rfl, hpaid, -, -⟩
    obtain rfl := hpaid rfl
    exact ⟨doomed', rfl⟩
  unfold Session.read TransportHandler.read_sync
  refine Follows.step ⟨rfl, id⟩ (fun is_open _ => ?_)
  cases is_open with
  | false => exact ⟨true, rfl⟩
  | true =>
    refine Follows.step ⟨rfl, id⟩ (fun headers hheaders => ?_)
    cases headers with
    | error ec =>
      have hec : check_error ec = true := hheaders
      refine Follows.bind ((errorHandler_pays hec id).mono (fun _ _ h => h) (fun _ _ h => hserves h)) ?_
      rintro _ _ ⟨rfl, rfl⟩
      exact ⟨true, rfl⟩
    | ok bytes =>
      exact ((works_exit .success (works_behindHeader bytes)) true false (fun h => Bool.noConfusion h)).mono
        (fun _ _ h => hgains h) (fun _ _ h => hserves h)

/-! ## Every thread -/

/-- A round of a worker that has a session. -/
theorem sessionWork_follows (doomed : Bool) : Follows (rules (.reader n)) (atNext (.reader n))
    (fun _ _ => True) (.serving ptr.addr true doomed) (server.sessionWork P n ptr) := by
  have hend : ∀ {exn : Exception → Pace → Prop} paid doomed, Follows (rules (.reader n))
      (atNext (.reader n)) exn (.serving ptr.addr paid doomed) (taskDone n) :=
    fun _ _ => Follows.step trivial (fun _ _ => trivial)
  refine Follows.tryCatch (X := fun _ g => ∃ paid doomed, g = .serving ptr.addr paid doomed) ?_ ?_
  · unfold Session.readRound
    refine Follows.step trivial (fun isWork _ => ?_)
    cases isWork with
    | false => exact hend false doomed
    | true =>
      refine Follows.step rfl (fun hasError hseen => ?_)
      cases hasError with
      | true => exact hend false doomed
      | false =>
        obtain rfl : doomed = false := Bool.eq_false_iff.mpr (fun hdoomed => Bool.noConfusion (hseen hdoomed))
        exact Follows.bind read_follows (fun _ _ hg => ⟨rfl, hg⟩)
  · rintro e _ ⟨paid, doomed, rfl⟩
    exact hend paid doomed

/-- A worker takes its task and looks the session up. -/
theorem readerThread_follows : Follows (rules (.reader n)) (atNext (.reader n)) (fun _ _ => True) .idle
    (readerThread n) := by
  refine Follows.step rfl (fun ID _ => Follows.step trivial (fun found _ => ?_))
  cases found with
  | none => exact Follows.step trivial (fun _ _ => trivial)
  | some ptr => exact ⟨rfl, false, rfl⟩

/-- The accept loop takes the client in, and has paid with it. -/
theorem acceptLoop_follows (hmulti : server.multiConnect = true) :
    Follows (rules .main) (atNext .main) (fun _ _ => True) .home server.acceptLoop := by
  have hkeep : ∀ ID g, g = .taken ∨ g = .placed →
      Follows (rules .main) (atNext .main) (fun _ _ => True) g (server.keepOrRefuse ID) := by
    intro ID g hg
    rw [keepOrRefuse, if_pos hmulti]
    have hsame : May .main g .getIsWork ∧ May .main g (.addSessionWorker ID) ∧
        ∀ isWork, Pace.next .main g .getIsWork isWork = g := by
      rcases hg with rfl | rfl
      · exact ⟨trivial, trivial, fun _ => rfl⟩
      · exact ⟨trivial, trivial, fun _ => rfl⟩
    refine Follows.step hsame.1 (fun isWork hisWork => ?_)
    obtain rfl : isWork = true := hisWork
    rw [show (rules .main).next g .getIsWork true = g from hsame.2.2 true]
    refine Follows.step hsame.2.1 (fun _ _ => ?_)
    rcases hg with rfl | rfl
    · exact (rfl : Pace.home = .home)
    · exact (rfl : Pace.home = .home)
  refine Follows.step trivial (fun isWork hisWork => ?_)
  obtain rfl : isWork = true := hisWork
  refine Follows.step trivial (fun ID _ => ?_)
  refine Follows.bind (M := fun _ g => g = .taken ∨ g = .placed) ?_ (fun _ g hg => hkeep ID g hg)
  refine Follows.step trivial (fun found hfound => ?_)
  obtain rfl : found = false := hfound
  refine Follows.step trivial (fun ptr _ => Follows.step trivial (fun _ _ => ?_))
  refine Follows.step rfl (fun ec _ => ?_)
  refine Follows.bind (M := fun _ g => g = .taken) (Follows.when (fun _ => rfl) (fun _ => rfl)) ?_
  rintro _ _ rfl
  show Follows _ _ _ _ (SessionManager.onAccept ptr.sessionID ptr ec)
  unfold SessionManager.onAccept
  split
  · refine Follows.step trivial (fun found hfound => ?_)
    obtain rfl : found = false := hfound
    exact .inl rfl
  · exact Follows.call trivial (fun _ _ => .inr rfl)

/-- Every block keeps to the discipline of the thread that runs it. -/
theorem block_follows (hmulti : server.multiConnect = true) {l : ServerLabel} (hl : atLabel t g l) :
    Follows (rules t) (atNext t) (fun _ _ => True) g (server.block P l) := by
  cases t with
  | main =>
    cases l with
    | acceptLoop =>
      obtain rfl : g = .home := hl
      exact acceptLoop_follows hmulti
    | _ => exact hl.elim
  | reader n =>
    cases l with
    | sessionWork m ptr =>
      obtain ⟨rfl, doomed, rfl⟩ := hl
      exact sessionWork_follows doomed
    | _ => exact hl.elim
  | network =>
    cases l with
    | networkLoop => exact Follows.step trivial (fun _ _ => trivial)
    | _ => exact hl.elim
  | control | user m => exact hl.elim

/-- Where each thread starts. -/
def Pace.start : Thread → Pace
  | .main => .home
  | _ => .idle

theorem started_follows (P : Platform) (server : SegmentServer) (ids : Nat → UInt64) (t : Thread) :
    Follows (rules t) (atNext t) (fun _ _ => True) (Pace.start t)
      ((server.started P ids unattended).threads t) := by
  cases t with
  | main => exact (rfl : Pace.home = .home)
  | reader n => exact readerThread_follows
  | network => trivial
  | control | user n => trivial

/-! ## What it means in the shared state -/

/-- The operation leaves a field of the session object at `a` as it is. -/
def Keeps {β : Type} (field : SessionObject → β) (a : Nat) : Op → Prop
  | .read b _ => b = a → ∀ s rx, field { s with rx := rx } = field s
  | .write_some b _ _ => b = a → ∀ s tx, field { s with tx := tx } = field s
  | .close b => b = a → ∀ s, field { s with isOpen := false } = field s
  | .setCriticalError b => b = a → ∀ s, field { s with criticalError := true } = field s
  | .async_accept _ => ∀ s, field { s with accept := .pending } = field s
  | .connect _ | .network => False
  | _ => True

theorem field_kept {β : Type} (field : SessionObject → β) (ha : ∀ id, o = .makeSession id → a < w.allocated)
    (hsem : sem ids o c w = some (r, w')) (ho : Keeps field a o) :
    field (w'.sessions a) = field (w.sessions a) := by
  have hmodified : ∀ {b : Nat} {g : SessionObject → SessionObject},
      (b = a → ∀ s, field (g s) = field s) → field ((w.modify b g).sessions a) = field (w.sessions a) := by
    intro b g hg
    by_cases hb : a = b
    · subst hb
      rw [World.modify_sessions_self, hg rfl]
    · rw [World.modify_sessions_of_ne w hb]
  have heffect := effect_of_sem hsem
  cases o with
  | connect b | network => exact ho.elim
  | read b k =>
    obtain ⟨rx, rfl⟩ := heffect
    exact hmodified (fun hb s => ho hb s rx)
  | write_some b sent rest =>
    obtain ⟨tx, rfl⟩ := heffect
    exact hmodified (fun hb s => ho hb s tx)
  | close b | setCriticalError b =>
    obtain rfl := heffect
    exact hmodified ho
  | async_accept b =>
    obtain rfl := heffect
    exact hmodified (fun _ => ho)
  | makeSession id =>
    obtain rfl := heffect
    show field ((w.modify w.allocated (fun _ => .new)).sessions a) = _
    rw [World.modify_sessions_of_ne w (Nat.ne_of_lt (ha id rfl))]
  | _ =>
    obtain rfl := heffect
    rfl

/-- A session that has its error flag set keeps it. -/
theorem hasError_kept (ha : a < w.allocated) (hsem : sem ids o c w = some (r, w'))
    (hconnect : ∀ b, o ≠ .connect b) (herror : w.hasError a = true) : w'.hasError a = true := by
  by_cases hnetwork : o = .network
  · subst hnetwork
    have hmodified : ∀ {b : Nat} {g : SessionObject → SessionObject},
        (∀ s, (g s).criticalError = s.criticalError) → (w.modify b g).hasError a = true := by
      intro b g hg
      by_cases hb : a = b
      · subst hb
        rw [World.hasError, World.modify_sessions_self, hg]
        exact herror
      · rw [World.hasError, World.modify_sessions_of_ne w hb]
        exact herror
    rcases effect_of_sem hsem with ⟨b, ec, -, -, rfl⟩ | ⟨b, rx, rfl⟩
    · exact hmodified (fun _ => rfl)
    · exact hmodified (fun _ => rfl)
  by_cases hset : o = .setCriticalError a
  · subst hset
    obtain rfl : w' = w.modify a _ := effect_of_sem hsem
    rw [World.hasError, World.modify_sessions_self]
  · refine (field_kept SessionObject.criticalError (fun _ _ => ha) hsem ?_).trans herror
    cases o with
    | connect b => exact absurd rfl (hconnect b)
    | network => exact absurd rfl hnetwork
    | setCriticalError b =>
      rintro rfl
      exact absurd rfl hset
    | read | write_some | close => exact fun _ _ => by intros; rfl
    | async_accept => exact fun _ => rfl
    | _ => trivial

/-- What the pace of each thread says is true; and a registered session that is closed has its error flag
set. -/
structure Paced (gs : Thread → Pace) (w : World) : Prop where
  began : ∀ n, gs (.reader n) ≠ .idle → n < w.sessionWorkers.length
  serving : ∀ n a paid doomed, gs (.reader n) = .serving a paid doomed →
    (∃ p ∈ w.registered, p.addr = a) ∧ (doomed = true → w.hasError a = true)
  closed : ∀ p ∈ w.registered, w.isOpen p.addr = false → w.hasError p.addr = true

section

variable {fs : Thread → Facts} {gs : Thread → Pace} {p : SessionPtr}

/-- Nobody opens a socket, and nobody but the io thread shares the work with the network. -/
theorem may_connect (hmay : May t g o) : (∀ b, o ≠ .connect b) ∧ (o = .network → t = .network) := by
  constructor
  · rintro b rfl
    cases t with
    | reader n =>
      cases g with
      | serving => exact hmay.1
      | _ => exact hmay
    | main =>
      cases g with
      | _ => exact hmay
    | _ => exact hmay
  · rintro rfl
    cases t with
    | network => rfl
    | reader n =>
      cases g with
      | serving => exact hmay.1.elim
      | _ => exact hmay.elim
    | main =>
      cases g with
      | _ => exact hmay.elim
    | _ => exact hmay.elim

/-- Who closes a socket serves its session, and knows that the error flag is set. -/
theorem serving_of_close {b : Nat} (hmay : May t g (.close b)) :
    ∃ n paid, t = .reader n ∧ g = .serving b paid true := by
  cases t with
  | reader n =>
    cases g with
    | serving a paid doomed =>
      obtain ⟨rfl, rfl⟩ := hmay
      exact ⟨n, paid, rfl, rfl⟩
    | _ => exact hmay.elim
  | main =>
    cases g with
    | _ => exact hmay.elim
  | _ => exact hmay.elim

/-- A registered session is closed by its worker only, which has set the flag. -/
theorem Paced.closed_next (hw : Consistent ids w) (h : Paced gs w) (hmay : May t (gs t) o)
    (hsem : sem ids o c w = some (r, w')) (hp : p ∈ w.registered) (hclosed : w'.isOpen p.addr = false) :
    w'.hasError p.addr = true := by
  have hallocated := hw.allocated p hp
  refine hasError_kept hallocated hsem (may_connect hmay).1 ?_
  by_cases hclose : o = .close p.addr
  · subst hclose
    obtain ⟨n, paid, rfl, hg⟩ := serving_of_close hmay
    exact (h.serving n p.addr paid true hg).2 rfl
  refine h.closed p hp (hclosed ▸ ?_)
  by_cases hnetwork : o = .network
  · subst hnetwork
    rcases effect_of_sem hsem with ⟨b, ec, hpending, -, rfl⟩ | ⟨b, rx, rfl⟩
    · -- no accept is started on a registered session
      have hb : p.addr ≠ b := by
        rintro rfl
        exact hw.accepted p hp hpending
      rw [World.isOpen, World.isOpen, World.modify_sessions_of_ne w hb]
    · by_cases hb : p.addr = b
      · subst hb
        rw [World.isOpen, World.isOpen, World.modify_sessions_self]
      · rw [World.isOpen, World.isOpen, World.modify_sessions_of_ne w hb]
  refine (field_kept SessionObject.isOpen (fun _ _ => hallocated) hsem ?_).symm
  cases o with
  | connect b => exact absurd rfl ((may_connect hmay).1 b)
  | network => exact absurd rfl hnetwork
  | close b =>
    rintro rfl
    exact absurd rfl hclose
  | read | write_some | setCriticalError => exact fun _ _ => by intros; rfl
  | async_accept => exact fun _ => rfl
  | _ => trivial

/-- What a worker knows of its session behind an operation is true. -/
theorem Paced.serving_next {doomed paid : Bool} (hw : Consistent ids w) (hw' : Later w w')
    (h : Paced gs w) (hmay : May (.reader n) (gs (.reader n)) o) (hsem : sem ids o c w = some (r, w'))
    (hn : Pace.next (.reader n) (gs (.reader n)) o r = .serving a paid doomed) :
    (∃ p ∈ w'.registered, p.addr = a) ∧ (doomed = true → w'.hasError a = true) := by
  generalize hg : gs (.reader n) = g at hmay hn
  cases g with
  | fresh =>
    cases o with
    | mapGet id =>
      cases r with
      | some ptr =>
        obtain ⟨rfl, -, rfl⟩ := Pace.serving.inj hn
        obtain ⟨hfound, rfl⟩ := Prod.mk.inj (Option.some.inj hsem)
        exact ⟨⟨ptr, (hw.sessionMap id ptr hfound).1, rfl⟩, fun h => Bool.noConfusion h⟩
      | none => exact Pace.noConfusion hn
    | sessionTaskDone m => exact Pace.noConfusion hn
    | _ => exact hmay.elim
  | serving b paid' doomed' =>
    obtain ⟨⟨p, hp, rfl⟩, herror⟩ := h.serving n b paid' doomed' hg
    have hkept : w.hasError p.addr = true → w'.hasError p.addr = true :=
      hasError_kept (hw.allocated p hp) hsem (may_connect hmay).1
    have hsame : ∀ paid₁, Pace.serving p.addr paid₁ doomed' = .serving a paid doomed →
        (∃ p ∈ w'.registered, p.addr = a) ∧ (doomed = true → w'.hasError a = true) := by
      intro paid₁ hpace
      obtain ⟨rfl, -, rfl⟩ := Pace.serving.inj hpace
      exact ⟨⟨p, hw'.registered p hp, rfl⟩, fun hdoomed => hkept (herror hdoomed)⟩
    cases o with
    | isOpen b =>
      cases r with
      | true => exact hsame paid' hn
      | false =>
        obtain rfl : b = p.addr := hmay.1
        obtain ⟨rfl, -, -⟩ := Pace.serving.inj hn
        obtain ⟨hclosed, -⟩ := Prod.mk.inj (Option.some.inj hsem)
        exact ⟨⟨p, hw'.registered p hp, rfl⟩, fun _ => hkept (h.closed p hp hclosed)⟩
    | setCriticalError b =>
      obtain rfl : b = p.addr := hmay.1
      obtain ⟨rfl, -, -⟩ := Pace.serving.inj hn
      obtain rfl : w' = w.modify p.addr _ := effect_of_sem hsem
      refine ⟨⟨p, hp, rfl⟩, fun _ => ?_⟩
      rw [World.hasError, World.modify_sessions_self]
    | read b k =>
      cases r with
      | ok bytes => exact hsame _ hn
      | error ec => exact hsame paid' hn
    | getIsWork => exact hsame false hn
    | _ => exact hsame paid' hn
  | idle =>
    cases o with
    | takeTask m => exact Pace.noConfusion hn
    | _ => exact hmay.elim
  | _ => exact hmay.elim

/-- **Every operation keeps the account of the paces.** -/
theorem Paced.step (hK : Knowledge ids unattended fs w) (h : Paced gs w)
    (hallowed : (Registry.rules server unattended t).Allowed (fs t) o) (hmay : May t (gs t) o)
    (hsem : sem ids o c w = some (r, w')) :
    Paced (Function.update gs t (Pace.next t (gs t) o r)) w' := by
  have hmoves := (Registry.moves hK.1 (hK.2 t) hallowed hsem).2
  have hworkers := (Registry.counters_mono hsem).2
  have hserved : ∀ {a doomed}, (∃ p ∈ w.registered, p.addr = a) ∧ (doomed = true → w.hasError a = true) →
      (∃ p ∈ w'.registered, p.addr = a) ∧ (doomed = true → w'.hasError a = true) := by
    rintro a doomed ⟨⟨p, hp, rfl⟩, herror⟩
    exact ⟨⟨p, hmoves.later.registered p hp, rfl⟩, fun hdoomed =>
      hasError_kept (hK.1.allocated p hp) hsem (may_connect hmay).1 (herror hdoomed)⟩
  refine ⟨fun n hn => ?_, fun n a paid doomed hn => ?_, fun p hp hclosed => ?_⟩
  · by_cases ht : t = .reader n
    · subst ht
      rw [Function.update_self] at hn
      by_cases hidle : gs (.reader n) = .idle
      · rw [hidle] at hmay hn
        cases o with
        | takeTask m =>
          obtain rfl : m = n := hmay
          refine Nat.lt_of_lt_of_le ?_ hworkers
          by_contra hge
          simp [sem, List.getElem?_eq_none (Nat.le_of_not_lt hge)] at hsem
        | _ => exact hmay.elim
      · exact Nat.lt_of_lt_of_le (h.began n hidle) hworkers
    · rw [Function.update_of_ne (Ne.symm ht)] at hn
      exact Nat.lt_of_lt_of_le (h.began n hn) hworkers
  · by_cases ht : t = .reader n
    · subst ht
      rw [Function.update_self] at hn
      exact h.serving_next hK.1 hmoves.later hmay hsem hn
    · rw [Function.update_of_ne (Ne.symm ht)] at hn
      exact hserved (h.serving n a paid doomed hn)
  · rcases Registry.inserted_next hallowed hsem hp with hold | ⟨ID, rfl, rfl, hstage, -⟩
    · exact h.closed_next hK.1 hmay hsem hold hclosed
    · -- a client that comes into the map has an open socket
      have hat := (hK.2 .main).stage
      rw [hstage] at hat
      obtain rfl := effect_of_sem hsem
      have hopen : w.isOpen p.addr = true := hat.2.2.2
      exact absurd (hopen.symm.trans hclosed) (fun h => Bool.noConfusion h)

/-- **What a thread sees is possible.** -/
theorem Paced.possible (hK : Knowledge ids unattended fs w) (h : Paced gs w)
    (hpossible : Registry.Possible t (fs t) o r) (hmay : May t (gs t) o) (hcuts : Cuts c)
    (hsem : sem ids o c w = some (r, w')) : Possible t (gs t) o r := by
  cases t with
  | main =>
    cases o with
    | getIsWork =>
      obtain ⟨rfl, -⟩ := Prod.mk.inj (Option.some.inj hsem)
      exact isWork_of_knowledge hK
    | mapFind id => exact hpossible
    | _ => trivial
  | reader n =>
    cases o with
    | getCriticalError b =>
      obtain ⟨rfl, -⟩ := Prod.mk.inj (Option.some.inj hsem)
      intro hdoomed
      cases hg : gs (.reader n) with
      | serving a paid doomed =>
        rw [hg] at hmay hdoomed
        obtain rfl : b = a := hmay
        exact (h.serving n b paid doomed hg).2 hdoomed
      | _ =>
        rw [hg] at hmay
        exact hmay.elim
    | read b k =>
      have hread : readSem b k c w = some (r, w') := hsem
      cases c with
      | ok m =>
        simp only [readSem, Option.ite_none_right_eq_some, Option.some.injEq, Prod.mk.injEq] at hread
        obtain ⟨-, rfl, -⟩ := hread
        trivial
      | fail ec m =>
        simp only [readSem, Option.ite_none_right_eq_some, Option.some.injEq, Prod.mk.injEq] at hread
        obtain ⟨-, rfl, -⟩ := hread
        exact hcuts ec m rfl
      | _ => cases hread
    | _ => trivial
  | _ => trivial

end

/-! ## The companion -/

section

variable (P server ids)

/-- The paces of a server that takes in every client and is left alone. -/
def pacing (hmulti : server.multiConnect = true) :
    Companion (Registry.disciplined P server ids unattended) Pace where
  rules := rules
  loop := fun t l g => atLabel t g l
  fin := fun _ _ => True
  ok := fun _ _ c _ => Cuts c
  inv := Paced
  block_follows := by
    intro t l g hl
    refine (block_follows hmulti hl).mono (fun next g hnext => ?_) (fun _ _ h => h)
    cases next with
    | some l' => exact hnext
    | none => exact hnext
  keeps := fun _ _ _ _ _ _ _ _ hK _ h hmay hpossible ho hcuts hsem =>
    ⟨h.possible hK hpossible ho hcuts hsem, h.step hK hmay ho hsem⟩

theorem pacing_started (hmulti : server.multiConnect = true) :
    (pacing P server ids hmulti).together.Holds (server.started P ids unattended)
      (fun t => (Facts.nothing, Pace.start t)) := by
  refine Companion.holds_together (C := pacing P server ids hmulti)
    (Registry.started_holds P server ids unattended) ⟨?_, ?_, ?_⟩ (fun t => ?_)
  · exact fun n hn => absurd rfl hn
  · exact fun n a paid doomed hn => Pace.noConfusion hn
  · exact fun p hp => absurd hp List.not_mem_nil
  · refine (started_follows P server ids t).mono (fun next g hnext => ?_) (fun _ _ h => h)
    cases next with
    | some l => exact hnext
    | none => exact hnext

end

end NetworkApplication.Rest
