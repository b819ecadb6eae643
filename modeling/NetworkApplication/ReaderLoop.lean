/-
The reader's loop and a socket that another thread closes.

`while(isWork && !session->hasError()) session->read();` is left through the error
flag, and the flag is set by the error branches of a read or a write only. A
`disconnect` of another thread closes the socket and sets nothing, and
`Session::read` does nothing at all on a closed socket. So the loop spins if the
socket is closed while the reader has no transfer ahead of it in its round: the next
`is_open` test fails, the round ends, and nothing has changed.

If the reader does have a transfer ahead, a read of at least one byte or a
`write_some`, the transfer fails, the error of a closed socket is critical, and the
error branch sets the flag before the round is over. That is the invariant of this
file: the socket is open, or the loop is on its way out (`OnItsWayOut`).

What is needed of the code is a property of its programs, not of its states:
`Orderly` says that every error branch behind a transfer sets the flag, and that the
reader itself closes its socket only behind the flag. The two runs at the end close the
socket between the reader's test and its read, which is harmless, and at the head of the
loop, which is not.
-/
import NetworkApplication.SessionPool

set_option autoImplicit false

namespace NetworkApplication.ReaderLoop

open NetworkApplication.Program NetworkApplication.Pool SessionPool

variable {P : Platform} {s : Session} {a : Nat} {α β : Type}

/-! ## Properties of programs -/

/-- The operation that sets the error flag of session `a`. -/
def setsFlag (a : Nat) : Op → Bool
  | .setCriticalError b => b == a
  | _ => false

/-- Every path through the program sets the error flag of session `a`. -/
def Sets (a : Nat) : NetProg α → Prop
  | .op o k => setsFlag a o = true ∨ ∀ r, Sets a (k r)
  | _ => False

/-- The operations that cannot open a socket or set `isWork`. -/
def Calm : Op → Prop
  | .connect _ | .async_accept _ | .makeSession _ | .makeSessionManager | .setIsWork true => False
  | _ => True

/-- The result of a transfer is a critical error. -/
def Critical : (o : Op) → o.Res → Prop
  | .read _ _, r => ∃ ec, r = .error ec ∧ check_error ec = true
  | .write_some _ _ _, r => ∃ ec, r = .error ec ∧ check_error ec = true
  | _, _ => False

/-- The program opens nothing, sets the flag of session `a` on every critical error
of a transfer, and closes a socket only behind the flag; `flagged` says that it is
set already. -/
def Orderly (a : Nat) : Bool → NetProg α → Prop
  | flagged, .op o k => Calm o ∧ (flagged = false → ∀ b, o ≠ .close b) ∧
      (∀ r, Critical o r → Sets a (k r)) ∧
      ∀ r, Orderly a (flagged || setsFlag a o) (k r)
  | _, _ => True

theorem Sets.bind {p : NetProg α} {f : α → NetProg β} (hp : Sets a p) : Sets a (p >>= f) := by
  induction p with
  | pure x => exact hp.elim
  | throw e => exact hp.elim
  | crash => exact hp.elim
  | op o k ih =>
    rcases hp with ho | hk
    · exact .inl ho
    · exact .inr (fun r => ih r (hk r))

theorem Sets.bind_right {p : NetProg α} {f : α → NetProg β} (hp : p.Returns)
    (hf : ∀ x, Sets a (f x)) : Sets a (p >>= f) := by
  induction p with
  | pure x => exact hf x
  | throw e => exact hp.elim
  | crash => exact hp.elim
  | op o k ih => exact .inr (fun r => ih r (hp r))

theorem Sets.tryCatch {p : NetProg α} {h : Exception → NetProg α} (hp : Sets a p) :
    Sets a (p.tryCatch h) := by
  induction p with
  | pure x => exact hp.elim
  | throw e => exact hp.elim
  | crash => exact hp.elim
  | op o k ih =>
    rcases hp with ho | hk
    · exact .inl ho
    · exact .inr (fun r => ih r (hk r))

theorem Orderly.mono {p : NetProg α} {b b' : Bool} (hb : b = true → b' = true)
    (h : Orderly a b p) : Orderly a b' p := by
  induction p generalizing b b' with
  | pure x => trivial
  | throw e => trivial
  | crash => trivial
  | op o k ih =>
    obtain ⟨hcalm, hclose, hcritical, hnext⟩ := h
    refine ⟨hcalm, fun hb' => hclose ?_, hcritical, fun r => ih r ?_ (hnext r)⟩
    · cases b with
      | false => rfl
      | true => exact absurd (hb rfl) (by rw [hb']; decide)
    · simp only [Bool.or_eq_true]
      exact Or.imp_left hb

theorem Orderly.bind {p : NetProg α} {f : α → NetProg β} {b : Bool} (hp : Orderly a b p)
    (hf : ∀ x, Orderly a b (f x)) : Orderly a b (p >>= f) := by
  induction p generalizing b with
  | pure x => exact hf x
  | throw e => trivial
  | crash => trivial
  | op o k ih =>
    obtain ⟨hcalm, hclose, hcritical, hnext⟩ := hp
    refine ⟨hcalm, hclose, fun r hr => (hcritical r hr).bind, fun r => ih r (hnext r) ?_⟩
    exact fun x => (hf x).mono (by simp only [Bool.or_eq_true]; exact Or.inl)

theorem Orderly.tryCatch {p : NetProg α} {h : Exception → NetProg α} {b : Bool}
    (hp : Orderly a b p) (hh : ∀ e, Orderly a b (h e)) : Orderly a b (p.tryCatch h) := by
  induction p generalizing b with
  | pure x => trivial
  | throw e => exact hh e
  | crash => trivial
  | op o k ih =>
    obtain ⟨hcalm, hclose, hcritical, hnext⟩ := hp
    refine ⟨hcalm, hclose, fun r hr => (hcritical r hr).tryCatch, fun r => ih r (hnext r) ?_⟩
    exact fun e => (hh e).mono (by simp only [Bool.or_eq_true]; exact Or.inl)

theorem Orderly.when {c b : Bool} {p : NetProg Unit} (hp : c = true → Orderly a b p) :
    Orderly a b (Prog.when c p) := by
  cases c with
  | true => exact hp rfl
  | false => trivial

/-- One operation and what follows it. -/
theorem orderly_call_bind {b : Bool} {o : Op} {k : o.Res → NetProg α} :
    Orderly a b (call o >>= k) ↔ Calm o ∧ (b = false → ∀ c, o ≠ .close c) ∧
      (∀ r, Critical o r → Sets a (k r)) ∧ ∀ r, Orderly a (b || setsFlag a o) (k r) := Iff.rfl

/-- An operation that is no transfer and closes nothing. -/
theorem orderly_call {b : Bool} {o : Op} (hcalm : Calm o) (hclose : ∀ c, o ≠ .close c)
    (hcritical : ∀ r, ¬ Critical o r) : Orderly a b (call o) :=
  ⟨hcalm, fun _ => hclose, fun r hr => absurd hr (hcritical r), fun _ => trivial⟩

/-! ## The functions of a session -/

/-- What the callbacks of a session have to be like: they are orderly, and those that
the error branches make come back. -/
structure OrderlyCallbacks (s : Session) : Prop where
  onError : ∀ ec, (invoke s.onError ec).Returns ∧ Orderly s.addr false (invoke s.onError ec)
  on_all_write : ∀ ec,
    (invoke s.on_all_write ec).Returns ∧ Orderly s.addr false (invoke s.on_all_write ec)
  on_disconnect : ∀ ec, Orderly s.addr false (invoke s.on_disconnect ec)
  onReadHandler : ∀ x, Orderly s.addr false (invoke s.onReadHandler x)
  on_all_read : ∀ x, Orderly s.addr false (invoke s.on_all_read x)
  on_all_read_none : ∀ ec, (invoke s.on_all_read (ec, none)).Returns

theorem orderly_disconnect (hs : OrderlyCallbacks s) : Orderly s.addr true s.disconnect := by
  have hmono : ∀ {p : NetProg Unit}, Orderly s.addr false p → Orderly s.addr true p :=
    fun h => h.mono (fun _ => rfl)
  unfold Session.disconnect ConnectHandler.disconnect
  refine Orderly.bind (orderly_call trivial nofun (fun _ h => h)) (fun is_open => ?_)
  split
  · trivial
  refine Orderly.bind (orderly_call trivial nofun (fun _ h => h)) (fun ec => ?_)
  refine Orderly.bind (Orderly.when (fun _ => hmono (hs.onError ec).2)) (fun _ => ?_)
  -- the close itself, behind the flag
  refine orderly_call_bind.mpr ⟨trivial, nofun, fun _ h => h.elim, fun ec => ?_⟩
  exact Orderly.bind (Orderly.when (fun _ => hmono (hs.onError ec).2))
    (fun _ => hmono (hs.on_disconnect ec))

theorem orderly_criticalError (hs : OrderlyCallbacks s) :
    Orderly s.addr false s.criticalError := by
  refine orderly_call_bind.mpr ⟨trivial, fun _ => nofun, fun _ h => h.elim, fun r => ?_⟩
  have hflag : setsFlag s.addr (.setCriticalError s.addr) = true := beq_self_eq_true s.addr
  rw [hflag]
  exact orderly_disconnect hs

theorem sets_criticalError : Sets s.addr s.criticalError := .inl (beq_self_eq_true s.addr)

theorem orderly_onAllRead (hs : OrderlyCallbacks s) (ec : ErrorCode) (tm : TransportMessage) :
    Orderly s.addr false (s.onAllRead P (ec, tm)) := by
  cases hec : check_error ec with
  | false =>
    rw [Session.onAllRead_of_not_critical P s hec]
    exact hs.on_all_read _
  | true =>
    rw [Session.onAllRead_of_critical P s hec]
    exact Orderly.bind (hs.on_all_read _) (fun _ => orderly_criticalError hs)

/-- A critical error handed to `onAllRead` sets the flag. -/
theorem sets_onAllRead (hs : OrderlyCallbacks s) {ec : ErrorCode} (hec : check_error ec = true)
    (tm : TransportMessage) : Sets s.addr (s.onAllRead P (ec, tm)) := by
  rw [Session.onAllRead_of_critical P s hec]
  exact Sets.bind_right (hs.on_all_read_none ec) (fun _ => sets_criticalError)

theorem orderly_errorHandler (hs : OrderlyCallbacks s) (ec : ErrorCode) :
    Orderly s.addr false ((s.transport_handler P).errorHandler ec) := by
  unfold TransportHandler.errorHandler
  refine Orderly.bind (Orderly.when (fun _ => (hs.onError ec).2)) (fun _ => ?_)
  split
  · exact Orderly.bind (orderly_onAllRead hs ec _) (fun _ => trivial)
  · trivial

theorem sets_errorHandler (hs : OrderlyCallbacks s) {ec : ErrorCode}
    (hec : check_error ec = true) :
    Sets s.addr ((s.transport_handler P).errorHandler ec) := by
  unfold TransportHandler.errorHandler
  refine Sets.bind_right (Prog.Returns.when (hs.onError ec).1) (fun _ => ?_)
  rw [if_pos (failed_of_check_error hec)]
  exact (sets_onAllRead hs hec _).bind

/-- A read and what follows it, when a critical error goes to `errorHandler`. -/
theorem orderly_read_op (hs : OrderlyCallbacks s) (n : Nat) (rest : List UInt8 → NetProg Unit)
    (hrest : ∀ bytes, Orderly s.addr false (rest bytes)) :
    Orderly s.addr false (call (.read s.addr n) >>= fun r =>
      (s.transport_handler P).errorHandler (TransportHandler.readError r) >>= fun b =>
        if b = true then Prog.pure () else rest (r.toOption.getD [])) := by
  refine orderly_call_bind.mpr ⟨trivial, fun _ => nofun, ?_, fun r => ?_⟩
  · rintro r ⟨ec, rfl, hec⟩
    exact (sets_errorHandler hs hec).bind
  · refine Orderly.bind (orderly_errorHandler hs _) (fun b => ?_)
    split
    · trivial
    · exact hrest _

theorem orderly_read_json (hs : OrderlyCallbacks s) (payload : List UInt8) :
    Orderly s.addr false ((s.transport_handler P).read_json P payload) := by
  unfold TransportHandler.read_json
  refine Orderly.bind (orderly_errorHandler hs _) (fun b => ?_)
  split
  · trivial
  refine Orderly.bind (hs.onReadHandler _) (fun _ => ?_)
  split
  · trivial
  · exact orderly_onAllRead hs _ _

theorem orderly_read_sync (hs : OrderlyCallbacks s) :
    Orderly s.addr false ((s.transport_handler P).read_sync P) := by
  refine orderly_read_op (P := P) hs 8 (fun bytes =>
    if magicOf bytes ≠ s.magicNumber then
      (s.transport_handler P).errorHandler .eof >>= fun _ => pure ()
    else (s.transport_handler P).read_payload P (lengthOf bytes)) (fun bytes => ?_)
  split
  · exact Orderly.bind (orderly_errorHandler hs _) (fun _ => trivial)
  · exact orderly_read_op hs _ _ (fun payload => orderly_read_json hs payload)

theorem orderly_read (hs : OrderlyCallbacks s) : Orderly s.addr false (s.read P) :=
  Orderly.bind (orderly_call trivial nofun (fun _ h => h))
    (fun _ => Orderly.when (fun _ => orderly_read_sync hs))

/-- The composed write and what follows it, when what follows sets the flag on a
critical error. -/
theorem orderly_asio_write {f : ErrorCode → NetProg Unit} (hf : ∀ ec, Orderly a false (f ec))
    (hcritical : ∀ ec, check_error ec = true → Sets a (f ec)) (bound sent : Nat)
    (rest : List UInt8) : Orderly a false (asio_write a bound sent rest >>= f) := by
  induction bound generalizing sent rest with
  | zero => exact hf _
  | succ bound ih =>
    unfold asio_write
    split
    · exact hf _
    · rw [bind_assoc]
      refine orderly_call_bind.mpr ⟨trivial, fun _ => nofun, ?_, fun r => ?_⟩
      · rintro r ⟨ec, rfl, hec⟩
        exact hcritical ec hec
      · cases r with
        | ok n => exact ih _ _
        | error ec => exact hf ec

theorem orderly_write (hs : OrderlyCallbacks s) (message : Option Message) :
    Orderly s.addr false (s.write P message) := by
  refine Orderly.tryCatch (orderly_asio_write (fun ec => ?_) (fun ec hec => ?_) _ _ _)
    (fun _ => trivial)
  · refine Orderly.bind (Orderly.when (fun _ => (hs.onError ec).2)) (fun _ => ?_)
    exact Orderly.bind (hs.on_all_write ec).2 (fun _ => Orderly.when (fun _ => orderly_criticalError hs))
  · refine Sets.bind_right (Prog.Returns.when (hs.onError ec).1) (fun _ => ?_)
    refine Sets.bind_right (hs.on_all_write ec).1 (fun _ => ?_)
    rw [hec, Prog.when_true]
    exact sets_criticalError

/-! ## The sessions that are read in the loop -/

theorem returns_removeSession (id : UInt32) : (SessionManager.removeSession id).Returns := by
  intro r
  cases r with
  | none => trivial
  | some ptr => exact fun _ => trivial

theorem orderly_removeSession (id : UInt32) :
    Orderly a false (SessionManager.removeSession id) := by
  refine Orderly.bind (orderly_call trivial nofun (fun _ h => h)) (fun r => ?_)
  cases r with
  | none => trivial
  | some ptr => exact orderly_call trivial nofun (fun _ h => h)

theorem orderly_createResponse (message : Option Message) :
    Orderly a false (RequestResponseHandler.createResponse message) := by
  have hcall : ∀ lo hi, Orderly a false (call (.uniform_int lo hi)) :=
    fun _ _ => orderly_call trivial nofun (fun _ h => h)
  have hdraw : ∀ n, Orderly a false (RequestResponseHandler.drawSamples n) := by
    intro n
    induction n with
    | zero => trivial
    | succ n ih =>
      refine Orderly.bind (orderly_call trivial nofun (fun _ h => h)) (fun _ => ?_)
      refine Orderly.bind (orderly_call trivial nofun (fun _ h => h)) (fun _ => ?_)
      exact Orderly.bind ih (fun _ => trivial)
  unfold RequestResponseHandler.createResponse
  split
  · trivial
  split
  · trivial
  split
  · refine Orderly.bind (hcall _ _) (fun n => Orderly.bind (hdraw _) (fun _ => ?_))
    exact Orderly.bind (hcall _ _) (fun _ => trivial)
  split
  · exact Orderly.bind (hcall _ _) (fun _ => trivial)
  · trivial

/-- The callbacks of a server's session are orderly if its `on_all_read` is. -/
theorem orderlyCallbacks_server (server : SegmentServer) (ptr : SessionPtr)
    (on_all_read : Option (ErrorCode × Option Message → NetProg Unit))
    (hread : ∀ x, Orderly ptr.addr false (invoke on_all_read x))
    (hnone : ∀ ec, (invoke on_all_read (ec, none)).Returns) :
    OrderlyCallbacks (server.sessionManager.session ptr on_all_read) where
  onError := fun _ => ⟨returns_removeSession _, orderly_removeSession _⟩
  on_all_write := fun _ => ⟨trivial, trivial⟩
  on_disconnect := fun _ => trivial
  onReadHandler := fun x => by
    show Orderly ptr.addr false (invoke server.sessionManager.readHandlerForSession x)
    unfold SegmentServer.sessionManager
    split
    · exact orderly_call trivial nofun (fun _ h => h)
    · trivial
  on_all_read := hread
  on_all_read_none := hnone

theorem orderlyCallbacks_of_loopSession (hs : LoopSession P s) : OrderlyCallbacks s := by
  cases hs with
  | server server ptr =>
    have hwriter : OrderlyCallbacks (server.session ptr) :=
      orderlyCallbacks_server server ptr none (fun _ => trivial) (fun _ => trivial)
    refine orderlyCallbacks_server server ptr _ (fun x => ?_) (fun _ => trivial)
    obtain ⟨ec, message⟩ := x
    show Orderly ptr.addr false (server.onAllRead P ptr (ec, message))
    cases message with
    | none => trivial
    | some m =>
      unfold SegmentServer.onAllRead
      dsimp only
      split
      · trivial
      · exact Orderly.bind (orderly_createResponse _) (fun _ => orderly_write hwriter _)
  | client client =>
    refine ⟨fun _ => ⟨trivial, trivial⟩, fun _ => ⟨trivial, trivial⟩, fun _ => trivial, fun x => ?_,
      fun _ => trivial, fun _ => trivial⟩
    show Orderly client.socket false (invoke client.connected.onReadHandler x)
    unfold SegmentClient.connected
    split
    · exact orderly_call trivial nofun (fun _ h => h)
    · trivial

theorem orderly_readLoop (hs : OrderlyCallbacks s) : Orderly s.addr false (readLoop P s) := by
  refine Orderly.tryCatch (Orderly.bind (orderly_call trivial nofun (fun _ h => h))
    (fun isWork => ?_)) (fun _ => trivial)
  split
  · refine Orderly.bind (orderly_call trivial nofun (fun _ h => h)) (fun hasError => ?_)
    split
    · trivial
    · exact Orderly.bind (orderly_read hs) (fun _ => trivial)
  · trivial

/-- The other threads open nothing. -/
theorem orderly_block (hs : OrderlyCallbacks s) (l : SessionLabel) :
    Orderly s.addr true (block P s l) := by
  cases l with
  | readLoop => exact (orderly_readLoop hs).mono (fun _ => rfl)
  | userLoop =>
    refine Orderly.bind (orderly_call trivial nofun (fun _ h => h)) (fun command => ?_)
    cases command with
    | sessionDisconnect => exact Orderly.bind (orderly_disconnect hs) (fun _ => trivial)
    | sessionWrite message =>
      exact Orderly.bind ((orderly_write hs _).mono (fun _ => rfl)) (fun _ => trivial)
    | disconnect id => trivial
    | write id data => trivial
  | networkLoop => exact Orderly.bind (orderly_call trivial nofun (fun _ h => h)) (fun _ => trivial)

/-! ## Steps on a closed socket -/

/-- The operation moves at least one byte over the socket of session `a`, or fails. -/
def Transfers (a : Nat) : Op → Prop
  | .read b n => b = a ∧ 0 < n
  | .write_some b _ _ => b = a
  | _ => False

/-- Before it is back at the head of the loop, every path through the rest of the
round transfers something or sets the flag, or leaves the loop. -/
def OnItsWayOut (a : Nat) : NetProg (Option SessionLabel) → Prop
  | .pure (some _) => False
  | .op o k => Transfers a o ∨ setsFlag a o = true ∨ ∀ r, OnItsWayOut a (k r)
  | _ => True

theorem OnItsWayOut.of_sets {p : NetProg (Option SessionLabel)} (h : Sets a p) :
    OnItsWayOut a p := by
  induction p with
  | pure x => exact h.elim
  | throw e => trivial
  | crash => trivial
  | op o k ih =>
    rcases h with ho | hk
    · exact .inr (.inl ho)
    · exact .inr (.inr (fun r => ih r (hk r)))

variable {ids : Nat → UInt64} {o : Op} {c : Choice} {r : o.Res} {w w' : World}

/-- A transfer on a closed socket is a critical error. -/
theorem critical_of_closed (h : sem ids o c w = some (r, w')) (htransfers : Transfers a o)
    (hclosed : w.isOpen a = false) : Critical o r := by
  cases o with
  | read b n =>
    obtain ⟨rfl, hn⟩ := htransfers
    cases c with
    | ok m =>
      simp only [sem, readSem, hclosed, Option.ite_none_right_eq_some] at h
      exact absurd h.1 (by simp; omega)
    | fail ec m =>
      simp only [sem, readSem, hclosed, Option.ite_none_right_eq_some, Option.some.injEq,
        Prod.mk.injEq] at h
      have hec : ec.ofClosed = true := by simpa using h.1.2.2
      exact ⟨ec, h.2.1.symm, check_error_of_ofClosed hec⟩
    | _ => cases h
  | write_some b sent rest =>
    obtain rfl : b = a := htransfers
    cases c with
    | ok m =>
      simp only [sem, writeSem, hclosed, Option.ite_none_right_eq_some] at h
      exact absurd h.1.1 (by decide)
    | fail ec m =>
      simp only [sem, writeSem, hclosed, Option.ite_none_right_eq_some, Option.some.injEq,
        Prod.mk.injEq] at h
      have hec : ec.ofClosed = true := by simpa using h.1.2
      exact ⟨ec, h.2.1.symm, check_error_of_ofClosed hec⟩
    | _ => cases h
  | _ => exact htransfers.elim

/-- `w'` differs from `w` in nothing the loop depends on: neither in the socket, the
flag and the accept of session `a` nor in `isWork`. -/
structure Kept (a : Nat) (w w' : World) : Prop where
  isOpen : w'.isOpen a = w.isOpen a
  hasError : w'.hasError a = w.hasError a
  accept : (w'.sessions a).accept = (w.sessions a).accept
  isWork : w'.isWork = w.isWork

theorem Kept.refl (a : Nat) (w : World) : Kept a w w := ⟨rfl, rfl, rfl, rfl⟩

/-- Changing the bytes of a session, or anything of another one. -/
theorem kept_modify {b : Nat} {f : SessionObject → SessionObject}
    (hf : b = a → (f (w.sessions a)).isOpen = (w.sessions a).isOpen ∧
      (f (w.sessions a)).criticalError = (w.sessions a).criticalError ∧
      (f (w.sessions a)).accept = (w.sessions a).accept) : Kept a w (w.modify b f) := by
  by_cases hab : b = a
  · subst hab
    obtain ⟨hopen, herror, haccept⟩ := hf rfl
    refine ⟨?_, ?_, ?_, rfl⟩
    · rw [World.isOpen, World.modify_sessions_self, hopen, World.isOpen]
    · rw [World.hasError, World.modify_sessions_self, herror, World.hasError]
    · rw [World.modify_sessions_self, haccept]
  · have hsame := w.modify_sessions_of_ne (Ne.symm hab) f
    refine ⟨?_, ?_, ?_, rfl⟩
    · rw [World.isOpen, hsame, World.isOpen]
    · rw [World.hasError, hsame, World.hasError]
    · rw [hsame]

/-- What one calm operation may do to what the loop depends on: it closes the socket,
sets the flag or clears `isWork`, each with its own operation, and nothing else. -/
theorem calm_sem (h : sem ids o c w = some (r, w')) (hcalm : Calm o)
    (haccept : (w.sessions a).accept ≠ .pending) :
    (Kept a w w' ∧ setsFlag a o = false) ∨
      (o = .close a ∧ w'.isOpen a = false ∧ w'.hasError a = w.hasError a ∧
        (w'.sessions a).accept = (w.sessions a).accept ∧ w'.isWork = w.isWork) ∨
      (o = .setCriticalError a ∧ w'.isOpen a = w.isOpen a ∧ w'.hasError a = true ∧
        (w'.sessions a).accept = (w.sessions a).accept ∧ w'.isWork = w.isWork) ∨
      (o = .setIsWork false ∧ w'.sessions = w.sessions ∧ w'.isWork = false) := by
  have hsame : ∀ {v : World}, v.sessions = w.sessions → v.isWork = w.isWork → Kept a w v := by
    intro v hsessions hisWork
    exact ⟨by simp only [World.isOpen, hsessions], by simp only [World.hasError, hsessions],
      by rw [hsessions], hisWork⟩
  have heffect := effect_of_sem h
  cases o with
  | connect b => exact hcalm.elim
  | async_accept b => exact hcalm.elim
  | makeSession id => exact hcalm.elim
  | makeSessionManager => exact hcalm.elim
  | setIsWork b =>
    cases b with
    | true => exact hcalm.elim
    | false =>
      obtain rfl := heffect
      exact .inr (.inr (.inr ⟨rfl, rfl, rfl⟩))
  -- a transfer touches the bytes of its session only
  | read b n =>
    obtain ⟨rx, rfl⟩ := heffect
    exact .inl ⟨kept_modify (fun _ => ⟨rfl, rfl, rfl⟩), rfl⟩
  | write_some b sent rest =>
    obtain ⟨tx, rfl⟩ := heffect
    exact .inl ⟨kept_modify (fun _ => ⟨rfl, rfl, rfl⟩), rfl⟩
  | close b =>
    obtain rfl := heffect
    by_cases hab : b = a
    · subst hab
      refine .inr (.inl ⟨rfl, ?_, ?_, ?_, rfl⟩)
      · rw [World.isOpen, World.modify_sessions_self]
      · rw [World.hasError, World.modify_sessions_self, World.hasError]
      · rw [World.modify_sessions_self]
    · exact .inl ⟨kept_modify (fun h => absurd h hab), rfl⟩
  | setCriticalError b =>
    obtain rfl := heffect
    by_cases hab : b = a
    · subst hab
      refine .inr (.inr (.inl ⟨rfl, ?_, ?_, ?_, rfl⟩))
      · rw [World.isOpen, World.modify_sessions_self, World.isOpen]
      · rw [World.hasError, World.modify_sessions_self]
      · rw [World.modify_sessions_self]
    · exact .inl ⟨kept_modify (fun h => absurd h hab), beq_false_of_ne hab⟩
  | network =>
    -- an accept that completes is not the one of session `a`, which has none pending
    obtain ⟨b, ec, hpending, -, rfl⟩ | ⟨b, rx, rfl⟩ := heffect
    · exact .inl ⟨kept_modify (fun hab => absurd (hab ▸ hpending) haccept), rfl⟩
    · exact .inl ⟨kept_modify (fun _ => ⟨rfl, rfl, rfl⟩), rfl⟩
  | _ =>
    obtain rfl := heffect
    exact .inl ⟨hsame rfl rfl, rfl⟩

/-! ## The invariant -/

/-- The invariant: the socket is open, or the loop is being left, or the rest of the
round runs into the closed socket or is on the error branch behind it. -/
structure Invariant (P : Platform) (s : Session) (st : (system P s).State) : Prop where
  reader : Orderly s.addr (st.world.hasError s.addr) (st.threads .reader)
  others : ∀ t, t ≠ .reader → Orderly s.addr true (st.threads t)
  loops : (st.threads .reader).Ends (fun next => next = none ∨ next = some .readLoop)
  accepted : (st.world.sessions s.addr).accept ≠ .pending
  way_out : st.world.isOpen s.addr = true ∨ st.world.hasError s.addr = true ∨
    st.world.isWork = false ∨ OnItsWayOut s.addr (st.threads .reader)

/-- A thread other than the reader closes the socket only while the reader has a
transfer ahead of it in its round, or when the loop is being left anyway. -/
def ClosesDuringTransfer (P : Platform) (s : Session) (st : (system P s).State)
    (t : SessionThread) (_ : Choice) : Prop :=
  t ≠ .reader → ∀ k, st.threads t = .op (.close s.addr) k →
    OnItsWayOut s.addr (st.threads .reader) ∨ st.world.hasError s.addr = true ∨
      st.world.isWork = false

theorem ends_readLoop (P : Platform) (s : Session) :
    (readLoop P s).Ends (fun next => next = none ∨ next = some .readLoop) := by
  refine Prog.Ends.tryCatch (Prog.Ends.bind (fun isWork => ?_)) (fun _ => .inl rfl)
  split
  · refine Prog.Ends.bind (fun hasError => ?_)
    split
    · exact .inl rfl
    · exact Prog.Ends.bind (fun _ => .inr rfl)
  · exact .inl rfl

/-- Every thread of the pool is orderly, the reader as far as its flag is set. -/
theorem Invariant.orderly {st : (system P s).State} (hi : Invariant P s st) (t : SessionThread) :
    Orderly s.addr true (st.threads t) := by
  by_cases ht : t = .reader
  · subst ht
    exact hi.reader.mono (fun _ => rfl)
  · exact hi.others t ht

/-- A jump keeps the invariant: nothing is at the head of the loop with the socket
closed and neither flag telling it to stop. -/
theorem invariant_jump (hs : OrderlyCallbacks s) {st : (system P s).State} {t : SessionThread}
    {l : SessionLabel} (hi : Invariant P s st) (hl : st.threads t = .pure (some l)) :
    Invariant P s { st with threads := Function.update st.threads t (block P s l) } := by
  by_cases ht : t = .reader
  · subst ht
    -- the reader jumps to the head of its loop only
    have hloops := hi.loops
    rw [hl] at hloops
    obtain rfl : l = .readLoop := by
      rcases hloops with hnone | hsome
      · cases hnone
      · exact Option.some.inj hsome
    have hway := hi.way_out
    rw [hl] at hway
    refine ⟨?_, fun t ht => ?_, ?_, hi.accepted, ?_⟩
    · simp only [Function.update_self]
      have hfalse : Orderly s.addr false (readLoop P s) := orderly_readLoop hs
      exact hfalse.mono (fun h => absurd h Bool.false_ne_true)
    · simp only [Function.update_of_ne ht]
      exact hi.others t ht
    · simp only [Function.update_self]
      exact ends_readLoop P s
    · exact hway.imp_right (Or.imp_right (Or.imp_right False.elim))
  -- another thread jumps, and the reader stays where it is
  · have hreader : Function.update st.threads t (block P s l) .reader = st.threads .reader :=
      Function.update_of_ne (Ne.symm ht) _ _
    refine ⟨?_, fun u hu => ?_, ?_, hi.accepted, ?_⟩
    · simp only [hreader]
      exact hi.reader
    · by_cases hut : u = t
      · subst hut
        simp only [Function.update_self]
        exact orderly_block hs l
      · simp only [Function.update_of_ne hut]
        exact hi.others u hu
    · simp only [hreader]
      exact hi.loops
    · simp only [hreader]
      exact hi.way_out

/-- What an operation does to the flag. -/
theorem hasError_sem (h : sem ids o c w = some (r, w')) (hcalm : Calm o)
    (haccept : (w.sessions a).accept ≠ .pending) :
    w'.hasError a = (w.hasError a || setsFlag a o) := by
  rcases calm_sem h hcalm haccept with
    ⟨hkept, hflag⟩ | ⟨rfl, -, herror, -⟩ | ⟨rfl, -, herror, -⟩ | ⟨rfl, hsessions, -⟩
  · rw [hkept.hasError, hflag, Bool.or_false]
  · exact herror.trans (Bool.or_false _).symm
  · rw [herror, setsFlag, beq_self_eq_true, Bool.or_true]
  · rw [World.hasError, hsessions]
    exact (Bool.or_false _).symm

theorem accept_sem (h : sem ids o c w = some (r, w')) (hcalm : Calm o)
    (haccept : (w.sessions a).accept ≠ .pending) : (w'.sessions a).accept ≠ .pending := by
  rcases calm_sem h hcalm haccept with
    ⟨hkept, -⟩ | ⟨-, -, -, hsame, -⟩ | ⟨-, -, -, hsame, -⟩ | ⟨-, hsessions, -⟩
  · rwa [hkept.accept]
  · rwa [hsame]
  · rwa [hsame]
  · rwa [hsessions]

/-- An operation of the reader: on a closed socket a transfer fails with a critical
error, and that turns the rest of the round into the error branch. -/
theorem way_out_reader {k : o.Res → NetProg (Option SessionLabel)}
    (h : sem ids o c w = some (r, w')) (haccept : (w.sessions a).accept ≠ .pending)
    (horderly : Orderly a (w.hasError a) (.op o k))
    (hway : w.isOpen a = true ∨ w.hasError a = true ∨ w.isWork = false ∨
      OnItsWayOut a (.op o k : NetProg (Option SessionLabel))) :
    w'.isOpen a = true ∨ w'.hasError a = true ∨ w'.isWork = false ∨ OnItsWayOut a (k r) := by
  obtain ⟨hcalm, hclose, hcritical, -⟩ := horderly
  rcases calm_sem h hcalm haccept with
    ⟨hkept, hflag⟩ | ⟨ho, -, herror, -⟩ | ⟨-, -, herror, -⟩ | ⟨-, -, hisWork⟩
  · rw [hkept.isOpen, hkept.hasError, hkept.isWork]
    cases hopen : w.isOpen a with
    | true => exact .inl rfl
    | false =>
      rw [hopen] at hway
      refine .inr ((hway.resolve_left Bool.false_ne_true).imp_right (Or.imp_right ?_))
      rintro (htransfers | hsets | hnext)
      · exact OnItsWayOut.of_sets (hcritical r (critical_of_closed h htransfers hopen))
      · exact absurd (hflag.symm.trans hsets) Bool.false_ne_true
      · exact hnext r
  · -- the reader closes its socket behind the flag only
    right; left
    rw [herror]
    cases hflagged : w.hasError a with
    | true => rfl
    | false => exact absurd ho (hclose hflagged a)
  · exact .inr (.inl herror)
  · exact .inr (.inr (.inl hisWork))

/-- An operation of another thread. Its `close` is the one that the condition is
about. -/
theorem way_out_other {p : NetProg (Option SessionLabel)} (h : sem ids o c w = some (r, w'))
    (haccept : (w.sessions a).accept ≠ .pending) (hcalm : Calm o)
    (hclose : o = .close a → OnItsWayOut a p ∨ w.hasError a = true ∨ w.isWork = false)
    (hway : w.isOpen a = true ∨ w.hasError a = true ∨ w.isWork = false ∨ OnItsWayOut a p) :
    w'.isOpen a = true ∨ w'.hasError a = true ∨ w'.isWork = false ∨ OnItsWayOut a p := by
  rcases calm_sem h hcalm haccept with
    ⟨hkept, -⟩ | ⟨ho, -, herror, -, hisWork⟩ | ⟨-, -, herror, -⟩ | ⟨-, -, hisWork⟩
  · rwa [hkept.isOpen, hkept.hasError, hkept.isWork]
  · rw [herror, hisWork]
    rcases hclose ho with hout | hflagged | hstopped
    · exact .inr (.inr (.inr hout))
    · exact .inr (.inl hflagged)
    · exact .inr (.inr (.inl hstopped))
  · exact .inr (.inl herror)
  · exact .inr (.inr (.inl hisWork))

/-- **Step lemma.** -/
theorem invariant_step (hs : OrderlyCallbacks s) {st st' : (system P s).State}
    {t : SessionThread} {c : Choice} (hi : Invariant P s st) (hok : ClosesDuringTransfer P s st t c)
    (h : System.step st t c = some st') : Invariant P s st' := by
  rcases System.step_cases h with ⟨l, hl, rfl⟩ | ⟨o, k, r, w, hk, hsem, rfl⟩
  · exact invariant_jump hs hi hl
  replace hsem : sem (fun _ => 0) o c st.world = some (r, w) := hsem
  -- no thread opens the socket again, accepts or sets `isWork`
  have hcalm : Calm o := by
    have := hi.orderly t
    rw [hk] at this
    exact this.1
  have haccept := accept_sem (a := s.addr) hsem hcalm hi.accepted
  have hflag := hasError_sem (a := s.addr) hsem hcalm hi.accepted
  by_cases ht : t = .reader
  · subst ht
    have hreader := hi.reader
    have hloops := hi.loops
    have hway := hi.way_out
    rw [hk] at hreader hloops hway
    refine ⟨?_, fun u hu => ?_, ?_, haccept, ?_⟩
    · simp only [Function.update_self, hflag]
      exact hreader.2.2.2 r
    · simp only [Function.update_of_ne hu]
      exact hi.others u hu
    · simp only [Function.update_self]
      exact hloops r
    · simp only [Function.update_self]
      -- the read or its error branch is one operation further on
      exact way_out_reader hsem hi.accepted hreader hway
  · have hne : Function.update st.threads t (k r) .reader = st.threads .reader :=
      Function.update_of_ne (Ne.symm ht) _ _
    refine ⟨?_, fun u hu => ?_, ?_, haccept, ?_⟩
    · simp only [hne, hflag]
      exact hi.reader.mono (fun h => by rw [h, Bool.true_or])
    · by_cases hut : u = t
      · subst hut
        have horderly := hi.others u hu
        rw [hk] at horderly
        simp only [Function.update_self]
        exact horderly.2.2.2 r
      · simp only [Function.update_of_ne hut]
        exact hi.others u hu
    · simp only [hne]
      exact hi.loops
    · simp only [hne]
      -- another thread may close the socket during a transfer of the reader only
      refine way_out_other hsem hi.accepted hcalm (fun ho => ?_) hi.way_out
      subst ho
      exact hok ht k hk

/-- The pool starts with the invariant: the socket is connected, and no thread has done
anything yet. -/
theorem invariant_connected {w : World} (hopen : w.isOpen s.addr = true)
    (haccept : (w.sessions s.addr).accept ≠ .pending) : Invariant P s (connected P s w) where
  reader := trivial
  others := fun t ht => by
    cases t with
    | reader => exact absurd rfl ht
    | user n => trivial
    | stopper => exact Orderly.bind (orderly_call trivial nofun (fun _ h => h)) (fun _ => trivial)
    | network => trivial
  loops := .inr rfl
  accepted := haccept
  way_out := .inl hopen

/-! ## One iteration -/

/-- The thread is about to read on the open socket of `s`. -/
def ReadsOpen (P : Platform) (s : Session) (st : (system P s).State) (t : SessionThread) : Prop :=
  t = .reader ∧ st.world.isOpen s.addr = true ∧ ∃ n k, st.threads t = .op (.read s.addr n) k

/-- An iteration of the loop without a read on the open socket: it starts with the jump
from the head of the loop in `st` to `st'`, and `st₁` is the next time that the reader
is at the head. -/
structure IdleIteration (P : Platform) (s : Session)
    (ok : (system P s).State → SessionThread → Choice → Prop) (st st' st₁ : (system P s).State) :
    Prop where
  head : st.threads .reader = .pure (some .readLoop)
  jump : ∃ c, System.step st .reader c = some st'
  run : System.Steps (fun st t c => ok st t c ∧ ¬ ReadsOpen P s st t) st' st₁
  again : st₁.threads .reader = .pure (some .readLoop)

/-- The loop cannot spin. An iteration either reads on an open socket or ends with
`hasError()` or without `isWork`; and at the head of the loop a closed socket means that
the test in front of the next iteration fails. -/
def CannotSpin (P : Platform) (s : Session) (w : World)
    (ok : (system P s).State → SessionThread → Choice → Prop) : Prop :=
  ∀ st, System.Steps ok (connected P s w) st →
    (∀ st' st₁, IdleIteration P s ok st st' st₁ →
      st₁.world.hasError s.addr = true ∨ st₁.world.isWork = false) ∧
    (st.threads .reader = .pure (some .readLoop) → st.world.isOpen s.addr = false →
      st.world.hasError s.addr = true ∨ st.world.isWork = false)

/-- The result an operation can have while the socket of session `a` is open. -/
def SeesOpen (a : Nat) : (o : Op) → o.Res → Prop
  | .isOpen b, r => b = a → r = true
  | _, _ => True

/-- Every path through the rest of the round reads before it is back at the head of the
loop, as long as the socket is open. -/
def ReadsFirst (a : Nat) : NetProg (Option SessionLabel) → Prop
  | .pure (some _) => False
  | .op o k => (∃ n, o = .read a n) ∨ ∀ r, SeesOpen a o r → ReadsFirst a (k r)
  | _ => True

theorem readsFirst_readLoop (P : Platform) (s : Session) :
    ReadsFirst s.addr (readLoop P s) := by
  refine .inr (fun isWork _ => ?_)
  cases isWork with
  | false => trivial
  | true =>
    refine .inr (fun hasError _ => ?_)
    cases hasError with
    | true => trivial
    | false =>
      refine .inr (fun is_open hopen => ?_)
      obtain rfl : is_open = true := hopen rfl
      exact .inl ⟨8, rfl⟩

theorem seesOpen_sem (h : sem ids o c w = some (r, w')) (hopen : w.isOpen a = true) :
    SeesOpen a o r := by
  cases o with
  | isOpen b =>
    rintro rfl
    obtain rfl := (Prod.mk.inj (Option.some.inj h)).1
    exact hopen
  | _ => trivial

/-- No calm operation opens the socket. -/
theorem isOpen_of_sem (h : sem ids o c w = some (r, w')) (hcalm : Calm o)
    (haccept : (w.sessions a).accept ≠ .pending) (hopen : w'.isOpen a = true) :
    w.isOpen a = true := by
  rcases calm_sem h hcalm haccept with
    ⟨hkept, -⟩ | ⟨-, hclosed, -⟩ | ⟨-, hsame, -⟩ | ⟨-, hsessions, -⟩
  · rwa [← hkept.isOpen]
  · rw [hclosed] at hopen
    cases hopen
  · rwa [← hsame]
  · rwa [World.isOpen, ← hsessions]

/-- Step lemma of an iteration without a read: while the socket is open, the read is
still ahead. -/
theorem readsFirst_step {st st' : (system P s).State} {t : SessionThread} {c : Choice}
    (hi : Invariant P s st) (hidle : ¬ ReadsOpen P s st t) (h : System.step st t c = some st')
    (hfirst : st.world.isOpen s.addr = true → ReadsFirst s.addr (st.threads .reader)) :
    st'.world.isOpen s.addr = true → ReadsFirst s.addr (st'.threads .reader) := by
  intro hopen'
  by_cases ht : t = .reader
  · subst ht
    rcases System.step_cases h with ⟨l, hl, rfl⟩ | ⟨o, k, r, w, hk, hsem, rfl⟩
    -- at the head of the loop no read is ahead
    · have hhead := hfirst hopen'
      rw [hl] at hhead
      exact hhead.elim
    replace hsem : sem (fun _ => 0) o c st.world = some (r, w) := hsem
    have hcalm : Calm o := by
      have := hi.reader
      rw [hk] at this
      exact this.1
    have hopen := isOpen_of_sem hsem hcalm hi.accepted hopen'
    have hprog := hfirst hopen
    rw [hk] at hprog
    simp only [Function.update_self]
    rcases hprog with ⟨n, rfl⟩ | hnext
    · exact absurd ⟨rfl, hopen, n, k, hk⟩ hidle
    · exact hnext r (seesOpen_sem hsem hopen)
  -- the socket was open before: nobody opens it
  · rw [System.step_other h (Ne.symm ht)]
    apply hfirst
    rcases System.step_cases h with ⟨l, -, rfl⟩ | ⟨o, k, r, w, hk, hsem, rfl⟩
    · exact hopen'
    · replace hsem : sem (fun _ => 0) o c st.world = some (r, w) := hsem
      have hcalm : Calm o := by
        have := hi.orderly t
        rw [hk] at this
        exact this.1
      exact isOpen_of_sem hsem hcalm hi.accepted hopen'

/-- **The loop of a server's or a client's reader cannot spin**, in every run in which
another thread closes the socket only while the reader has a transfer ahead. -/
theorem loop_cannot_spin (hs : LoopSession P s) (w : World) (hopen : w.isOpen s.addr = true)
    (haccept : (w.sessions s.addr).accept ≠ .pending) :
    CannotSpin P s w (ClosesDuringTransfer P s) := by
  have hcallbacks := orderlyCallbacks_of_loopSession hs
  intro st hrun
  have hi : Invariant P s st := hrun.invariant
    (fun _ _ _ _ hi hok h => invariant_step hcallbacks hi hok h) (invariant_connected hopen haccept)
  constructor
  · rintro st' st₁ ⟨hhead, ⟨c, hjump⟩, hidle, hagain⟩
    have hst' : Invariant P s st' ∧
        (st'.world.isOpen s.addr = true → ReadsFirst s.addr (st'.threads .reader)) := by
      rw [System.step_jump c hhead] at hjump
      obtain rfl := Option.some.inj hjump
      refine ⟨invariant_jump hcallbacks hi hhead, fun _ => ?_⟩
      simp only [Function.update_self]
      exact readsFirst_readLoop P s
    -- through the iteration: either the socket is closed or its read is still ahead
    obtain ⟨hi₁, hfirst⟩ := hidle.invariant (I := fun st => Invariant P s st ∧
      (st.world.isOpen s.addr = true → ReadsFirst s.addr (st.threads .reader)))
      (fun _ _ _ _ hi hok h => ⟨invariant_step hcallbacks hi.1 hok.1 h,
        readsFirst_step hi.1 hok.2 h hi.2⟩) hst'
    have hway := hi₁.way_out
    rw [hagain] at hway hfirst
    -- back at the head with the socket open the read would have been made
    rcases hway with hopen₁ | herror | hstopped | hout
    · exact (hfirst hopen₁).elim
    · exact .inl herror
    · exact .inr hstopped
    · exact hout.elim
  · intro hhead hclosed
    have hway := hi.way_out
    rw [hhead, hclosed] at hway
    rcases hway with hopen₁ | herror | hstopped | hout
    · cases hopen₁
    · exact .inl herror
    · exact .inr hstopped
    · exact hout.elim

/-! ## Two runs -/

/-- The threads around the client's session. -/
abbrev oneConnected : (system jsonPlatform oneClient.session).State :=
  connected jsonPlatform oneClient.session connectedWorld

/-- A user's thread gets as far as the close. -/
def userDisconnects : List (SessionThread × Choice) :=
  [(.user 0, .go), (.user 0, .command .sessionDisconnect), (.user 0, .go),
    (.user 0, .code .success)]

/-- The reader finds the socket open, the user closes it, the read fails. -/
def readFails : List (SessionThread × Choice) :=
  List.replicate 3 (.reader, .go) ++ [(.user 0, .code .success)]
    ++ List.replicate 3 (.reader, .fail .bad_descriptor 0)

/-- A close between the reader's test and its read: the iteration ends with the flag
set. -/
theorem loop_left_after_close_before_read :
    ∃ st st' st₁, System.Steps (ClosesDuringTransfer jsonPlatform oneClient.session)
        oneConnected st ∧
      IdleIteration jsonPlatform oneClient.session
        (ClosesDuringTransfer jsonPlatform oneClient.session) st st' st₁ ∧
      (st₁.world.hasError 0 = true ∨ st₁.world.isWork = false) := by
  obtain ⟨st, hexec, hhead, st', hjump, st₁, hexec₁, hagain, halong, halong₁⟩ :
      ∃ st, System.exec oneConnected userDisconnects = some st ∧
        st.threads .reader = .pure (some .readLoop) ∧
        ∃ st', System.step st .reader .go = some st' ∧
          ∃ st₁, System.exec st' readFails = some st₁ ∧
            st₁.threads .reader = .pure (some .readLoop) ∧
            System.Along (ClosesDuringTransfer jsonPlatform oneClient.session)
              oneConnected userDisconnects ∧
            System.Along (fun st t c =>
              ClosesDuringTransfer jsonPlatform oneClient.session st t c ∧
                ¬ ReadsOpen jsonPlatform oneClient.session st t) st' readFails := by
    refine ⟨_, rfl, rfl, _, rfl, _, rfl, rfl, ?_, ?_⟩
    · exact System.along_cons nofun rfl (System.along_cons nofun rfl
        (System.along_cons nofun rfl (System.along_cons nofun rfl trivial)))
    · have hreader : ∀ {st : (system jsonPlatform oneClient.session).State} {c : Choice},
          ClosesDuringTransfer jsonPlatform oneClient.session st .reader c :=
        fun hne => absurd rfl hne
      refine System.along_cons ⟨hreader, nofun⟩ rfl (System.along_cons ⟨hreader, nofun⟩ rfl
        (System.along_cons ⟨hreader, nofun⟩ rfl (System.along_cons ⟨?_, nofun⟩ rfl
        (System.along_cons ⟨hreader, nofun⟩ rfl (System.along_cons ⟨hreader, nofun⟩ rfl
        (System.along_cons ⟨hreader, nofun⟩ rfl trivial))))))
      exact fun _ _ _ => .inl (.inl ⟨rfl, by decide⟩)
  have hrun := System.steps_of_along hexec halong
  have hidle : IdleIteration jsonPlatform oneClient.session
      (ClosesDuringTransfer jsonPlatform oneClient.session) st st' st₁ :=
    ⟨hhead, ⟨.go, hjump⟩, System.steps_of_along hexec₁ halong₁, hagain⟩
  exact ⟨st, st', st₁, hrun, hidle,
    (loop_cannot_spin (.client oneClient) connectedWorld rfl nofun st hrun).1 st' st₁ hidle⟩

/-- **A user's `disconnect` at the head of the loop makes it spin.** -/
theorem loop_spins_after_disconnect :
    ¬ CannotSpin jsonPlatform oneClient.session connectedWorld System.anyStep := by
  intro hspin
  obtain ⟨st, hexec, hhead, hclosed, herror, hisWork⟩ : ∃ st,
      System.exec oneConnected (userDisconnects ++ [(.user 0, .code .success)]) = some st ∧
      st.threads .reader = .pure (some .readLoop) ∧ st.world.isOpen 0 = false ∧
      st.world.hasError 0 = false ∧ st.world.isWork = true := ⟨_, rfl, rfl, rfl, rfl, rfl⟩
  have hrun : System.Steps System.anyStep oneConnected st :=
    System.steps_of_exec hexec (fun _ _ _ => trivial)
  rcases (hspin st hrun).2 hhead hclosed with h | h
  · exact Bool.false_ne_true (herror.symm.trans h)
  · rw [hisWork] at h
    cases h

end NetworkApplication.ReaderLoop
