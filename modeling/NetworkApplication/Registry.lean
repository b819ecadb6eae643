/-
What the threads of a server know about its sessions.

A session is in the map, its socket is open, a thread serves it: the three go apart, and
what the threads do about it depends on what each of them knows. A thread knows which
sessions have been registered, which entries are gone for good, which sockets are closed;
and it knows what it owes: who takes an entry out of the map while the socket is open
closes the socket before anything else it could wait for. That is a discipline, and every
function of the server keeps to it.

What it means is the invariant of this file, for runs in which the ids that are handed
out differ modulo 2^32. Sessions are registered once, by the accept loop, which goes
through the stages of `Stage`; no entry that is gone comes back; and no socket of a
registered session is opened again.
-/
import NetworkApplication.SegmentServer
import NetworkApplication.Disciplines

set_option autoImplicit false

namespace NetworkApplication.Registry

open NetworkApplication.Program NetworkApplication.Pool NetworkApplication.Disciplines
open SegmentServer

/-! ## What a thread knows -/

/-- Where the accept loop is with a client. -/
inductive Stage where
  | resting
  | drawn (ID : UInt64)
  | made (ID : UInt64) (ptr : SessionPtr)
  | accepting (ID : UInt64) (ptr : SessionPtr)
  | accepted (ID : UInt64) (ptr : SessionPtr)
  | placed (ID : UInt64)
  | counted (ID : UInt64)
  | granted (ID : UInt64)
  | refusing (ID : UInt64)

/-- Where `stop` is. -/
inductive StopStage where
  | running
  | cleared
  | deaf
  | copied (copy_map : List SessionPtr)
  | looped

/-- What a thread knows: `known` sessions have been registered, the entries in `gone` have
been removed, the sockets in `shut` are closed and those in `owes` it has to close; `served`
are the ids it has from a worker's task, and `closing` is the entry whose socket the accept
loop has closed and which is still to be removed. A task that is `done` has said so. -/
structure Facts where
  known : List SessionPtr
  gone : List UInt32
  shut : List Nat
  owes : List Nat
  served : List UInt32
  closing : Option UInt32
  stage : Stage
  stop : StopStage
  done : Bool

namespace Facts

/-- Nothing is known. -/
def nothing : Facts := ⟨[], [], [], [], [], none, .resting, .running, false⟩

/-- The socket `a` is closed. -/
def closed (f : Facts) (a : Nat) : Facts :=
  { f with shut := a :: f.shut, owes := f.owes.filter (fun b => b != a) }

/-- The entry `id` is gone, if it is the entry of a known session. -/
def removed (f : Facts) (id : UInt32) : Facts :=
  { f with gone := if f.known.any (fun p => p.sessionID == id) then id :: f.gone else f.gone
           closing := if f.closing = some id then none else f.closing }

/-- The sockets that have to be closed when the entry `id` is taken away. -/
def debts (f : Facts) (id : UInt32) : List Nat :=
  (f.known.filter (fun p => p.sessionID == id && !f.shut.contains p.addr)).map SessionPtr.addr

/-- What an operation adds to what is known. -/
def next (f : Facts) : (o : Op) → o.Res → Facts
  | .isOpen a, false => f.closed a
  | .close a, ec =>
    match f.stage with
    | .refusing ID =>
      { f.closed a with closing := if ec.failed then some (UInt64.toUInt32 ID) else none }
    | _ => f.closed a
  | .mapGet id, some ptr =>
    if f.known.any (fun p => p.sessionID == id) then f else { f with known := ptr :: f.known }
  | .mapGet id, none => f.removed id
  | .mapErase id, _ => { f.removed id with owes := f.owes ++ f.debts id }
  | .takeTask _, ID => { f with served := UInt64.toUInt32 ID :: f.served }
  | .sessionTaskDone _, _ | .mainTaskDone, _ => { f with done := true }
  -- the accept loop
  | .distributeID, ID => { f with stage := .drawn ID }
  | .mapFind _, _ =>
    match f.stage with
    | .accepting ID _ => { f with stage := .placed ID }
    | _ => f
  | .makeSession _, ptr =>
    match f.stage with
    | .drawn ID => { f with stage := .made ID ptr }
    | _ => f
  | .async_accept _, _ =>
    match f.stage with
    | .made ID ptr => { f with stage := .accepting ID ptr }
    | _ => f
  | .acceptResult _, ec =>
    match f.stage with
    | .accepting ID ptr => if ec.failed then f else { f with stage := .accepted ID ptr }
    | _ => f
  | .mapInsert _ _, _ =>
    match f.stage with
    | .accepted ID _ => { f with stage := .placed ID }
    | _ => f
  | .getIsWork, isWork =>
    match f.stage with
    | .placed ID | .counted ID => { f with stage := if isWork then .granted ID else .resting }
    | _ => f
  | .addSessionWorker _, _ => { f with stage := .resting }
  -- `stop`
  | .setIsWork _, _ => { f with stop := .cleared }
  | .acceptorIsOpen, is_open => if is_open then f else { f with stop := .deaf }
  | .acceptorClose, _ => { f with stop := .deaf }
  | .mapCopy, copy_map => { f with known := copy_map ++ f.known, stop := .copied copy_map }
  | .mapSize, count =>
    match f.stop, f.stage with
    | .copied copy_map, _ =>
      { f with owes := if count != 0 then f.owes ++ copy_map.map SessionPtr.addr else f.owes
               stop := .looped }
    | _, .placed ID => { f with stage := if 1 < count then .refusing ID else .counted ID }
    | _, _ => f
  | _, _ => f

end Facts

/-! ## What a thread may do -/

/-- The operations at which nothing is waited for but the mutex of the map. -/
def NonWaiting : Op → Prop
  | .isOpen _ | .shutdown _ | .close _ | .setCriticalError _ | .mapGet _ | .mapErase _ => True
  | _ => False

/-- Thread `t` may close the socket of `ptr`: a reader does so behind the removal of the
entry. -/
def MayClose (usage : Usage) (f : Facts) (ptr : SessionPtr) : Thread → Prop
  | .main => (∃ ID, f.stage = .refusing ID ∧ ptr.sessionID = UInt64.toUInt32 ID) ∧ f.closing = none
  | .reader _ => ptr.sessionID ∈ f.gone
  | .control => usage.stops = true
  | .user _ => usage.operates = true
  | .network => False

/-- Who writes on a session is a user, or the reader that serves it. -/
def Serves (f : Facts) (p : SessionPtr) : Thread → Prop
  | .reader _ => p.sessionID ∈ f.served
  | .user _ => True
  | _ => False

/-- The socket of the session that has been refused is closed. -/
def Refused (f : Facts) (ID : UInt64) : Prop :=
  ∃ p ∈ f.known, p.sessionID = UInt64.toUInt32 ID ∧ p.addr ∈ f.shut

/-- What an operation asks of the thread that performs it. -/
def May (server : SegmentServer) (usage : Usage) (t : Thread) (f : Facts) : Op → Prop
  | .isOpen a => ∃ p ∈ f.known, p.addr = a
  | .close a => ∃ p ∈ f.known, p.addr = a ∧ MayClose usage f p t
  | .mapErase id => ∃ p ∈ f.known, p.sessionID = id
  | .read a _ => ∃ p ∈ f.known, p.addr = a ∧ Serves f p t ∧ ∃ n, t = .reader n
  | .write_some a _ _ => ∃ p ∈ f.known, p.addr = a ∧ Serves f p t
  | .takeTask n | .sessionTaskDone n => t = .reader n
  | .uniform_int lo hi => lo ≤ hi
  -- the accept loop
  | .getIsWork => ∀ ID, f.stage = .placed ID → server.multiConnect = true
  | .distributeID => t = .main ∧ (f.stage = .resting ∨ ∃ ID, f.stage = .refusing ID ∧ Refused f ID)
  | .mapFind id => t = .main ∧ ∃ ID, id = UInt64.toUInt32 ID ∧
    (f.stage = .drawn ID ∨ ∃ p, f.stage = .accepting ID p)
  | .makeSession id => t = .main ∧ ∃ ID, id = UInt64.toUInt32 ID ∧ f.stage = .drawn ID
  | .async_accept a => t = .main ∧ ∃ ID p, f.stage = .made ID p ∧ p.addr = a
  | .acceptResult a => t = .main ∧ ∃ ID p, f.stage = .accepting ID p ∧ p.addr = a
  | .mapInsert id p => t = .main ∧ ∃ ID, id = UInt64.toUInt32 ID ∧ f.stage = .accepted ID p
  | .addSessionWorker ID => t = .main ∧ f.stage = .granted ID
  | .mainTaskDone => t = .main
  -- `stop`
  | .setIsWork b => t = .control ∧ b = false ∧ usage.stops = true ∧ f.stop = .running
  | .acceptorIsOpen | .acceptorCancel | .acceptorClose => t = .control ∧ f.stop = .cleared
  | .mapCopy => t = .control ∧ f.stop = .deaf
  | .flushMainWorker | .sessionWorkersSize | .flushSessionWorker _ => t = .control ∧ f.stop = .looped
  | .mapSize => (t = .main ∧ f.closing = none ∧ ∃ ID, f.stage = .placed ID) ∨
    (t = .control ∧ ∃ copy_map, f.stop = .copied copy_map)
  | .network => t = .network
  | .command => ∃ n, t = .user n
  | .connect _ | .addMainTask | .makeSessionManager => False
  | _ => True

/-- Only a call through a missing session can be undefined: a user's `disconnect`, and the
refusal of a client. -/
def MayCrash (server : SegmentServer) : Thread → Prop
  | .main => server.multiConnect = false
  | .user _ => True
  | _ => False

/-- What may be seen of an operation. -/
def Possible (t : Thread) (f : Facts) : (o : Op) → o.Res → Prop
  | .mapGet id, some ptr =>
    f.owes = [] → ptr.sessionID = id ∧ ∀ p ∈ f.known, p.sessionID = id → p = ptr
  | .mapFind _, found => found = false
  | .makeSession id, ptr => ptr.sessionID = id
  | .mapCopy, copy_map =>
    ∀ p ∈ copy_map ++ f.known, ∀ q ∈ copy_map ++ f.known, p.sessionID = q.sessionID → p = q
  | .getIsWork, isWork => t = .control → f.stop = .running → isWork = true
  | _, _ => True

/-- The discipline of thread `t`. -/
def rules (server : SegmentServer) (usage : Usage) (t : Thread) : Discipline Net Facts where
  Allowed := fun f o => (NonWaiting o ∨ f.owes = []) ∧ May server usage t f o
  Possible := Possible t
  next := Facts.next
  Crash := fun f => f.owes = [] ∧ MayCrash server t

/-! ## Knowledge grows -/

/-- `f'` knows what `f` does, and no operation of the accept loop or of `stop` has come in
between. -/
structure Grows (f f' : Facts) : Prop where
  known : ∀ p ∈ f.known, p ∈ f'.known
  gone : ∀ id ∈ f.gone, id ∈ f'.gone
  shut : ∀ a ∈ f.shut, a ∈ f'.shut
  served : f'.served = f.served
  stage : f'.stage = f.stage
  stop : f'.stop = f.stop

/-- The known sessions differ in their ids. -/
def Distinct (f : Facts) : Prop :=
  ∀ p ∈ f.known, ∀ q ∈ f.known, p.sessionID = q.sessionID → p = q

/-- Nothing is left to be done: no socket is owed, and no entry is left behind a close. -/
structure Calm (f : Facts) : Prop where
  distinct : Distinct f
  owes : f.owes = []
  closing : f.closing = none

/-- What a function of a session leaves. -/
def Settled (f f' : Facts) : Prop := Grows f f' ∧ Calm f'

variable {server : SegmentServer} {usage : Usage} {t : Thread} {f f' f'' : Facts} {p ptr : SessionPtr}

theorem Grows.refl (f : Facts) : Grows f f :=
  ⟨fun _ h => h, fun _ h => h, fun _ h => h, rfl, rfl, rfl⟩

theorem Grows.trans (h : Grows f f') (h' : Grows f' f'') : Grows f f'' where
  known := fun p hp => h'.known p (h.known p hp)
  gone := fun id hid => h'.gone id (h.gone id hid)
  shut := fun a ha => h'.shut a (h.shut a ha)
  served := h'.served.trans h.served
  stage := h'.stage.trans h.stage
  stop := h'.stop.trans h.stop

theorem Settled.refl (h : Calm f) : Settled f f := ⟨Grows.refl f, h⟩

theorem Settled.trans (h : Grows f f') (h' : Settled f' f'') : Settled f f'' :=
  ⟨h.trans h'.1, h'.2⟩

theorem grows_closed (f : Facts) (a : Nat) : Grows f (f.closed a) :=
  ⟨fun _ h => h, fun _ h => h, fun _ h => List.mem_cons_of_mem a h, rfl, rfl, rfl⟩

theorem mem_owes_closed {a b : Nat} : b ∈ (f.closed a).owes ↔ b ∈ f.owes ∧ b ≠ a := by
  simp only [Facts.closed, List.mem_filter, bne_iff_ne]

theorem any_of_known (hp : p ∈ f.known) :
    f.known.any (fun q => q.sessionID == p.sessionID) = true :=
  List.any_eq_true.mpr ⟨p, hp, beq_self_eq_true _⟩

theorem grows_removed (f : Facts) (id : UInt32) : Grows f (f.removed id) := by
  refine ⟨fun _ h => h, fun id' h => ?_, fun _ h => h, rfl, rfl, rfl⟩
  show id' ∈ if f.known.any (fun p => p.sessionID == id) then id :: f.gone else f.gone
  split
  · exact List.mem_cons_of_mem _ h
  · exact h

theorem mem_gone_removed (hp : p ∈ f.known) : p.sessionID ∈ (f.removed p.sessionID).gone := by
  show p.sessionID ∈ if f.known.any (fun q => q.sessionID == p.sessionID) then _ else _
  rw [if_pos (any_of_known hp)]
  exact List.mem_cons_self ..

theorem closing_removed (hp : f.closing = none ∨ f.closing = some p.sessionID) :
    (f.removed p.sessionID).closing = none := by
  show (if f.closing = some p.sessionID then none else f.closing) = none
  rcases hp with hnone | hsome
  · rw [hnone, if_neg nofun]
  · rw [if_pos hsome]

/-- Only the socket of the session whose entry is taken away is owed for it. -/
theorem mem_debts (hdistinct : Distinct f) (hp : p ∈ f.known) {a : Nat}
    (ha : a ∈ f.debts p.sessionID) : a = p.addr ∧ p.addr ∉ f.shut := by
  obtain ⟨q, hq, rfl⟩ := List.mem_map.mp ha
  obtain ⟨hknown, hq⟩ := List.mem_filter.mp hq
  rw [Bool.and_eq_true, beq_iff_eq, Bool.not_eq_true', List.contains_eq_mem,
    decide_eq_false_iff_not] at hq
  obtain rfl := hdistinct q hknown p hp hq.1
  exact ⟨rfl, hq.2⟩

/-! ## The functions of a session -/

variable {exn : Exception → Facts → Prop}

/-- **`removeSession`**: the entry is gone, and the socket is owed unless it is closed. -/
theorem removeSession_follows (hp : p ∈ f.known) (hdistinct : Distinct f)
    (hclosing : f.closing = none ∨ f.closing = some p.sessionID) :
    Follows (rules server usage t) (fun _ f' => Grows f f' ∧ Distinct f' ∧ p.sessionID ∈ f'.gone ∧
      f'.closing = none ∧ ∀ a ∈ f'.owes, a ∈ f.owes ∨ a = p.addr ∧ p.addr ∉ f.shut) exn f
      (SessionManager.removeSession p.sessionID) := by
  have hgone := mem_gone_removed hp
  have hcleared := closing_removed hclosing
  refine ⟨⟨.inl trivial, trivial⟩, fun found _ => ?_⟩
  cases found with
  | none => exact ⟨grows_removed f _, hdistinct, hgone, hcleared, fun _ ha => .inl ha⟩
  | some q =>
    -- the session is known, so the look-up tells nothing new
    have hnext : f.next (.mapGet p.sessionID) (some q) = f := if_pos (any_of_known hp)
    show Follows (rules server usage t) _ exn (f.next (.mapGet p.sessionID) (some q))
      (call (.mapErase p.sessionID))
    rw [hnext]
    refine ⟨⟨.inl trivial, p, hp, rfl⟩, fun _ _ => ?_⟩
    refine ⟨?_, hdistinct, hgone, hcleared, fun a ha => ?_⟩
    · have hgrows := grows_removed f p.sessionID
      exact ⟨hgrows.known, hgrows.gone, hgrows.shut, rfl, rfl, rfl⟩
    · rcases List.mem_append.mp ha with hold | hdebt
      · exact .inl hold
      · exact .inr (mem_debts hdistinct hp hdebt)

/-- Thread `t` has the session `p` in hand. -/
structure InHand (f : Facts) (p : SessionPtr) : Prop where
  known : p ∈ f.known
  distinct : Distinct f
  closing : f.closing = none
  stage : ∀ ID, f.stage = .refusing ID → p.sessionID = UInt64.toUInt32 ID

/-- It may close the socket whenever nothing is left behind a close. -/
def Closer (usage : Usage) (t : Thread) (f : Facts) (p : SessionPtr) : Prop :=
  ∀ f', Grows f f' → f'.closing = none → MayClose usage f' p t

/-- What a function that closes the socket of `p` leaves: it is owed no more. -/
structure Closed (f f' : Facts) (p : SessionPtr) : Prop where
  grows : Grows f f'
  distinct : Distinct f'
  closing : f'.closing = none
  shut : p.addr ∈ f'.shut
  owes : ∀ a ∈ f'.owes, a ∈ f.owes ∧ a ≠ p.addr

theorem Closed.calm (h : Closed f f' p) (howes : ∀ a ∈ f.owes, a = p.addr) : Calm f' := by
  refine ⟨h.distinct, List.eq_nil_iff_forall_not_mem.mpr (fun a ha => ?_), h.closing⟩
  obtain ⟨hold, hne⟩ := h.owes a ha
  exact hne (howes a hold)

variable {P : Platform}
  {on_all_read : Option (ErrorCode × Option Message → NetProg Unit)}

theorem InHand.mono (h : InHand f p) (hgrows : Grows f f') (hdistinct : Distinct f')
    (hclosing : f'.closing = none) : InHand f' p :=
  ⟨hgrows.known p h.known, hdistinct, hclosing, fun ID hID => h.stage ID (hgrows.stage ▸ hID)⟩

theorem Closer.mono (h : Closer usage t f p) (hgrows : Grows f f') : Closer usage t f' p :=
  fun f'' hgrows' => h f'' (hgrows.trans hgrows')

/-- What a close leaves in the hands of who reports its error. -/
theorem next_close (h : InHand f p) (ec : ErrorCode) :
    Grows f (f.next (.close p.addr) ec) ∧ (f.next (.close p.addr) ec).owes = (f.closed p.addr).owes ∧
      p.addr ∈ (f.next (.close p.addr) ec).shut ∧
      ((f.next (.close p.addr) ec).closing = none ∨
        ec.failed = true ∧ (f.next (.close p.addr) ec).closing = some p.sessionID) := by
  have hgrows := grows_closed f p.addr
  cases hstage : f.stage with
  | refusing ID =>
    have hnext : f.next (.close p.addr) ec = { f.closed p.addr with
        closing := if ec.failed then some (UInt64.toUInt32 ID) else none } := by
      simp only [Facts.next, hstage]
    rw [hnext]
    refine ⟨⟨hgrows.known, hgrows.gone, hgrows.shut, rfl, rfl, rfl⟩, rfl, List.mem_cons_self .., ?_⟩
    rw [h.stage ID hstage]
    cases ec.failed with
    | true => exact .inr ⟨rfl, rfl⟩
    | false => exact .inl rfl
  | _ =>
    have hnext : f.next (.close p.addr) ec = f.closed p.addr := by simp only [Facts.next, hstage]
    rw [hnext]
    exact ⟨hgrows, rfl, List.mem_cons_self .., .inl h.closing⟩

theorem distinct_next_close (h : Distinct f) (a : Nat) (ec : ErrorCode) :
    Distinct (f.next (.close a) ec) := by
  unfold Facts.next
  dsimp only
  split
  · exact h
  · exact h

/-- **`disconnect` closes the socket**, unless it is closed. -/
theorem disconnect_follows (h : InHand f p) (hcloser : Closer usage t f p) :
    Follows (rules server usage t) (fun _ f' => Closed f f' p) exn f
      (server.sessionManager.session p on_all_read).disconnect := by
  unfold Session.disconnect ConnectHandler.disconnect
  refine Follows.step ⟨.inl trivial, p, h.known, rfl⟩ (fun is_open _ => ?_)
  cases is_open with
  | false =>
    exact ⟨grows_closed f _, h.distinct, h.closing, List.mem_cons_self ..,
      fun a ha => mem_owes_closed.mp ha⟩
  | true =>
    refine Follows.step ⟨.inl trivial, trivial⟩ (fun ec _ => ?_)
    -- an error of `shutdown` has the entry removed
    refine Follows.bind (M := fun _ f₁ => Grows f f₁ ∧ Distinct f₁ ∧ f₁.closing = none ∧
      ∀ a ∈ f₁.owes, a ∈ f.owes ∨ a = p.addr) (Follows.when (fun _ => ?_) (fun _ => ?_)) ?_
    · refine (removeSession_follows h.known h.distinct (.inl h.closing)).mono ?_ (fun _ _ h => h)
      rintro - f₁ ⟨hgrows, hdistinct, -, hclosing, howes⟩
      exact ⟨hgrows, hdistinct, hclosing, fun a ha => (howes a ha).imp_right And.left⟩
    · exact ⟨Grows.refl f, h.distinct, h.closing, fun a ha => .inl ha⟩
    rintro - f₁ ⟨hgrows, hdistinct, hclosing, howes⟩
    have hinhand := h.mono hgrows hdistinct hclosing
    refine Follows.step ⟨.inl trivial, p, hinhand.known, rfl, hcloser f₁ hgrows hclosing⟩
      (fun ec _ => ?_)
    -- and so has an error of `close`, when the socket is owed no more
    obtain ⟨hgrows₂, howes₂, hshut, hclosing₂⟩ := next_close hinhand ec
    have hdistinct₂ := distinct_next_close hdistinct p.addr ec
    have howed : ∀ a ∈ (f₁.next (.close p.addr) ec).owes, a ∈ f.owes ∧ a ≠ p.addr := by
      intro a ha
      rw [howes₂] at ha
      obtain ⟨hold, hne⟩ := mem_owes_closed.mp ha
      exact ⟨(howes a hold).resolve_right hne, hne⟩
    refine Follows.bind (M := fun _ f' => Closed f f' p) (Follows.when (fun _ => ?_)
      (fun hec => ?_)) (fun _ _ hclosed => hclosed)
    · refine (removeSession_follows (hgrows₂.known p hinhand.known) hdistinct₂
        (hclosing₂.imp_right And.right)).mono ?_ (fun _ _ h => h)
      rintro - f₃ ⟨hgrows₃, hdistinct₃, -, hclosing₃, howes₃⟩
      refine ⟨hgrows.trans (hgrows₂.trans hgrows₃), hdistinct₃, hclosing₃, hgrows₃.shut _ hshut,
        fun a ha => ?_⟩
      rcases howes₃ a ha with hold | ⟨-, hopen⟩
      · exact howed a hold
      · exact absurd hshut hopen
    · refine ⟨hgrows.trans hgrows₂, hdistinct₂, ?_, hshut, howed⟩
      rcases hclosing₂ with hnone | ⟨hfailed, -⟩
      · exact hnone
      · rw [hec] at hfailed
        cases hfailed

theorem criticalError_follows (h : InHand f p) (hcloser : Closer usage t f p) :
    Follows (rules server usage t) (fun _ f' => Closed f f' p) exn f
      (server.sessionManager.session p on_all_read).criticalError :=
  Follows.step ⟨.inl trivial, trivial⟩ (fun _ _ => disconnect_follows h hcloser)

/-- The thread has the session in hand and owes nothing. -/
structure Work (f : Facts) (p : SessionPtr) : Prop extends InHand f p where
  owes : f.owes = []

theorem Work.calm (h : Work f p) : Calm f := ⟨h.distinct, h.owes, h.closing⟩

theorem Work.settled (h : Work f p) (hsettled : Settled f f') : Work f' p :=
  ⟨h.toInHand.mono hsettled.1 hsettled.2.distinct hsettled.2.closing, hsettled.2.owes⟩

/-- Who has seen the entry of `p` removed may close its socket. -/
def ClosesGone (usage : Usage) (t : Thread) (p : SessionPtr) : Prop :=
  ∀ f, p.sessionID ∈ f.gone → f.closing = none → MayClose usage f p t

/-- An error has been handed to `onError`: if it is critical, the entry is gone, and the
socket is all that is owed. -/
structure Reported (f f' : Facts) (p : SessionPtr) (ec : ErrorCode) : Prop where
  grows : Grows f f'
  inHand : InHand f' p
  ignored : check_error ec = false → f'.owes = []
  critical : check_error ec = true → p.sessionID ∈ f'.gone ∧ ∀ a ∈ f'.owes, a = p.addr

theorem onError_follows (h : Work f p) (ec : ErrorCode) :
    Follows (rules server usage t) (fun _ f' => Reported f f' p ec) exn f
      (Prog.when (check_error ec) (SessionManager.removeSession p.sessionID)) := by
  refine Follows.when (fun hec => ?_) (fun hec => ?_)
  · refine (removeSession_follows h.known h.distinct (.inl h.closing)).mono ?_ (fun _ _ h => h)
    rintro - f' ⟨hgrows, hdistinct, hgone, hclosing, howes⟩
    refine ⟨hgrows, h.toInHand.mono hgrows hdistinct hclosing, fun hignored => ?_, fun _ => ?_⟩
    · rw [hec] at hignored
      cases hignored
    · refine ⟨hgone, fun a ha => ?_⟩
      rcases howes a ha with hold | hnew
      · rw [h.owes] at hold
        cases hold
      · exact hnew.1
  · refine ⟨Grows.refl f, h.toInHand, fun _ => h.owes, fun hcritical => ?_⟩
    rw [hec] at hcritical
    cases hcritical

/-- The error branch behind a critical error closes the socket, and then nothing is owed. -/
theorem torn_down {ec : ErrorCode} (hcloses : ClosesGone usage t p) (h : Reported f f' p ec)
    (hec : check_error ec = true) :
    Follows (rules server usage t) (fun _ f'' => Settled f f'') exn f'
      (server.sessionManager.session p on_all_read).criticalError := by
  obtain ⟨hgone, howes⟩ := h.critical hec
  refine (criticalError_follows h.inHand (fun f₁ hgrows hclosing =>
    hcloses f₁ (hgrows.gone _ hgone) hclosing)).mono ?_ (fun _ _ h => h)
  exact fun _ f₁ hclosed => ⟨h.grows.trans hclosed.grows, hclosed.calm howes⟩

/-- What is asked of the caller's `on_all_read`. -/
structure ReadCallback (server : SegmentServer) (usage : Usage) (t : Thread) (p : SessionPtr)
    (on_all_read : Option (ErrorCode × Option Message → NetProg Unit)) : Prop where
  none_ : ∀ ec, invoke on_all_read (ec, none) = pure ()
  some_ : ∀ {exn : Exception → Facts → Prop} f x, Work f p → Serves f p t →
    Follows (rules server usage t) (fun _ f' => Settled f f') exn f (invoke on_all_read x)

theorem Serves.grows (h : Serves f p t) (hgrows : Grows f f') : Serves f' p t := by
  cases t with
  | reader n =>
    show p.sessionID ∈ f'.served
    rw [hgrows.served]
    exact h
  | user n => trivial
  | _ => exact h.elim

theorem onAllRead_follows {ec : ErrorCode} (hcloses : ClosesGone usage t p)
    (hread : ReadCallback server usage t p on_all_read) (h : Reported f f' p ec)
    (hserves : Serves f p t) (tm : TransportMessage) :
    Follows (rules server usage t) (fun _ f'' => Settled f f'') exn f'
      ((server.sessionManager.session p on_all_read).onAllRead P (ec, tm)) := by
  cases hec : check_error ec with
  | false =>
    rw [Session.onAllRead_of_not_critical P _ hec]
    refine (hread.some_ f' _ ⟨h.inHand, h.ignored hec⟩ (hserves.grows h.grows)).mono ?_
      (fun _ _ h => h)
    exact fun _ f'' hsettled => Settled.trans h.grows hsettled
  | true =>
    rw [Session.onAllRead_of_critical P _ hec]
    have hnone : invoke (server.sessionManager.session p on_all_read).on_all_read (ec, none)
        = pure () := hread.none_ ec
    rw [hnone]
    exact torn_down hcloses h hec

theorem onAllWrite_follows {ec : ErrorCode} (hcloses : ClosesGone usage t p)
    (h : Reported f f' p ec) (tm : TransportMessage) :
    Follows (rules server usage t) (fun _ f'' => Settled f f'') exn f'
      ((server.sessionManager.session p on_all_read).onAllWrite (ec, tm)) := by
  refine Follows.when (fun hec => torn_down hcloses h hec) (fun hec => ?_)
  exact ⟨h.grows, h.inHand.distinct, h.ignored hec, h.inHand.closing⟩

theorem errorHandler_follows (hcloses : ClosesGone usage t p)
    (hread : ReadCallback server usage t p on_all_read) (h : Work f p) (hserves : Serves f p t)
    (ec : ErrorCode) :
    Follows (rules server usage t) (fun b f' => Settled f f' ∧ b = ec.failed) exn f
      (((server.sessionManager.session p on_all_read).transport_handler P).errorHandler ec) := by
  refine Follows.bind (onError_follows h ec) (fun _ f₁ hreported => ?_)
  cases hec : ec.failed with
  | true =>
    exact Follows.bind (onAllRead_follows hcloses hread hreported hserves _)
      (fun _ _ h => ⟨h, rfl⟩)
  | false =>
    exact ⟨⟨hreported.grows, hreported.inHand.distinct,
      hreported.ignored (check_error_of_not_failed hec), hreported.inHand.closing⟩, rfl⟩

/-- An error exit of `read_sync`, and what comes behind it. -/
theorem exit_follows {ec : ErrorCode} {rest : NetProg Unit} (hcloses : ClosesGone usage t p)
    (hread : ReadCallback server usage t p on_all_read) (h : Work f p) (hserves : Serves f p t)
    (hrest : ∀ f', Settled f f' → ec.failed = false →
      Follows (rules server usage t) (fun _ f' => Settled f f') exn f' rest) :
    Follows (rules server usage t) (fun _ f' => Settled f f') exn f
      (((server.sessionManager.session p on_all_read).transport_handler P).errorHandler ec
        >>= fun b => if b = true then Prog.pure () else rest) := by
  refine Follows.bind (errorHandler_follows hcloses hread h hserves ec) (fun b f' hb => ?_)
  obtain ⟨hsettled, rfl⟩ := hb
  cases hec : ec.failed with
  | true => exact hsettled
  | false => exact hrest f' hsettled hec

/-- What follows something settled may be looked at on its own. -/
theorem Follows.settled {α : Type} {q : NetProg α} (h : Settled f f')
    (hq : Follows (rules server usage t) (fun _ f'' => Settled f' f'') (fun _ f'' => Settled f' f'') f' q) :
    Follows (rules server usage t) (fun _ f'' => Settled f f'') (fun _ f'' => Settled f f'') f' q :=
  hq.mono (fun _ _ h' => Settled.trans h.1 h') (fun _ _ h' => Settled.trans h.1 h')

theorem read_json_follows (hcloses : ClosesGone usage t p)
    (hread : ReadCallback server usage t p on_all_read) (h : Work f p) (hserves : Serves f p t)
    (payload : List UInt8) :
    Follows (rules server usage t) (fun _ f' => Settled f f') (fun _ f' => Settled f f') f
      (((server.sessionManager.session p on_all_read).transport_handler P).read_json P payload) := by
  unfold TransportHandler.read_json
  refine exit_follows hcloses hread h hserves (fun f₁ hsettled hec => ?_)
  have hwork := h.settled hsettled
  -- the user's handler is called while nothing is owed
  refine Follows.bind (M := fun _ f₂ => Settled f f₂) ?_ (fun _ f₂ hsettled₂ => ?_)
  · show Follows (rules server usage t) _ _ f₁ (invoke server.sessionManager.readHandlerForSession _)
    unfold SegmentServer.sessionManager
    dsimp only
    split
    · exact ⟨⟨.inr hwork.owes, trivial⟩, fun _ _ => hsettled⟩
    · exact hsettled
  have hwork₂ := h.settled hsettled₂
  split
  · exact hsettled₂
  · refine Follows.settled hsettled₂ (onAllRead_follows hcloses hread
      ⟨Grows.refl f₂, hwork₂.toInHand, fun _ => hwork₂.owes, fun hcritical => ?_⟩
      (hserves.grows hsettled₂.1) _)
    rw [check_error_of_not_failed hec] at hcritical
    cases hcritical

/-- **`read`**, by the reader of the session. -/
theorem read_follows {n : Nat} (hcloses : ClosesGone usage (.reader n) p)
    (hread : ReadCallback server usage (.reader n) p on_all_read) (h : Work f p)
    (hserves : Serves f p (.reader n)) :
    Follows (rules server usage (.reader n)) (fun _ f' => Settled f f') (fun _ f' => Settled f f') f
      ((server.sessionManager.session p on_all_read).read P) := by
  have hreads : ∀ {f'} m, Settled f f' →
      (rules server usage (.reader n)).Allowed f' (.read p.addr m) := by
    intro f' m hsettled
    have hwork := h.settled hsettled
    exact ⟨.inr hwork.owes, p, hwork.known, rfl, hserves.grows hsettled.1, n, rfl⟩
  unfold Session.read TransportHandler.read_sync TransportHandler.read_payload
  refine Follows.step ⟨.inl trivial, p, h.known, rfl⟩ (fun is_open _ => ?_)
  refine Follows.when (fun hopen => ?_) (fun hclosed => ?_)
  · subst hopen
    show Follows (rules server usage (.reader n)) _ _ f _
    refine Follows.step (hreads 8 (Settled.refl h.calm)) (fun headers _ => ?_)
    refine exit_follows hcloses hread h hserves (fun f₁ hsettled _ => ?_)
    have hwork := h.settled hsettled
    have hserves₁ := hserves.grows hsettled.1
    dsimp only
    split
    · refine Follows.bind (errorHandler_follows hcloses hread hwork hserves₁ _) (fun _ f₂ hb => ?_)
      exact Settled.trans hsettled.1 hb.1
    · refine Follows.step (hreads _ hsettled) (fun payload _ => ?_)
      refine Follows.settled hsettled
        (exit_follows hcloses hread hwork hserves₁ (fun f₂ hsettled₂ _ => ?_))
      exact Follows.settled hsettled₂ (read_json_follows hcloses hread (hwork.settled hsettled₂)
        (hserves₁.grows hsettled₂.1) _)
  · subst hclosed
    have hnone : ∀ a ∈ (f.closed p.addr).owes, False := by
      intro a ha
      have hold := (mem_owes_closed.mp ha).1
      rw [h.owes] at hold
      cases hold
    exact ⟨grows_closed f _, h.distinct, List.eq_nil_iff_forall_not_mem.mpr hnone, h.closing⟩

/-- The composed write changes nothing that is known. -/
theorem asio_write_follows (h : Work f p) (hserves : Serves f p t) (bound sent : Nat)
    (rest : List UInt8) : Follows (rules server usage t) (fun _ f' => f' = f) exn f
      (asio_write p.addr bound sent rest) := by
  induction bound generalizing sent rest with
  | zero => rfl
  | succ bound ih =>
    unfold asio_write
    split
    · rfl
    · refine Follows.step ⟨.inr h.owes, p, h.known, rfl, hserves⟩ (fun r _ => ?_)
      cases r with
      | ok n => exact ih _ _
      | error ec => rfl

/-- **`write`.** -/
theorem write_follows (hcloses : ClosesGone usage t p) (h : Work f p) (hserves : Serves f p t)
    (message : Option Message) :
    Follows (rules server usage t) (fun _ f' => Settled f f') exn f
      ((server.sessionManager.session p on_all_read).write P message) := by
  refine Follows.tryCatch (X := fun _ f' => Settled f f') ?_ (fun _ _ h => h)
  refine Follows.bind (asio_write_follows h hserves _ _ _) (fun ec f₁ hsame => ?_)
  subst hsame
  refine Follows.bind (onError_follows h ec) (fun _ f₂ hreported => ?_)
  exact onAllWrite_follows hcloses hreported (MessageHandler.serialize P message)

theorem createResponse_follows (message : Option Message) (howes : f.owes = []) :
    Follows (rules server usage t) (fun _ f' => f' = f) exn f
      (RequestResponseHandler.createResponse message) := by
  have hdraw : ∀ n, Follows (rules server usage t) (fun _ f' => f' = f) exn f
      (RequestResponseHandler.drawSamples n) := by
    intro n
    induction n with
    | zero => rfl
    | succ n ih =>
      refine Follows.step ⟨.inr howes, trivial⟩ (fun _ _ => ?_)
      refine Follows.step ⟨.inr howes, trivial⟩ (fun _ _ => ?_)
      exact Follows.bind ih (fun _ _ h => h)
  unfold RequestResponseHandler.createResponse
  split
  · rfl
  split
  · rfl
  split
  · refine Follows.step ⟨.inr howes, (by decide : (5 : Int32) ≤ 20)⟩ (fun n _ => ?_)
    refine Follows.bind (hdraw _) (fun _ f₁ hsame => ?_)
    subst hsame
    exact Follows.step ⟨.inr howes, (by decide : (3000 : Int32) ≤ 10000)⟩ (fun _ _ => rfl)
  split
  · exact Follows.step ⟨.inr howes, (by decide : (5 : Int32) ≤ 20)⟩ (fun _ _ => rfl)
  · rfl

/-- The reader's callback answers on the session. -/
theorem readCallback_reader (hcloses : ClosesGone usage t p) :
    ReadCallback server usage t p (some (server.onAllRead P p)) where
  none_ := fun _ => rfl
  some_ := by
    rintro exn f ⟨ec, message⟩ h hserves
    show Follows (rules server usage t) _ exn f (server.onAllRead P p (ec, message))
    unfold SegmentServer.onAllRead
    cases message with
    | none => exact Settled.refl h.calm
    | some m =>
      dsimp only
      split
      · exact Settled.refl h.calm
      · refine Follows.bind (createResponse_follows _ h.owes) (fun reply f₁ hsame => ?_)
        subst hsame
        exact write_follows hcloses h hserves _

/-! ## The blocks of a server -/

/-- What is known at a label. -/
def atLabel (usage : Usage) (t : Thread) (f : Facts) : ServerLabel → Prop
  | .acceptLoop => t = .main ∧ Calm f ∧ f.stop = .running ∧
    (f.stage = .resting ∨ ∃ ID, f.stage = .refusing ID ∧ Refused f ID)
  | .sessionWork n p => t = .reader n ∧ f.stage = .resting ∧ Work f p ∧ Serves f p t
  | .flushMain | .flushWorkers _ => t = .control ∧ f.owes = [] ∧ f.stop = .looped
  | .userLoop => (∃ n, t = .user n) ∧ usage.operates = true ∧ f.stage = .resting ∧ Calm f
  | .networkLoop => t = .network ∧ f.owes = []

/-- What is known at the end of a thread. -/
def atEnd (usage : Usage) (t : Thread) (f : Facts) : Prop :=
  f.owes = [] ∧ match t with
    | .main | .reader _ => f.done = true
    | .control => usage.stops = true → f.stop = .looped
    | _ => True

/-- What is known where a block ends. -/
def atNext (usage : Usage) (t : Thread) : Option ServerLabel → Facts → Prop
  | some l, f => atLabel usage t f l
  | none, f => atEnd usage t f

/-- A look-up adds the session to what is known. -/
theorem inHand_mapGet {id : UInt32} (h : Calm f) (hstage : ∀ ID, f.stage = .refusing ID →
    id = UInt64.toUInt32 ID) (hpossible : Possible t f (.mapGet id) (some p)) :
    Work (f.next (.mapGet id) (some p)) p ∧ p.sessionID = id ∧
      Grows f (f.next (.mapGet id) (some p)) := by
  obtain ⟨rfl, hsame⟩ := hpossible h.owes
  by_cases hknown : f.known.any (fun q => q.sessionID == p.sessionID) = true
  · have hnext : f.next (.mapGet p.sessionID) (some p) = f := if_pos hknown
    obtain ⟨q, hq, hid⟩ := List.any_eq_true.mp hknown
    obtain rfl := hsame q hq (beq_iff_eq.mp hid)
    rw [hnext]
    exact ⟨⟨⟨hq, h.distinct, h.closing, hstage⟩, h.owes⟩, rfl, Grows.refl f⟩
  · have hnext : f.next (.mapGet p.sessionID) (some p) = { f with known := p :: f.known } :=
      if_neg hknown
    rw [hnext]
    refine ⟨⟨⟨List.mem_cons_self .., ?_, h.closing, hstage⟩, h.owes⟩, rfl,
      ⟨fun _ hq => List.mem_cons_of_mem _ hq, fun _ h => h, fun _ h => h, rfl, rfl, rfl⟩⟩
    intro q hq q' hq' hid
    rcases List.mem_cons.mp hq with rfl | hold
    · rcases List.mem_cons.mp hq' with rfl | hold'
      · rfl
      · exact (hsame q' hold' hid.symm).symm
    · rcases List.mem_cons.mp hq' with rfl | hold'
      · exact hsame q hold hid
      · exact h.distinct q hold q' hold' hid

theorem settled_removed (h : Calm f) (id : UInt32) : Settled f (f.removed id) := by
  refine ⟨grows_removed f id, h.distinct, h.owes, ?_⟩
  show (if f.closing = some id then none else f.closing) = none
  rw [h.closing, if_neg nofun]

/-- The loops of the other threads ask for the flag only at rest. -/
theorem getIsWork_resting (server : SegmentServer) (usage : Usage) (t : Thread)
    (howes : f.owes = []) (hstage : f.stage = .resting) :
    (rules server usage t).Allowed f .getIsWork ∧ ∀ isWork, f.next .getIsWork isWork = f := by
  refine ⟨⟨.inr howes, fun ID hID => ?_⟩, fun isWork => ?_⟩
  · rw [hstage] at hID
    cases hID
  · simp only [Facts.next, hstage]

/-! ### The readers and the users -/

theorem taskDone_follows (n : Nat) (howes : f.owes = []) :
    Follows (rules server usage (.reader n)) (atNext usage (.reader n)) exn f (taskDone n) :=
  Follows.step ⟨.inr howes, rfl⟩ (fun _ _ => ⟨howes, rfl⟩)

theorem closesGone_reader (n : Nat) : ClosesGone usage (.reader n) p := fun _ hgone _ => hgone

theorem sessionWork_follows {n : Nat} (h : atLabel usage (.reader n) f (.sessionWork n p)) :
    Follows (rules server usage (.reader n)) (atNext usage (.reader n))
      (fun _ f => atEnd usage (.reader n) f) f (server.sessionWork P n p) := by
  obtain ⟨-, hstage, hwork, hserves⟩ := h
  have hread : ReadCallback server usage (.reader n) p (some (server.onAllRead P p)) :=
    readCallback_reader (closesGone_reader n)
  refine Follows.tryCatch (X := fun _ f' => Settled f f') ?_
    (fun _ f' hsettled => taskDone_follows n hsettled.2.owes)
  obtain ⟨hmay, hnext⟩ := getIsWork_resting server usage (.reader n) hwork.owes hstage
  unfold Session.readRound
  refine Follows.step hmay (fun isWork _ => ?_)
  show Follows (rules server usage (.reader n)) _ _ (f.next .getIsWork isWork) _
  rw [hnext]
  cases isWork with
  | false => exact taskDone_follows n hwork.owes
  | true =>
    refine Follows.step ⟨.inr hwork.owes, trivial⟩ (fun hasError _ => ?_)
    cases hasError with
    | true => exact taskDone_follows n hwork.owes
    | false =>
      refine Follows.bind (read_follows (closesGone_reader n) hread hwork hserves)
        (fun _ f' hsettled => ?_)
      exact ⟨rfl, hsettled.1.stage.trans hstage, hwork.settled hsettled, hserves.grows hsettled.1⟩

theorem readerThread_follows (n : Nat) (h : Calm f) (hstage : f.stage = .resting) :
    Follows (rules server usage (.reader n)) (atNext usage (.reader n))
      (fun _ f => atEnd usage (.reader n) f) f (readerThread n) := by
  refine Follows.step ⟨.inr h.owes, rfl⟩ (fun ID _ => ?_)
  refine Follows.step ⟨.inl trivial, trivial⟩ (fun found hpossible => ?_)
  cases found with
  | none => exact taskDone_follows n h.owes
  | some p =>
    have hcalm : Calm (f.next (.takeTask n) ID) := ⟨h.distinct, h.owes, h.closing⟩
    obtain ⟨hwork, hid, hgrows⟩ := inHand_mapGet (t := Thread.reader n) hcalm
      (fun ID' hID' => by rw [show (f.next (.takeTask n) ID).stage = .resting from hstage] at hID'; cases hID')
      hpossible
    refine ⟨rfl, hgrows.stage.trans hstage, hwork, ?_⟩
    show p.sessionID ∈ ((f.next (.takeTask n) ID).next _ _).served
    rw [hgrows.served, hid]
    exact List.mem_cons_self ..

theorem userLoop_follows {n : Nat} (h : atLabel usage (.user n) f .userLoop) :
    Follows (rules server usage (.user n)) (atNext usage (.user n)) (fun _ f => atEnd usage (.user n) f) f
      (server.userLoop P) := by
  obtain ⟨hn, hoperates, hstage, hcalm⟩ := h
  have hagain : ∀ f', Settled f f' → atLabel usage (.user n) f' .userLoop :=
    fun f' hsettled => ⟨hn, hoperates, hsettled.1.stage.trans hstage, hsettled.2⟩
  have hnotRefusing : ∀ id ID, f.stage = .refusing ID → id = UInt64.toUInt32 ID := by
    intro id ID hID
    rw [hstage] at hID
    cases hID
  refine Follows.step ⟨.inr hcalm.owes, n, rfl⟩ (fun command _ => ?_)
  show Follows (rules server usage (.user n)) _ _ f _
  cases command with
  | disconnect id =>
    refine Follows.bind (M := fun _ f' => Settled f f') ?_ (fun _ f' h => hagain f' h)
    refine Follows.step ⟨.inl trivial, trivial⟩ (fun found hpossible => ?_)
    cases found with
    | none => exact ⟨hcalm.owes, trivial⟩
    | some p =>
      obtain ⟨hwork, -, hgrows⟩ := inHand_mapGet (t := Thread.user n) hcalm (hnotRefusing _) hpossible
      have hcloser : ∀ f', Closer usage (.user n) f' p := fun _ _ _ _ => hoperates
      refine (disconnect_follows hwork.toInHand (hcloser _)).mono ?_ (fun _ _ h => h)
      exact fun _ f' hclosed => ⟨hgrows.trans hclosed.grows, hclosed.calm (by simp [hwork.owes])⟩
  | write id data =>
    refine Follows.bind (M := fun _ f' => Settled f f') ?_ (fun _ f' h => hagain f' h)
    refine Follows.step ⟨.inl trivial, trivial⟩ (fun found hpossible => ?_)
    cases found with
    | none => exact settled_removed hcalm _
    | some p =>
      obtain ⟨hwork, -, hgrows⟩ := inHand_mapGet (t := Thread.user n) hcalm (hnotRefusing _) hpossible
      have hcloses : ClosesGone usage (.user n) p := fun _ _ _ => hoperates
      refine (write_follows hcloses hwork trivial _).mono ?_ (fun _ _ h => h)
      exact fun _ f' hsettled => Settled.trans hgrows hsettled
  | sessionDisconnect => exact hagain f (Settled.refl hcalm)
  | sessionWrite m => exact hagain f (Settled.refl hcalm)

/-! ### The accept loop -/

/-- The accept loop's own steps: only the stage moves on. -/
theorem Calm.stage (h : Calm f) (stage : Stage) : Calm { f with stage := stage } :=
  ⟨h.distinct, h.owes, h.closing⟩

theorem addSession_follows {ID : UInt64} (h : Calm f) (hstage : f.stage = .drawn ID) :
    Follows (rules server usage .main) (fun _ f' => Calm f' ∧ f'.stage = .placed ID ∧ f'.stop = f.stop) exn f
      (server.sessionManager.addSession (UInt64.toUInt32 ID)) := by
  refine Follows.step ⟨.inr h.owes, rfl, ID, rfl, .inl hstage⟩ (fun found hfound => ?_)
  obtain rfl : found = false := hfound
  have hdrawn : f.next (.mapFind (UInt64.toUInt32 ID)) false = f := by simp only [Facts.next, hstage]
  show Follows (rules server usage .main) _ exn (f.next (.mapFind (UInt64.toUInt32 ID)) false) _
  rw [hdrawn]
  refine Follows.step ⟨.inr h.owes, rfl, ID, rfl, hstage⟩ (fun ptr hptr => ?_)
  have hid : ptr.sessionID = UInt64.toUInt32 ID := hptr
  have hmade : f.next (.makeSession (UInt64.toUInt32 ID)) ptr = { f with stage := .made ID ptr } := by
    simp only [Facts.next, hstage]
  show Follows (rules server usage .main) _ exn (f.next (.makeSession (UInt64.toUInt32 ID)) ptr) _
  rw [hmade]
  refine Follows.step ⟨.inr h.owes, rfl, ID, ptr, rfl, rfl⟩ (fun _ _ => ?_)
  show Follows (rules server usage .main) _ exn { f with stage := .accepting ID ptr } _
  refine Follows.step ⟨.inr h.owes, rfl, ID, ptr, rfl, rfl⟩ (fun ec _ => ?_)
  refine Follows.bind (M := fun _ f' => f' =
    Facts.next { f with stage := .accepting ID ptr } (.acceptResult ptr.addr) ec) ?_ ?_
  · exact Follows.when (fun _ => rfl) (fun _ => rfl)
  rintro - f₁ rfl
  show Follows (rules server usage .main) _ exn _ (SessionManager.onAccept ptr.sessionID ptr ec)
  unfold SessionManager.onAccept
  cases hec : ec.failed with
  | true =>
    -- the accept has failed, and there is no entry to remove
    have hsame : Facts.next { f with stage := .accepting ID ptr } (.acceptResult ptr.addr) ec
        = { f with stage := .accepting ID ptr } := by simp only [Facts.next, hec, if_true]
    rw [hsame, hid]
    refine Follows.step ⟨.inr h.owes, rfl, ID, rfl, .inr ⟨ptr, rfl⟩⟩ (fun found hfound => ?_)
    obtain rfl : found = false := hfound
    exact ⟨h.stage _, rfl, rfl⟩
  | false =>
    have haccepted : Facts.next { f with stage := .accepting ID ptr } (.acceptResult ptr.addr) ec
        = { f with stage := .accepted ID ptr } := by
      simp only [Facts.next, hec]
      rfl
    rw [haccepted, hid]
    exact Follows.call ⟨.inr h.owes, rfl, ID, rfl, rfl⟩ (fun _ _ => ⟨h.stage _, rfl, rfl⟩)

theorem keep_follows {ID : UInt64} (h : Calm f)
    (hstage : f.stage = .placed ID ∧ server.multiConnect = true ∨ f.stage = .counted ID)
    (hstop : f.stop = .running) :
    Follows (rules server usage .main) (atNext usage .main) exn f (keep ID) := by
  have hmay : ∀ ID, f.stage = .placed ID → server.multiConnect = true := by
    intro ID' hID'
    rcases hstage with ⟨-, hmulti⟩ | hcounted
    · exact hmulti
    · rw [hcounted] at hID'
      cases hID'
  refine Follows.step ⟨.inr h.owes, hmay⟩ (fun isWork _ => ?_)
  have hnext : f.next .getIsWork isWork
      = { f with stage := if isWork then .granted ID else .resting } := by
    rcases hstage with ⟨hplaced, -⟩ | hcounted
    · simp only [Facts.next, hplaced]
    · simp only [Facts.next, hcounted]
  show Follows (rules server usage .main) _ exn (f.next .getIsWork isWork) _
  rw [hnext]
  cases isWork with
  | false => exact ⟨rfl, h.stage _, hstop, .inl rfl⟩
  | true =>
    refine Follows.step ⟨.inr h.owes, rfl, rfl⟩ (fun _ _ => ?_)
    exact ⟨rfl, h.stage _, hstop, .inl rfl⟩

theorem refuse_follows {ID : UInt64} (hmulti : server.multiConnect = false) (h : Calm f) (hstage : f.stage = .refusing ID)
    (hstop : f.stop = .running) :
    Follows (rules server usage .main) (atNext usage .main) exn f (server.refuse ID) := by
  refine Follows.bind (M := fun _ f' => Settled f f' ∧ Refused f' ID) ?_ (fun _ f' hrefused => ?_)
  · refine Follows.step ⟨.inl trivial, trivial⟩ (fun found hpossible => ?_)
    cases found with
    | none => exact ⟨h.owes, hmulti⟩
    | some p =>
      obtain ⟨hwork, hid, hgrows⟩ := inHand_mapGet (t := Thread.main) h
        (fun ID' hID' => by rw [hstage] at hID'; rw [Stage.refusing.inj hID']) hpossible
      have hcloser : Closer usage .main _ p := fun f' hgrows' hclosing =>
        ⟨⟨ID, (hgrows'.stage.trans hgrows.stage).trans hstage, hid⟩, hclosing⟩
      refine (disconnect_follows hwork.toInHand hcloser).mono ?_ (fun _ _ h => h)
      refine fun _ f' hclosed => ⟨⟨hgrows.trans hclosed.grows, hclosed.calm ?_⟩, ?_⟩
      · rw [hwork.owes]
        exact nofun
      · exact ⟨p, hclosed.grows.known p hwork.known, hid, hclosed.shut⟩
  · obtain ⟨hsettled, hclosed⟩ := hrefused
    refine ⟨rfl, hsettled.2, hsettled.1.stop.trans hstop, .inr ⟨ID, ?_, hclosed⟩⟩
    exact hsettled.1.stage.trans hstage

theorem keepOrRefuse_follows {ID : UInt64} (h : Calm f) (hstage : f.stage = .placed ID)
    (hstop : f.stop = .running) :
    Follows (rules server usage .main) (atNext usage .main) exn f (server.keepOrRefuse ID) := by
  unfold keepOrRefuse
  split
  · next hmulti => exact keep_follows h (.inl ⟨hstage, hmulti⟩) hstop
  · next hmulti =>
    refine Follows.step ⟨.inr h.owes, .inl ⟨rfl, h.closing, ID, hstage⟩⟩ (fun count _ => ?_)
    have hnext : f.next .mapSize count
        = { f with stage := if 1 < count then .refusing ID else .counted ID } := by
      simp only [Facts.next, hstage, hstop]
    show Follows (rules server usage .main) _ exn (f.next .mapSize count) _
    rw [hnext]
    by_cases hcount : 1 < count
    · rw [if_pos hcount, if_pos hcount]
      exact refuse_follows (Bool.eq_false_iff.mpr hmulti) (h.stage _) rfl hstop
    · rw [if_neg hcount, if_neg hcount]
      exact keep_follows (h.stage _) (.inr rfl) hstop

theorem acceptLoop_follows (h : atLabel usage .main f .acceptLoop) :
    Follows (rules server usage .main) (atNext usage .main) (fun _ f => atEnd usage .main f) f
      server.acceptLoop := by
  obtain ⟨-, hcalm, hstop, hstage⟩ := h
  have hnotPlaced : ∀ ID, f.stage = .placed ID → server.multiConnect = true := by
    intro ID hID
    rcases hstage with hresting | ⟨ID', hrefusing, -⟩
    · rw [hresting] at hID
      cases hID
    · rw [hrefusing] at hID
      cases hID
  refine Follows.step ⟨.inr hcalm.owes, hnotPlaced⟩ (fun isWork _ => ?_)
  have hnext : f.next .getIsWork isWork = f := by
    rcases hstage with hresting | ⟨ID, hrefusing, -⟩
    · simp only [Facts.next, hresting]
    · simp only [Facts.next, hrefusing]
  show Follows (rules server usage .main) _ _ (f.next .getIsWork isWork) _
  rw [hnext]
  cases isWork with
  | false => exact Follows.step ⟨.inr hcalm.owes, rfl⟩ (fun _ _ => ⟨hcalm.owes, rfl⟩)
  | true =>
    refine Follows.step ⟨.inr hcalm.owes, rfl, hstage⟩ (fun ID _ => ?_)
    refine Follows.bind (addSession_follows (hcalm.stage (.drawn ID)) rfl) (fun _ f₁ h₁ => ?_)
    exact keepOrRefuse_follows h₁.1 h₁.2.1 (h₁.2.2.trans hstop)

/-! ### `stop` -/

/-- The loop over the copied map pays what is owed for it. -/
theorem disconnectAll_follows (hstops : usage.stops = true) (ptrs : List SessionPtr)
    (hknown : ∀ p ∈ ptrs, p ∈ f.known) (hdistinct : Distinct f) (hclosing : f.closing = none)
    (hstage : f.stage = .resting) (howes : ∀ a ∈ f.owes, a ∈ ptrs.map SessionPtr.addr) :
    Follows (rules server usage .control) (fun _ f' => Settled f f') exn f
      (stop.disconnectAll server ptrs) := by
  induction ptrs generalizing f with
  | nil => exact ⟨Grows.refl f, hdistinct, List.eq_nil_iff_forall_not_mem.mpr
      (fun a ha => List.not_mem_nil (howes a ha)), hclosing⟩
  | cons p rest ih =>
    have hinHand : InHand f p := by
      refine ⟨hknown p (List.mem_cons_self ..), hdistinct, hclosing, fun ID hID => ?_⟩
      rw [hstage] at hID
      cases hID
    have hcloser : Closer usage .control f p := fun _ _ _ => hstops
    refine Follows.bind (disconnect_follows hinHand hcloser) (fun _ f₁ hclosed => ?_)
    obtain ⟨hgrows, hdistinct₁, hclosing₁, -, howes₁⟩ := hclosed
    refine (ih (fun q hq => hgrows.known q (hknown q (List.mem_cons_of_mem p hq))) hdistinct₁
      hclosing₁ (hgrows.stage.trans hstage) (fun a ha => ?_)).mono
        (fun _ f' hsettled => Settled.trans hgrows hsettled) (fun _ _ h => h)
    obtain ⟨hold, hne⟩ := howes₁ a ha
    exact (List.mem_cons.mp (howes a hold)).resolve_left hne

theorem stop_follows (hstops : usage.stops = true) (h : Calm f) (hstage : f.stage = .resting)
    (hstop : f.stop = .running) :
    Follows (rules server usage .control) (atNext usage .control) (fun _ f => atEnd usage .control f) f
      server.stop := by
  obtain ⟨hmay, hnext⟩ := getIsWork_resting server usage .control h.owes hstage
  refine Follows.step hmay (fun isWork hisWork => ?_)
  obtain rfl : isWork = true := hisWork rfl hstop
  show Follows (rules server usage .control) _ _ (f.next .getIsWork true) _
  rw [hnext]
  refine Follows.step ⟨.inr h.owes, rfl, rfl, hstops, hstop⟩ (fun _ _ => ?_)
  refine Follows.bind (M := fun _ f' => f' = { f with stop := .deaf }) ?_ (fun _ f₁ hf₁ => ?_)
  · refine Follows.step ⟨.inr h.owes, rfl, rfl⟩ (fun is_open _ => ?_)
    cases is_open with
    | false => exact rfl
    | true =>
      refine Follows.step ⟨.inr h.owes, rfl, rfl⟩ (fun _ _ => ?_)
      exact Follows.step ⟨.inr h.owes, rfl, rfl⟩ (fun _ _ => rfl)
  subst hf₁
  refine Follows.step ⟨.inr h.owes, rfl, rfl⟩ (fun copy_map hcopy => ?_)
  refine Follows.step ⟨.inr h.owes, .inr ⟨rfl, copy_map, rfl⟩⟩ (fun count _ => ?_)
  -- what is behind the count owes the sockets of the copied map, if it goes through it
  generalize hlooped : ({ f with
      known := copy_map ++ f.known
      owes := if count != 0 then f.owes ++ copy_map.map SessionPtr.addr else f.owes
      stop := .looped } : Facts) = f₂
  suffices hrest : Follows (rules server usage .control) (atNext usage .control)
      (fun _ f => atEnd usage .control f) f₂
      (Prog.when (count != 0) (stop.disconnectAll server copy_map)
        >>= fun _ => pure (some ServerLabel.flushMain)) by
    rw [← hlooped] at hrest
    exact hrest
  have hdistinct : Distinct f₂ := by
    rw [← hlooped]
    exact hcopy
  have hknown : ∀ p ∈ copy_map, p ∈ f₂.known := by
    rw [← hlooped]
    exact fun p hp => List.mem_append_left _ hp
  have hclosing : f₂.closing = none := by
    rw [← hlooped]
    exact h.closing
  have hresting : f₂.stage = .resting := by
    rw [← hlooped]
    exact hstage
  have hstop₂ : f₂.stop = .looped := by rw [← hlooped]
  have howes : f₂.owes = if count != 0 then copy_map.map SessionPtr.addr else [] := by
    rw [← hlooped]
    simp only [h.owes, List.nil_append]
  refine Follows.bind (M := fun _ f' => f'.owes = [] ∧ f'.stop = .looped)
    (Follows.when (fun hcount => ?_) (fun hcount => ⟨?_, hstop₂⟩)) (fun _ f' hf' => ?_)
  · refine (disconnectAll_follows hstops copy_map hknown hdistinct hclosing hresting
      (fun a ha => ?_)).mono (fun _ f' hsettled => ?_) (fun _ _ h => h)
    · rwa [howes, if_pos hcount] at ha
    · exact ⟨hsettled.2.owes, hsettled.1.stop.trans hstop₂⟩
  · rw [howes, hcount]
    rfl
  · exact ⟨rfl, hf'.1, hf'.2⟩

theorem flushMain_follows (h : atLabel usage t f .flushMain) :
    Follows (rules server usage t) (atNext usage t) exn f flushMain := by
  obtain ⟨rfl, howes, hstop⟩ := h
  exact Follows.step ⟨.inr howes, rfl, hstop⟩ (fun _ _ => ⟨rfl, howes, hstop⟩)

theorem flushWorkers_follows {n : Nat} (h : atLabel usage t f (.flushWorkers n)) :
    Follows (rules server usage t) (atNext usage t) exn f (flushWorkers n) := by
  obtain ⟨rfl, howes, hstop⟩ := h
  refine Follows.step ⟨.inr howes, rfl, hstop⟩ (fun size _ => ?_)
  split
  · exact Follows.step ⟨.inr howes, rfl, hstop⟩ (fun _ _ => ⟨rfl, howes, hstop⟩)
  · exact ⟨howes, fun _ => hstop⟩

theorem networkLoop_follows (h : atLabel usage t f .networkLoop) :
    Follows (rules server usage t) (atNext usage t) exn f networkLoop := by
  obtain ⟨rfl, howes⟩ := h
  exact Follows.step ⟨.inr howes, rfl⟩ (fun _ _ => ⟨rfl, howes⟩)

/-- Every block of the server keeps to the discipline of the thread that runs it. -/
theorem block_follows (l : ServerLabel) (h : atLabel usage t f l) :
    Follows (rules server usage t) (atNext usage t) (fun _ f => atEnd usage t f) f
      (server.block P l) := by
  cases l with
  | acceptLoop =>
    obtain ⟨rfl, -⟩ := id h
    exact acceptLoop_follows h
  | sessionWork n p =>
    obtain ⟨rfl, -⟩ := id h
    exact sessionWork_follows h
  | flushMain => exact flushMain_follows h
  | flushWorkers n => exact flushWorkers_follows h
  | userLoop =>
    obtain ⟨⟨n, rfl⟩, -⟩ := id h
    exact userLoop_follows h
  | networkLoop => exact networkLoop_follows h

/-- So does every thread from where it starts. -/
theorem started_follows (ids : Nat → UInt64) (t : Thread) :
    Follows (rules server usage t) (atNext usage t) (fun _ f => atEnd usage t f) Facts.nothing
      ((server.started P ids usage).threads t) := by
  have hcalm : Calm Facts.nothing := ⟨nofun, rfl, rfl⟩
  cases t with
  | main => exact ⟨rfl, hcalm, rfl, .inl rfl⟩
  | control =>
    show Follows _ _ _ _ (if usage.stops then server.stop else .pure none)
    split
    · next hstops => exact stop_follows hstops hcalm rfl rfl
    · next hstops => exact ⟨rfl, fun h => absurd h hstops⟩
  | reader n => exact readerThread_follows n hcalm rfl
  | user n =>
    show Follows _ _ _ _ (if usage.operates then .pure (some ServerLabel.userLoop) else .pure none)
    split
    · next hoperates => exact ⟨⟨n, rfl⟩, hoperates, rfl, hcalm⟩
    · exact ⟨rfl, trivial⟩
  | network => exact ⟨rfl, rfl⟩

end NetworkApplication.Registry
