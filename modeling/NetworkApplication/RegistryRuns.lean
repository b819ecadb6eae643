/-
What the threads of a server know is true.

`Registry.lean` says what a thread knows and what it may do with it; this file says what
the knowledge means in the shared state (`Valid`), and that it stays true whatever the
other threads do. Two things make it stable. What a thread knows of sessions only ever
becomes more: a registered session stays registered, an entry that is gone does not come
back, a socket that is closed is not opened again (`Later`). And the stage of the accept
loop is about a session that no other thread has heard of (`Undisturbed`).

All of it is for runs in which the ids handed out differ modulo 2^32 (`freshIds`): two
sessions of one id would share an entry of the map.
-/
import NetworkApplication.Registry

set_option autoImplicit false

namespace NetworkApplication.Registry

open NetworkApplication.Program NetworkApplication.Pool NetworkApplication.Disciplines
open SegmentServer

/-! ## The shared state -/

/-- The map and the history of registrations agree: every registered session has an id
that was handed out and an address of its own, and the map takes ids to sessions of these
ids. Every worker was created for an id of its own. -/
structure Consistent (ids : Nat → UInt64) (w : World) : Prop where
  handed : ∀ p ∈ w.registered, ∃ i < w.handed, p.sessionID = (ids i).toUInt32
  allocated : ∀ p ∈ w.registered, p.addr < w.allocated
  accepted : ∀ p ∈ w.registered, (w.sessions p.addr).accept ≠ .pending
  sessionIDs : ∀ p ∈ w.registered, ∀ q ∈ w.registered, p.sessionID = q.sessionID → p = q
  addrs : ∀ p ∈ w.registered, ∀ q ∈ w.registered, p.addr = q.addr → p = q
  sessionMap : ∀ id p, w.getSession id = some p → p ∈ w.registered ∧ p.sessionID = id
  workers : ∀ W ∈ w.sessionWorkers, ∃ i < w.handed, W.toUInt32 = (ids i).toUInt32
  distinctWorkers : (w.sessionWorkers.map UInt64.toUInt32).Nodup

/-- No session of a registered one's address. -/
def Unregistered (w : World) (a : Nat) : Prop := ∀ q ∈ w.registered, q.addr ≠ a

/-- The socket is open exactly when the accept on it has succeeded. -/
def Accepting (s : SessionObject) : Prop := ∀ ec, s.accept = .done ec → s.isOpen = !ec.failed

/-- The id has been handed out, and no worker was created for it. -/
def Drawn (ids : Nat → UInt64) (ID : UInt64) (w : World) : Prop :=
  (∃ i < w.handed, UInt64.toUInt32 ID = (ids i).toUInt32) ∧
    ∀ W ∈ w.sessionWorkers, UInt64.toUInt32 W ≠ UInt64.toUInt32 ID

/-- Nor was a session registered under it. -/
def Current (ids : Nat → UInt64) (ID : UInt64) (w : World) : Prop :=
  Drawn ids ID w ∧ ∀ p ∈ w.registered, p.sessionID ≠ UInt64.toUInt32 ID

/-- The session is the accept loop's alone. -/
def Own (ID : UInt64) (p : SessionPtr) (w : World) : Prop :=
  p.sessionID = UInt64.toUInt32 ID ∧ p.addr < w.allocated ∧ Unregistered w p.addr

/-- What a stage of the accept loop says. -/
def AtStage (ids : Nat → UInt64) (w : World) : Stage → Prop
  | .resting | .refusing _ => True
  | .drawn ID => Current ids ID w
  | .made ID p => Current ids ID w ∧ Own ID p w ∧ Accepting (w.sessions p.addr)
  | .accepting ID p => Current ids ID w ∧ Own ID p w ∧ Accepting (w.sessions p.addr) ∧
    (w.sessions p.addr).accept ≠ .idle
  | .accepted ID p => Current ids ID w ∧ Own ID p w ∧ (w.sessions p.addr).accept ≠ .pending ∧
    w.isOpen p.addr = true
  | .placed ID | .counted ID | .granted ID => Drawn ids ID w

/-- What a stage of `stop` says. -/
def AtStop (w : World) : StopStage → Prop
  | .running => w.isWork = true
  | .cleared => w.isWork = false
  | .deaf | .copied _ | .looped => w.isWork = false ∧ w.acceptorOpen = false

/-- What it says that a task is done, or not. -/
def AtDone (w : World) (done : Bool) : Thread → Prop
  | .main => w.mainTasks = if done then 0 else 1
  | .reader n => done = true → w.finished n = true
  | _ => True

/-- What thread `t` knows is true. -/
structure Valid (ids : Nat → UInt64) (usage : Usage) (t : Thread) (f : Facts) (w : World) :
    Prop where
  known : ∀ p ∈ f.known, p ∈ w.registered
  gone : ∀ id ∈ f.gone, w.getSession id = none ∧ ∃ p ∈ w.registered, p.sessionID = id
  shut : ∀ a ∈ f.shut, w.isOpen a = false ∧ ∃ p ∈ w.registered, p.addr = a
  served : ∀ id ∈ f.served, ∃ (n : Nat) (W : UInt64), t = .reader n ∧ w.sessionWorkers[n]? = some W ∧
    UInt64.toUInt32 W = id
  main : t ≠ .main → f.stage = .resting
  stage : AtStage ids w f.stage
  control : t ≠ .control ∨ usage.stops = false → f.stop = .running
  stop : t = .control → AtStop w f.stop
  done : AtDone w f.done t

/-! ## What an operation can do to it -/

/-- What is said of sessions stays true. -/
structure Later (w w' : World) : Prop where
  registered : ∀ p ∈ w.registered, p ∈ w'.registered
  gone : ∀ p ∈ w.registered, w.getSession p.sessionID = none → w'.getSession p.sessionID = none
  shut : ∀ p ∈ w.registered, w.isOpen p.addr = false → w'.isOpen p.addr = false
  workers : ∀ (n : Nat) (W : UInt64), w.sessionWorkers[n]? = some W → w'.sessionWorkers[n]? = some W
  finished : ∀ n, w.finished n = true → w'.finished n = true

/-- What the accept loop has in hand is left alone. -/
structure Undisturbed (w w' : World) : Prop where
  registered : w'.registered = w.registered
  handed : w'.handed = w.handed
  allocated : w'.allocated = w.allocated
  sessionWorkers : w'.sessionWorkers = w.sessionWorkers
  mainTasks : w'.mainTasks = w.mainTasks
  accepting : ∀ a, Unregistered w a → Accepting (w.sessions a) → Accepting (w'.sessions a)
  started : ∀ a, Unregistered w a → (w.sessions a).accept ≠ .idle → (w'.sessions a).accept ≠ .idle
  accepted : ∀ a, Unregistered w a → (w.sessions a).accept ≠ .pending →
    (w'.sessions a).accept = (w.sessions a).accept ∧ w'.isOpen a = w.isOpen a

/-- What an operation of thread `t` can do. -/
structure Moves (t : Thread) (w w' : World) : Prop where
  later : Later w w'
  main : t ≠ .main → Undisturbed w w'
  isWork : t ≠ .control → w'.isWork = w.isWork
  idle : w.isWork = false → w'.isWork = false
  acceptorOpen : w.acceptorOpen = false → w'.acceptorOpen = false

variable {ids : Nat → UInt64} {server : SegmentServer} {usage : Usage} {t u : Thread} {f : Facts}
  {w w' : World}

theorem AtStage.undisturbed {stage : Stage} (h : Undisturbed w w') (hstage : AtStage ids w stage) :
    AtStage ids w' stage := by
  obtain ⟨hregistered, hhanded, hallocated, hworkers, -, haccepting, hstarted, haccepted⟩ := h
  have hdrawn : ∀ ID, Drawn ids ID w → Drawn ids ID w' := by
    intro ID hID
    unfold Drawn
    rwa [hhanded, hworkers]
  have hcurrent : ∀ ID, Current ids ID w → Current ids ID w' := by
    intro ID hID
    refine ⟨hdrawn ID hID.1, ?_⟩
    rw [hregistered]
    exact hID.2
  have hown : ∀ ID p, Own ID p w → Own ID p w' := by
    intro ID p hp
    unfold Own Unregistered
    rwa [hallocated, hregistered]
  cases stage with
  | resting => trivial
  | refusing ID => trivial
  | drawn ID => exact hcurrent ID hstage
  | placed ID => exact hdrawn ID hstage
  | counted ID => exact hdrawn ID hstage
  | granted ID => exact hdrawn ID hstage
  | made ID p =>
    obtain ⟨hID, hp, hacc⟩ := hstage
    exact ⟨hcurrent ID hID, hown ID p hp, haccepting _ hp.2.2 hacc⟩
  | accepting ID p =>
    obtain ⟨hID, hp, hacc, hidle⟩ := hstage
    exact ⟨hcurrent ID hID, hown ID p hp, haccepting _ hp.2.2 hacc, hstarted _ hp.2.2 hidle⟩
  | accepted ID p =>
    obtain ⟨hID, hp, hpending, hopen⟩ := hstage
    obtain ⟨hsame, hsameOpen⟩ := haccepted _ hp.2.2 hpending
    refine ⟨hcurrent ID hID, hown ID p hp, ?_, ?_⟩
    · rwa [hsame]
    · rwa [hsameOpen]

theorem AtStop.moves {stop : StopStage} (h : Moves u w w') (hu : u ≠ .control)
    (hstop : AtStop w stop) : AtStop w' stop := by
  have hisWork := h.isWork hu
  cases stop with
  | running => exact hisWork.trans hstop
  | cleared => exact h.idle hstop
  | deaf => exact ⟨h.idle hstop.1, h.acceptorOpen hstop.2⟩
  | copied copy_map => exact ⟨h.idle hstop.1, h.acceptorOpen hstop.2⟩
  | looped => exact ⟨h.idle hstop.1, h.acceptorOpen hstop.2⟩

theorem AtDone.later {done : Bool} (h : Later w w') (hmain : t = .main → w'.mainTasks = w.mainTasks)
    (hdone : AtDone w done t) : AtDone w' done t := by
  cases t with
  | main => exact (hmain rfl).trans hdone
  | reader n => exact fun h' => h.finished n (hdone h')
  | _ => trivial

/-- What is known of sessions stays true, whoever moves. -/
theorem Valid.later {stage : Stage} {stop : StopStage} {done : Bool} (h : Later w w') (hv : Valid ids usage t f w)
    (hmain : t ≠ .main → stage = .resting) (hstage : AtStage ids w' stage)
    (hcontrol : t ≠ .control ∨ usage.stops = false → stop = .running)
    (hstop : t = .control → AtStop w' stop) (hdone : AtDone w' done t) :
    Valid ids usage t { f with stage := stage, stop := stop, done := done } w' where
  known := fun p hp => h.registered p (hv.known p hp)
  gone := by
    intro id hid
    obtain ⟨hnone, p, hp, rfl⟩ := hv.gone id hid
    exact ⟨h.gone p hp hnone, p, h.registered p hp, rfl⟩
  shut := by
    intro a ha
    obtain ⟨hclosed, p, hp, rfl⟩ := hv.shut a ha
    exact ⟨h.shut p hp hclosed, p, h.registered p hp, rfl⟩
  served := by
    intro id hid
    obtain ⟨n, W, rfl, hW, rfl⟩ := hv.served id hid
    exact ⟨n, W, rfl, h.workers n W hW, rfl⟩
  main := hmain
  stage := hstage
  control := hcontrol
  stop := hstop
  done := hdone

/-- What the other threads know stays true. -/
theorem Valid.other (h : Moves t w w') (hu : u ≠ t) (hv : Valid ids usage u f w) :
    Valid ids usage u f w' := by
  refine Valid.later h.later hv hv.main ?_ hv.control (fun hcontrol => ?_) ?_
  · by_cases ht : t = .main
    · rw [hv.main (by rwa [ht] at hu)]
      trivial
    · exact AtStage.undisturbed (h.main ht) hv.stage
  · subst hcontrol
    exact AtStop.moves h (Ne.symm hu) (hv.stop rfl)
  · refine AtDone.later h.later (fun hmain => ?_) hv.done
    subst hmain
    exact (h.main (Ne.symm hu)).mainTasks

/-! ## The operations that change nothing of this -/

/-- The two states agree in all that the invariant is about. -/
structure Same (w w' : World) : Prop where
  sessionMap : w'.sessionMap = w.sessionMap
  registered : w'.registered = w.registered
  handed : w'.handed = w.handed
  allocated : w'.allocated = w.allocated
  sessionWorkers : w'.sessionWorkers = w.sessionWorkers
  isWork : w'.isWork = w.isWork
  acceptorOpen : w'.acceptorOpen = w.acceptorOpen
  mainTasks : w'.mainTasks = w.mainTasks
  finished : w'.finished = w.finished
  isOpen : ∀ a, w'.isOpen a = w.isOpen a
  accept : ∀ a, (w'.sessions a).accept = (w.sessions a).accept

theorem Same.refl (w : World) : Same w w :=
  ⟨rfl, rfl, rfl, rfl, rfl, rfl, rfl, rfl, rfl, fun _ => rfl, fun _ => rfl⟩

/-- A change of a session object that leaves its socket and its accept as they are. -/
theorem same_modify {a : Nat} {g : SessionObject → SessionObject}
    (hopen : ∀ s, (g s).isOpen = s.isOpen) (haccept : ∀ s, (g s).accept = s.accept) :
    Same w (w.modify a g) := by
  refine ⟨rfl, rfl, rfl, rfl, rfl, rfl, rfl, rfl, rfl, fun b => ?_, fun b => ?_⟩
  · by_cases hb : b = a
    · subst hb
      rw [World.isOpen, World.modify_sessions_self, hopen, World.isOpen]
    · rw [World.isOpen, World.modify_sessions_of_ne w hb, World.isOpen]
  · by_cases hb : b = a
    · subst hb
      rw [World.modify_sessions_self, haccept]
    · rw [World.modify_sessions_of_ne w hb]

/-- The operations that do. -/
def Loud : Op → Prop
  | .connect _ | .close _ | .async_accept _ | .acceptorClose | .makeSession _ | .mapErase _
  | .mapInsert _ _ | .makeSessionManager | .setIsWork _ | .distributeID | .addMainTask
  | .mainTaskDone | .addSessionWorker _ | .sessionTaskDone _ | .network => True
  | _ => False

theorem same_of_effect {o : Op} (ho : ¬ Loud o) (h : o.Effect w w') : Same w w' := by
  cases o with
  | read a n =>
    obtain ⟨rx, rfl⟩ := h
    exact same_modify (fun _ => rfl) (fun _ => rfl)
  | write_some a sent rest =>
    obtain ⟨tx, rfl⟩ := h
    exact same_modify (fun _ => rfl) (fun _ => rfl)
  | setCriticalError a =>
    obtain rfl := h
    exact same_modify (fun _ => rfl) (fun _ => rfl)
  | connect => exact absurd trivial ho
  | close => exact absurd trivial ho
  | async_accept => exact absurd trivial ho
  | acceptorClose => exact absurd trivial ho
  | makeSession => exact absurd trivial ho
  | mapErase => exact absurd trivial ho
  | mapInsert => exact absurd trivial ho
  | makeSessionManager => exact absurd trivial ho
  | setIsWork => exact absurd trivial ho
  | distributeID => exact absurd trivial ho
  | addMainTask => exact absurd trivial ho
  | mainTaskDone => exact absurd trivial ho
  | addSessionWorker => exact absurd trivial ho
  | sessionTaskDone => exact absurd trivial ho
  | network => exact absurd trivial ho
  | _ =>
    obtain rfl := h
    exact ⟨rfl, rfl, rfl, rfl, rfl, rfl, rfl, rfl, rfl, fun _ => rfl, fun _ => rfl⟩

theorem Same.getSession (h : Same w w') (id : UInt32) : w'.getSession id = w.getSession id := by
  rw [World.getSession, h.sessionMap, World.getSession]

theorem Same.consistent (h : Same w w') (hw : Consistent ids w) : Consistent ids w' where
  handed := by
    rw [h.registered, h.handed]
    exact hw.handed
  allocated := by
    rw [h.registered, h.allocated]
    exact hw.allocated
  accepted := by
    intro p hp
    rw [h.registered] at hp
    rw [h.accept]
    exact hw.accepted p hp
  sessionIDs := by
    rw [h.registered]
    exact hw.sessionIDs
  addrs := by
    rw [h.registered]
    exact hw.addrs
  sessionMap := by
    intro id p hp
    rw [h.getSession] at hp
    rw [h.registered]
    exact hw.sessionMap id p hp
  workers := by
    rw [h.sessionWorkers, h.handed]
    exact hw.workers
  distinctWorkers := by
    rw [h.sessionWorkers]
    exact hw.distinctWorkers

theorem Same.undisturbed (h : Same w w') : Undisturbed w w' where
  registered := h.registered
  handed := h.handed
  allocated := h.allocated
  sessionWorkers := h.sessionWorkers
  mainTasks := h.mainTasks
  accepting := by
    intro a _ ha ec hec
    rw [h.accept] at hec
    exact (h.isOpen a).trans (ha ec hec)
  started := fun a _ ha => by rwa [h.accept]
  accepted := fun a _ _ => ⟨h.accept a, h.isOpen a⟩

theorem Same.moves (h : Same w w') : Moves t w w' where
  later :=
    { registered := fun p hp => h.registered ▸ hp
      gone := fun p _ hgone => (h.getSession _).trans hgone
      shut := fun p _ hshut => (h.isOpen _).trans hshut
      workers := fun n W hW => by rwa [h.sessionWorkers]
      finished := fun n hn => by rwa [h.finished] }
  main := fun _ => h.undisturbed
  isWork := fun _ => h.isWork
  idle := fun hidle => h.isWork.trans hidle
  acceptorOpen := fun hclosed => h.acceptorOpen.trans hclosed

theorem Same.valid (h : Same w w') (hv : Valid ids usage t f w) : Valid ids usage t f w' := by
  refine Valid.later (h.moves (t := t)).later hv hv.main ?_ hv.control (fun hcontrol => ?_)
    (AtDone.later (h.moves (t := t)).later (fun _ => h.mainTasks) hv.done)
  · exact AtStage.undisturbed h.undisturbed hv.stage
  · exact AtStop.moves (h.moves (t := .network)) nofun (hv.stop hcontrol)

/-! ## The operations that do -/

variable {a : Nat} {id : UInt32} {p : SessionPtr} {ID : UInt64} {g : SessionObject → SessionObject}

theorem isOpen_modify (w : World) (a : Nat) (g : SessionObject → SessionObject) :
    (w.modify a g).isOpen a = (g (w.sessions a)).isOpen := by
  rw [World.isOpen, World.modify_sessions_self]

theorem isOpen_modify_of_ne {b : Nat} (h : b ≠ a) : (w.modify a g).isOpen b = w.isOpen b := by
  rw [World.isOpen, World.modify_sessions_of_ne w h, World.isOpen]

/-- No accept is started on a registered session. -/
theorem consistent_modify (hw : Consistent ids w)
    (haccept : Unregistered w a ∨ (g (w.sessions a)).accept ≠ .pending) :
    Consistent ids (w.modify a g) := by
  refine ⟨hw.handed, hw.allocated, fun p hp => ?_, hw.sessionIDs, hw.addrs, hw.sessionMap,
    hw.workers, hw.distinctWorkers⟩
  by_cases ha : p.addr = a
  · have hpending := haccept.resolve_left (fun hno => hno p hp ha)
    rwa [ha, World.modify_sessions_self]
  · rw [World.modify_sessions_of_ne w ha]
    exact hw.accepted p hp

/-- No registered session is opened. -/
theorem later_modify (hopen : Unregistered w a ∨ (g (w.sessions a)).isOpen = false) :
    Later w (w.modify a g) := by
  refine ⟨fun _ hp => hp, fun _ _ hgone => hgone, fun p hp hshut => ?_, fun _ _ hW => hW, fun _ h => h⟩
  by_cases ha : p.addr = a
  · rw [ha, isOpen_modify]
    exact hopen.resolve_left (fun hno => hno p hp ha)
  · rwa [isOpen_modify_of_ne ha]

/-- A change of a registered session does not touch what the accept loop has in hand. -/
theorem undisturbed_modify (hp : p ∈ w.registered) : Undisturbed w (w.modify p.addr g) := by
  have hother : ∀ b, Unregistered w b → b ≠ p.addr := fun b hb => Ne.symm (hb p hp)
  refine ⟨rfl, rfl, rfl, rfl, rfl, fun b hb hacc => ?_, fun b hb hidle => ?_, fun b hb _ => ⟨?_, ?_⟩⟩
  · rwa [World.modify_sessions_of_ne w (hother b hb)]
  · rwa [World.modify_sessions_of_ne w (hother b hb)]
  · rw [World.modify_sessions_of_ne w (hother b hb)]
  · exact isOpen_modify_of_ne (hother b hb)

theorem close_moves (hw : Consistent ids w) (hp : p ∈ w.registered)
    (h : Op.Effect (.close p.addr) w w') : Consistent ids w' ∧ Moves t w w' := by
  obtain rfl : w' = w.modify p.addr (fun s => { s with isOpen := false }) := h
  refine ⟨consistent_modify hw (.inr (hw.accepted p hp)), ?_⟩
  exact ⟨later_modify (.inr rfl), fun _ => undisturbed_modify hp, fun _ => rfl, fun h => h, fun h => h⟩

theorem async_accept_moves (hw : Consistent ids w) (ha : Unregistered w a)
    (h : Op.Effect (.async_accept a) w w') : Consistent ids w' ∧ Moves .main w w' := by
  obtain rfl : w' = w.modify a (fun s => { s with accept := .pending }) := h
  refine ⟨consistent_modify hw (.inl ha), ?_⟩
  exact ⟨later_modify (.inl ha), fun hmain => absurd rfl hmain, fun _ => rfl, fun h => h, fun h => h⟩

/-- An accept completes on a session that only the accept loop has, and succeeds only while
the acceptor is open. -/
theorem network_moves (hw : Consistent ids w) (h : Op.Effect .network w w') :
    Consistent ids w' ∧ Moves .network w w' := by
  rcases h with ⟨a, ec, hpending, -, rfl⟩ | ⟨a, rx, rfl⟩
  · have ha : Unregistered w a := by
      rintro q hq rfl
      exact hw.accepted q hq hpending
    refine ⟨consistent_modify hw (.inl ha), later_modify (.inl ha), fun _ => ?_, fun _ => rfl, fun h => h, fun h => h⟩
    refine ⟨rfl, rfl, rfl, rfl, rfl, fun b _ hacc => ?_, fun b _ hidle => ?_, fun b _ hb => ?_⟩
    · by_cases hab : b = a
      · subst hab
        rw [World.modify_sessions_self]
        rintro ec' hec'
        obtain rfl := Accept.done.inj hec'
        rfl
      · rwa [World.modify_sessions_of_ne w hab]
    · by_cases hab : b = a
      · subst hab
        rw [World.modify_sessions_self]
        exact nofun
      · rwa [World.modify_sessions_of_ne w hab]
    · have hab : b ≠ a := by
        rintro rfl
        exact hb hpending
      rw [World.modify_sessions_of_ne w hab]
      exact ⟨rfl, isOpen_modify_of_ne hab⟩
  · have hsame : Same w (w.modify a (fun s => { s with rx := rx })) :=
      same_modify (fun _ => rfl) (fun _ => rfl)
    exact ⟨hsame.consistent hw, hsame.moves⟩

theorem makeSession_moves (hw : Consistent ids w) (h : Op.Effect (.makeSession id) w w') :
    Consistent ids w' ∧ Moves .main w w' := by
  obtain rfl : w' = { w.modify w.allocated (fun _ => .new) with allocated := w.allocated + 1 } := h
  have hfresh : Unregistered w w.allocated := fun q hq => Nat.ne_of_lt (hw.allocated q hq)
  have hmodified := consistent_modify (g := fun _ => .new) hw (.inl hfresh)
  have hlater : Later w (w.modify w.allocated (fun _ => .new)) := later_modify (.inl hfresh)
  refine ⟨⟨hmodified.handed, fun q hq => ?_, hmodified.accepted, hmodified.sessionIDs,
    hmodified.addrs, hmodified.sessionMap, hmodified.workers, hmodified.distinctWorkers⟩, ?_⟩
  · exact Nat.lt_succ_of_lt (hw.allocated q hq)
  · exact ⟨⟨hlater.registered, hlater.gone, hlater.shut, hlater.workers, hlater.finished⟩,
      fun hmain => absurd rfl hmain, fun _ => rfl, fun h => h, fun h => h⟩

theorem getSession_erase (w : World) (id id' : UInt32) :
    ({ w with sessionMap := w.sessionMap.erase id } : World).getSession id'
      = if id' = id then none else w.getSession id' := by
  unfold World.getSession
  split
  · next h => rw [h, AList.lookup_erase]
  · next h => exact AList.lookup_erase_ne h

theorem mapErase_moves (hw : Consistent ids w) (h : Op.Effect (.mapErase id) w w') :
    Consistent ids w' ∧ Moves t w w' := by
  obtain rfl : w' = { w with sessionMap := w.sessionMap.erase id } := h
  have hkept : ∀ id' q,
      ({ w with sessionMap := w.sessionMap.erase id } : World).getSession id' = some q →
      w.getSession id' = some q := by
    intro id' q hq
    rw [getSession_erase] at hq
    split at hq
    · cases hq
    · exact hq
  refine ⟨⟨hw.handed, hw.allocated, hw.accepted, hw.sessionIDs, hw.addrs,
    fun id' q hq => hw.sessionMap id' q (hkept id' q hq), hw.workers, hw.distinctWorkers⟩, ?_⟩
  refine ⟨⟨fun _ hp => hp, fun q _ hgone => ?_, fun _ _ hshut => hshut, fun _ _ hW => hW, fun _ h => h⟩,
    fun _ => ⟨rfl, rfl, rfl, rfl, rfl, fun _ _ hacc => hacc, fun _ _ hidle => hidle, fun _ _ _ => ⟨rfl, rfl⟩⟩, fun _ => rfl, fun h => h,
    fun h => h⟩
  rw [getSession_erase, hgone, ite_self]

theorem getSession_insert (w : World) (id id' : UInt32) (p : SessionPtr) :
    ({ w with sessionMap := w.sessionMap.insert id p, registered := w.registered ++ [p] } :
      World).getSession id' = if id' = id then some p else w.getSession id' := by
  unfold World.getSession
  split
  · next h => rw [h, AList.lookup_insert]
  · next h => exact AList.lookup_insert_ne h

/-- A registration is of a new id and a new address. -/
theorem mapInsert_moves (hw : Consistent ids w) (hstage : AtStage ids w (.accepted ID p))
    (h : Op.Effect (.mapInsert (UInt64.toUInt32 ID) p) w w') :
    Consistent ids w' ∧ Moves .main w w' := by
  obtain rfl : w' = { w with
    sessionMap := w.sessionMap.insert (UInt64.toUInt32 ID) p
    registered := w.registered ++ [p] } := h
  obtain ⟨⟨⟨hhanded, -⟩, hnew⟩, ⟨hid, hallocated, hfresh⟩, hpending, -⟩ := hstage
  have hmem : ∀ q, q ∈ w.registered ++ [p] ↔ q ∈ w.registered ∨ q = p := by
    intro q
    rw [List.mem_append, List.mem_singleton]
  refine ⟨⟨fun q hq => ?_, fun q hq => ?_, fun q hq => ?_, fun q hq q' hq' hids => ?_,
    fun q hq q' hq' haddrs => ?_, fun id' q hq => ?_, hw.workers, hw.distinctWorkers⟩,
    ⟨⟨fun q hq => (hmem q).mpr (.inl hq), fun q hq hgone => ?_, fun _ _ hshut => hshut,
      fun _ _ hW => hW, fun _ h => h⟩, fun hmain => absurd rfl hmain, fun _ => rfl, fun h => h, fun h => h⟩⟩
  -- each of the invariants is asked of the sessions that were there and of the new one
  · rcases (hmem q).mp hq with hold | rfl
    · exact hw.handed q hold
    · rw [hid]
      exact hhanded
  · rcases (hmem q).mp hq with hold | rfl
    · exact hw.allocated q hold
    · exact hallocated
  · rcases (hmem q).mp hq with hold | rfl
    · exact hw.accepted q hold
    · exact hpending
  · rcases (hmem q).mp hq with hold | rfl
    · rcases (hmem q').mp hq' with hold' | rfl
      · exact hw.sessionIDs q hold q' hold' hids
      · exact absurd (hids.trans hid) (hnew q hold)
    · rcases (hmem q').mp hq' with hold' | rfl
      · exact absurd (hids.symm.trans hid) (hnew q' hold')
      · rfl
  · rcases (hmem q).mp hq with hold | rfl
    · rcases (hmem q').mp hq' with hold' | rfl
      · exact hw.addrs q hold q' hold' haddrs
      · exact absurd haddrs (hfresh q hold)
    · rcases (hmem q').mp hq' with hold' | rfl
      · exact absurd haddrs.symm (hfresh q' hold')
      · rfl
  · rw [getSession_insert] at hq
    split at hq
    · next hid' =>
      obtain rfl := Option.some.inj hq
      exact ⟨(hmem p).mpr (.inr rfl), hid.trans hid'.symm⟩
    · obtain ⟨hold, hid''⟩ := hw.sessionMap id' q hq
      exact ⟨(hmem q).mpr (.inl hold), hid''⟩
  · rw [getSession_insert, if_neg (hnew q hq)]
    exact hgone

theorem setIsWork_moves (hw : Consistent ids w) (h : Op.Effect (.setIsWork false) w w') :
    Consistent ids w' ∧ Moves .control w w' := by
  obtain rfl : w' = { w with isWork := false } := h
  refine ⟨⟨hw.handed, hw.allocated, hw.accepted, hw.sessionIDs, hw.addrs, hw.sessionMap, hw.workers,
    hw.distinctWorkers⟩, ⟨fun _ hp => hp, fun _ _ hgone => hgone, fun _ _ hshut => hshut,
      fun _ _ hW => hW, fun _ h => h⟩, fun _ => ⟨rfl, rfl, rfl, rfl, rfl, fun _ _ hacc => hacc,
        fun _ _ hidle => hidle, fun _ _ _ => ⟨rfl, rfl⟩⟩, fun hcontrol => absurd rfl hcontrol, fun _ => rfl, fun h => h⟩

theorem acceptorClose_moves (hw : Consistent ids w) (h : Op.Effect .acceptorClose w w') :
    Consistent ids w' ∧ Moves .control w w' := by
  obtain rfl : w' = { w with acceptorOpen := false } := h
  refine ⟨⟨hw.handed, hw.allocated, hw.accepted, hw.sessionIDs, hw.addrs, hw.sessionMap, hw.workers,
    hw.distinctWorkers⟩, ⟨fun _ hp => hp, fun _ _ hgone => hgone, fun _ _ hshut => hshut,
      fun _ _ hW => hW, fun _ h => h⟩, fun _ => ⟨rfl, rfl, rfl, rfl, rfl, fun _ _ hacc => hacc,
        fun _ _ hidle => hidle, fun _ _ _ => ⟨rfl, rfl⟩⟩, fun _ => rfl, fun h => h, fun _ => rfl⟩

theorem distributeID_moves (hw : Consistent ids w) (h : Op.Effect .distributeID w w') :
    Consistent ids w' ∧ Moves .main w w' := by
  obtain rfl : w' = { w with handed := w.handed + 1 } := h
  refine ⟨⟨fun q hq => ?_, hw.allocated, hw.accepted, hw.sessionIDs, hw.addrs, hw.sessionMap,
    fun W hW => ?_, hw.distinctWorkers⟩, ⟨fun _ hp => hp, fun _ _ hgone => hgone,
      fun _ _ hshut => hshut, fun _ _ hW => hW, fun _ h => h⟩, fun hmain => absurd rfl hmain, fun _ => rfl, fun h => h, fun h => h⟩
  · obtain ⟨i, hi, hid⟩ := hw.handed q hq
    exact ⟨i, Nat.lt_succ_of_lt hi, hid⟩
  · obtain ⟨i, hi, hid⟩ := hw.workers W hW
    exact ⟨i, Nat.lt_succ_of_lt hi, hid⟩

/-- A worker is created for an id that has none. -/
theorem addSessionWorker_moves (hw : Consistent ids w) (hdrawn : Drawn ids ID w)
    (h : Op.Effect (.addSessionWorker ID) w w') : Consistent ids w' ∧ Moves .main w w' := by
  obtain rfl : w' = { w with sessionWorkers := w.sessionWorkers ++ [ID] } := h
  obtain ⟨hhanded, hnone⟩ := hdrawn
  refine ⟨⟨hw.handed, hw.allocated, hw.accepted, hw.sessionIDs, hw.addrs, hw.sessionMap,
    fun W hW => ?_, ?_⟩, ⟨fun _ hp => hp, fun _ _ hgone => hgone, fun _ _ hshut => hshut,
      fun n W hW => ?_, fun _ h => h⟩, fun hmain => absurd rfl hmain, fun _ => rfl, fun h => h, fun h => h⟩
  · rcases List.mem_append.mp hW with hold | hnew
    · exact hw.workers W hold
    · rw [List.mem_singleton.mp hnew]
      exact hhanded
  · rw [List.map_append, List.nodup_append]
    refine ⟨hw.distinctWorkers, List.nodup_singleton _, ?_⟩
    rintro id₁ hid₁ id₂ hid₂ rfl
    obtain ⟨W, hW, rfl⟩ := List.mem_map.mp hid₁
    exact hnone W hW (List.mem_singleton.mp hid₂)
  · exact List.getElem?_append_left (List.getElem?_eq_some_iff.mp hW).1 ▸ hW

theorem mainTaskDone_moves (hw : Consistent ids w) (h : Op.Effect .mainTaskDone w w') :
    Consistent ids w' ∧ Moves .main w w' := by
  obtain rfl : w' = { w with mainTasks := w.mainTasks - 1 } := h
  refine ⟨⟨hw.handed, hw.allocated, hw.accepted, hw.sessionIDs, hw.addrs, hw.sessionMap, hw.workers,
    hw.distinctWorkers⟩, ⟨fun _ hp => hp, fun _ _ hgone => hgone, fun _ _ hshut => hshut,
      fun _ _ hW => hW, fun _ h => h⟩, fun hmain => absurd rfl hmain, fun _ => rfl, fun h => h,
        fun h => h⟩

theorem sessionTaskDone_moves {n : Nat} (hw : Consistent ids w)
    (h : Op.Effect (.sessionTaskDone n) w w') : Consistent ids w' ∧ Moves t w w' := by
  obtain rfl : w' = { w with finished := Function.update w.finished n true } := h
  refine ⟨⟨hw.handed, hw.allocated, hw.accepted, hw.sessionIDs, hw.addrs, hw.sessionMap, hw.workers,
    hw.distinctWorkers⟩, ⟨fun _ hp => hp, fun _ _ hgone => hgone, fun _ _ hshut => hshut,
      fun _ _ hW => hW, fun m hm => ?_⟩, fun _ => ⟨rfl, rfl, rfl, rfl, rfl, fun _ _ hacc => hacc,
        fun _ _ hidle => hidle, fun _ _ _ => ⟨rfl, rfl⟩⟩, fun _ => rfl, fun h => h, fun h => h⟩
  by_cases hmn : m = n
  · subst hmn
    exact Function.update_self ..
  · exact (Function.update_of_ne hmn ..).trans hm

/-- **Frame**: what any operation that the discipline allows does to the shared state. -/
theorem moves {o : Op} {c : Choice} {r : o.Res} (hw : Consistent ids w)
    (hv : Valid ids usage t f w) (ho : (rules server usage t).Allowed f o)
    (h : sem ids o c w = some (r, w')) : Consistent ids w' ∧ Moves t w w' := by
  obtain ⟨-, hmay⟩ := ho
  have heffect := effect_of_sem h
  have hquiet : ¬ Loud o → Consistent ids w' ∧ Moves t w w' := fun ho =>
    ⟨(same_of_effect ho heffect).consistent hw, (same_of_effect ho heffect).moves⟩
  cases o with
  | connect a => exact hmay.elim
  | makeSessionManager => exact hmay.elim
  | close a =>
    obtain ⟨p, hp, rfl, -⟩ := hmay
    exact close_moves hw (hv.known p hp) heffect
  | async_accept a =>
    obtain ⟨rfl, ID, p, hmade, rfl⟩ := hmay
    have hstage := hv.stage
    rw [hmade] at hstage
    exact async_accept_moves hw hstage.2.1.2.2 heffect
  | acceptorClose =>
    obtain ⟨rfl, -⟩ := hmay
    exact acceptorClose_moves hw heffect
  | makeSession id =>
    obtain ⟨rfl, -⟩ := hmay
    exact makeSession_moves hw heffect
  | mapErase id => exact mapErase_moves hw heffect
  | mapInsert id p =>
    obtain ⟨rfl, ID, rfl, haccepted⟩ := hmay
    have hstage := hv.stage
    rw [haccepted] at hstage
    exact mapInsert_moves hw hstage heffect
  | setIsWork b =>
    obtain ⟨rfl, rfl, -⟩ := hmay
    exact setIsWork_moves hw heffect
  | distributeID =>
    obtain ⟨rfl, -⟩ := hmay
    exact distributeID_moves hw heffect
  | addSessionWorker ID =>
    obtain ⟨rfl, hgranted⟩ := hmay
    have hstage := hv.stage
    rw [hgranted] at hstage
    exact addSessionWorker_moves hw hstage heffect
  | addMainTask => exact hmay.elim
  | mainTaskDone =>
    obtain rfl := hmay
    exact mainTaskDone_moves hw heffect
  | sessionTaskDone n => exact sessionTaskDone_moves hw heffect
  | network =>
    obtain rfl := hmay
    exact network_moves hw heffect
  | _ => exact hquiet not_false

/-! ## What is learnt is true -/

theorem Valid.closed (hv : Valid ids usage t f w) (hp : ∃ p ∈ w.registered, p.addr = a)
    (ha : w.isOpen a = false) : Valid ids usage t (f.closed a) w :=
  { hv with
    shut := by
      intro b hb
      rcases List.mem_cons.mp hb with rfl | hold
      · exact ⟨ha, hp⟩
      · exact hv.shut b hold }

theorem Valid.removed (hv : Valid ids usage t f w) (hid : w.getSession id = none) :
    Valid ids usage t (f.removed id) w :=
  { hv with
    gone := by
      show ∀ id' ∈ (if f.known.any (fun p => p.sessionID == id) then id :: f.gone else f.gone), _
      split
      · next hany =>
        obtain ⟨p, hp, hpid⟩ := List.any_eq_true.mp hany
        intro id' hid'
        rcases List.mem_cons.mp hid' with rfl | hold
        · exact ⟨hid, p, hv.known p hp, beq_iff_eq.mp hpid⟩
        · exact hv.gone id' hold
      · exact hv.gone }

theorem Valid.learn (hv : Valid ids usage t f w) (hp : p ∈ w.registered) :
    Valid ids usage t { f with known := p :: f.known } w :=
  { hv with
    known := by
      intro q hq
      rcases List.mem_cons.mp hq with rfl | hold
      · exact hp
      · exact hv.known q hold }

/-- The accept loop goes on to another stage. -/
theorem Valid.atStage {stage : Stage} (hv : Valid ids usage .main f w)
    (hstage : AtStage ids w stage) : Valid ids usage .main { f with stage := stage } w :=
  { hv with
    main := fun h => absurd rfl h
    stage := hstage }

/-- `stop` goes on to another stage. -/
theorem Valid.atStop {stop : StopStage} (hv : Valid ids usage .control f w)
    (hstops : usage.stops = true) (hstop : AtStop w stop) :
    Valid ids usage .control { f with stop := stop } w :=
  { hv with
    control := by
      rintro (h | h)
      · exact absurd rfl h
      · rw [hstops] at h
        cases h
    stop := fun _ => hstop }

/-- Whoever is at a stage of the accept loop is the accept loop. -/
theorem Valid.is_main (hv : Valid ids usage t f w) (hstage : f.stage ≠ .resting) : t = .main := by
  by_contra h
  exact hstage (hv.main h)

/-- The copied map holds what the look-ups find. -/
theorem mem_entries {p : SessionPtr} :
    p ∈ w.sessionMap.entries.map Sigma.snd ↔ ∃ id, w.getSession id = some p := by
  rw [List.mem_map]
  constructor
  · rintro ⟨⟨id, q⟩, hq, rfl⟩
    exact ⟨id, AList.mem_lookup_iff.mpr hq⟩
  · rintro ⟨id, hid⟩
    exact ⟨⟨id, p⟩, AList.mem_lookup_iff.mp hid, rfl⟩

/-- A look-up answers with the one session of the id. -/
theorem mapGet_valid {found : Option SessionPtr} (hw : Consistent ids w)
    (hv : Valid ids usage t f w) (hfound : w.getSession id = found) :
    Possible t f (.mapGet id) found ∧ Valid ids usage t (f.next (.mapGet id) found) w := by
  cases found with
  | none => exact ⟨trivial, hv.removed hfound⟩
  | some ptr =>
    obtain ⟨hptr, hid⟩ := hw.sessionMap id ptr hfound
    refine ⟨fun _ => ⟨hid, fun p hp hpid => ?_⟩, ?_⟩
    · exact hw.sessionIDs p (hv.known p hp) ptr hptr (hpid.trans hid.symm)
    · show Valid ids usage t (if f.known.any (fun p => p.sessionID == id) then f
        else { f with known := ptr :: f.known }) w
      split
      · exact hv
      · exact hv.learn hptr

/-- Nothing is found under the id the accept loop has just drawn. -/
theorem mapFind_valid (hw : Consistent ids w) (hv : Valid ids usage t f w)
    (hmay : May server usage t f (.mapFind id)) :
    (w.getSession id).isSome = false ∧
      ∀ found, Valid ids usage t (f.next (.mapFind id) found) w := by
  obtain ⟨rfl, ID, rfl, hstage⟩ := hmay
  have hat := hv.stage
  have hcurrent : Current ids ID w := by
    rcases hstage with hdrawn | ⟨p, haccepting⟩
    · rwa [hdrawn] at hat
    · rw [haccepting] at hat
      exact hat.1
  constructor
  · cases hfound : w.getSession (UInt64.toUInt32 ID) with
    | none => rfl
    | some p =>
      obtain ⟨hp, hid⟩ := hw.sessionMap _ p hfound
      exact absurd hid (hcurrent.2 p hp)
  · intro found
    rcases hstage with hdrawn | ⟨p, haccepting⟩
    · simpa only [Facts.next, hdrawn] using hv
    · simp only [Facts.next, haccepting]
      exact hv.atStage hcurrent.1

theorem getIsWork_valid {isWork : Bool} (hv : Valid ids usage t f w) (hisWork : w.isWork = isWork) :
    Possible t f .getIsWork isWork ∧ Valid ids usage t (f.next .getIsWork isWork) w := by
  refine ⟨fun hcontrol hrunning => ?_, ?_⟩
  · have hstop := hv.stop hcontrol
    rw [hrunning] at hstop
    exact hisWork.symm.trans hstop
  · have hgrant : ∀ ID, f.stage ≠ .resting → Drawn ids ID w →
        Valid ids usage t { f with stage := if isWork then .granted ID else .resting } w := by
      intro ID hstage hdrawn
      obtain rfl := hv.is_main hstage
      cases isWork with
      | true => exact hv.atStage hdrawn
      | false => exact hv.atStage trivial
    have hat := hv.stage
    cases hstage : f.stage with
    | placed ID =>
      rw [hstage] at hat
      simpa only [Facts.next, hstage] using hgrant ID (by simp [hstage]) hat
    | counted ID =>
      rw [hstage] at hat
      simpa only [Facts.next, hstage] using hgrant ID (by simp [hstage]) hat
    | _ => simpa only [Facts.next, hstage] using hv

/-- The count takes the accept loop to its decision, and `stop` to its loop. -/
theorem mapSize_valid {count : Nat} (hv : Valid ids usage t f w)
    (hmay : May server usage t f .mapSize) : Valid ids usage t (f.next .mapSize count) w := by
  rcases hmay with ⟨rfl, -, ID, hstage⟩ | ⟨rfl, copy_map, hstop⟩
  · have hat := hv.stage
    rw [hstage] at hat
    have hrunning : f.stop = .running := hv.control (.inl nofun)
    have hnext : f.next .mapSize count
        = { f with stage := if 1 < count then .refusing ID else .counted ID } := by
      simp only [Facts.next, hstage, hrunning]
    rw [hnext]
    refine hv.atStage ?_
    split
    · trivial
    · exact hat
  · have hat := hv.stop rfl
    rw [hstop] at hat
    have hstops : usage.stops = true := by
      by_contra hno
      have hrunning := hv.control (.inr (Bool.eq_false_iff.mpr hno))
      rw [hstop] at hrunning
      cases hrunning
    simp only [Facts.next, hstop]
    have hlooped : Valid ids usage .control { f with stop := .looped } w := hv.atStop hstops hat
    exact { hlooped with }

/-- A close tells that the socket is closed. -/
theorem close_valid {ec : ErrorCode} (hv : Valid ids usage t f w) (hp : p ∈ w.registered)
    (hw : Consistent ids w) (h : Op.Effect (.close p.addr) w w') :
    Valid ids usage t (f.next (.close p.addr) ec) w' := by
  have hmoves := (close_moves (t := t) hw hp h).2
  obtain rfl : w' = w.modify p.addr (fun s => { s with isOpen := false }) := h
  have hkept : Valid ids usage t f (w.modify p.addr (fun s => { s with isOpen := false })) := by
    refine Valid.later hmoves.later hv hv.main ?_ hv.control (fun ht => ?_)
      (AtDone.later hmoves.later (fun _ => rfl) hv.done)
    · exact AtStage.undisturbed (undisturbed_modify hp) hv.stage
    · exact AtStop.moves (close_moves (t := .network) hw hp rfl).2 nofun (hv.stop ht)
  have hclosed := hkept.closed (a := p.addr) ⟨p, hp, rfl⟩ (isOpen_modify ..)
  unfold Facts.next
  dsimp only
  split
  · exact { hclosed with }
  · exact hclosed

/-- The accept loop has done something of its own. -/
theorem main_valid {stage : Stage} (hmoves : Moves .main w w') (hv : Valid ids usage .main f w)
    (hstage : AtStage ids w' stage) (htasks : w'.mainTasks = w.mainTasks) :
    Valid ids usage .main { f with stage := stage } w' :=
  Valid.later hmoves.later hv (fun h => absurd rfl h) hstage hv.control nofun (htasks.trans hv.done)

/-- `stop` has done something of its own. -/
theorem control_valid {stop : StopStage} (hmoves : Moves .control w w')
    (hv : Valid ids usage .control f w) (hstops : usage.stops = true) (hstop : AtStop w' stop) :
    Valid ids usage .control { f with stop := stop } w' := by
  refine Valid.later hmoves.later hv hv.main ?_ (fun h => ?_) (fun _ => hstop) trivial
  · rw [hv.main nofun]
    trivial
  · rcases h with hne | hno
    · exact absurd rfl hne
    · rw [hstops] at hno
      cases hno

/-- `stop` has begun only where it is called. -/
theorem Valid.stops (hv : Valid ids usage t f w) (hstop : f.stop ≠ .running) :
    usage.stops = true := by
  by_contra hno
  exact hstop (hv.control (.inr (Bool.eq_false_iff.mpr hno)))

theorem async_accept_valid {p : SessionPtr} (hmoves : Moves .main w w')
    (hv : Valid ids usage .main f w) (hmade : f.stage = .made ID p)
    (h : Op.Effect (.async_accept p.addr) w w') :
    Valid ids usage .main (f.next (.async_accept p.addr) ()) w' := by
  obtain rfl : w' = w.modify p.addr (fun s => { s with accept := .pending }) := h
  have hat := hv.stage
  rw [hmade] at hat
  have hnext : f.next (.async_accept p.addr) () = { f with stage := .accepting ID p } := by
    simp only [Facts.next, hmade]
  rw [hnext]
  refine main_valid hmoves hv ⟨hat.1, hat.2.1, fun ec hec => ?_, ?_⟩ rfl
  · rw [World.modify_sessions_self] at hec
    cases hec
  · rw [World.modify_sessions_self]
    simp

theorem makeSession_valid (hw : Consistent ids w) (hmoves : Moves .main w w')
    (hv : Valid ids usage .main f w) (hdrawn : f.stage = .drawn ID)
    (h : Op.Effect (.makeSession (UInt64.toUInt32 ID)) w w') :
    Valid ids usage .main (f.next (.makeSession (UInt64.toUInt32 ID))
      ⟨w.allocated, UInt64.toUInt32 ID⟩) w' := by
  obtain rfl : w' = { w.modify w.allocated (fun _ => .new) with allocated := w.allocated + 1 } := h
  have hat := hv.stage
  rw [hdrawn] at hat
  have hnext : f.next (.makeSession (UInt64.toUInt32 ID)) ⟨w.allocated, UInt64.toUInt32 ID⟩
      = { f with stage := .made ID ⟨w.allocated, UInt64.toUInt32 ID⟩ } := by
    simp only [Facts.next, hdrawn]
  rw [hnext]
  refine main_valid hmoves hv ⟨hat, ⟨rfl, Nat.lt_succ_self _, fun q hq => ?_⟩, fun ec hec => ?_⟩ rfl
  · exact Nat.ne_of_lt (hw.allocated q hq)
  · simp only [World.modify, Function.update_self] at hec
    cases hec

/-- An accept that has succeeded has opened the socket. -/
theorem acceptResult_valid {p : SessionPtr} {ec : ErrorCode} (hv : Valid ids usage .main f w)
    (haccepting : f.stage = .accepting ID p) (hec : (w.sessions p.addr).accept = .done ec) :
    Valid ids usage .main (f.next (.acceptResult p.addr) ec) w := by
  have hat := hv.stage
  rw [haccepting] at hat
  obtain ⟨hcurrent, hown, hacc, -⟩ := hat
  simp only [Facts.next, haccepting]
  split
  · exact hv
  · next hfailed =>
    refine hv.atStage ⟨hcurrent, hown, ?_, ?_⟩
    · rw [hec]
      simp
    · rw [World.isOpen, hacc ec hec, Bool.not_eq_true _ |>.mp hfailed]
      rfl

theorem mapErase_valid (hmoves : Moves t w w') (hv : Valid ids usage t f w)
    (h : Op.Effect (.mapErase id) w w') : Valid ids usage t (f.next (.mapErase id) ()) w' := by
  obtain rfl : w' = { w with sessionMap := w.sessionMap.erase id } := h
  have hkept : Valid ids usage t f { w with sessionMap := w.sessionMap.erase id } := by
    refine Valid.later hmoves.later hv hv.main ?_ hv.control (fun ht => ?_)
      (AtDone.later hmoves.later (fun _ => rfl) hv.done)
    · exact AtStage.undisturbed ⟨rfl, rfl, rfl, rfl, rfl, fun _ _ hacc => hacc,
        fun _ _ hidle => hidle, fun _ _ _ => ⟨rfl, rfl⟩⟩ hv.stage
    · exact hv.stop ht
  have hnone : ({ w with sessionMap := w.sessionMap.erase id } : World).getSession id = none := by
    rw [getSession_erase, if_pos rfl]
  have hremoved := hkept.removed hnone
  exact { hremoved with }

theorem mapInsert_valid {p : SessionPtr} (hmoves : Moves .main w w')
    (hv : Valid ids usage .main f w) (haccepted : f.stage = .accepted ID p)
    (h : Op.Effect (.mapInsert (UInt64.toUInt32 ID) p) w w') :
    Valid ids usage .main (f.next (.mapInsert (UInt64.toUInt32 ID) p) ()) w' := by
  obtain rfl : w' = { w with
    sessionMap := w.sessionMap.insert (UInt64.toUInt32 ID) p
    registered := w.registered ++ [p] } := h
  have hat := hv.stage
  rw [haccepted] at hat
  have hnext : f.next (.mapInsert (UInt64.toUInt32 ID) p) () = { f with stage := .placed ID } := by
    simp only [Facts.next, haccepted]
  rw [hnext]
  exact main_valid hmoves hv hat.1.1 rfl

theorem distributeID_valid (hw : Consistent ids w) (hmoves : Moves .main w w')
    (hv : Valid ids usage .main f w)
    (hfresh : ∀ i < w.handed, (ids i).toUInt32 ≠ (ids w.handed).toUInt32)
    (h : Op.Effect .distributeID w w') :
    Valid ids usage .main (f.next .distributeID (ids w.handed)) w' := by
  obtain rfl : w' = { w with handed := w.handed + 1 } := h
  refine main_valid hmoves hv ⟨⟨⟨w.handed, Nat.lt_succ_self _, rfl⟩, fun W hW => ?_⟩,
    fun p hp => ?_⟩ rfl
  · obtain ⟨i, hi, hid⟩ := hw.workers W hW
    rw [hid]
    exact hfresh i hi
  · obtain ⟨i, hi, hid⟩ := hw.handed p hp
    rw [hid]
    exact hfresh i hi

/-- The copy that `stop` goes through holds sessions with distinct ids. -/
theorem mapCopy_valid (hw : Consistent ids w) (hv : Valid ids usage .control f w)
    (hdeaf : f.stop = .deaf) :
    Possible .control f .mapCopy (w.sessionMap.entries.map Sigma.snd) ∧
      Valid ids usage .control (f.next .mapCopy (w.sessionMap.entries.map Sigma.snd)) w := by
  have hmem : ∀ p ∈ w.sessionMap.entries.map Sigma.snd ++ f.known, p ∈ w.registered := by
    intro p hp
    rcases List.mem_append.mp hp with hcopied | hknown
    · obtain ⟨id, hid⟩ := mem_entries.mp hcopied
      exact (hw.sessionMap id p hid).1
    · exact hv.known p hknown
  refine ⟨fun p hp q hq hids => hw.sessionIDs p (hmem p hp) q (hmem q hq) hids, ?_⟩
  have hat := hv.stop rfl
  rw [hdeaf] at hat
  have hknows : Valid ids usage .control
      { f with known := w.sessionMap.entries.map Sigma.snd ++ f.known } w :=
    { hv with known := hmem }
  exact hknows.atStop (hv.stops (by simp [hdeaf])) hat

/-- The task is one of session thread `n`. -/
theorem takeTask_valid {n : Nat} {W : UInt64} (hv : Valid ids usage (.reader n) f w)
    (hworker : w.sessionWorkers[n]? = some W) :
    Valid ids usage (.reader n) (f.next (.takeTask n) W) w := by
  refine { hv with served := fun id hid => ?_ }
  rcases List.mem_cons.mp hid with rfl | hold
  · exact ⟨n, W, rfl, hworker, rfl⟩
  · exact hv.served id hold

theorem mainTaskDone_valid (hmoves : Moves .main w w') (hv : Valid ids usage .main f w)
    (h : Op.Effect .mainTaskDone w w') : Valid ids usage .main (f.next .mainTaskDone ()) w' := by
  obtain rfl : w' = { w with mainTasks := w.mainTasks - 1 } := h
  have hat : AtStage ids { w with mainTasks := w.mainTasks - 1 } f.stage := by
    have hstage := hv.stage
    cases hf : f.stage <;> rw [hf] at hstage <;> exact hstage
  refine Valid.later hmoves.later hv (fun h => absurd rfl h) hat hv.control (by simp) ?_
  -- there is one task at most, the one that is done
  have htasks : w.mainTasks ≤ 1 := by
    rw [show w.mainTasks = _ from hv.done]
    split <;> omega
  show w.mainTasks - 1 = 0
  omega

theorem sessionTaskDone_valid {n : Nat} (hmoves : Moves (.reader n) w w')
    (hv : Valid ids usage (.reader n) f w) (h : Op.Effect (.sessionTaskDone n) w w') :
    Valid ids usage (.reader n) (f.next (.sessionTaskDone n) ()) w' := by
  obtain rfl : w' = { w with finished := Function.update w.finished n true } := h
  have hresting := hv.main (by simp)
  refine Valid.later hmoves.later hv hv.main ?_ hv.control (by simp) ?_
  · rw [hresting]
    trivial
  · exact fun _ => Function.update_self ..

/-- A socket that is found closed stays closed. -/
theorem isOpen_valid (hv : Valid ids usage t f w) (hp : p ∈ w.registered) :
    Valid ids usage t (f.next (.isOpen p.addr) (w.isOpen p.addr)) w := by
  cases hopen : w.isOpen p.addr with
  | true => exact hv
  | false => exact hv.closed ⟨p, hp, rfl⟩ hopen

/-- `stop` looks at the acceptor behind the flag. -/
theorem acceptorIsOpen_valid (hv : Valid ids usage .control f w) (hcleared : f.stop = .cleared) :
    Valid ids usage .control (f.next .acceptorIsOpen w.acceptorOpen) w := by
  have hat := hv.stop rfl
  rw [hcleared] at hat
  cases hopen : w.acceptorOpen with
  | true => exact hv
  | false => exact hv.atStop (hv.stops (by simp [hcleared])) ⟨hat, hopen⟩

theorem acceptorClose_valid {ec : ErrorCode} (hmoves : Moves .control w w')
    (hv : Valid ids usage .control f w) (hcleared : f.stop = .cleared)
    (h : Op.Effect .acceptorClose w w') :
    Valid ids usage .control (f.next .acceptorClose ec) w' := by
  have hat := hv.stop rfl
  rw [hcleared] at hat
  refine control_valid hmoves hv (hv.stops (by simp [hcleared])) ⟨hmoves.idle hat, ?_⟩
  obtain rfl : w' = { w with acceptorOpen := false } := h
  rfl

theorem setIsWork_valid (hmoves : Moves .control w w') (hv : Valid ids usage .control f w)
    (hstops : usage.stops = true) (h : Op.Effect (.setIsWork false) w w') :
    Valid ids usage .control (f.next (.setIsWork false) ()) w' := by
  refine control_valid hmoves hv hstops ?_
  obtain rfl : w' = { w with isWork := false } := h
  rfl

theorem addSessionWorker_valid {W : UInt64} (hmoves : Moves .main w w')
    (hv : Valid ids usage .main f w) (h : Op.Effect (.addSessionWorker W) w w') :
    Valid ids usage .main (f.next (.addSessionWorker W) ()) w' := by
  obtain rfl : w' = { w with sessionWorkers := w.sessionWorkers ++ [W] } := h
  exact main_valid hmoves hv trivial rfl

/-- The main thread is at rest when the network moves. -/
theorem network_valid (hmoves : Moves .network w w') (hv : Valid ids usage .network f w) :
    Valid ids usage .network (f.next .network ()) w' := by
  refine Valid.later hmoves.later hv hv.main ?_ hv.control (by simp) trivial
  rw [hv.main (by simp)]
  trivial

/-- The id handed out differs modulo 2^32 from all those before it. -/
def FreshID (ids : Nat → UInt64) (w : World) : Op → Prop
  | .distributeID => ∀ i < w.handed, (ids i).toUInt32 ≠ (ids w.handed).toUInt32
  | _ => True

/-- **What is seen of an operation is possible, and what is learnt from it is true.** -/
theorem next_valid {o : Op} {c : Choice} {r : o.Res} (hw : Consistent ids w)
    (hv : Valid ids usage t f w) (ho : (rules server usage t).Allowed f o) (hfresh : FreshID ids w o)
    (h : sem ids o c w = some (r, w')) : Possible t f o r ∧ Valid ids usage t (f.next o r) w' := by
  obtain ⟨-, hmoves⟩ := moves hw hv ho h
  have heffect := effect_of_sem h
  have hmay := ho.2
  -- the operations that say nothing
  have hsilent : ¬ Loud o → f.next o r = f → Valid ids usage t (f.next o r) w' := by
    intro hquiet hnext
    rw [hnext]
    exact (same_of_effect hquiet heffect).valid hv
  cases o with
  | connect a => exact hmay.elim
  | makeSessionManager => exact hmay.elim
  | isOpen a =>
    obtain ⟨rfl, rfl⟩ := Prod.mk.inj (Option.some.inj h)
    obtain ⟨p, hp, rfl⟩ := hmay
    exact ⟨trivial, isOpen_valid hv (hv.known p hp)⟩
  | close a =>
    obtain ⟨p, hp, rfl, -⟩ := hmay
    exact ⟨trivial, close_valid hv (hv.known p hp) hw heffect⟩
  | async_accept a =>
    obtain ⟨rfl, ID, p, hmade, rfl⟩ := hmay
    exact ⟨trivial, async_accept_valid hmoves hv hmade heffect⟩
  | acceptResult a =>
    obtain ⟨rfl, ID, p, haccepting, rfl⟩ := hmay
    refine ⟨trivial, ?_⟩
    cases haccept : (w.sessions p.addr).accept with
    | done ec =>
      simp only [sem, haccept] at h
      obtain ⟨rfl, rfl⟩ := Prod.mk.inj (Option.some.inj h)
      exact acceptResult_valid hv haccepting haccept
    | _ => simp [sem, haccept] at h
  | acceptorIsOpen =>
    obtain ⟨rfl, rfl⟩ := Prod.mk.inj (Option.some.inj h)
    obtain ⟨rfl, hcleared⟩ := hmay
    exact ⟨trivial, acceptorIsOpen_valid hv hcleared⟩
  | acceptorClose =>
    obtain ⟨rfl, hcleared⟩ := hmay
    exact ⟨trivial, acceptorClose_valid hmoves hv hcleared heffect⟩
  | makeSession id =>
    obtain ⟨rfl, rfl⟩ := Prod.mk.inj (Option.some.inj h)
    obtain ⟨rfl, ID, rfl, hdrawn⟩ := hmay
    exact ⟨rfl, makeSession_valid hw hmoves hv hdrawn heffect⟩
  | mapFind id =>
    obtain ⟨rfl, rfl⟩ := Prod.mk.inj (Option.some.inj h)
    obtain ⟨hnone, hvalid⟩ := mapFind_valid hw hv hmay
    exact ⟨hnone, hvalid _⟩
  | mapGet id =>
    obtain ⟨rfl, rfl⟩ := Prod.mk.inj (Option.some.inj h)
    exact mapGet_valid hw hv rfl
  | mapErase id => exact ⟨trivial, mapErase_valid hmoves hv heffect⟩
  | mapInsert id p =>
    obtain ⟨rfl, ID, rfl, haccepted⟩ := hmay
    exact ⟨trivial, mapInsert_valid hmoves hv haccepted heffect⟩
  | mapSize =>
    obtain ⟨rfl, rfl⟩ := Prod.mk.inj (Option.some.inj h)
    exact ⟨trivial, mapSize_valid hv hmay⟩
  | mapCopy =>
    obtain ⟨rfl, rfl⟩ := Prod.mk.inj (Option.some.inj h)
    obtain ⟨rfl, hdeaf⟩ := hmay
    exact mapCopy_valid hw hv hdeaf
  | getIsWork =>
    obtain ⟨rfl, rfl⟩ := Prod.mk.inj (Option.some.inj h)
    exact getIsWork_valid hv rfl
  | setIsWork b =>
    obtain ⟨rfl, rfl, hstops, -⟩ := hmay
    exact ⟨trivial, setIsWork_valid hmoves hv hstops heffect⟩
  | distributeID =>
    obtain ⟨rfl, rfl⟩ := Prod.mk.inj (Option.some.inj h)
    obtain ⟨rfl, -⟩ := hmay
    exact ⟨trivial, distributeID_valid hw hmoves hv hfresh heffect⟩
  | addSessionWorker ID =>
    obtain ⟨rfl, -⟩ := hmay
    exact ⟨trivial, addSessionWorker_valid hmoves hv heffect⟩
  | takeTask n =>
    cases hn : w.sessionWorkers[n]? with
    | none => simp [sem, hn] at h
    | some W =>
      simp only [sem, hn] at h
      obtain ⟨rfl, rfl⟩ := Prod.mk.inj (Option.some.inj h)
      obtain rfl := hmay
      exact ⟨trivial, takeTask_valid hv hn⟩
  | network =>
    obtain rfl := hmay
    exact ⟨trivial, network_valid hmoves hv⟩
  | addMainTask => exact hmay.elim
  | mainTaskDone =>
    obtain rfl := hmay
    exact ⟨trivial, mainTaskDone_valid hmoves hv heffect⟩
  | sessionTaskDone n =>
    obtain rfl := hmay
    exact ⟨trivial, sessionTaskDone_valid hmoves hv heffect⟩
  | _ => exact ⟨trivial, hsilent not_false rfl⟩

/-! ## What one operation does to the entries and the sockets -/

/-- An entry that is there behind an operation was there before it, or is inserted by it. -/
theorem getSession_next {o : Op} {c : Choice} {r : o.Res} {q : SessionPtr}
    (ho : o ≠ .makeSessionManager) (h : sem ids o c w = some (r, w'))
    (hq : w'.getSession id = some q) : w.getSession id = some q ∨ o = .mapInsert id q := by
  have heffect := effect_of_sem h
  by_cases hloud : Loud o
  · cases o with
    | mapErase id' =>
      obtain rfl : w' = { w with sessionMap := w.sessionMap.erase id' } := heffect
      rw [getSession_erase] at hq
      split at hq
      · cases hq
      · exact .inl hq
    | mapInsert id' p =>
      obtain rfl : w' = { w with
        sessionMap := w.sessionMap.insert id' p, registered := w.registered ++ [p] } := heffect
      rw [getSession_insert] at hq
      split at hq
      · next hid =>
        obtain rfl := Option.some.inj hq
        exact .inr (congrArg (fun id => Op.mapInsert id p) hid.symm)
      · exact .inl hq
    | connect a =>
      rcases heffect with rfl | ⟨rx, tx, rfl⟩
      · exact .inl hq
      · exact .inl hq
    | makeSessionManager => exact absurd rfl ho
    | read a n => exact hloud.elim
    | write_some a sent rest => exact hloud.elim
    | network =>
      rcases heffect with ⟨a, ec, -, -, rfl⟩ | ⟨a, rx, rfl⟩
      · exact .inl hq
      · exact .inl hq
    | _ =>
      obtain rfl := heffect
      exact .inl hq
  · rw [(same_of_effect hloud heffect).getSession] at hq
    exact .inl hq

/-- An entry that is gone behind an operation was erased by it; an insertion is under an
id that is not in the map. -/
theorem gone_next {o : Op} {c : Choice} {r : o.Res} {q : SessionPtr} (hw : Consistent ids w)
    (hv : Valid ids usage t f w) (ho : (rules server usage t).Allowed f o)
    (h : sem ids o c w = some (r, w')) (hq : w.getSession id = some q) :
    w'.getSession id = some q ∨ o = .mapErase id := by
  have heffect := effect_of_sem h
  by_cases hloud : Loud o
  · cases o with
    | mapErase id' =>
      obtain rfl : w' = { w with sessionMap := w.sessionMap.erase id' } := heffect
      rw [getSession_erase]
      split
      · next hid => exact .inr (congrArg Op.mapErase hid.symm)
      · exact .inl hq
    | mapInsert id' p =>
      obtain rfl : w' = { w with
        sessionMap := w.sessionMap.insert id' p, registered := w.registered ++ [p] } := heffect
      obtain ⟨rfl, ID, rfl, haccepted⟩ := ho.2
      have hat := hv.stage
      rw [haccepted] at hat
      obtain ⟨hregistered, hid⟩ := hw.sessionMap id q hq
      have hne : id ≠ UInt64.toUInt32 ID := fun heq => hat.1.2 q hregistered (hid.trans heq)
      rw [getSession_insert, if_neg hne]
      exact .inl hq
    | connect a => exact ho.2.elim
    | makeSessionManager => exact ho.2.elim
    | read a n => exact hloud.elim
    | write_some a sent rest => exact hloud.elim
    | network =>
      rcases heffect with ⟨a, ec, -, -, rfl⟩ | ⟨a, rx, rfl⟩
      · exact .inl hq
      · exact .inl hq
    | _ =>
      obtain rfl := heffect
      exact .inl hq
  · rw [(same_of_effect hloud heffect).getSession]
    exact .inl hq

/-- A socket that is open behind an operation was open before it, or is opened by an accept
that was pending. -/
theorem open_next {o : Op} {c : Choice} {r : o.Res} (ho : ∀ b, o ≠ .connect b)
    (h : sem ids o c w = some (r, w')) (ha : w'.isOpen a = true) :
    w.isOpen a = true ∨ (w.sessions a).accept = .pending ∧ w.acceptorOpen = true := by
  have heffect := effect_of_sem h
  have hmodified : ∀ b (g : SessionObject → SessionObject), w' = w.modify b g →
      ((g (w.sessions b)).isOpen = true → (w.sessions b).isOpen = true) → w.isOpen a = true := by
    rintro b g rfl hg
    by_cases hab : a = b
    · subst hab
      rw [isOpen_modify] at ha
      exact hg ha
    · rwa [isOpen_modify_of_ne hab] at ha
  -- of the operations that touch the flag only `connect` and the network set it
  by_cases hloud : Loud o
  · cases o with
    | connect b => exact absurd rfl (ho b)
    | read a n => exact hloud.elim
    | write_some a sent rest => exact hloud.elim
    | setCriticalError b => exact hloud.elim
    | close b => exact .inl (hmodified b _ heffect nofun)
    | async_accept b => exact .inl (hmodified b _ heffect (fun hopen => hopen))
    | makeSession id =>
      obtain rfl : w' = { w.modify w.allocated (fun _ => .new) with
        allocated := w.allocated + 1 } := heffect
      by_cases hab : a = w.allocated
      · subst hab
        simp only [World.isOpen, World.modify, Function.update_self] at ha
        cases ha
      · simp only [World.isOpen, World.modify, Function.update_of_ne hab] at ha
        exact .inl ha
    | network =>
      rcases heffect with ⟨b, ec, hpending, hacceptor, rfl⟩ | ⟨b, rx, rfl⟩
      · by_cases hab : a = b
        · subst hab
          rw [isOpen_modify] at ha
          rcases hacceptor with hfailed | hopen
          · rw [hfailed] at ha
            cases ha
          · exact .inr ⟨hpending, hopen⟩
        · rw [isOpen_modify_of_ne hab] at ha
          exact .inl ha
      · exact .inl (hmodified b _ rfl (fun hopen => hopen))
    | _ =>
      obtain rfl := heffect
      exact .inl ha
  · rw [(same_of_effect hloud heffect).isOpen] at ha
    exact .inl ha

/-- A socket that has to be closed is still owed behind an operation, or is closed. -/
theorem owes_next {o : Op} {c : Choice} {r : o.Res} (h : sem ids o c w = some (r, w'))
    (ha : a ∈ f.owes) : a ∈ (f.next o r).owes ∨ w'.isOpen a = false := by
  have hclosed : ∀ b, w'.isOpen b = false → a ∈ (f.closed b).owes ∨ w'.isOpen a = false := by
    intro b hb
    by_cases hab : a = b
    · exact .inr (hab ▸ hb)
    · exact .inl (mem_owes_closed.mpr ⟨ha, hab⟩)
  unfold Facts.next
  split
  · next b =>
    obtain ⟨hb, rfl⟩ := Prod.mk.inj (Option.some.inj h)
    exact hclosed b hb
  · next b ec =>
    have hb : w'.isOpen b = false := by
      obtain rfl : w' = w.modify b (fun s => { s with isOpen := false }) := effect_of_sem h
      exact isOpen_modify ..
    split
    · exact hclosed b hb
    · exact hclosed b hb
  -- every other operation at most adds to it
  all_goals
    repeat' split
    all_goals first | exact .inl ha | exact .inl (List.mem_append_left _ ha)

/-- A session that is registered behind an operation was before it, or is put into the map by
it. -/
theorem registered_next {o : Op} {c : Choice} {r : o.Res} {q : SessionPtr}
    (h : sem ids o c w = some (r, w')) (hq : q ∈ w'.registered) :
    q ∈ w.registered ∨ ∃ id, o = .mapInsert id q ∧ w'.getSession id = some q := by
  have heffect := effect_of_sem h
  by_cases hloud : Loud o
  · cases o with
    | mapInsert id p =>
      obtain rfl : w' = { w with sessionMap := w.sessionMap.insert id p
                                 registered := w.registered ++ [p] } := heffect
      rcases List.mem_append.mp hq with hold | hnew
      · exact .inl hold
      · rw [List.mem_singleton.mp hnew]
        exact .inr ⟨id, rfl, by rw [getSession_insert, if_pos rfl]⟩
    | connect a =>
      rcases heffect with rfl | ⟨rx, tx, rfl⟩
      · exact .inl hq
      · exact .inl hq
    | read a n => exact hloud.elim
    | write_some a sent rest => exact hloud.elim
    | network =>
      rcases heffect with ⟨a, ec, -, -, rfl⟩ | ⟨a, rx, rfl⟩
      · exact .inl hq
      · exact .inl hq
    | _ =>
      obtain rfl := heffect
      exact .inl hq
  · rw [(same_of_effect hloud heffect).registered] at hq
    exact .inl hq

/-- It is the accept loop that has put it there, with the client it has accepted. -/
theorem inserted_next {o : Op} {c : Choice} {r : o.Res} {q : SessionPtr}
    (ho : (rules server usage t).Allowed f o) (h : sem ids o c w = some (r, w'))
    (hq : q ∈ w'.registered) : q ∈ w.registered ∨ ∃ ID, o = .mapInsert (UInt64.toUInt32 ID) q ∧
      t = .main ∧ f.stage = .accepted ID q ∧ w'.getSession (UInt64.toUInt32 ID) = some q := by
  rcases registered_next h hq with hold | ⟨id, rfl, hfound⟩
  · exact .inl hold
  · obtain ⟨rfl, ID, rfl, hstage⟩ := ho.2
    exact .inr ⟨ID, rfl, rfl, hstage, hfound⟩

/-- A worker is created by the accept loop, for the id it has granted. -/
theorem workers_next {o : Op} {c : Choice} {r : o.Res} {W : UInt64}
    (ho : (rules server usage t).Allowed f o) (h : sem ids o c w = some (r, w'))
    (hW : W ∈ w'.sessionWorkers) :
    W ∈ w.sessionWorkers ∨ o = .addSessionWorker W ∧ t = .main ∧ f.stage = .granted W := by
  have heffect := effect_of_sem h
  by_cases hloud : Loud o
  · cases o with
    | addSessionWorker ID =>
      obtain rfl : w' = { w with sessionWorkers := w.sessionWorkers ++ [ID] } := heffect
      rcases List.mem_append.mp hW with hold | hnew
      · exact .inl hold
      · rw [List.mem_singleton.mp hnew]
        exact .inr ⟨rfl, ho.2⟩
    | connect a => exact ho.2.elim
    | makeSessionManager => exact ho.2.elim
    | read a n => exact hloud.elim
    | write_some a sent rest => exact hloud.elim
    | network =>
      rcases heffect with ⟨a, ec, -, -, rfl⟩ | ⟨a, rx, rfl⟩
      · exact .inl hW
      · exact .inl hW
    | _ =>
      obtain rfl := heffect
      exact .inl hW
  · rw [(same_of_effect hloud heffect).sessionWorkers] at hW
    exact .inl hW

/-- A worker is granted where the flag has been seen set. -/
theorem granted_next {o : Op} {c : Choice} {r : o.Res} (h : sem ids o c w = some (r, w'))
    (hstage : (f.next o r).stage = .granted ID) : f.stage = .granted ID ∨
      (f.stage = .placed ID ∨ f.stage = .counted ID) ∧ o = .getIsWork ∧ w.isWork = true := by
  by_cases ho : o = .getIsWork
  · subst ho
    obtain ⟨hisWork, -⟩ := Prod.mk.inj (Option.some.inj h)
    have hgranted : ∀ ID', (if r then Stage.granted ID' else .resting) = .granted ID →
        ID' = ID ∧ w.isWork = true := by
      intro ID' hif
      split at hif
      · next htrue => exact ⟨Stage.granted.inj hif, hisWork.trans htrue⟩
      · cases hif
    cases hf : f.stage with
    | placed ID' =>
      simp only [Facts.next, hf] at hstage
      obtain ⟨rfl, htrue⟩ := hgranted ID' hstage
      exact .inr ⟨.inl rfl, rfl, htrue⟩
    | counted ID' =>
      simp only [Facts.next, hf] at hstage
      obtain ⟨rfl, htrue⟩ := hgranted ID' hstage
      exact .inr ⟨.inr rfl, rfl, htrue⟩
    | _ =>
      simp only [Facts.next, hf] at hstage
      exact .inl hstage
  · -- no other operation sets this stage
    revert hstage
    unfold Facts.next
    repeat' split
    all_goals first
      | exact fun hstage => .inl hstage
      | exact absurd rfl ho
      | simp

/-- What `stop` has copied is the map. -/
theorem copied_next {o : Op} {c : Choice} {r : o.Res} {copy_map : List SessionPtr}
    (h : sem ids o c w = some (r, w')) (hstop : (f.next o r).stop = .copied copy_map) :
    f.stop = .copied copy_map ∨
      o = .mapCopy ∧ w' = w ∧ copy_map = w.sessionMap.entries.map Sigma.snd := by
  by_cases ho : o = .mapCopy
  · subst ho
    obtain ⟨hcopied, hw⟩ := Prod.mk.inj (Option.some.inj h)
    exact .inr ⟨rfl, hw.symm, (StopStage.copied.inj hstop).symm.trans hcopied.symm⟩
  · revert hstop
    unfold Facts.next
    repeat' split
    all_goals first
      | exact fun hstop => .inl hstop
      | exact absurd rfl ho
      | simp

/-- The loop of `stop` is behind its count, and owes the sockets of the copied map unless
the map was empty. -/
theorem looped_next {o : Op} {c : Choice} {r : o.Res} (h : sem ids o c w = some (r, w'))
    (hstop : (f.next o r).stop = .looped) :
    f.stop = .looped ∨ ∃ copy_map, f.stop = .copied copy_map ∧ o = .mapSize ∧ w' = w ∧
      (w.sessionMap.entries.length ≠ 0 →
        ∀ p ∈ copy_map, p.addr ∈ (f.next o r).owes) := by
  by_cases ho : o = .mapSize
  · subst ho
    obtain ⟨hcount, hw⟩ := Prod.mk.inj (Option.some.inj h)
    have hcount' : w.sessionMap.entries.length = r := hcount
    cases hcopied : f.stop with
    | copied copy_map =>
      refine .inr ⟨copy_map, rfl, rfl, hw.symm, fun hsome p hp => ?_⟩
      have hr : (r != 0) = true := by
        rw [← hcount', bne_iff_ne]
        exact hsome
      simp only [Facts.next, hcopied, hr, if_true]
      exact List.mem_append_right _ (List.mem_map_of_mem hp)
    | looped => exact .inl rfl
    | _ =>
      have hsame : (f.next .mapSize r).stop = f.stop := by
        cases hstage : f.stage <;> simp only [Facts.next, hcopied, hstage]
      rw [hsame, hcopied] at hstop
      cases hstop
  · revert hstop
    unfold Facts.next
    repeat' split
    all_goals first
      | exact fun hstop => .inl hstop
      | exact absurd rfl ho
      | simp

/-! ## From threads to runs -/

/-- The threads' knowledge is true. -/
def Knowledge (ids : Nat → UInt64) (usage : Usage) (fs : Thread → Facts) (w : World) : Prop :=
  Consistent ids w ∧ ∀ t, Valid ids usage t (fs t) w

/-- One operation keeps it so. -/
theorem knowledge_next {fs : Thread → Facts} {o : Op} {c : Choice} {r : o.Res}
    (hK : Knowledge ids usage fs w) (ho : (rules server usage t).Allowed (fs t) o)
    (hfresh : FreshID ids w o) (h : sem ids o c w = some (r, w')) :
    Possible t (fs t) o r ∧
      Knowledge ids usage (Function.update fs t ((fs t).next o r)) w' := by
  obtain ⟨hw, hv⟩ := hK
  obtain ⟨hpossible, hnext⟩ := next_valid hw (hv t) ho hfresh h
  obtain ⟨hw', hmoves⟩ := moves hw (hv t) ho h
  refine ⟨hpossible, hw', fun u => ?_⟩
  by_cases hu : u = t
  · subst hu
    rw [Function.update_self]
    exact hnext
  · rw [Function.update_of_ne hu]
    exact (hv u).other hmoves hu

variable (P : Platform)

/-- A server whose threads keep to their disciplines. -/
def disciplined (server : SegmentServer) (ids : Nat → UInt64) (usage : Usage) :
    Disciplined (server.system P ids) Facts where
  rules := rules server usage
  loop := fun t l f => atLabel usage t f l
  fin := fun t f => atEnd usage t f
  ok := fun _ o _ w => FreshID ids w o
  inv := Knowledge ids usage
  block_follows := by
    intro t l f h
    refine (block_follows (P := P) l h).mono (fun next f hnext => ?_) (fun _ _ h => h)
    cases next with
    | some l' => exact hnext
    | none => exact hnext
  keeps := fun _ _ _ _ _ _ _ hK ho hfresh h => knowledge_next hK ho hfresh h

/-! ## Ids that differ -/

/-- The first `n` ids of the distribution handler differ modulo 2^32. -/
def DistinctIDs (ids : Nat → UInt64) (n : Nat) : Prop :=
  ∀ i j, i < j → j < n → (ids i).toUInt32 ≠ (ids j).toUInt32

theorem DistinctIDs.mono {m n : Nat} (h : DistinctIDs ids n) (hmn : m ≤ n) : DistinctIDs ids m :=
  fun i j hij hj => h i j hij (Nat.lt_of_lt_of_le hj hmn)

/-- Ids are only ever handed out, and workers created. -/
theorem counters_mono {o : Op} {c : Choice} {r : o.Res} (h : sem ids o c w = some (r, w')) :
    w.handed ≤ w'.handed ∧ w.sessionWorkers.length ≤ w'.sessionWorkers.length := by
  have heffect := effect_of_sem h
  by_cases hloud : Loud o
  · cases o with
    | connect a =>
      rcases heffect with rfl | ⟨rx, tx, rfl⟩
      · exact ⟨le_rfl, le_rfl⟩
      · exact ⟨le_rfl, le_rfl⟩
    | distributeID =>
      obtain rfl := heffect
      exact ⟨Nat.le_succ _, le_rfl⟩
    | addSessionWorker ID =>
      obtain rfl := heffect
      exact ⟨le_rfl, by simp only [List.length_append]; omega⟩
    | network =>
      rcases heffect with ⟨a, ec, -, -, rfl⟩ | ⟨a, rx, rfl⟩
      · exact ⟨le_rfl, le_rfl⟩
      · exact ⟨le_rfl, le_rfl⟩
    | read a n => exact hloud.elim
    | write_some a sent rest => exact hloud.elim
    | _ =>
      obtain rfl := heffect
      exact ⟨le_rfl, le_rfl⟩
  · have hsame := same_of_effect hloud heffect
    exact ⟨by rw [hsame.handed], by rw [hsame.sessionWorkers]⟩

/-- One step of the server changes the world by one operation, or not at all. -/
theorem counters_step {s s' : (server.system P ids).State} {t : Thread} {c : Choice}
    (h : System.step s t c = some s') : s.world.handed ≤ s'.world.handed ∧
      s.world.sessionWorkers.length ≤ s'.world.sessionWorkers.length := by
  rcases System.step_cases h with ⟨l, -, rfl⟩ | ⟨o, k, r, w, -, hsem, rfl⟩
  · exact ⟨le_rfl, le_rfl⟩
  · exact counters_mono hsem

theorem handed_mono {ok : (server.system P ids).State → Thread → Choice → Prop}
    {s s' : (server.system P ids).State} (hrun : System.Steps ok s s') :
    s.world.handed ≤ s'.world.handed := by
  induction hrun with
  | refl => exact le_rfl
  | tail _ hlast ih =>
    obtain ⟨t, c, -, hstep⟩ := hlast
    exact Nat.le_trans ih (counters_step P hstep).1

theorem freshID_of_distinct {o : Op} {c : Choice} {r : o.Res} (hids : DistinctIDs ids w'.handed)
    (h : sem ids o c w = some (r, w')) : FreshID ids w o := by
  unfold FreshID
  split
  · obtain rfl : w' = { w with handed := w.handed + 1 } := effect_of_sem h
    exact fun i hi => hids i w.handed hi (Nat.lt_succ_self _)
  · trivial

/-- The id that the step hands out, if it hands one out, is new. -/
def freshID (s : (server.system P ids).State) (t : Thread) (_ : Choice) : Prop :=
  ∀ o k, s.threads t = .op o k → FreshID ids s.world o

/-- A thread whose next operation hands out no id asks for nothing. -/
theorem freshID_of_op {s : (server.system P ids).State} {t : Thread} {o : Op}
    {k : o.Res → NetProg (Option ServerLabel)} (ht : s.threads t = .op o k) (ho : ∀ w, FreshID ids w o)
    (c : Choice) : freshID P s t c := by
  intro o' k' hk
  rw [ht] at hk
  obtain ⟨rfl, -⟩ := Prog.op.inj hk
  exact ho s.world

/-- A step of a run whose ids differ hands out a new id, if it hands one out. -/
theorem freshID_of_step {s s' : (server.system P ids).State} {t : Thread} {c : Choice}
    (hstep : System.step s t c = some s') (hids : DistinctIDs ids s'.world.handed) :
    freshID P s t c := by
  intro o k hk
  rcases System.step_cases hstep with ⟨l, hl, -⟩ | ⟨o', k', r, w, hk', hsem, rfl⟩
  · rw [hk] at hl
    cases hl
  · rw [hk] at hk'
    obtain ⟨rfl, -⟩ := Prog.op.inj hk'
    exact freshID_of_distinct hids hsem

/-- In a run whose ids differ every id handed out is new, whatever else is asked of its
steps. -/
theorem steps_fresh_and {ok : (server.system P ids).State → Thread → Choice → Prop}
    {s s' : (server.system P ids).State} (hrun : System.Steps ok s s')
    (hids : DistinctIDs ids s'.world.handed) :
    System.Steps (fun s t c => freshID P s t c ∧ ok s t c) s s' := by
  induction hrun with
  | refl => exact System.Steps.refl s
  | tail hbefore hlast ih =>
    obtain ⟨t, c, hok, hstep⟩ := hlast
    have hmono := (counters_step P hstep).1
    exact (ih (hids.mono hmono)).tail ⟨freshID_of_step P hstep hids, hok⟩ hstep

/-- The same of a run of which nothing else is asked. -/
theorem steps_fresh {s s' : (server.system P ids).State} (hrun : System.Steps System.anyStep s s')
    (hids : DistinctIDs ids s'.world.handed) : System.Steps (freshID P) s s' :=
  (steps_fresh_and P hrun hids).mono (fun _ _ _ hok => hok.1)

/-- Nothing is known when the server has started, and that is true. -/
theorem started_knowledge (ids : Nat → UInt64) (usage : Usage) :
    Knowledge ids usage (fun _ => Facts.nothing) (server.started P ids usage).world := by
  refine ⟨⟨nofun, nofun, nofun, nofun, nofun, fun id p hp => ?_, nofun, List.nodup_nil⟩, fun t => ?_⟩
  · have hnone : (server.started P ids usage).world.getSession id = none := AList.lookup_empty id
    rw [hnone] at hp
    cases hp
  · refine ⟨nofun, nofun, nofun, nofun, fun _ => rfl, trivial, fun _ => rfl, fun _ => rfl, ?_⟩
    cases t with
    | main => rfl
    | reader n => exact nofun
    | _ => trivial

/-- In every state of a run whose ids differ the threads keep to their disciplines, and what
they know is true. -/
theorem started_holds (server : SegmentServer) (ids : Nat → UInt64) (usage : Usage) :
    (disciplined P server ids usage).Holds (server.started P ids usage)
      (fun _ => Facts.nothing) := by
  refine ⟨started_knowledge P ids usage, fun t => ?_⟩
  refine (started_follows ids t).mono (fun next f hnext => ?_) (fun _ _ h => h)
  cases next with
  | some l => exact hnext
  | none => exact hnext

end NetworkApplication.Registry
