/-
`SessionManager::addSession` with several accepts outstanding.

All sessions of a manager share one `AcceptHandler`, and that has one `onAccept`. A
`Session::accept` stores its own callback there before it starts its accept, and who
completes an accept, the waiting call in the `Sync` mode or the io thread in the `Async` mode,
calls what is there by then.

So the slot is shared state here. The operations are those of `Network.lean`, with the
store and the load of the slot besides, and the functions of `SessionManager` that do not
touch it are taken over (`lift`). A call of `addSession` is a thread, and in the `Async`
mode every completion handler is one.
-/
import NetworkApplication.Session
import NetworkApplication.Disciplines

set_option autoImplicit false

namespace NetworkApplication.Accepts

open NetworkApplication.Program NetworkApplication.Pool NetworkApplication.Disciplines

/-- `IOMode`. -/
inductive IOMode where
  | Sync
  | Async
  deriving DecidableEq

/-- The operations: those of the interface, and the two accesses to `onAccept`. What is
stored there is the callback of one session. -/
inductive AcceptOp where
  | net (o : Op)
  | setOnAccept (session : SessionPtr)
  | getOnAccept

abbrev AcceptOp.Res : AcceptOp → Type
  | .net o => o.Res
  | .setOnAccept _ => Unit
  | .getOnAccept => Option SessionPtr

abbrev AcceptNet : Signature := ⟨AcceptOp, AcceptOp.Res⟩

abbrev AcceptProg := Prog AcceptNet Exception

/-- A function that does not touch the slot. -/
def lift {α : Type} : NetProg α → AcceptProg α
  | .pure a => .pure a
  | .throw e => .throw e
  | .crash => .crash
  | .op o k => .op (.net o) (fun r => lift (k r))

/-- One operation of the interface. -/
def net (o : Op) : AcceptProg o.Res := Prog.perform (E := AcceptNet) (.net o)

def setOnAccept (session : SessionPtr) : AcceptProg Unit :=
  Prog.perform (E := AcceptNet) (.setOnAccept session)

def getOnAccept : AcceptProg (Option SessionPtr) := Prog.perform (E := AcceptNet) .getOnAccept

/-! ## The functions -/

variable (manager : SessionManager)

/-- What is done with the result of an accept, in either mode. The manager's handler has no
`onError`, and what is in the slot is a callback of `Session::accept`, which calls the
session's `on_accept`. -/
def accepted (ec : ErrorCode) : AcceptProg Unit := do
  match ← getOnAccept with
  | some session => lift (invoke (manager.session session none).on_accept ec)
  | none => return

/-- `AcceptHandler::sync_accept`. -/
def sync_accept (socket : Nat) : AcceptProg Unit := do
  net (.async_accept socket)
  let ec ← net (.acceptResult socket)
  accepted manager ec

/-- `AcceptHandler::async_accept`. -/
def async_accept (socket : Nat) : AcceptProg Unit := net (.async_accept socket)

/-- Its completion handler, which the io thread calls with the result. -/
def completion (socket : Nat) : AcceptProg Unit := do
  let ec ← net (.acceptResult socket)
  accepted manager ec

/-- `Session::accept`. -/
def accept (mode : IOMode) (session : SessionPtr) : AcceptProg Unit := do
  setOnAccept session
  match mode with
  | .Sync => sync_accept manager session.addr
  | .Async => async_accept session.addr

/-- `SessionManager::addSession`. -/
def addSession (mode : IOMode) (sessionID : UInt32) : AcceptProg Unit := do
  if ← net (.mapFind sessionID) then
    return
  let session ← net (.makeSession sessionID)
  accept manager mode session

/-! ## The threads -/

/-- The calls of `addSession`, the completion handlers, by their sockets, and the network. -/
inductive AcceptThread where
  | call (n : Nat)
  | io (a : Nat)
  | network
  deriving DecidableEq

/-- The shared state. `made` is a history variable: the session that each call has made. -/
structure AcceptWorld where
  world : World
  onAccept : Option SessionPtr
  made : Nat → Option SessionPtr

/-- The history of an operation. -/
def record : AcceptThread → (o : Op) → o.Res → (Nat → Option SessionPtr) → Nat → Option SessionPtr
  | .call n, .makeSession _, session, made => Function.update made n (some session)
  | _, _, _, made => made

/-- Only `makeSession` leaves something in the history. -/
theorem record_of_makes_none {t : AcceptThread} {o : Op} {r : o.Res}
    (ho : ∀ id, o ≠ .makeSession id) (made : Nat → Option SessionPtr) : record t o r made = made := by
  cases t with
  | call n =>
    cases o with
    | makeSession id => exact absurd rfl (ho id)
    | _ => rfl
  | _ => rfl

/-- What the operations do. -/
def acceptSem (t : AcceptThread) :
    (o : AcceptOp) → Choice → AcceptWorld → Option (o.Res × AcceptWorld)
  | .net o, c, w => (sem (fun _ => 0) o c w.world).map (fun x =>
      (x.1, { w with world := x.2, made := record t o x.1 w.made }))
  | .setOnAccept session, _, w => some ((), { w with onAccept := some session })
  | .getOnAccept, _, w => some (w.onAccept, w)

/-- The one loop is the network's. -/
inductive AcceptLabel where
  | network

/-- The pool. -/
abbrev system : System where
  sig := AcceptNet
  Exn := Exception
  Tid := AcceptThread
  Label := AcceptLabel
  World := AcceptWorld
  Choice := Choice
  decTid := inferInstance
  sem := acceptSem
  block := fun _ => net .network >>= fun _ => return some .network

/-- A manager with `sessionMap` as its map and `allocated` sessions made before, and a call of
`addSession` for each of `ids`. -/
def start (mode : IOMode) (ids : List UInt32) (sessionMap : AList (fun _ : UInt32 => SessionPtr))
    (allocated : Nat) : system.State where
  world :=
    { world := { World.init with sessionMap := sessionMap, allocated := allocated, acceptorOpen := true }
      onAccept := none
      made := fun _ => none }
  threads := fun
    | .call n =>
      match ids[n]? with
      | some sessionID => addSession manager mode sessionID >>= fun _ => return none
      | none => return none
    | .io a =>
      match mode with
      | .Sync => return none
      | .Async => completion manager a >>= fun _ => return none
    | .network => return some .network

/-! ## What a thread does next -/

/-- How far a thread has got. -/
inductive Stage where
  | unstarted
  | existing
  | absent
  | has (p : SessionPtr)
  | armed (p : SessionPtr)
  | launched
  | waiting (a : Nat)
  | completed (a : Nat) (ec : ErrorCode)
  | calling (p : SessionPtr) (ec : ErrorCode)
  | done (a : Nat) (ec : ErrorCode)

variable {manager} {mode : IOMode} {ids : List UInt32}
  {sessionMap : AList (fun _ : UInt32 => SessionPtr)} {allocated : Nat}

/-- The operation of a stage. -/
inductive Next (ids : List UInt32) : AcceptThread → Stage → AcceptOp → Prop where
  | find {n : Nat} {id : UInt32} (hid : ids[n]? = some id) :
      Next ids (.call n) .unstarted (.net (.mapFind id))
  | make {n : Nat} {id : UInt32} (hid : ids[n]? = some id) :
      Next ids (.call n) .absent (.net (.makeSession id))
  | store {n : Nat} {p : SessionPtr} : Next ids (.call n) (.has p) (.setOnAccept p)
  | accept {n : Nat} {p : SessionPtr} : Next ids (.call n) (.armed p) (.net (.async_accept p.addr))
  | result {t : AcceptThread} {a : Nat} : Next ids t (.waiting a) (.net (.acceptResult a))
  | load {t : AcceptThread} {a : Nat} {ec : ErrorCode} : Next ids t (.completed a ec) .getOnAccept
  | refused {t : AcceptThread} {p : SessionPtr} {ec : ErrorCode} (hec : ec.failed = true) :
      Next ids t (.calling p ec) (.net (.mapFind p.sessionID))
  | insert {t : AcceptThread} {p : SessionPtr} {ec : ErrorCode} (hec : ec.failed = false) :
      Next ids t (.calling p ec) (.net (.mapInsert p.sessionID p))
  | network : Next ids .network .unstarted (.net .network)

/-- What may be seen of it. -/
def Seen : Stage → (o : AcceptOp) → o.Res → Prop
  | .completed a _, .getOnAccept, session => ∃ p, session = some p ∧ p.addr = a
  | .calling _ _, .net (.mapFind _), found => found = false
  | _, _, _ => True

/-- The stage behind it. -/
def after (mode : IOMode) : Stage → (o : AcceptOp) → o.Res → Stage
  | .unstarted, .net (.mapFind _), found => if found then .existing else .absent
  | .absent, .net (.makeSession _), session => .has session
  | .has p, .setOnAccept _, _ => .armed p
  | .armed p, .net (.async_accept _), _ =>
    match mode with
    | .Sync => .waiting p.addr
    | .Async => .launched
  | .waiting a, .net (.acceptResult _), ec => .completed a ec
  | .completed _ ec, .getOnAccept, some p => .calling p ec
  | .calling p ec, .net (.mapFind _), _ => .done p.addr ec
  | .calling p ec, .net (.mapInsert _ _), _ => .done p.addr ec
  | f, _, _ => f

/-- The discipline of thread `t`. -/
def rules (mode : IOMode) (ids : List UInt32) (t : AcceptThread) : Discipline AcceptNet Stage where
  Allowed := Next ids t
  Possible := Seen
  next := after mode
  Crash := fun _ => False

/-- The stages in which a thread ends. -/
def Ended (mode : IOMode) (ids : List UInt32) : AcceptThread → Stage → Prop
  | .call _, .existing => True
  | .call n, .unstarted => ids[n]? = none
  | .call _, .launched => mode = .Async
  | .call _, .done _ _ => mode = .Sync
  | .io _, .done _ _ => mode = .Async
  | .io _, .unstarted => mode = .Sync
  | _, _ => False

variable {t : AcceptThread} {post : Unit → Stage → Prop} {exn : Exception → Stage → Prop}

/-- The result of an accept is handed to the session in the slot. -/
theorem follows_accepted {a : Nat} {ec : ErrorCode} (hpost : post () (.done a ec)) :
    Follows (rules mode ids t) post exn (.completed a ec) (accepted manager ec) := by
  refine ⟨.load, fun r hr => ?_⟩
  obtain ⟨p, rfl, rfl⟩ := hr
  show Follows _ _ _ (Stage.calling p ec) (lift (SessionManager.onAccept p.sessionID p ec))
  unfold SessionManager.onAccept
  by_cases hec : ec.failed = true
  · rw [if_pos hec]
    refine ⟨.refused hec, fun found hfound => ?_⟩
    rw [show found = false from hfound]
    exact hpost
  · rw [if_neg hec]
    exact ⟨.insert (Bool.eq_false_iff.mpr hec), fun _ _ => hpost⟩

/-- A call of `addSession`. -/
theorem follows_addSession {n : Nat} {id : UInt32} (hid : ids[n]? = some id)
    (hpost : ∀ f, Ended mode ids (.call n) f → post () f) :
    Follows (rules mode ids (.call n)) post exn .unstarted (addSession manager mode id) := by
  refine Follows.step (.find hid) (fun found _ => ?_)
  cases found with
  | true => exact hpost _ trivial
  | false =>
    refine Follows.step (.make hid) (fun session _ => ?_)
    refine Follows.step .store (fun _ _ => ?_)
    cases mode with
    | Async => exact Follows.call .accept (fun _ _ => hpost _ rfl)
    | Sync =>
      refine Follows.step .accept (fun _ _ => ?_)
      exact Follows.step .result (fun ec _ => follows_accepted (hpost _ rfl))

/-- A completion handler. -/
theorem follows_completion {a : Nat} (hpost : ∀ ec, post () (.done a ec)) :
    Follows (rules mode ids t) post exn (.waiting a) (completion manager a) :=
  Follows.step .result (fun ec _ => follows_accepted (hpost ec))

/-! ## The invariant -/

/-- The accept of a session. -/
def AcceptWorld.accept (w : AcceptWorld) (a : Nat) : Accept := (w.world.sessions a).accept

/-- The entry of the map. -/
def AcceptWorld.entry (w : AcceptWorld) (id : UInt32) : Option SessionPtr := w.world.getSession id

/-- `p` is the session whose accept thread `t` completes. -/
def Own (w : AcceptWorld) : AcceptThread → SessionPtr → Prop
  | .call n, p => w.made n = some p
  | .io a, p => p.addr = a ∧ ∃ n, w.made n = some p
  | .network, _ => False

/-- The socket whose accept thread `t` waits for. -/
def Waits (w : AcceptWorld) : AcceptThread → Nat → Prop
  | .call n, a => ∃ p, w.made n = some p ∧ p.addr = a
  | .io b, a => b = a
  | .network, _ => False

/-- What a stage says about the shared state. -/
def Means (sessionMap : AList (fun _ : UInt32 => SessionPtr)) (mode : IOMode) (ids : List UInt32)
    (w : AcceptWorld) (t : AcceptThread) : Stage → Prop
  | .unstarted => match t with
    | .call n => w.made n = none
    | .io _ => mode = .Sync
    | .network => True
  | .existing => ∃ n, t = .call n ∧ w.made n = none
  | .absent => ∃ n, t = .call n ∧ w.made n = none ∧
    ∀ id, ids[n]? = some id → sessionMap.lookup id = none
  | .has p | .armed p => ∃ n, t = .call n ∧ w.made n = some p ∧ w.accept p.addr = .idle
  | .launched => mode = .Async ∧ ∃ n p, t = .call n ∧ w.made n = some p
  | .waiting a => Waits w t a
  | .completed a ec => Waits w t a ∧ w.accept a = .done ec
  | .calling p ec => Own w t p ∧ w.accept p.addr = .done ec
  | .done a ec => ∃ p, Own w t p ∧ p.addr = a ∧ w.accept a = .done ec ∧
    (ec.failed = false → w.entry p.sessionID = some p)

/-- What the sessions and the map have to do with each other at all times. -/
structure Sound (sessionMap : AList (fun _ : UInt32 => SessionPtr)) (ids : List UInt32)
    (w : AcceptWorld) : Prop where
  made : ∀ n p, w.made n = some p → ids[n]? = some p.sessionID ∧ p.addr < w.world.allocated ∧
    sessionMap.lookup p.sessionID = none
  distinct : ∀ n m p q, w.made n = some p → w.made m = some q → p.addr = q.addr → n = m
  slot : ∀ p, w.onAccept = some p → ∃ n, w.made n = some p
  kept : ∀ id p, sessionMap.lookup id = some p → w.entry id = some p
  entries : ∀ id p, w.entry id = some p → sessionMap.lookup id = some p ∨
    p.sessionID = id ∧ ∃ n ec, w.made n = some p ∧ w.accept p.addr = .done ec ∧ ec.failed = false
  fresh : ∀ a, w.world.allocated ≤ a → w.accept a = .idle

/-- What a step of thread `t` leaves of the others' knowledge. -/
structure Evolves (t : AcceptThread) (w w' : AcceptWorld) : Prop where
  made : ∀ n p, w.made n = some p → w'.made n = some p
  unmade : ∀ n, t ≠ .call n → w.made n = none → w'.made n = none
  idle : ∀ n p, t ≠ .call n → w.made n = some p → w.accept p.addr = .idle →
    w'.accept p.addr = .idle
  done : ∀ a ec, w.accept a = .done ec → w'.accept a = .done ec
  entry : ∀ id p, w.entry id = some p → w'.entry id = some p

variable {w w' : AcceptWorld} {u : AcceptThread} {f : Stage} {p : SessionPtr} {a : Nat}

theorem Evolves.refl (t : AcceptThread) (w : AcceptWorld) : Evolves t w w :=
  ⟨fun _ _ h => h, fun _ _ h => h, fun _ _ _ _ h => h, fun _ _ h => h, fun _ _ h => h⟩

theorem Own.evolves (h : Own w u p) (hw : Evolves t w w') : Own w' u p := by
  cases u with
  | call n => exact hw.made n p h
  | io a =>
    obtain ⟨haddr, n, hn⟩ := h
    exact ⟨haddr, n, hw.made n p hn⟩
  | network => exact h.elim

theorem Waits.evolves (h : Waits w u a) (hw : Evolves t w w') : Waits w' u a := by
  cases u with
  | call n =>
    obtain ⟨p, hp, haddr⟩ := h
    exact ⟨p, hw.made n p hp, haddr⟩
  | io b => exact h
  | network => exact h.elim

/-- What a thread knows survives the steps of the others. -/
theorem Means.evolves (h : Means sessionMap mode ids w u f) (hw : Evolves t w w') (htu : t ≠ u) :
    Means sessionMap mode ids w' u f := by
  cases f with
  | unstarted =>
    cases u with
    | call n => exact hw.unmade n htu h
    | io a => exact h
    | network => trivial
  | existing =>
    obtain ⟨n, rfl, hn⟩ := h
    exact ⟨n, rfl, hw.unmade n htu hn⟩
  | absent =>
    obtain ⟨n, rfl, hn, habsent⟩ := h
    exact ⟨n, rfl, hw.unmade n htu hn, habsent⟩
  | has p =>
    obtain ⟨n, rfl, hn, hidle⟩ := h
    exact ⟨n, rfl, hw.made n p hn, hw.idle n p htu hn hidle⟩
  | armed p =>
    obtain ⟨n, rfl, hn, hidle⟩ := h
    exact ⟨n, rfl, hw.made n p hn, hw.idle n p htu hn hidle⟩
  | launched =>
    obtain ⟨hmode, n, p, rfl, hn⟩ := h
    exact ⟨hmode, n, p, rfl, hw.made n p hn⟩
  | waiting a => exact Waits.evolves h hw
  | completed a ec => exact ⟨h.1.evolves hw, hw.done a ec h.2⟩
  | calling p ec => exact ⟨h.1.evolves hw, hw.done p.addr ec h.2⟩
  | done a ec =>
    obtain ⟨p, hown, haddr, hdone, hentry⟩ := h
    exact ⟨p, hown.evolves hw, haddr, hw.done a ec hdone,
      fun hec => hw.entry p.sessionID p (hentry hec)⟩

/-- What holds of the whole pool. -/
def Inv (sessionMap : AList (fun _ : UInt32 => SessionPtr)) (mode : IOMode) (ids : List UInt32)
    (fs : AcceptThread → Stage) (w : AcceptWorld) : Prop :=
  Sound sessionMap ids w ∧ ∀ t, Means sessionMap mode ids w t (fs t)

variable {fs : AcceptThread → Stage}

/-- A step of thread `t` keeps the invariant if it is sound and says enough about `t`. -/
theorem Inv.step (h : Inv sessionMap mode ids fs w) (hw : Evolves t w w')
    (hsound : Sound sessionMap ids w') (hmeans : Means sessionMap mode ids w' t f) :
    Inv sessionMap mode ids (Function.update fs t f) w' := by
  refine ⟨hsound, fun u => ?_⟩
  by_cases hu : u = t
  · subst hu
    rwa [Function.update_self]
  · rw [Function.update_of_ne hu]
    exact (h.2 u).evolves hw (fun htu => hu htu.symm)

/-! ## One step -/

/-- A session object changes. -/
def AcceptWorld.modify (w : AcceptWorld) (a : Nat) (g : SessionObject → SessionObject) : AcceptWorld :=
  { w with world := w.world.modify a g }

theorem accept_modify_self (w : AcceptWorld) (a : Nat) (g : SessionObject → SessionObject) :
    (w.modify a g).accept a = (g (w.world.sessions a)).accept := by
  rw [AcceptWorld.accept, AcceptWorld.modify, World.modify_sessions_self]

theorem accept_modify_of_ne (w : AcceptWorld) {a b : Nat} (hb : b ≠ a)
    (g : SessionObject → SessionObject) : (w.modify a g).accept b = w.accept b := by
  rw [AcceptWorld.accept, AcceptWorld.modify, World.modify_sessions_of_ne _ hb, AcceptWorld.accept]

/-- `makeSession`. -/
theorem inv_make {n : Nat} {id : UInt32} (h : Inv sessionMap mode ids fs w)
    (hf : fs (.call n) = .absent) (hid : ids[n]? = some id) :
    Inv sessionMap mode ids (Function.update fs (.call n) (.has ⟨w.world.allocated, id⟩))
      { w with
        world := { w.world.modify w.world.allocated (fun _ => .new) with
          allocated := w.world.allocated + 1 }
        made := Function.update w.made n (some ⟨w.world.allocated, id⟩) } := by
  have hmeans := h.2 (.call n)
  rw [hf] at hmeans
  obtain ⟨m, hm, hmade, habsent⟩ := hmeans
  obtain rfl : n = m := AcceptThread.call.inj hm
  set w' : AcceptWorld := { w with
    world := { w.world.modify w.world.allocated (fun _ => .new) with
      allocated := w.world.allocated + 1 }
    made := Function.update w.made n (some ⟨w.world.allocated, id⟩) } with hw'
  -- the new session is at an address of its own
  have hold : ∀ b, b ≠ w.world.allocated → w'.accept b = w.accept b := by
    intro b hb
    show ((w.world.modify w.world.allocated (fun _ => .new)).sessions b).accept = _
    rw [World.modify_sessions_of_ne _ hb]
    rfl
  have hnew : w'.accept w.world.allocated = .idle := by
    show ((w.world.modify w.world.allocated (fun _ => .new)).sessions _).accept = _
    rw [World.modify_sessions_self]
    rfl
  have hself : w'.made n = some ⟨w.world.allocated, id⟩ := Function.update_self ..
  have hother : ∀ m, m ≠ n → w'.made m = w.made m := fun m hmn => Function.update_of_ne hmn ..
  have hofMade : ∀ m p, w'.made m = some p →
      (m = n ∧ p = ⟨w.world.allocated, id⟩) ∨ w.made m = some p := by
    intro m p hp
    by_cases hmn : m = n
    · subst hmn
      rw [hself] at hp
      exact .inl ⟨rfl, (Option.some.inj hp).symm⟩
    · rw [hother m hmn] at hp
      exact .inr hp
  have hevolves : Evolves (.call n) w w' := by
    refine ⟨fun m p hp => ?_, fun m hmn hm => ?_, fun m p _ hp hidle => ?_, fun b ec hdone => ?_,
      fun id p hp => hp⟩
    · by_cases hmn : m = n
      · subst hmn
        rw [hmade] at hp
        cases hp
      · rw [hother m hmn]
        exact hp
    · rw [hother m (fun hmn' => hmn (hmn' ▸ rfl))]
      exact hm
    · rw [hold p.addr (Nat.ne_of_lt (h.1.made m p hp).2.1)]
      exact hidle
    · rw [hold b ?_]
      · exact hdone
      · rintro rfl
        rw [h.1.fresh _ (Nat.le_refl _)] at hdone
        cases hdone
  refine h.step hevolves ⟨fun m p hp => ?_, fun m k p q hp hq haddr => ?_, fun p hp => ?_, h.1.kept,
    fun id p hp => ?_, fun b hb => ?_⟩ ⟨n, rfl, hself, hnew⟩
  · rcases hofMade m p hp with ⟨rfl, rfl⟩ | hp
    · exact ⟨hid, Nat.lt_succ_self _, habsent id hid⟩
    · obtain ⟨hpid, hlt, hlookup⟩ := h.1.made m p hp
      exact ⟨hpid, Nat.lt_succ_of_lt hlt, hlookup⟩
  -- two calls cannot have made sessions at one address
  · rcases hofMade m p hp with ⟨hm, hnew⟩ | hp'
    · rcases hofMade k q hq with ⟨hk, -⟩ | hq'
      · exact hm.trans hk.symm
      · rw [hnew] at haddr
        exact absurd haddr.symm (Nat.ne_of_lt (h.1.made k q hq').2.1)
    · rcases hofMade k q hq with ⟨-, hnew⟩ | hq'
      · rw [hnew] at haddr
        exact absurd haddr (Nat.ne_of_lt (h.1.made m p hp').2.1)
      · exact h.1.distinct m k p q hp' hq' haddr
  · obtain ⟨m, hm⟩ := h.1.slot p hp
    exact ⟨m, hevolves.made m p hm⟩
  · rcases h.1.entries id p hp with hkept | ⟨rfl, m, ec, hm, hdone, hec⟩
    · exact .inl hkept
    · exact .inr ⟨rfl, m, ec, hevolves.made m p hm, hevolves.done p.addr ec hdone, hec⟩
  · have hb : w.world.allocated < b := hb
    rw [hold b (Nat.ne_of_gt hb)]
    exact h.1.fresh b (Nat.le_of_lt hb)

/-- The sessions of the pool are sound after a step that makes none and changes no entry. -/
theorem Sound.evolves (h : Sound sessionMap ids w) (hw : Evolves t w w')
    (hmade : w'.made = w.made) (hmap : w'.entry = w.entry)
    (hallocated : w'.world.allocated = w.world.allocated)
    (hslot : ∀ p, w'.onAccept = some p → ∃ n, w.made n = some p)
    (hfresh : ∀ b, w.world.allocated ≤ b → w.accept b = .idle → w'.accept b = .idle) :
    Sound sessionMap ids w' where
  made := by
    rw [hmade, hallocated]
    exact h.made
  distinct := by
    rw [hmade]
    exact h.distinct
  slot := by
    rw [hmade]
    exact hslot
  kept := by
    rw [hmap]
    exact h.kept
  entries := by
    intro id p hp
    rw [hmap] at hp
    rcases h.entries id p hp with hkept | ⟨hid, m, ec, hm, hdone, hec⟩
    · exact .inl hkept
    · exact .inr ⟨hid, m, ec, hw.made m p hm, hw.done p.addr ec hdone, hec⟩
  fresh := by
    intro b hb
    rw [hallocated] at hb
    exact hfresh b hb (h.fresh b hb)

/-- `setOnAccept`. -/
theorem inv_store {n : Nat} (h : Inv sessionMap mode ids fs w) (hf : fs (.call n) = .has p) :
    Inv sessionMap mode ids (Function.update fs (.call n) (.armed p))
      { w with onAccept := some p } := by
  have hmeans := h.2 (.call n)
  rw [hf] at hmeans
  obtain ⟨m, hm, hmade, hidle⟩ := hmeans
  have hevolves : Evolves (.call n) w { w with onAccept := some p } :=
    ⟨fun _ _ h => h, fun _ _ h => h, fun _ _ _ _ h => h, fun _ _ h => h, fun _ _ h => h⟩
  refine h.step hevolves (h.1.evolves hevolves rfl rfl rfl (fun q hq => ?_) (fun _ _ h => h))
    ⟨m, hm, hmade, hidle⟩
  obtain rfl := Option.some.inj hq
  exact ⟨m, hmade⟩

/-- A step that changes one accept, and not one that is done. -/
theorem Evolves.accept {g : SessionObject → SessionObject} (ho : w.accept a ≠ .idle ∨
      ∀ m q, t ≠ .call m → w.made m = some q → q.addr ≠ a) (hdone : ∀ ec, w.accept a ≠ .done ec) :
    Evolves t w (w.modify a g) := by
  refine ⟨fun _ _ h => h, fun _ _ h => h, fun m q htm hq hidle => ?_, fun b ec hb => ?_,
    fun _ _ h => h⟩
  · rw [accept_modify_of_ne w ?_]
    · exact hidle
    · rintro rfl
      rcases ho with hne | hother
      · exact hne hidle
      · exact hother m q htm hq rfl
  · rw [accept_modify_of_ne w ?_]
    · exact hb
    · rintro rfl
      exact hdone ec hb

/-- `async_accept`. -/
theorem inv_accept {n : Nat} (h : Inv sessionMap mode ids fs w) (hf : fs (.call n) = .armed p)
    (hmeans : ∀ w' : AcceptWorld, w'.made n = some p → Means sessionMap mode ids w' (.call n) f) :
    Inv sessionMap mode ids (Function.update fs (.call n) f)
      (w.modify p.addr (fun o => { o with accept := .pending })) := by
  have hknown := h.2 (.call n)
  rw [hf] at hknown
  obtain ⟨m, hm, hmade, hidle⟩ := hknown
  obtain rfl : n = m := AcceptThread.call.inj hm
  have hevolves : Evolves (.call n) w (w.modify p.addr (fun o => { o with accept := .pending })) := by
    refine Evolves.accept (.inr (fun k q hk hq haddr => hk ?_)) (fun ec hec => ?_)
    · rw [h.1.distinct k n q p hq hmade haddr]
    · rw [hidle] at hec
      cases hec
  refine h.step hevolves (h.1.evolves hevolves rfl rfl rfl h.1.slot (fun b hb hidle' => ?_))
    (hmeans _ hmade)
  have hlt := (h.1.made n p hmade).2.1
  rw [accept_modify_of_ne w (by omega)]
  exact hidle'

/-- A step of the network: an accept completes, or bytes arrive. -/
theorem inv_network {c : Choice} {r : Unit} {world : World} (h : Inv sessionMap mode ids fs w)
    (hsem : networkSem c w.world = some (r, world)) :
    Inv sessionMap mode ids (Function.update fs .network .unstarted) { w with world := world } := by
  cases c with
  | accepted a ec =>
    simp only [networkSem, Option.ite_none_right_eq_some, Option.some.injEq, Prod.mk.injEq] at hsem
    obtain ⟨⟨hpending, -⟩, -, rfl⟩ := hsem
    -- an accept that was pending is done, and no other changes
    have hpending : w.accept a = .pending := hpending
    have hevolves : Evolves .network w
        (w.modify a (fun o => { o with accept := .done ec, isOpen := !ec.failed })) := by
      refine Evolves.accept (.inl ?_) (fun ec' hec => ?_)
      · rw [hpending]
        exact nofun
      · rw [hpending] at hec
        cases hec
    refine h.step hevolves (h.1.evolves hevolves rfl rfl rfl h.1.slot (fun b hb hidle => ?_)) trivial
    show (w.modify a _).accept b = _
    rw [accept_modify_of_ne]
    · exact hidle
    · rintro rfl
      rw [hpending] at hidle
      cases hidle
  | delivered a bytes =>
    simp only [networkSem, Option.ite_none_right_eq_some, Option.some.injEq, Prod.mk.injEq] at hsem
    obtain ⟨-, -, rfl⟩ := hsem
    have haccept : ∀ b, (w.modify a (fun o => { o with rx := o.rx ++ bytes })).accept b
        = w.accept b := by
      intro b
      by_cases hb : b = a
      · subst hb
        rw [accept_modify_self, AcceptWorld.accept]
      · rw [accept_modify_of_ne w hb]
    have hevolves : Evolves .network w (w.modify a (fun o => { o with rx := o.rx ++ bytes })) := by
      refine ⟨fun _ _ h => h, fun _ _ h => h, fun m q _ _ hidle => ?_, fun b ec hb => ?_,
        fun _ _ h => h⟩
      · rw [haccept]
        exact hidle
      · rw [haccept]
        exact hb
    refine h.step hevolves (h.1.evolves hevolves rfl rfl rfl h.1.slot (fun b hb hidle => ?_)) trivial
    exact (haccept b).trans hidle
  | _ => cases hsem

theorem Own.made (h : Own w t p) : ∃ n, w.made n = some p := by
  cases t with
  | call n => exact ⟨n, h⟩
  | io a => exact h.2
  | network => exact h.elim

/-- Under the id of a session that a call has made only that session can be, and only if its
accept has succeeded. -/
theorem Sound.entry_of_made {n : Nat} {q : SessionPtr} (hids : ids.Nodup)
    (h : Sound sessionMap ids w) (hn : w.made n = some p) (hq : w.entry p.sessionID = some q) :
    q = p ∧ ∃ ec, w.accept p.addr = .done ec ∧ ec.failed = false := by
  obtain ⟨hnid, -, hnew⟩ := h.made n p hn
  -- the map had nothing under that id, and the ids of the calls are distinct
  rcases h.entries _ q hq with hkept | ⟨hqid, m, ec, hm, hdone, hec⟩
  · rw [hnew] at hkept
    cases hkept
  · have hmid := (h.made m q hm).1
    rw [hqid, ← hnid] at hmid
    have hlt : m < ids.length := by
      by_contra hge
      rw [List.getElem?_eq_none (Nat.le_of_not_lt hge), hnid] at hmid
      cases hmid
    obtain rfl : m = n := (List.getElem?_inj hlt hids).mp hmid
    rw [hn] at hm
    obtain rfl := Option.some.inj hm
    exact ⟨rfl, ec, hdone, hec⟩

/-- The entry of a session whose accept has succeeded. -/
theorem inv_insert {ec : ErrorCode} (hids : ids.Nodup) (h : Inv sessionMap mode ids fs w)
    (hf : fs t = .calling p ec) (hec : ec.failed = false) :
    Inv sessionMap mode ids (Function.update fs t (.done p.addr ec))
      { w with world := { w.world with
        sessionMap := w.world.sessionMap.insert p.sessionID p
        registered := w.world.registered ++ [p] } } := by
  have hmeans := h.2 t
  rw [hf] at hmeans
  obtain ⟨hown, hdone⟩ := hmeans
  obtain ⟨n, hn⟩ := hown.made
  set w' : AcceptWorld := { w with world := { w.world with
    sessionMap := w.world.sessionMap.insert p.sessionID p
    registered := w.world.registered ++ [p] } } with hw'
  have hself : w'.entry p.sessionID = some p := AList.lookup_insert ..
  have hother : ∀ id, id ≠ p.sessionID → w'.entry id = w.entry id := fun id hid =>
    AList.lookup_insert_ne hid
  -- What is there already under that id can only be the session itself.
  have hentry : ∀ id q, w.entry id = some q → w'.entry id = some q := by
    intro id q hq
    by_cases hid : id = p.sessionID
    · subst hid
      rw [(h.1.entry_of_made hids hn hq).1]
      exact hself
    · rw [hother id hid]
      exact hq
  have hevolves : Evolves t w w' :=
    ⟨fun _ _ h => h, fun _ _ h => h, fun _ _ _ _ h => h, fun _ _ h => h, hentry⟩
  refine h.step hevolves ⟨h.1.made, h.1.distinct, h.1.slot, fun id q hq => ?_, fun id q hq => ?_,
    h.1.fresh⟩ ⟨p, hown.evolves hevolves, rfl, hdone, fun _ => hself⟩
  · exact hentry id q (h.1.kept id q hq)
  · by_cases hid : id = p.sessionID
    · subst hid
      rw [hself] at hq
      obtain rfl := Option.some.inj hq
      exact .inr ⟨rfl, n, ec, hn, hdone, hec⟩
    · rw [hother id hid] at hq
      exact h.1.entries id q hq

/-- A step that leaves the shared state as it is. -/
theorem Inv.stay (h : Inv sessionMap mode ids fs w) (hmeans : Means sessionMap mode ids w t f) :
    Inv sessionMap mode ids (Function.update fs t f) w :=
  h.step (Evolves.refl t w) h.1 hmeans

/-- At a load of the slot it holds the callback of the session whose accept `t` completes. -/
def LoadsOwn (t : AcceptThread) (o : AcceptOp) (w : AcceptWorld) : Prop :=
  o = .getOnAccept → ∃ p, w.onAccept = some p ∧ Own w t p

/-- **One step** of a thread that does what its stage says. -/
theorem inv_step (hids : ids.Nodup) {o : AcceptOp} {c : Choice} {r : o.Res}
    (h : Inv sessionMap mode ids fs w) (hnext : Next ids t (fs t) o) (hok : LoadsOwn t o w)
    (hsem : acceptSem t o c w = some (r, w')) :
    Seen (fs t) o r ∧
      Inv sessionMap mode ids (Function.update fs t (after mode (fs t) o r)) w' := by
  have hmeans := h.2 t
  generalize hf : fs t = f at hnext hmeans
  cases hnext with
  | @find n id hid =>
    obtain ⟨rfl, rfl⟩ := Prod.mk.inj (Option.some.inj hsem)
    have hmade : w.made n = none := hmeans
    refine ⟨trivial, h.stay ?_⟩
    show Means sessionMap mode ids w (.call n) (if w.world.getSession id |>.isSome then _ else _)
    split
    · exact ⟨n, rfl, hmade⟩
    · next hnone =>
      -- An entry that was there from the start is still there.
      refine ⟨n, rfl, hmade, fun id' hid' => ?_⟩
      rw [hid, Option.some.injEq] at hid'
      subst hid'
      by_contra hlookup
      obtain ⟨q, hq⟩ := Option.ne_none_iff_exists'.mp hlookup
      exact hnone (by rw [show w.world.getSession id = some q from h.1.kept id q hq]; rfl)
  | @make n id hid =>
    obtain ⟨rfl, rfl⟩ := Prod.mk.inj (Option.some.inj hsem)
    exact ⟨trivial, inv_make h hf hid⟩
  | @store n p =>
    obtain ⟨rfl, rfl⟩ := Prod.mk.inj (Option.some.inj hsem)
    exact ⟨trivial, inv_store h hf⟩
  | @accept n p =>
    obtain ⟨rfl, rfl⟩ := Prod.mk.inj (Option.some.inj hsem)
    refine ⟨trivial, inv_accept h hf (fun w' hmade => ?_)⟩
    cases mode with
    | Sync => exact ⟨p, hmade, rfl⟩
    | Async => exact ⟨rfl, n, p, rfl, hmade⟩
  | @result t a =>
    simp only [acceptSem, sem] at hsem
    cases hdone : (w.world.sessions a).accept with
    | done ec =>
      simp only [hdone, Option.map_some, Option.some.injEq, Prod.mk.injEq] at hsem
      obtain ⟨rfl, rfl⟩ := hsem
      rw [record_of_makes_none (fun _ h => by cases h)]
      exact ⟨trivial, h.stay ⟨hmeans, hdone⟩⟩
    | _ =>
      rw [hdone] at hsem
      cases hsem
  -- here the slot may hold the callback of another session
  | @load t a ec =>
    obtain ⟨rfl, rfl⟩ := Prod.mk.inj (Option.some.inj hsem)
    obtain ⟨p, hslot, hown⟩ := hok rfl
    obtain ⟨hwaits, hdone⟩ := hmeans
    have haddr : p.addr = a := by
      cases t with
      | call n =>
        obtain ⟨q, hq, rfl⟩ := hwaits
        rw [show w.made n = some p from hown] at hq
        rw [Option.some.inj hq]
      | io b =>
        obtain rfl : b = a := hwaits
        exact hown.1
      | network => exact hown.elim
    refine ⟨⟨p, hslot, haddr⟩, ?_⟩
    rw [hslot]
    exact h.stay ⟨hown, haddr ▸ hdone⟩
  | @refused t p ec hec =>
    obtain ⟨rfl, rfl⟩ := Prod.mk.inj (Option.some.inj hsem)
    obtain ⟨hown, hdone⟩ := hmeans
    obtain ⟨n, hn⟩ := hown.made
    constructor
    · -- Nothing has been put there under its id.
      show (w.world.getSession p.sessionID).isSome = false
      cases hentry : w.world.getSession p.sessionID with
      | none => rfl
      | some q =>
        obtain ⟨-, ec', hdone', hec'⟩ := h.1.entry_of_made hids hn hentry
        rw [hdone, Accept.done.injEq] at hdone'
        rw [hdone', hec'] at hec
        cases hec
    · rw [record_of_makes_none (fun _ h => by cases h)]
      refine h.stay ⟨p, hown, rfl, hdone, fun hec' => ?_⟩
      rw [hec] at hec'
      cases hec'
  | @insert t p ec hec =>
    obtain ⟨rfl, rfl⟩ := Prod.mk.inj (Option.some.inj hsem)
    rw [record_of_makes_none (fun _ h => by cases h)]
    exact ⟨trivial, inv_insert hids h hf hec⟩
  | network =>
    simp only [acceptSem] at hsem
    obtain ⟨⟨r', world⟩, hnet, hx⟩ := Option.map_eq_some_iff.mp hsem
    obtain ⟨rfl, rfl⟩ := Prod.mk.inj hx
    exact ⟨trivial, inv_network h hnet⟩

/-! ## Runs -/

/-- The pool keeps to the discipline. -/
def disciplined (mode : IOMode) (sessionMap : AList (fun _ : UInt32 => SessionPtr))
    (hids : ids.Nodup) : Disciplined system Stage where
  rules := rules mode ids
  loop := fun t _ f => t = .network ∧ f = .unstarted
  fin := Ended mode ids
  ok := fun t o _ w => LoadsOwn t o w
  inv := Inv sessionMap mode ids
  block_follows := by
    rintro t l f ⟨rfl, rfl⟩
    exact ⟨.network, fun _ _ => ⟨rfl, rfl⟩⟩
  keeps := fun _ _ _ _ _ _ _ h hnext hok hsem => inv_step hids h hnext hok hsem

/-- A newly made pool. -/
theorem start_holds (hids : ids.Nodup) : ∃ fs, (disciplined mode sessionMap hids).Holds
    (start manager mode ids sessionMap allocated) fs := by
  refine ⟨fun
    | .io a => match mode with
      | .Sync => .unstarted
      | .Async => .waiting a
    | _ => .unstarted, ⟨⟨?_, ?_⟩, ?_⟩⟩
  · exact ⟨nofun, nofun, nofun, fun _ _ h => h, fun _ _ h => .inl h, fun _ _ => rfl⟩
  · rintro (n | a | _)
    · rfl
    · cases mode with
      | Sync => rfl
      | Async => exact rfl
    · trivial
  · rintro (n | a | _)
    · show Follows _ _ _ _ (match ids[n]? with
        | some sessionID => addSession manager mode sessionID >>= fun _ => return none
        | none => return none)
      cases hid : ids[n]? with
      | none => exact hid
      | some id =>
        exact Follows.bind (M := fun _ f => Ended mode ids (.call n) f)
          (follows_addSession hid (fun _ h => h)) (fun _ _ h => h)
    · cases mode with
      | Sync => exact rfl
      | Async =>
        exact Follows.bind (M := fun _ f => Ended .Async ids (.io a) f)
          (follows_completion (fun _ => rfl)) (fun _ _ h => h)
    · exact ⟨rfl, rfl⟩

/-- Who completes the accept of the session that call `n` made. -/
def completer : IOMode → Nat → SessionPtr → AcceptThread
  | .Sync, n, _ => .call n
  | .Async, _, p => .io p.addr

/-- **Each session under its own id**: what was in the map is still there; besides it, only
sessions whose accept has succeeded, under the id of the call that made them; and these all, as
soon as their accept has been dealt with. -/
structure Registered (mode : IOMode) (ids : List UInt32)
    (sessionMap : AList (fun _ : UInt32 => SessionPtr)) (s : system.State) : Prop where
  kept : ∀ id p, sessionMap.lookup id = some p → s.world.entry id = some p
  own : ∀ id p, s.world.entry id = some p → sessionMap.lookup id = some p ∨
    ∃ n ec, ids[n]? = some id ∧ s.world.made n = some p ∧ s.world.accept p.addr = .done ec ∧
      ec.failed = false
  accepted : ∀ n id p ec, ids[n]? = some id → s.world.made n = some p →
    s.world.accept p.addr = .done ec → s.threads (completer mode n p) = .pure none →
    ec.failed = false → s.world.entry id = some p
  refused : ∀ n id p ec, ids[n]? = some id → s.world.made n = some p →
    s.world.accept p.addr = .done ec → ec.failed = true → s.world.entry id = none

/-- A completer that is finished has dealt with the session's accept. -/
theorem entry_of_finished (hids : ids.Nodup) {s : system.State} {n : Nat} {ec : ErrorCode}
    (h : (disciplined mode sessionMap hids).Holds s fs) (hn : s.world.made n = some p)
    (hdone : s.world.accept p.addr = .done ec)
    (hfinished : s.threads (completer mode n p) = .pure none) (hec : ec.failed = false) :
    s.world.entry p.sessionID = some p := by
  obtain ⟨⟨hsound, hmeans⟩, hkeeps⟩ := h
  have hended := hkeeps (completer mode n p)
  rw [hfinished] at hended
  have hended : Ended mode ids (completer mode n p) (fs (completer mode n p)) := hended
  have hmeans := hmeans (completer mode n p)
  -- a thread that is finished and knows of the session has dealt with its accept
  have hdealt : ∃ a ec', fs (completer mode n p) = .done a ec' := by
    generalize fs (completer mode n p) = f at hended hmeans
    cases f with
    | done a ec' => exact ⟨a, ec', rfl⟩
    | existing =>
      obtain ⟨m, hm, hmade⟩ := hmeans
      cases mode with
      | Sync =>
        rw [AcceptThread.call.inj hm, hmade] at hn
        cases hn
      | Async => cases hm
    | unstarted =>
      cases mode with
      | Sync =>
        rw [show s.world.made n = none from hmeans] at hn
        cases hn
      | Async => cases hmeans
    | launched =>
      cases mode with
      | Sync => cases hended
      | Async => exact hended.elim
    | _ => exact (by cases mode <;> exact hended.elim)
  obtain ⟨a, ec', hf⟩ := hdealt
  rw [hf] at hmeans
  obtain ⟨q, hown, haddr, hdone', hentry⟩ := hmeans
  obtain rfl : q = p := by
    cases mode with
    | Sync =>
      rw [show s.world.made n = some q from hown] at hn
      exact Option.some.inj hn
    | Async =>
      obtain ⟨hqp, m, hm⟩ := hown
      obtain rfl := hsound.distinct m n q p hm hn hqp
      rw [hm] at hn
      exact Option.some.inj hn
  refine hentry ?_
  rw [← haddr, hdone, Accept.done.injEq] at hdone'
  rwa [← hdone']

/-- The step, if it loads the slot, finds the callback of its own session there. -/
def callbackOwn (s : system.State) (t : AcceptThread) (_ : Choice) : Prop :=
  ∀ k, s.threads t = .op .getOnAccept k → ∃ p, s.world.onAccept = some p ∧ Own s.world t p

/-- **Several accepts of one manager**: in either mode, for any calls of `addSession` with
distinct ids and in every order in which they register and their accepts complete, the sessions
come into the map under their own ids, as long as every completion finds in the slot the
callback that its own `Session::accept` stored. -/
theorem accepts_reach_their_sessions (hids : ids.Nodup) {s : system.State}
    (hrun : System.Steps callbackOwn (start manager mode ids sessionMap allocated) s) :
    Registered mode ids sessionMap s := by
  have hallows : ∀ s t c, callbackOwn s t c → (disciplined mode sessionMap hids).Allows s t c := by
    rintro s t c hown o k hk rfl
    exact hown k hk
  obtain ⟨fs, hfs⟩ := Disciplined.run_rule hallows hrun (start_holds hids)
  have hsound : Sound sessionMap ids s.world := hfs.inv.1
  have hid : ∀ {n id p}, ids[n]? = some id → s.world.made n = some p → p.sessionID = id := by
    intro n id p hid hn
    rw [(hsound.made n p hn).1] at hid
    exact Option.some.inj hid
  refine ⟨hsound.kept, fun id p hp => ?_, fun n id p ec hn hmade hdone hfinished hec => ?_,
    fun n id p ec hn hmade hdone hec => ?_⟩
  · rcases hsound.entries id p hp with hkept | ⟨rfl, n, ec, hmade, hdone, hec⟩
    · exact .inl hkept
    · exact .inr ⟨n, ec, (hsound.made n p hmade).1, hmade, hdone, hec⟩
  -- the completer has finished: it has inserted the session
  · rw [← hid hn hmade]
    exact entry_of_finished hids hfs hmade hdone hfinished hec
  · rw [← hid hn hmade]
    by_contra hentry
    obtain ⟨q, hq⟩ := Option.ne_none_iff_exists'.mp hentry
    obtain ⟨-, ec', hdone', hec'⟩ := hsound.entry_of_made hids hmade hq
    rw [hdone, Accept.done.injEq] at hdone'
    rw [hdone', hec'] at hec
    cases hec

/-! ## Two calls -/

/-- Call `n` registers its session and starts its accept. -/
def registers (n : Nat) : List (AcceptThread × Choice) := List.replicate 4 (.call n, .go)

/-- The accept at `a` completes, and the io thread runs its handler. -/
def completes (a : Nat) : List (AcceptThread × Choice) :=
  [(.network, .go), (.network, .accepted a .success)] ++ List.replicate 3 (.io a, .go)

/-- A manager without settings. -/
def plainManager : SessionManager := ⟨7, none⟩

/-- The step finds the callback of its own session, where the session of call `n` is at `n`. -/
def findsOwn (s : system.State) (t : AcceptThread) (_ : Choice) : Bool :=
  match s.threads t, t with
  | .op .getOnAccept _, .io a => s.world.onAccept = s.world.made a ∧
      (s.world.onAccept.map SessionPtr.addr) = some a
  | .op .getOnAccept _, _ => false
  | _, _ => true

theorem callbackOwn_of_findsOwn (s : system.State) (t : AcceptThread) (c : Choice)
    (h : findsOwn s t c = true) : callbackOwn s t c := by
  intro k hk
  cases t with
  | io a =>
    simp only [findsOwn, hk, decide_eq_true_eq] at h
    obtain ⟨hmade, haddr⟩ := h
    obtain ⟨p, hp, rfl⟩ := Option.map_eq_some_iff.mp haddr
    exact ⟨p, hp, rfl, p.addr, hmade.symm.trans hp⟩
  | _ =>
    simp only [findsOwn, hk] at h
    cases h

/-- One accept at a time. -/
theorem accepts_one_at_a_time : ∃ s, System.exec (start plainManager .Async [1, 2] ∅ 0)
      (registers 0 ++ completes 0 ++ registers 1 ++ completes 1) = some s ∧
    Registered .Async [1, 2] ∅ s ∧ s.world.entry 1 = some ⟨0, 1⟩ ∧
    s.world.entry 2 = some ⟨1, 2⟩ := by
  have hchecked : System.checks findsOwn (start plainManager .Async [1, 2] ∅ 0)
      (registers 0 ++ completes 0 ++ registers 1 ++ completes 1) = true := rfl
  exact ⟨_, rfl, accepts_reach_their_sessions (by decide) (System.steps_of_along rfl
    (System.along_of_checks callbackOwn_of_findsOwn hchecked)), rfl, rfl⟩

/-- **The wrong session**: two accepts are outstanding, and the first one completes. The session
whose socket was accepted is not in the map; in the map is the other one, whose socket was not. -/
theorem accept_registers_other_session : ∃ s,
    System.exec (start plainManager .Async [1, 2] ∅ 0) (registers 0 ++ registers 1 ++ completes 0)
      = some s ∧
    s.world.made 0 = some ⟨0, 1⟩ ∧ s.world.accept 0 = .done .success ∧
    s.threads (.io 0) = .pure none ∧ s.world.accept 1 = .pending ∧
    s.world.entry 1 = none ∧ s.world.entry 2 = some ⟨1, 2⟩ ∧ ¬ Registered .Async [1, 2] ∅ s := by
  refine ⟨_, rfl, rfl, rfl, rfl, rfl, rfl, rfl, fun h => ?_⟩
  have hentry := h.accepted 0 1 ⟨0, 1⟩ .success rfl rfl rfl rfl rfl
  cases hentry

end NetworkApplication.Accepts
