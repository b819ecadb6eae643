/-
Which session a connection id means.

At the interface an id is a `size_t`; `SessionManager` takes an `unsigned int`, and the
map is keyed by a `uint32_t`. So an id means the session that is registered under its low
32 bits, and two ids are told apart exactly if these differ.

What makes the one direction hold is an invariant of the map that needs nothing of the ids
that are handed out: an entry is a session made for this very key, and no two entries are
one object. A call that found another entry then works on another object and removes
another key, whatever the other threads do meanwhile (`Interference.lean`).
-/
import NetworkApplication.Interference
import NetworkApplication.MissingSession
import NetworkApplication.RegistryRuns

set_option autoImplicit false

namespace NetworkApplication.ConnectionIds

open NetworkApplication.Program NetworkApplication.Pool NetworkApplication.Disciplines
open NetworkApplication.Composition
open SegmentServer MissingSession

variable {P : Platform} {server : SegmentServer} {ids : Nat → UInt64} {usage : Usage}
  {t : Thread} {w w' : World}

/-! ## The entries of the map -/

/-- Every entry is a session that was made for its key, which is the low half of an id
that was handed out; and no two entries are one object. -/
structure Keyed (ids : Nat → UInt64) (w : World) : Prop where
  handed : ∀ id p, w.getSession id = some p → ∃ i < w.handed, (ids i).toUInt32 = id
  sessionID : ∀ id p, w.getSession id = some p → p.sessionID = id
  allocated : ∀ id p, w.getSession id = some p → p.addr < w.allocated
  addrs : ∀ id p id' q, w.getSession id = some p → w.getSession id' = some q → p.addr = q.addr →
    id = id'

/-- How far the accept loop is with a session. -/
inductive Registering where
  | idle
  | drawn (ID : UInt64)
  | made (ptr : SessionPtr)

/-- What it knows of it. -/
def Registering.Known (ids : Nat → UInt64) (w : World) : Registering → Prop
  | .idle => True
  | .drawn ID => ∃ i < w.handed, ids i = ID
  | .made ptr => (∃ i < w.handed, (ids i).toUInt32 = ptr.sessionID) ∧ ptr.addr < w.allocated ∧
    ∀ id p, w.getSession id = some p → p.addr ≠ ptr.addr

/-- What an operation adds. -/
def Registering.next (f : Registering) : (o : Op) → o.Res → Registering
  | .distributeID, ID => .drawn ID
  | .makeSession _, ptr => .made ptr
  | .mapInsert _ _, _ => .idle
  | _, _ => f

/-- What is asked of the thread that performs an operation. -/
def May (t : Thread) (f : Registering) : Op → Prop
  | .distributeID => t = .main
  | .makeSession id => t = .main ∧ ∃ ID, f = .drawn ID ∧ id = UInt64.toUInt32 ID
  | .mapInsert id ptr => t = .main ∧ f = .made ptr ∧ id = ptr.sessionID
  | .makeSessionManager => False
  | _ => True

/-- A session is made for the id it is asked for. -/
def Possible : (o : Op) → o.Res → Prop
  | .makeSession id, ptr => ptr.sessionID = id
  | _, _ => True

/-- The discipline of thread `t`. -/
def rules (t : Thread) : Discipline Net Registering where
  Allowed := May t
  Possible := fun _ o r => Possible o r
  next := Registering.next
  Crash := fun _ => True

/-! ### Every thread keeps to it -/

/-- A program that registers nothing keeps to every discipline. -/
theorem follows_of_allOps {α : Type} {p : NetProg α} (hp : p.AllOps (fun o => ¬ Enters o))
    {Q : α → Prop} (hends : p.Ends Q) {post : α → Registering → Prop} {f : Registering}
    (hpost : ∀ a, Q a → post a f) : Follows (rules t) post (fun _ _ => True) f p := by
  induction p with
  | pure a => exact hpost a hends
  | throw e => trivial
  | crash => trivial
  | op o k ih =>
    obtain ⟨ho, hk⟩ := hp
    have hmay : May t f o ∧ ∀ r, f.next o r = f := by
      cases o with
      | distributeID => exact absurd trivial ho
      | makeSession id => exact absurd trivial ho
      | mapInsert id ptr => exact absurd trivial ho
      | makeSessionManager => exact absurd trivial ho
      | _ => exact ⟨trivial, fun _ => rfl⟩
    refine ⟨hmay.1, fun r _ => ?_⟩
    show Follows (rules t) _ _ (f.next o r) (k r)
    rw [hmay.2 r]
    exact ih r (hk r) (hends r)

/-- If it does not matter what it returns. -/
theorem follows_of_quiet {α : Type} {p : NetProg α} (hp : p.AllOps (fun o => ¬ Enters o))
    {f : Registering} : Follows (rules t) (fun _ _ => True) (fun _ _ => True) f p := by
  have hends : p.Ends (fun _ => True) := by
    induction p with
    | op o k ih => exact fun r => ih r (hp.2 r)
    | _ => trivial
  exact follows_of_allOps hp hends (fun _ _ => trivial)

/-- The functions of a server register nothing, those of the accept loop apart. -/
theorem quiet : Prog.Compositional (E := Net) (fun p : NetProg _ => p.AllOps (fun o => ¬ Enters o))
    (fun o => ¬ Enters o) :=
  Prog.compositional_allOps (E := Net) (ε := Exception) (fun o => ¬ Enters o)

/-- Of the blocks, only the accept loop's registers sessions. -/
theorem quiet_block {l : ServerLabel} (hl : l ≠ .acceptLoop) :
    (server.block P l).AllOps (fun o => ¬ Enters o) := by
  cases l with
  | acceptLoop => exact absurd rfl hl
  | sessionWork n ptr => exact of_sessionWork quiet server n ptr
  | flushMain => exact of_flushMain quiet
  | flushWorkers n => exact of_flushWorkers quiet n
  | userLoop => exact of_userLoop quiet server trivial
  | networkLoop => exact of_networkLoop quiet

/-- The accept loop puts into the map the session it has made for the id it has drawn, under
the low half of this id. -/
theorem addSession_follows (ID : UInt64) :
    Follows (rules .main) (fun _ _ => True) (fun _ _ => True) (.drawn ID)
      (server.sessionManager.addSession (UInt64.toUInt32 ID)) := by
  refine Follows.step trivial (fun found _ => ?_)
  cases found with
  | true => trivial
  | false =>
    refine Follows.step ⟨rfl, ID, rfl, rfl⟩ (fun ptr _ => ?_)
    refine Follows.step trivial (fun _ _ => Follows.step trivial (fun ec _ => ?_))
    refine Follows.bind (M := fun _ f => f = .made ptr)
      (Follows.when (fun _ => rfl) (fun _ => rfl)) (fun _ f hf => ?_)
    subst hf
    show Follows (rules .main) _ _ _ (SessionManager.onAccept ptr.sessionID ptr ec)
    unfold SessionManager.onAccept
    split
    · refine follows_of_quiet (quiet.bind (quiet.call (.mapFind _) not_false) (fun found => ?_))
      split
      · exact of_removeSession (quiet.mono not_enters_of_sessionOp) _
      · exact quiet.pure _
    · exact Follows.call ⟨rfl, rfl, rfl⟩ (fun _ _ => trivial)

/-- The accept loop runs in its own thread. -/
def atLabel (t : Thread) (l : ServerLabel) : Prop := l = .acceptLoop → t = .main

/-- What is known where a block ends. -/
def atNext (t : Thread) : Option ServerLabel → Registering → Prop
  | some l, _ => atLabel t l
  | none, _ => True

theorem acceptLoop_follows (f : Registering) :
    Follows (rules .main) (atNext .main) (fun _ _ => True) f server.acceptLoop := by
  refine Follows.step trivial (fun isWork _ => ?_)
  cases isWork with
  | false => exact Follows.step trivial (fun _ _ => trivial)
  | true =>
    refine Follows.step rfl (fun ID _ => ?_)
    refine Follows.bind (M := fun _ _ => True) (addSession_follows ID) (fun _ f' _ => ?_)
    refine (follows_of_quiet (of_keepOrRefuse (quiet.mono not_enters_of_keepOp) trivial server ID)).mono (fun next _ _ => ?_)
      (fun _ _ h => h)
    cases next with
    | some l => exact fun _ => rfl
    | none => trivial

/-- The thread does not go on as the accept loop. -/
def Elsewhere (next : Option ServerLabel) : Prop := next ≠ some .acceptLoop

theorem elsewhere_none : Elsewhere none := (Option.some_ne_none _).symm

theorem elsewhere_some {l : ServerLabel} (hl : l ≠ .acceptLoop) : Elsewhere (some l) :=
  fun h => hl (Option.some.inj h)

theorem atNext_of_elsewhere {next : Option ServerLabel} (h : Elsewhere next) (f : Registering) :
    atNext t next f := by
  cases next with
  | some l => exact fun hl => absurd (congrArg some hl) h
  | none => trivial

/-- Only the accept loop goes on as the accept loop. -/
theorem block_ends {l : ServerLabel} (hl : l ≠ .acceptLoop) :
    (server.block P l).Ends Elsewhere := by
  have hdone : ∀ n, (taskDone n).Ends Elsewhere := fun n => Prog.Ends.bind (fun _ => elsewhere_none)
  cases l with
  | acceptLoop => exact absurd rfl hl
  | sessionWork n ptr =>
    refine Prog.Ends.tryCatch (Prog.Ends.bind (fun isWork => ?_)) (fun _ => hdone n)
    split
    · refine Prog.Ends.bind (fun hasError => ?_)
      split
      · exact hdone n
      · exact Prog.Ends.bind (fun _ => elsewhere_some hl)
    · exact hdone n
  | flushMain => exact Prog.Ends.bind (fun _ => elsewhere_some (by simp))
  | flushWorkers n =>
    refine Prog.Ends.bind (fun size => ?_)
    split
    · exact Prog.Ends.bind (fun _ => elsewhere_some (by simp))
    · exact elsewhere_none
  | userLoop =>
    refine Prog.Ends.bind (fun command => ?_)
    cases command with
    | disconnect id => exact Prog.Ends.bind (fun _ => elsewhere_some hl)
    | write id data => exact Prog.Ends.bind (fun _ => elsewhere_some hl)
    | sessionDisconnect => exact elsewhere_some hl
    | sessionWrite m => exact elsewhere_some hl
  | networkLoop => exact Prog.Ends.bind (fun _ => elsewhere_some hl)

theorem stop_ends : (server.stop).Ends Elsewhere := by
  unfold stop
  refine Prog.Ends.bind (fun isWork => ?_)
  split
  · refine Prog.Ends.bind (fun _ => Prog.Ends.bind (fun _ => ?_))
    refine Prog.Ends.bind (fun _ => Prog.Ends.bind (fun _ => Prog.Ends.bind (fun _ => ?_)))
    exact elsewhere_some (by simp)
  · exact elsewhere_none

/-- Every block keeps to the discipline of the thread that runs it. -/
theorem block_follows (l : ServerLabel) (f : Registering) (hl : atLabel t l) :
    Follows (rules t) (atNext t) (fun _ _ => True) f (server.block P l) := by
  by_cases hloop : l = .acceptLoop
  · subst hloop
    obtain rfl := hl rfl
    exact acceptLoop_follows f
  · exact follows_of_allOps (quiet_block hloop) (block_ends hloop)
      (fun _ hnext => atNext_of_elsewhere hnext _)

/-- So does every thread from where it starts. -/
theorem started_follows (ids : Nat → UInt64) (usage : Usage) (t : Thread) :
    Follows (rules t) (atNext t) (fun _ _ => True) .idle
      ((server.started P ids usage).threads t) := by
  have hother : ∀ l : ServerLabel, l ≠ .acceptLoop → atNext t (some l) .idle :=
    fun l hl => atNext_of_elsewhere (elsewhere_some hl) _
  cases t with
  | main => exact fun _ => rfl
  | control =>
    show Follows _ _ _ _ (if usage.stops then server.stop else .pure none)
    split
    · exact follows_of_allOps (of_stop quiet server) stop_ends (fun _ hnext => atNext_of_elsewhere hnext _)
    · trivial
  | reader n =>
    refine Follows.step trivial (fun id _ => Follows.step trivial (fun found _ => ?_))
    cases found with
    | none => exact Follows.step trivial (fun _ _ => trivial)
    | some ptr => exact hother _ (by simp)
  | user n =>
    show Follows _ _ _ _ (if usage.operates then .pure (some ServerLabel.userLoop) else .pure none)
    split
    · exact hother _ (by simp)
    · trivial
  | network => exact hother _ (by simp)

/-! ### What it says is true -/

/-- The shared state, and what the accept loop knows of it. -/
structure Kept (ids : Nat → UInt64) (fs : Thread → Registering) (w : World) : Prop where
  keyed : Keyed ids w
  known : (fs .main).Known ids w

/-- Entries only go, and ids and addresses only come. -/
structure Fewer (w w' : World) : Prop where
  getSession : ∀ id p, w'.getSession id = some p → w.getSession id = some p
  handed : w.handed ≤ w'.handed
  allocated : w.allocated ≤ w'.allocated

theorem Fewer.keyed (h : Fewer w w') (hw : Keyed ids w) : Keyed ids w' where
  handed := by
    intro id p hp
    obtain ⟨i, hi, hid⟩ := hw.handed id p (h.getSession id p hp)
    exact ⟨i, Nat.lt_of_lt_of_le hi h.handed, hid⟩
  sessionID := fun id p hp => hw.sessionID id p (h.getSession id p hp)
  allocated := fun id p hp => Nat.lt_of_lt_of_le (hw.allocated id p (h.getSession id p hp)) h.allocated
  addrs := fun id p id' q hp hq =>
    hw.addrs id p id' q (h.getSession id p hp) (h.getSession id' q hq)

theorem Fewer.known {f : Registering} (h : Fewer w w') (hf : f.Known ids w) : f.Known ids w' := by
  cases f with
  | idle => trivial
  | drawn ID =>
    obtain ⟨i, hi, hID⟩ := hf
    exact ⟨i, Nat.lt_of_lt_of_le hi h.handed, hID⟩
  | made ptr =>
    obtain ⟨⟨i, hi, hid⟩, hallocated, hfresh⟩ := hf
    refine ⟨⟨i, Nat.lt_of_lt_of_le hi h.handed, hid⟩, Nat.lt_of_lt_of_le hallocated h.allocated, ?_⟩
    exact fun id p hp => hfresh id p (h.getSession id p hp)

/-- No operation but the registration adds an entry. -/
theorem fewer_of_effect {o : Op} (ho : ∀ id ptr, o ≠ .mapInsert id ptr) (h : o.Effect w w') :
    Fewer w w' := by
  have hsame : w'.sessionMap = w.sessionMap → w.handed ≤ w'.handed → w.allocated ≤ w'.allocated →
      Fewer w w' := by
    intro hmap hhanded hallocated
    refine ⟨fun id p hp => ?_, hhanded, hallocated⟩
    rwa [World.getSession, hmap] at hp
  by_cases hloud : Registry.Loud o
  · cases o with
    | mapInsert id ptr => exact absurd rfl (ho id ptr)
    | mapErase id =>
      obtain rfl := h
      refine ⟨fun id' p hp => ?_, le_rfl, le_rfl⟩
      rw [Registry.getSession_erase] at hp
      split at hp
      · cases hp
      · exact hp
    | makeSessionManager =>
      obtain rfl := h
      refine ⟨fun id p hp => ?_, le_rfl, le_rfl⟩
      have hnone : (∅ : AList (fun _ : UInt32 => SessionPtr)).lookup id = none := AList.lookup_empty id
      exact absurd (hnone.symm.trans hp) (Option.some_ne_none p).symm
    | connect a =>
      rcases h with rfl | ⟨rx, tx, rfl⟩
      · exact hsame rfl le_rfl le_rfl
      · exact hsame rfl le_rfl le_rfl
    | network =>
      rcases h with ⟨a, ec, -, -, rfl⟩ | ⟨a, rx, rfl⟩
      · exact hsame rfl le_rfl le_rfl
      · exact hsame rfl le_rfl le_rfl
    | distributeID =>
      obtain rfl := h
      exact hsame rfl (Nat.le_succ _) le_rfl
    | makeSession id =>
      obtain rfl := h
      exact hsame rfl le_rfl (Nat.le_succ _)
    | read a n => exact hloud.elim
    | write_some a sent rest => exact hloud.elim
    | _ =>
      obtain rfl := h
      exact hsame rfl le_rfl le_rfl
  · have hkept := Registry.same_of_effect hloud h
    exact hsame hkept.sessionMap (le_of_eq hkept.handed.symm) (le_of_eq hkept.allocated.symm)

/-- A registration adds the session the accept loop has made. -/
theorem keyed_insert {ptr : SessionPtr} (hw : Keyed ids w) (hptr : (Registering.made ptr).Known ids w)
    (h : Op.Effect (.mapInsert ptr.sessionID ptr) w w') : Keyed ids w' := by
  obtain rfl : w' = { w with sessionMap := w.sessionMap.insert ptr.sessionID ptr,
                             registered := w.registered ++ [ptr] } := h
  obtain ⟨hhanded, hallocated, hfresh⟩ := hptr
  have hget : ∀ id p, ({ w with sessionMap := w.sessionMap.insert ptr.sessionID ptr,
                                registered := w.registered ++ [ptr] } : World).getSession id = some p →
      id = ptr.sessionID ∧ p = ptr ∨ w.getSession id = some p := by
    intro id p hp
    rw [Registry.getSession_insert] at hp
    split at hp
    · next hid => exact .inl ⟨hid, (Option.some.inj hp).symm⟩
    · exact .inr hp
  refine ⟨fun id p hp => ?_, fun id p hp => ?_, fun id p hp => ?_, fun id p id' q hp hq haddr => ?_⟩
  · rcases hget id p hp with ⟨rfl, -⟩ | hold
    · exact hhanded
    · exact hw.handed id p hold
  · rcases hget id p hp with ⟨rfl, rfl⟩ | hold
    · rfl
    · exact hw.sessionID id p hold
  · rcases hget id p hp with ⟨-, rfl⟩ | hold
    · exact hallocated
    · exact hw.allocated id p hold
  · rcases hget id p hp with ⟨rfl, rfl⟩ | hold
    · rcases hget id' q hq with ⟨rfl, -⟩ | hold'
      · rfl
      · exact absurd haddr.symm (hfresh id' q hold')
    · rcases hget id' q hq with ⟨-, rfl⟩ | hold'
      · exact absurd haddr (hfresh id p hold)
      · exact hw.addrs id p id' q hold hold' haddr

/-- **Step lemma.** An operation that the discipline allows keeps it. -/
theorem kept_next {fs : Thread → Registering} {o : Op} {c : Choice} {r : o.Res}
    (hw : Kept ids fs w) (ho : May t (fs t) o) (h : sem ids o c w = some (r, w')) :
    Possible o r ∧ Kept ids (Function.update fs t ((fs t).next o r)) w' := by
  have heffect := effect_of_sem h
  obtain ⟨hkeyed, hknown⟩ := hw
  have hquiet : (∀ id ptr, o ≠ .mapInsert id ptr) → (fs t).next o r = fs t →
      Kept ids (Function.update fs t ((fs t).next o r)) w' := by
    intro hinsert hnext
    have hfewer := fewer_of_effect hinsert heffect
    rw [hnext, Function.update_eq_self]
    exact ⟨hfewer.keyed hkeyed, hfewer.known hknown⟩
  cases o with
  | distributeID =>
    obtain rfl : t = .main := ho
    have hfewer := fewer_of_effect (by simp) heffect
    refine ⟨trivial, hfewer.keyed hkeyed, ?_⟩
    rw [Function.update_self]
    simp only [sem, Option.some.injEq, Prod.mk.injEq] at h
    obtain ⟨hID, rfl⟩ := h
    exact ⟨w.handed, Nat.lt_succ_self _, hID⟩
  | makeSession id =>
    obtain ⟨rfl, ID, hdrawn, rfl⟩ := ho
    have hfewer := fewer_of_effect (by simp) heffect
    simp only [sem, Option.some.injEq, Prod.mk.injEq] at h
    obtain ⟨rfl, rfl⟩ := h
    refine ⟨rfl, hfewer.keyed hkeyed, ?_⟩
    rw [Function.update_self]
    rw [hdrawn] at hknown
    obtain ⟨i, hi, rfl⟩ := hknown
    -- the address is one that no session has had before
    exact ⟨⟨i, hi, rfl⟩, Nat.lt_succ_self _,
      fun id p hp => Nat.ne_of_lt (hkeyed.allocated id p hp)⟩
  | mapInsert id ptr =>
    obtain ⟨rfl, hmade, rfl⟩ := ho
    rw [hmade] at hknown
    refine ⟨trivial, keyed_insert hkeyed hknown heffect, ?_⟩
    rw [Function.update_self]
    trivial
  | _ => exact ⟨trivial, hquiet (by simp) rfl⟩

/-- The pool and its disciplines. -/
def disciplined (server : SegmentServer) (ids : Nat → UInt64) :
    Disciplined (server.system P ids) Registering where
  rules := rules
  loop := fun t l _ => atLabel t l
  fin := fun _ _ => True
  ok := fun _ _ _ _ => True
  inv := Kept ids
  block_follows := by
    intro t l f hl
    refine (block_follows l f hl).mono (fun next f' hnext => ?_) (fun _ _ h => h)
    cases next with
    | some l' => exact hnext
    | none => exact hnext
  keeps := fun _ _ _ _ _ _ _ hw ho _ h => kept_next hw ho h

/-- **Run lemma.** In every state a server reaches, whatever ids it hands out, every entry of
the map is a session of its own that was made for its key. -/
theorem keyed_of_steps {s : (server.system P ids).State}
    (hrun : System.Steps System.anyStep (server.started P ids usage) s) : Keyed ids s.world := by
  have hstart : (disciplined (P := P) server ids).Holds (server.started P ids usage) (fun _ => .idle) := by
    have hnone : ∀ id, (server.started P ids usage).world.getSession id = none := AList.lookup_empty
    have habsurd : ∀ {id p}, (server.started P ids usage).world.getSession id = some p → False := by
      intro id p hp
      rw [hnone id] at hp
      cases hp
    refine ⟨⟨⟨fun _ _ hp => (habsurd hp).elim, fun _ _ hp => (habsurd hp).elim,
      fun _ _ hp => (habsurd hp).elim, fun _ _ _ _ hp => (habsurd hp).elim⟩, trivial⟩, fun t => ?_⟩
    refine (started_follows ids usage t).mono (fun next f hnext => ?_) (fun _ _ h => h)
    cases next with
    | some l => exact hnext
    | none => exact hnext
  obtain ⟨fs, hfs⟩ := Disciplined.run_rule (K := disciplined (P := P) server ids)
    (fun _ _ _ _ => fun _ _ _ => trivial) hrun ⟨_, hstart⟩
  exact hfs.inv.keyed

/-! ## What a call does to the other sessions -/

/-- The session is as it was, and so is what its id finds. -/
structure Spared (p : SessionPtr) (w w' : World) : Prop where
  session : w'.sessions p.addr = w.sessions p.addr
  entry : w'.getSession p.sessionID = w.getSession p.sessionID

/-- The operations of `write` and `disconnect` on the session `q`. -/
def OwnOp (q : SessionPtr) : Op → Prop
  | .isOpen a | .write_some a _ _ | .shutdown a | .close a | .setCriticalError a => a = q.addr
  | .mapGet id | .mapErase id => id = q.sessionID
  | _ => False

theorem own_removeSession (q : SessionPtr) :
    (SessionManager.removeSession q.sessionID).AllOps (OwnOp q) := by
  refine ⟨rfl, fun found => ?_⟩
  cases found with
  | none => trivial
  | some _ => exact ⟨rfl, fun _ => trivial⟩

theorem own_disconnect (q : SessionPtr) : ((server.session q).disconnect).AllOps (OwnOp q) := by
  have hA := Prog.compositional_allOps (E := Net) (ε := Exception) (OwnOp q)
  have honError : ∀ ec, (invoke (server.session q).onError ec).AllOps (OwnOp q) :=
    fun _ => own_removeSession q
  unfold Session.disconnect ConnectHandler.disconnect
  refine hA.bind (hA.call (.isOpen q.addr) rfl) (fun is_open => ?_)
  split
  · exact hA.pure ()
  refine hA.bind (hA.call (.shutdown q.addr) rfl) (fun ec => hA.bind (hA.when (honError ec)) (fun _ => ?_))
  refine hA.bind (hA.call (.close q.addr) rfl) (fun ec => hA.bind (hA.when (honError ec)) (fun _ => ?_))
  exact hA.pure ()

theorem own_asio_write (q : SessionPtr) (bound sent : Nat) (rest : List UInt8) :
    (asio_write q.addr bound sent rest).AllOps (OwnOp q) := by
  induction bound generalizing sent rest with
  | zero => trivial
  | succ bound ih =>
    unfold asio_write
    split
    · trivial
    · refine ⟨rfl, fun r => ?_⟩
      cases r with
      | ok n => exact ih _ _
      | error ec => trivial

theorem own_write (q : SessionPtr) (message : Option Message) :
    ((server.session q).write P message).AllOps (OwnOp q) := by
  have hA := Prog.compositional_allOps (E := Net) (ε := Exception) (OwnOp q)
  refine hA.tryCatch (hA.bind (own_asio_write q _ _ _) (fun ec => ?_)) (fun _ => hA.pure ())
  refine hA.bind (hA.when (own_removeSession q)) (fun _ => hA.bind (hA.pure ()) (fun _ => ?_))
  exact hA.when (hA.bind (hA.call (.setCriticalError q.addr) rfl) (fun _ => own_disconnect q))

/-- A change of another session object. -/
theorem spared_modify {p : SessionPtr} {a : Nat} (ha : p.addr ≠ a)
    (g : SessionObject → SessionObject) : Spared p w (w.modify a g) :=
  ⟨World.modify_sessions_of_ne w ha g, rfl⟩

/-- What is done to a session spares every session of another address and another id. -/
theorem spared_of_own {p q : SessionPtr} (haddr : p.addr ≠ q.addr) (hid : p.sessionID ≠ q.sessionID)
    (o : Op) (c : Choice) (r : o.Res) (w w' : World) (ho : OwnOp q o)
    (h : sem ids o c w = some (r, w')) : Spared p w w' := by
  have heffect := effect_of_sem h
  cases o with
  | isOpen a =>
    obtain rfl := heffect
    exact ⟨rfl, rfl⟩
  | shutdown a =>
    obtain rfl := heffect
    exact ⟨rfl, rfl⟩
  | mapGet id =>
    obtain rfl := heffect
    exact ⟨rfl, rfl⟩
  | write_some a sent rest =>
    obtain rfl : a = q.addr := ho
    obtain ⟨tx, rfl⟩ := heffect
    exact spared_modify haddr _
  | close a =>
    obtain rfl : a = q.addr := ho
    obtain rfl := heffect
    exact spared_modify haddr _
  | setCriticalError a =>
    obtain rfl : a = q.addr := ho
    obtain rfl := heffect
    exact spared_modify haddr _
  | mapErase id =>
    obtain rfl : id = q.sessionID := ho
    obtain rfl := heffect
    refine ⟨rfl, ?_⟩
    rw [Registry.getSession_erase, if_neg hid]
  | _ => exact ho.elim

variable {others : World → World → Prop} {a b : UInt64} {p : SessionPtr} {data : List UInt8}

/-- A call on an id that means another session spares the session. -/
theorem among_own {q : SessionPtr} (haddr : p.addr ≠ q.addr) (hid : p.sessionID ≠ q.sessionID)
    {α : Type} {f : NetProg α} (hf : f.AllOps (OwnOp q)) (hcrash : f.CrashFree) (w : World) :
    Prog.Among (sem ids) others (Spared p) f w :=
  Prog.among_of_allOps (fun o c r w w' ho h => spared_of_own haddr hid o c r w w' ho h) hf hcrash w

/-- What comes behind the look-up of a call, which changes nothing itself. -/
theorem among_getSession {k : Option SessionPtr → NetProg Unit} {id : UInt32}
    (hk : ∀ w', Prog.Among (sem ids) others (Spared p) (k (w.getSession id)) w') :
    Prog.Among (sem ids) others (Spared p) (SessionManager.getSession id >>= k) w := by
  intro c r w₁ h
  simp only [sem, Option.some.injEq, Prod.mk.injEq] at h
  obtain ⟨rfl, rfl⟩ := h
  exact ⟨⟨rfl, rfl⟩, fun w₂ _ => hk w₂⟩

/-- The other way round, if the other threads may keep still. -/
theorem among_of_getSession {k : Option SessionPtr → NetProg Unit} {id : UInt32}
    (hstill : ∀ w, others w w)
    (h : Prog.Among (sem ids) others (Spared p) (SessionManager.getSession id >>= k) w) :
    Prog.Among (sem ids) others (Spared p) (k (w.getSession id)) w :=
  (h .go (w.getSession id) w rfl).2 w (hstill w)

/-- A session that is registered under another key is another object. -/
theorem others_differ (hw : Keyed ids w) (hp : w.getSession a.toUInt32 = some p)
    (hab : a.toUInt32 ≠ b.toUInt32) {q : SessionPtr} (hq : w.getSession b.toUInt32 = some q) :
    p.addr ≠ q.addr ∧ p.sessionID ≠ q.sessionID := by
  refine ⟨fun haddr => hab (hw.addrs _ p _ q hp hq haddr), fun hid => hab ?_⟩
  rw [← hw.sessionID _ p hp, ← hw.sessionID _ q hq, hid]

theorem write_spares (hw : Keyed ids w) (hp : w.getSession a.toUInt32 = some p)
    (hab : a.toUInt32 ≠ b.toUInt32) (data : List UInt8) :
    Prog.Among (sem ids) others (Spared p) (server.write P b data) w := by
  refine among_getSession (fun w' => ?_)
  cases hq : w.getSession b.toUInt32 with
  | none => trivial
  | some q =>
    obtain ⟨haddr, hid⟩ := others_differ hw hp hab hq
    exact among_own haddr hid (own_write q _) (of_sessionWrite crashFree server q _) w'

/-- `disconnect` besides needs a session to call. -/
theorem disconnect_spares (hw : Keyed ids w) (hp : w.getSession a.toUInt32 = some p)
    (hab : a.toUInt32 ≠ b.toUInt32) {q : SessionPtr} (hq : w.getSession b.toUInt32 = some q) :
    Prog.Among (sem ids) others (Spared p) (server.disconnect b) w := by
  refine among_getSession (fun w' => ?_)
  rw [hq]
  obtain ⟨haddr, hid⟩ := others_differ hw hp hab hq
  exact among_own haddr hid (own_disconnect q) (of_sessionDisconnect crashFree server q) w'

theorem disconnect_finds (hstill : ∀ w, others w w)
    (h : Prog.Among (sem ids) others (Spared p) (server.disconnect b) w) :
    ∃ q, w.getSession b.toUInt32 = some q := by
  have hfound := among_of_getSession hstill h
  cases hq : w.getSession b.toUInt32 with
  | some q => exact ⟨q, rfl⟩
  | none =>
    rw [hq] at hfound
    exact hfound.elim

/-- A removal of the session's own entry does not spare it. -/
theorem removeSession_does_not_spare (hstill : ∀ w, others w w)
    (hp : w.getSession p.sessionID = some p) :
    ¬ Prog.Among (sem ids) others (Spared p) (SessionManager.removeSession p.sessionID) w := by
  intro h
  have hfound := among_of_getSession hstill h
  rw [hp] at hfound
  obtain ⟨hspared, -⟩ := hfound .go () { w with sessionMap := w.sessionMap.erase p.sessionID } rfl
  have hentry := hspared.entry
  rw [Registry.getSession_erase, if_pos rfl, hp] at hentry
  cases hentry

/-- A `write` on the session itself does not spare it either: what it writes goes out on its
socket, and if that is closed the entry is removed. -/
theorem write_does_not_spare (hstill : ∀ w, others w w) (hp : w.getSession p.sessionID = some p)
    (hb : b.toUInt32 = p.sessionID) :
    ¬ Prog.Among (sem ids) others (Spared p) (server.write P b data) w := by
  intro h
  have hfound := among_of_getSession hstill h
  rw [hb, hp] at hfound
  have hbody := Prog.Among.unhandled hfound
  obtain ⟨byte, rest, hframe⟩ : ∃ byte rest, frame (server.session p).magicNumber
      (MessageHandler.serialize P (some (messageOf data))).payload = byte :: rest :=
    List.exists_cons_of_length_pos (by rw [length_frame]; omega)
  rw [show ((server.session p).transport_handler P).magicNumber = (server.session p).magicNumber from rfl,
    hframe] at hbody
  cases hopen : w.isOpen p.addr with
  | true =>
    have hsem : sem ids (.write_some p.addr 0 (byte :: rest)) (.ok 1) w
        = some (.ok 1, w.modify p.addr (fun s => { s with tx := s.tx ++ [byte] })) :=
      if_pos ⟨hopen, Nat.one_pos, by simp, by decide⟩
    obtain ⟨hspared, -⟩ := hbody.first _ _ _ hsem
    have hsession := congrArg (fun s => s.tx.length) hspared.session
    simp at hsession
  | false =>
    have hrun : Prog.Runs (sem ids) (asio_write p.addr (byte :: rest).length 0 (byte :: rest)) w
        (.ok .eof) w :=
      ⟨.fail .eof 0, .error .eof, w, if_pos ⟨rfl, .inr rfl⟩, rfl, rfl⟩
    have hrest := (hbody.rest hstill hrun).first
    exact removeSession_does_not_spare hstill hp hrest

/-- Nor does a `disconnect` of the session itself, if there is a socket to close. -/
theorem disconnect_does_not_spare (hstill : ∀ w, others w w) (hp : w.getSession p.sessionID = some p)
    (hb : b.toUInt32 = p.sessionID) (hopen : w.isOpen p.addr = true) :
    ¬ Prog.Among (sem ids) others (Spared p) (server.disconnect b) w := by
  intro h
  have hfound := among_of_getSession hstill h
  rw [hb, hp] at hfound
  obtain ⟨-, hopened⟩ := hfound .go true w (by rw [← hopen]; rfl)
  obtain ⟨-, hshut⟩ := hopened w (hstill w) (.code .success) .success w rfl
  obtain ⟨hspared, -⟩ := hshut w (hstill w) (.code .success) .success _ rfl
  have hsame : (w.modify p.addr (fun s => { s with isOpen := false })).isOpen p.addr = w.isOpen p.addr :=
    congrArg SessionObject.isOpen hspared.session
  rw [Registry.isOpen_modify, hopen] at hsame
  cases hsame

/-! ## Registering -/

/-- `addSession` returns and has done nothing: the id is taken. -/
def Refused (server : SegmentServer) (ids : Nat → UInt64) (id : UInt64) (w : World) : Prop :=
  Prog.Runs (sem ids) (server.sessionManager.addSession id.toUInt32) w (.ok ()) w

/-- An id is refused exactly if its key is in the map; else a session is made for it. -/
theorem refused_iff (id : UInt64) :
    Refused server ids id w ↔ ∃ q, w.getSession id.toUInt32 = some q := by
  constructor
  · rintro ⟨c, found, w₁, h, hrest⟩
    simp only [sem, Option.some.injEq, Prod.mk.injEq] at h
    obtain ⟨hfound, rfl⟩ := h
    cases found with
    | true => exact Option.isSome_iff_exists.mp hfound
    | false =>
      -- the accept that is started now has no result before another thread completes it
      obtain ⟨_, ptr, w₂, _, _, _, w₃, hstart, _, ec, w₄, hresult, _⟩ := hrest
      simp only [sem, Option.some.injEq, Prod.mk.injEq, true_and] at hstart
      subst hstart
      simp [sem] at hresult
  · rintro ⟨q, hq⟩
    exact ⟨.go, true, w, by simp [sem, hq], rfl, rfl⟩

/-- The state if nothing were registered under `id`. -/
def without (w : World) (id : UInt64) : World :=
  { w with sessionMap := w.sessionMap.erase id.toUInt32 }

/-! ## Two ids -/

/-- The id `b` and the session `p` that is registered under `a`: the registration does not
keep anyone from registering under `b`, and a `write` on `b` spares the session. -/
structure Separate (P : Platform) (server : SegmentServer) (ids : Nat → UInt64)
    (others : World → World → Prop) (w : World) (a b : UInt64) (p : SessionPtr) : Prop where
  registers : Refused server ids b w → Refused server ids b (without w a)
  write : ∀ data, Prog.Among (sem ids) others (Spared p) (server.write P b data) w

theorem separate_iff (hstill : ∀ w, others w w) (hw : Keyed ids w)
    (hp : w.getSession a.toUInt32 = some p) :
    Separate P server ids others w a b p ↔ a.toUInt32 ≠ b.toUInt32 := by
  constructor
  · rintro ⟨-, hwrite⟩ hab
    have hid := hw.sessionID _ p hp
    exact write_does_not_spare hstill (by rwa [hid]) (by rw [hid, hab]) (hwrite [])
  · intro hab
    refine ⟨fun hrefused => ?_, fun data => write_spares hw hp hab data⟩
    obtain ⟨q, hq⟩ := (refused_iff b).mp hrefused
    refine (refused_iff b).mpr ⟨q, ?_⟩
    rw [without, Registry.getSession_erase, if_neg (Ne.symm hab)]
    exact hq

/-- **Ids are told apart by their low 32 bits**, in every state a server reaches and whatever
the other threads do while a call runs. A session registered under `a` is out of reach of
`addSession` and `write` on `b` exactly if `a` and `b` differ modulo 2^32; of `disconnect`
exactly if besides a session is registered under `b` to be called. And a `write` reaches no
session at all exactly if none is registered under the low half of its id, as is the case
if no id that was handed out has that low half. -/
theorem told_apart_iff (P : Platform) (server : SegmentServer) (ids : Nat → UInt64) (usage : Usage)
    {s : (server.system P ids).State}
    (hrun : System.Steps System.anyStep (server.started P ids usage) s)
    (others : World → World → Prop) (hstill : ∀ w, others w w) (b : UInt64) :
    (∀ a p, s.world.getSession (UInt64.toUInt32 a) = some p →
      (Separate P server ids others s.world a b p ↔ a.toUInt32 ≠ b.toUInt32) ∧
      (Separate P server ids others s.world a b p ∧
          Prog.Among (sem ids) others (Spared p) (server.disconnect b) s.world
        ↔ a.toUInt32 ≠ b.toUInt32 ∧ ∃ q, s.world.getSession b.toUInt32 = some q)) ∧
    ((∀ id p data, s.world.getSession id = some p →
        Prog.Among (sem ids) others (Spared p) (server.write P b data) s.world)
      ↔ s.world.getSession b.toUInt32 = none) ∧
    ((∀ i < s.world.handed, (ids i).toUInt32 ≠ b.toUInt32) →
      s.world.getSession b.toUInt32 = none) := by
  have hw := keyed_of_steps hrun
  refine ⟨fun a p hp => ⟨separate_iff hstill hw hp, ?_⟩, ⟨fun hall => ?_, fun hnone id p data hp => ?_⟩,
    fun hnew => ?_⟩
  · constructor
    · rintro ⟨hseparate, hdisconnect⟩
      exact ⟨(separate_iff hstill hw hp).mp hseparate, disconnect_finds hstill hdisconnect⟩
    · rintro ⟨hab, q, hq⟩
      exact ⟨(separate_iff hstill hw hp).mpr hab, disconnect_spares hw hp hab hq⟩
  · cases hq : s.world.getSession b.toUInt32 with
    | none => rfl
    | some q =>
      have hid := hw.sessionID _ q hq
      exact absurd (hall _ q [] hq) (write_does_not_spare hstill (by rwa [hid]) hid.symm)
  · refine among_getSession (fun w' => ?_)
    rw [hnone]
    trivial
  · cases hq : s.world.getSession b.toUInt32 with
    | none => rfl
    | some q =>
      obtain ⟨i, hi, hid⟩ := hw.handed _ q hq
      exact absurd hid (hnew i hi)

/-! ### Ids typed by the operator -/

/-- The console reads an `int` and hands it on as a `size_t`; the key is the `int` again. -/
theorem low_of_typed (n : Int32) : n.toInt64.toUInt64.toUInt32 = n.toUInt32 := by
  apply UInt32.toBitVec_inj.mp
  show (n.toBitVec.signExtend 64).setWidth 32 = n.toBitVec
  ext i hi
  rw [BitVec.getElem_setWidth, BitVec.getLsbD_signExtend]
  simp [hi, Nat.lt_of_lt_of_le hi (by decide : 32 ≤ 64)]

/-- So two numbers that the operator can type, negative ones included, are told apart. -/
theorem typed_ids_told_apart (hstill : ∀ w, others w w) (hw : Keyed ids w) (m n : Int32)
    (hp : w.getSession m.toInt64.toUInt64.toUInt32 = some p) :
    Separate P server ids others w m.toInt64.toUInt64 n.toInt64.toUInt64 p ↔ m ≠ n := by
  rw [separate_iff hstill hw hp, low_of_typed, low_of_typed]
  refine not_congr ⟨fun h => ?_, fun h => by rw [h]⟩
  exact Int32.toBitVec_inj.mp (congrArg UInt32.toBitVec h)

/-! ### The ids 1 and 2, and 1 and 2^32 + 1 -/

/-- The ids of the server's own counter. -/
def counted (n : Nat) : UInt64 := UInt64.ofNat (n + 1)

/-- Session 1 is served, and the ids 1 and 2 are told apart. -/
theorem one_and_two_told_apart : ∃ s, System.Steps System.anyStep
    (openServer.started jsonPlatform counted ⟨false, true⟩) s ∧
      s.world.getSession (1 : UInt64).toUInt32 = some ⟨0, 1⟩ ∧
      Separate jsonPlatform openServer counted (fun _ _ => True) s.world 1 2 ⟨0, 1⟩ := by
  obtain ⟨s, hexec, hp⟩ : ∃ s, System.exec
      (openServer.started jsonPlatform counted ⟨false, true⟩) (keptClient 0) = some s ∧
        s.world.getSession (1 : UInt64).toUInt32 = some ⟨0, 1⟩ := ⟨_, rfl, rfl⟩
  have hrun : System.Steps System.anyStep _ s := System.steps_of_exec hexec (fun _ _ _ => trivial)
  have hapart := told_apart_iff jsonPlatform openServer counted ⟨false, true⟩ hrun (fun _ _ => True)
    (fun _ => trivial) 2
  exact ⟨s, hrun, hp, (hapart.1 1 ⟨0, 1⟩ hp).1.mpr (by decide)⟩

/-- **Two ids, one session**: 2^32 + 1 was never handed out, and yet it is refused because of
session 1, and a `write` or a `disconnect` on it reaches session 1, with no other thread
running. -/
theorem next_round_reaches_session : ∃ s, System.Steps System.anyStep
    (openServer.started jsonPlatform counted ⟨false, true⟩) s ∧
      s.world.getSession (1 : UInt64).toUInt32 = some ⟨0, 1⟩ ∧
      (∀ i < s.world.handed, counted i ≠ 4294967297) ∧
      ¬ (Refused openServer counted 4294967297 s.world →
        Refused openServer counted 4294967297 (without s.world 1)) ∧
      (∀ data, ¬ Prog.Among (sem counted) Eq (Spared ⟨0, 1⟩)
        (openServer.write jsonPlatform 4294967297 data) s.world) ∧
      ¬ Prog.Among (sem counted) Eq (Spared ⟨0, 1⟩) (openServer.disconnect 4294967297) s.world := by
  obtain ⟨s, hexec, hp, hhanded, hopen⟩ : ∃ s, System.exec
      (openServer.started jsonPlatform counted ⟨false, true⟩) (keptClient 0) = some s ∧
        s.world.getSession (1 : UInt64).toUInt32 = some ⟨0, 1⟩ ∧ s.world.handed = 1 ∧
        s.world.isOpen 0 = true := ⟨_, rfl, rfl, rfl, rfl⟩
  have hrun : System.Steps System.anyStep _ s := System.steps_of_exec hexec (fun _ _ _ => trivial)
  have hb : (4294967297 : UInt64).toUInt32 = 1 := by decide
  refine ⟨s, hrun, hp, fun i hi => ?_, fun h => ?_, fun data => ?_, ?_⟩
  · obtain rfl : i = 0 := by omega
    decide
  · obtain ⟨q, hq⟩ := (refused_iff _).mp (h ((refused_iff _).mpr ⟨_, hb ▸ hp⟩))
    rw [without, Registry.getSession_erase, if_pos (by decide)] at hq
    cases hq
  · exact write_does_not_spare (fun _ => rfl) hp hb
  · exact disconnect_does_not_spare (fun _ => rfl) hp hb hopen

end NetworkApplication.ConnectionIds
