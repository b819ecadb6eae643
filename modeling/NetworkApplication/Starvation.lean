/-
No client starves.

That a client is answered in order does not say that it is answered. Here the server takes in every
client and is left alone. What then decides about a client is its own connection: if no call on it
fails, and what has come in on it are whole texts that a session can go on from, then it is answered
in full before the server comes to rest, whatever becomes of the other connections
(`no_client_starves`).

A client that is registered stays in the map, its socket stays open, and a worker was created for it
or is just being created. The worker finds the session, since nobody takes it out of the map but the
worker itself, on an error; and it has met with no trouble as long as what comes in is the beginning
of good frames. So it is waiting for more when nothing can move, and then it has taken everything.
-/
import NetworkApplication.ClientsRuns
import NetworkApplication.Quiescence

set_option autoImplicit false

namespace NetworkApplication.Clients

open NetworkApplication.Program NetworkApplication.Pool NetworkApplication.Disciplines
open SegmentServer Delivery BadPayload Replies StreamRoles StreamEnds Exchange Conversation
open Echo (question decodes_question)
open Registry (Facts Stage Knowledge Consistent Later Drawn Unregistered DistinctIDs FreshID freshID)
open Admission (WorksFor HasWorker Mapped worker_unique unattended)

variable {P : Platform} {server : SegmentServer} {ids : Nat → UInt64} {t : Thread} {n : Nat}
  {ptr p : SessionPtr} {a : Nat} {f : Knows} {o : Op} {r : o.Res} {c : Choice} {w w' : World}

/-! ## A server that is left alone -/

/-- No thread of the server can move, if no call into a socket fails. What the network might still
do does not count. -/
def AtRest (s : (server.system P ids).State) : Prop :=
  ∀ t ≠ .network, ∀ c, Quietly c = true → System.step s t c = none

/-- The operations by which the accept loop lets a client in. -/
def Admits : Op → Prop
  | .getIsWork | .distributeID | .mapFind _ | .makeSession _ | .async_accept _ | .acceptResult _
  | .mapInsert _ _ | .addSessionWorker _ | .event _ => True
  | _ => False

/-- The accept loop lets every client in, the network does its part, and there is nobody else but
the workers. -/
def steadyRules : Thread → Discipline Net Unit
  | .main =>
    { Allowed := fun _ o => Admits o
      Possible := fun _ o r => match o, r with
        | .getIsWork, isWork => isWork = true
        | .mapFind _, found => found = false
        | _, _ => True
      next := fun _ _ _ => ()
      Crash := fun _ => False }
  | .reader _ => ⟨fun _ _ => True, fun _ _ _ => True, fun _ _ _ => (), fun _ => True⟩
  | .network => ⟨fun _ o => o = .network, fun _ _ _ => True, fun _ _ _ => (), fun _ => False⟩
  | .control | .user _ => ⟨fun _ _ => False, fun _ _ _ => True, fun _ _ _ => (), fun _ => False⟩

/-- Where each thread is when it goes on. -/
def SteadyLoop : Thread → ServerLabel → Prop
  | .main, l => l = .acceptLoop
  | .reader _, _ => True
  | .network, l => l = .networkLoop
  | _, _ => False

/-- Where it ends: the accept loop does not. -/
def steadyNext (t : Thread) : Option ServerLabel → Prop
  | some l => SteadyLoop t l
  | none => t ≠ .main

/-- The flag stays set. -/
theorem isWork_of_knowledge {fs : Thread → Facts} (hK : Knowledge ids unattended fs w) :
    w.isWork = true := by
  have hcontrol := hK.2 .control
  have hstop := hcontrol.stop rfl
  rw [hcontrol.control (.inr rfl)] at hstop
  exact hstop

/-- What a worker does is no matter here. -/
theorem reader_steady {α : Type} {post : α → Unit → Prop} {exn : Exception → Unit → Prop}
    (hpost : ∀ x, post x ()) (hexn : ∀ e, exn e ()) (p : NetProg α) :
    Follows (steadyRules (.reader n)) post exn () p := by
  induction p with
  | pure x => exact hpost x
  | throw e => exact hexn e
  | crash => trivial
  | op o k ih => exact ⟨trivial, fun r _ => ih r⟩

/-- The accept loop lets the client in and goes on. -/
theorem acceptLoop_steady (hmulti : server.multiConnect = true) {exn : Exception → Unit → Prop} :
    Follows (steadyRules .main) (fun next _ => steadyNext .main next) exn () server.acceptLoop := by
  have hkeep : ∀ ID, Follows (steadyRules .main) (fun next _ => steadyNext .main next) exn ()
      (server.keepOrRefuse ID) := by
    intro ID
    rw [keepOrRefuse, if_pos hmulti]
    refine Follows.step trivial (fun isWork _ => ?_)
    refine Follows.bind (M := fun _ _ => True) (Follows.when (fun _ => ?_) (fun _ => trivial))
      (fun _ _ _ => rfl)
    exact Follows.call trivial (fun _ _ => trivial)
  refine Follows.step trivial (fun isWork hisWork => ?_)
  obtain rfl : isWork = true := hisWork
  refine Follows.step trivial (fun ID _ => Follows.bind (M := fun _ _ => True) ?_ (fun _ _ _ => hkeep ID))
  refine Follows.step trivial (fun found hfound => ?_)
  obtain rfl : found = false := hfound
  refine Follows.step trivial (fun ptr _ => Follows.step trivial (fun _ _ => ?_))
  refine Follows.step trivial (fun ec _ => ?_)
  refine Follows.bind (M := fun _ _ => True) (Follows.when (fun _ => trivial) (fun _ => trivial))
    (fun _ _ _ => ?_)
  show Follows _ _ _ _ (SessionManager.onAccept ptr.sessionID ptr ec)
  unfold SessionManager.onAccept
  split
  · refine Follows.step trivial (fun found hfound => ?_)
    obtain rfl : found = false := hfound
    trivial
  · exact Follows.call trivial (fun _ _ => trivial)

theorem block_steady (hmulti : server.multiConnect = true) {l : ServerLabel} (hl : SteadyLoop t l) :
    Follows (steadyRules t) (fun next _ => steadyNext t next) (fun _ _ => t ≠ .main) ()
      (server.block P l) := by
  cases t with
  | main =>
    obtain rfl : l = .acceptLoop := hl
    exact acceptLoop_steady hmulti
  | reader n =>
    refine reader_steady (fun next => ?_) (fun _ h => Thread.noConfusion h) _
    cases next with
    | some l => trivial
    | none => exact fun h => Thread.noConfusion h
  | network =>
    obtain rfl : l = .networkLoop := hl
    exact Follows.step rfl (fun _ _ => rfl)
  | control | user m => exact hl.elim

theorem started_steady (P : Platform) (server : SegmentServer) (ids : Nat → UInt64) (t : Thread) :
    Follows (steadyRules t) (fun next _ => steadyNext t next) (fun _ _ => t ≠ .main) ()
      ((server.started P ids unattended).threads t) := by
  cases t with
  | main => exact (rfl : ServerLabel.acceptLoop = .acceptLoop)
  | reader n =>
    refine reader_steady (fun next => ?_) (fun _ h => Thread.noConfusion h) _
    cases next with
    | some l => trivial
    | none => exact fun h => Thread.noConfusion h
  | network => exact (rfl : ServerLabel.networkLoop = .networkLoop)
  | control | user m => exact fun h => Thread.noConfusion h

section

variable (P server ids)

/-- The threads of a server that takes in every client and is left alone. -/
def steady (hread : server.readHandler = true) (hmulti : server.multiConnect = true) :
    Companion (attending P server ids unattended hread).together Unit where
  rules := steadyRules
  loop := fun t l _ => SteadyLoop t l
  fin := fun t _ => t ≠ .main
  ok := fun _ _ _ _ => True
  inv := fun _ _ => True
  block_follows := by
    intro t l _ hl
    refine (block_steady hmulti hl).mono (fun next _ hnext => ?_) (fun _ _ h => h)
    cases next with
    | some l' => exact hnext
    | none => exact hnext
  keeps := by
    rintro fs gs t o c r ⟨w, stream⟩ ⟨w', stream'⟩ ⟨hK, -⟩ - - - ⟨hpossible, -⟩ - - hsem
    refine ⟨?_, trivial⟩
    obtain ⟨⟨r₁, w₁⟩, hact, heq⟩ := Option.map_eq_some_iff.mp hsem
    obtain ⟨rfl, -⟩ := Prod.mk.inj heq
    cases t with
    | main =>
      cases o with
      | getIsWork =>
        obtain ⟨rfl, -⟩ := Prod.mk.inj (Option.some.inj hact)
        exact isWork_of_knowledge hK
      | mapFind id => exact hpossible
      | _ => trivial
    | _ => trivial

end

/-! ## A client that is looked after -/

/-- The accept loop is just creating the worker of the id. -/
def Admitted (stage : Stage) (id : UInt32) : Prop :=
  ∃ ID, (stage = .placed ID ∨ stage = .granted ID) ∧ UInt64.toUInt32 ID = id

/-- The stages of it. -/
def admitting : Stage → Bool
  | .placed _ | .granted _ => true
  | _ => false

theorem not_admitted {stage : Stage} {id : UInt32} (h : admitting stage = false) :
    ¬ Admitted stage id := by
  rintro ⟨ID, rfl | rfl, -⟩
  · cases h
  · cases h

/-- The operations by which it gets a client as far as the map. -/
def Enters : Op → Prop
  | .distributeID | .mapFind _ | .makeSession _ | .async_accept _ | .acceptResult _
  | .mapInsert _ _ => True
  | _ => False

/-- No worker is being created then. -/
theorem not_admitted_of_enters {usage : Usage} {facts : Facts}
    (hmay : (Registry.rules server usage .main).Allowed facts o) (ho : Enters o) (id : UInt32) :
    ¬ Admitted facts.stage id := by
  refine not_admitted ?_
  cases o with
  | distributeID =>
    obtain ⟨-, -, hresting | ⟨ID, hrefusing, -⟩⟩ := hmay
    · rw [hresting]
      rfl
    · rw [hrefusing]
      rfl
  | mapFind id =>
    obtain ⟨-, -, ID, -, hdrawn | ⟨p, haccepting⟩⟩ := hmay
    · rw [hdrawn]
      rfl
    · rw [haccepting]
      rfl
  | makeSession id =>
    obtain ⟨-, -, ID, -, hdrawn⟩ := hmay
    rw [hdrawn]
    rfl
  | async_accept b =>
    obtain ⟨-, -, ID, q, hmade, -⟩ := hmay
    rw [hmade]
    rfl
  | acceptResult b =>
    obtain ⟨-, -, ID, q, haccepting, -⟩ := hmay
    rw [haccepting]
    rfl
  | mapInsert id q =>
    obtain ⟨-, -, ID, -, haccepted⟩ := hmay
    rw [haccepted]
    rfl
  | _ => exact ho.elim

/-- The session at `a` has no error; and once it is registered it is in the map with its socket open
and has a worker or gets one, which finds it and meets with no trouble. -/
structure Tended (a : Nat) (fs : Thread → Facts) (gs : Thread → Serving) (w : World) : Prop where
  hasError : w.hasError a = false
  kept : ∀ p ∈ w.registered, p.addr = a → Mapped w p ∧ w.isOpen a = true
  staffed : ∀ p ∈ w.registered, p.addr = a →
    HasWorker w p.sessionID ∨ Admitted (fs .main).stage p.sessionID
  untroubled : ∀ n ptr f, gs (.reader n) = .serving ptr f → ptr.addr = a → Untroubled f
  found : ∀ n ID, gs (.reader n) = .missed ID → ∀ p ∈ w.registered, p.addr = a →
    p.sessionID ≠ UInt64.toUInt32 ID

section

variable {usage : Usage} {fs : Thread → Facts} {gs : Thread → Serving} {stream : Nat → List UInt8}
  {texts : List (List UInt8)} {x : Facts} {g : Serving}

theorem main_stage {m : Nat} : (Function.update fs (.reader m) x .main).stage = (fs .main).stage := by
  rw [Function.update_of_ne (fun h => Thread.noConfusion h)]

/-- What has come in only grows. -/
theorem note_begins (a : Nat) : stream a <+: note t o c w stream a := by
  unfold note
  split
  · next b bytes =>
    by_cases hb : a = b
    · subst hb
      rw [Function.update_self]
      exact List.prefix_append ..
    · rw [Function.update_of_ne hb]
  · exact List.prefix_rfl

/-- What a worker touches is the session it serves. -/
theorem serving_of_touched (hmay : Serving.May P server n g o) (htouched : touched w o c = some a) :
    ∃ ptr f, g = .serving ptr f ∧ ptr.addr = a := by
  cases g with
  | serving ptr f =>
    refine ⟨ptr, f, rfl, ?_⟩
    have ho : Allowed ptr.addr (answererRole P (endOf server n ptr)) f o := hmay
    cases o with
    | read b k => exact ho.1.symm.trans (Option.some.inj htouched)
    | write_some b sent rest => exact ho.1.symm.trans (Option.some.inj htouched)
    | close b => exact ho.1.symm.trans (Option.some.inj htouched)
    | setCriticalError b => exact ho.1.symm.trans (Option.some.inj htouched)
    | connect b | async_accept b | makeSession id | network => exact ho.elim
    | _ => cases htouched
  | idle =>
    cases o with
    | takeTask k => cases htouched
    | _ => exact hmay.elim
  | tasked ID =>
    cases o with
    | mapGet id => cases htouched
    | _ => exact hmay.elim
  | missed ID =>
    cases o with
    | sessionTaskDone k => cases htouched
    | _ => exact hmay.elim

/-- The entry that a worker takes out of the map is that of the session it serves, which it may
end. -/
theorem serving_of_erases {id : UInt32} (hmay : Serving.May P server n g (.mapErase id)) :
    ∃ ptr f, g = .serving ptr f ∧ id = ptr.sessionID ∧ MayEnd (answererRole P (endOf server n ptr)) f := by
  cases g with
  | serving ptr f => exact ⟨ptr, f, rfl, hmay.2, hmay.1⟩
  | _ => exact hmay.elim

/-- What the worker of a good client has taken can be gone on from. -/
theorem Attended.goodTaken (hatt : Attended P server gs (w, stream))
    (hstream : stream a <+: framed server.magicNumber texts) (htexts : ∀ text ∈ texts, Handled P text)
    (hn : gs (.reader n) = .serving ptr f) (haddr : ptr.addr = a) :
    ∀ payload ∈ f.ledger.taken, Handled P payload := by
  subst haddr
  have hreads := (hatt.serving n ptr f hn).reads
  have htaken := hreads.taken_begins (fun text hx => (htexts text hx).short) hstream
  exact fun payload hx => htexts payload (htaken.subset hx)

/-- Such a worker has no reason to end the connection. -/
theorem Tended.not_mayEnd (h : Tended a fs gs w) (hatt : Attended P server gs (w, stream))
    (hstream : stream a <+: framed server.magicNumber texts) (htexts : ∀ text ∈ texts, Handled P text)
    (hn : gs (.reader n) = .serving ptr f) (haddr : ptr.addr = a) :
    ¬ MayEnd (answererRole P (endOf server n ptr)) f :=
  (h.untroubled n ptr f hn haddr).not_mayEnd
    (not_refused (hatt.goodTaken hstream htexts hn haddr))

/-- The worker of the client does something. -/
theorem Tended.serves (hwork : w.isWork = true) (hatt : Attended P server gs (w, stream))
    (h : Tended a fs gs w) (hstream : stream a <+: framed server.magicNumber texts)
    (htexts : ∀ text ∈ texts, Handled P text) (hn : gs (.reader n) = .serving ptr f)
    (haddr : ptr.addr = a) (ho : Allowed ptr.addr (answererRole P (endOf server n ptr)) f o)
    (hspares : Spares a o c) (hsem : sem ids o c w = some (r, w')) :
    Untroubled (f.next server.magicNumber o r) ∧ Up a w' := by
  have hgood := hatt.goodTaken hstream htexts hn haddr
  subst haddr
  have hserves := hatt.serving n ptr f hn
  have hup : Up ptr.addr w := ⟨hwork, (h.kept ptr hserves.registered rfl).2, h.hasError⟩
  refine Untroubled.next (h.untroubled n ptr f hn rfl) hup ho (not_refused hgood) hspares ?_ hsem
  exact fun _ bytes rest hrx hbytes hhead => Reads.magic_of_header hserves.reads
    (fun text hx => (htexts text hx).short) hstream hhead hrx hbytes

/-- **A worker keeps the client looked after**, its own or another. -/
theorem Tended.reader (hK : Knowledge ids usage fs w) (hwork : w.isWork = true)
    (hatt : Attended P server gs (w, stream)) (h : Tended a fs gs w)
    (hmay : (Registry.rules server usage (.reader n)).Allowed (fs (.reader n)) o)
    (ho : Serving.May P server n (gs (.reader n)) o) (hspares : Spares a o c)
    (hstream : stream a <+: framed server.magicNumber texts)
    (htexts : ∀ text ∈ texts, Handled P text) (hsem : sem ids o c w = some (r, w')) :
    Tended a (Function.update fs (.reader n) x)
      (Function.update gs (.reader n) ((gs (.reader n)).next server o r)) w' := by
  have hundisturbed := (Registry.moves hK.1 (hK.2 _) hmay hsem).2.main (fun h => Thread.noConfusion h)
  -- the socket and the flag
  have hup : w'.hasError a = false ∧ (w.isOpen a = true → w'.isOpen a = true) := by
    by_cases htouched : touched w o c = some a
    · obtain ⟨ptr, f, hn, haddr⟩ := serving_of_touched ho htouched
      rw [hn] at ho
      have hup := (h.serves hwork hatt hstream htexts hn haddr ho hspares hsem).2
      exact ⟨hup.hasError, fun _ => hup.isOpen⟩
    · rw [World.hasError, World.isOpen, World.isOpen, sessions_untouched hsem htouched]
      exact ⟨h.hasError, id⟩
  have hmapped : ∀ p ∈ w.registered, p.addr = a → Mapped w p → Mapped w' p := by
    intro p hp haddr hpm
    rcases Registry.gone_next hK.1 (hK.2 _) hmay hsem hpm with hkept | rfl
    · exact hkept
    · obtain ⟨ptr, f, hn, hid, hend⟩ := serving_of_erases ho
      obtain rfl := hK.1.sessionIDs p hp ptr (hatt.serving n ptr f hn).registered hid
      exact absurd hend (h.not_mayEnd hatt hstream htexts hn haddr)
  refine ⟨hup.1, ?_, ?_, ?_, ?_⟩
  · intro p hp haddr
    rw [hundisturbed.registered] at hp
    obtain ⟨hpm, hopen⟩ := h.kept p hp haddr
    exact ⟨hmapped p hp haddr hpm, hup.2 hopen⟩
  · intro p hp haddr
    rw [hundisturbed.registered] at hp
    rw [main_stage, HasWorker, hundisturbed.sessionWorkers]
    exact h.staffed p hp haddr
  · intro m ptr f hm haddr
    by_cases hnm : m = n
    · subst hnm
      rw [Function.update_self] at hm
      rcases serving_of_next ho hm with ⟨f', hold, rfl⟩ | ⟨ID, id, -, -, -, -, rfl⟩
      · rw [hold] at ho
        exact (h.serves hwork hatt hstream htexts hold haddr ho hspares hsem).1
      · exact ⟨rfl, fun h => Position.noConfusion h, rfl, rfl⟩
    · rw [Function.update_of_ne (fun heq => hnm (Thread.reader.inj heq))] at hm
      exact h.untroubled m ptr f hm haddr
  · intro m ID hm p hp haddr hid
    rw [hundisturbed.registered] at hp
    by_cases hnm : m = n
    · subst hnm
      rw [Function.update_self] at hm
      rcases missed_of_next ho hm with hold | ⟨id, rfl, hr, rfl⟩
      · exact h.found m ID hold p hp haddr hid
      · -- what is in the map is found
        have hfound : w.getSession p.sessionID = some p := (h.kept p hp haddr).1
        obtain rfl := eq_of_heq hr
        obtain ⟨hnone, -⟩ := Prod.mk.inj (Option.some.inj hsem)
        rw [← hid, hfound] at hnone
        cases hnone
    · rw [Function.update_of_ne (fun heq => hnm (Thread.reader.inj heq))] at hm
      exact h.found m ID hm p hp haddr hid

/-- So does the network. -/
theorem Tended.network {r : Unit} (hK : Knowledge ids usage fs w) (h : Tended a fs gs w)
    (hsem : sem ids .network c w = some (r, w')) :
    Tended a (Function.update fs .network x) gs w' := by
  have hstage : (Function.update fs .network x .main).stage = (fs .main).stage := by
    rw [Function.update_of_ne (fun h => Thread.noConfusion h)]
  have hmodified : ∀ {b : Nat} {y : SessionObject → SessionObject}, w' = w.modify b y →
      (∀ s, (y s).criticalError = s.criticalError) →
      (a = b → ∀ p ∈ w.registered, p.addr = a → (y (w.sessions a)).isOpen = (w.sessions a).isOpen) →
      Tended a (Function.update fs .network x) gs w' := by
    rintro b y rfl herror hopen
    refine ⟨?_, fun p hp haddr => ⟨(h.kept p hp haddr).1, ?_⟩, ?_, h.untroubled, h.found⟩
    · by_cases hb : a = b
      · subst hb
        rw [World.hasError, World.modify_sessions_self, herror]
        exact h.hasError
      · rw [World.hasError, World.modify_sessions_of_ne w hb]
        exact h.hasError
    · by_cases hb : a = b
      · subst hb
        rw [World.isOpen, World.modify_sessions_self, hopen rfl p hp haddr]
        exact (h.kept p hp haddr).2
      · rw [World.isOpen, World.modify_sessions_of_ne w hb]
        exact (h.kept p hp haddr).2
    · rw [hstage]
      exact h.staffed
  have hnetwork : networkSem c w = some (r, w') := hsem
  cases c with
  | accepted b ec =>
    simp only [networkSem, Option.ite_none_right_eq_some, Option.some.injEq, Prod.mk.injEq] at hnetwork
    obtain ⟨⟨hpending, -⟩, -, hw'⟩ := hnetwork
    refine hmodified hw'.symm (fun _ => rfl) (fun hb p hp haddr => ?_)
    -- no accept is started on a session that is registered
    rw [← hb, ← haddr] at hpending
    exact absurd hpending (hK.1.accepted p hp)
  | delivered b bytes =>
    simp only [networkSem, Option.ite_none_right_eq_some, Option.some.injEq, Prod.mk.injEq] at hnetwork
    exact hmodified hnetwork.2.2.symm (fun _ => rfl) (fun _ _ _ _ => rfl)
  | _ => cases hnetwork

/-- The accept loop does something that leaves the map alone. -/
theorem Tended.main_moves (h : Tended a fs gs w) (herror : w'.hasError a = false)
    (hmap : w'.sessionMap = w.sessionMap) (hregistered : w'.registered = w.registered)
    (hopen : ∀ p ∈ w.registered, p.addr = a → w'.isOpen a = w.isOpen a)
    (hstaffed : ∀ p ∈ w.registered, p.addr = a →
      HasWorker w' p.sessionID ∨ Admitted x.stage p.sessionID) :
    Tended a (Function.update fs .main x) gs w' := by
  refine ⟨herror, fun p hp haddr => ?_, fun p hp haddr => ?_, h.untroubled, ?_⟩
  · rw [hregistered] at hp
    rw [Mapped, World.getSession, hmap, hopen p hp haddr]
    exact h.kept p hp haddr
  · rw [hregistered] at hp
    rw [Function.update_self]
    exact hstaffed p hp haddr
  · rw [hregistered]
    exact h.found

/-- It does something that leaves the sessions alone too. -/
theorem Tended.main_stays (h : Tended a fs gs w) (hsessions : w'.sessions = w.sessions)
    (hmap : w'.sessionMap = w.sessionMap) (hregistered : w'.registered = w.registered)
    (hworkers : ∀ W, W ∈ w.sessionWorkers → W ∈ w'.sessionWorkers)
    (hstage : ∀ id, Admitted (fs .main).stage id → HasWorker w' id ∨ Admitted x.stage id) :
    Tended a (Function.update fs .main x) gs w' := by
  refine h.main_moves ?_ hmap hregistered (fun _ _ _ => ?_) (fun p hp haddr => ?_)
  · rw [World.hasError, hsessions]
    exact h.hasError
  · rw [World.isOpen, World.isOpen, hsessions]
  · rcases h.staffed p hp haddr with ⟨W, hW, hid⟩ | hadmitted
    · exact .inl ⟨W, hworkers W hW, hid⟩
    · exact hstage _ hadmitted

/-- On its way to the map it changes one session, that of the next client. -/
theorem Tended.enters (h : Tended a fs gs w)
    (hmay : (Registry.rules server usage .main).Allowed (fs .main) o) (ho : Enters o) {b : Nat}
    {change : SessionObject → SessionObject}
    (hw' : w'.sessions = (w.modify b change).sessions) (hmap : w'.sessionMap = w.sessionMap)
    (hregistered : w'.registered = w.registered) (hworkers : w'.sessionWorkers = w.sessionWorkers)
    (herror : ∀ s, s.criticalError = false → (change s).criticalError = false)
    (hnew : ∀ p ∈ w.registered, p.addr ≠ b) : Tended a (Function.update fs .main x) gs w' := by
  refine h.main_moves ?_ hmap hregistered (fun p hp haddr => ?_) (fun p hp haddr => ?_)
  · rw [World.hasError, hw']
    by_cases hab : a = b
    · subst hab
      rw [World.modify_sessions_self]
      exact herror _ h.hasError
    · rw [World.modify_sessions_of_ne w hab]
      exact h.hasError
  · rw [World.isOpen, hw', World.modify_sessions_of_ne w (haddr ▸ hnew p hp), World.isOpen]
  · rw [HasWorker, hworkers]
    exact .inl ((h.staffed p hp haddr).resolve_right (not_admitted_of_enters hmay ho _))

/-- It puts a session into the map. -/
theorem Tended.inserts (hK : Knowledge ids usage fs w) (hatt : Attended P server gs (w, stream))
    (h : Tended a fs gs w) {id : UInt32} {q : SessionPtr}
    (hmay : (Registry.rules server usage .main).Allowed (fs .main) (.mapInsert id q)) :
    Tended a (Function.update fs .main ((fs .main).next (.mapInsert id q) ())) gs
      { w with sessionMap := w.sessionMap.insert id q, registered := w.registered ++ [q] } := by
  have hold := not_admitted_of_enters hmay trivial
  obtain ⟨-, -, ID, rfl, haccepted⟩ := hmay
  have hat := (hK.2 .main).stage
  rw [haccepted] at hat
  obtain ⟨⟨⟨-, hnoworker⟩, hnew⟩, ⟨hqid, -, -⟩, -, hopen⟩ := hat
  have hstage : ((fs .main).next (.mapInsert (UInt64.toUInt32 ID) q) ()).stage = .placed ID := by
    simp only [Facts.next, haccepted]
  refine ⟨h.hasError, fun p hp haddr => ?_, fun p hp haddr => ?_, h.untroubled,
    fun n ID' hn p hp haddr hid => ?_⟩
  · rw [Mapped, Registry.getSession_insert]
    rcases List.mem_append.mp hp with hp | hmine
    · rw [if_neg (hnew p hp)]
      exact h.kept p hp haddr
    · obtain rfl := List.mem_singleton.mp hmine
      rw [if_pos hqid]
      exact ⟨rfl, haddr ▸ hopen⟩
  · rw [Function.update_self, hstage]
    rcases List.mem_append.mp hp with hp | hmine
    · exact .inl ((h.staffed p hp haddr).resolve_right (hold _))
    · obtain rfl := List.mem_singleton.mp hmine
      exact .inr ⟨ID, .inl rfl, hqid.symm⟩
  · rcases List.mem_append.mp hp with hp | hmine
    · exact h.found n ID' hn p hp haddr hid
    · -- a worker that has missed a session had another id
      obtain rfl := List.mem_singleton.mp hmine
      have hcaptured := hatt.captured n ID' (.inr hn)
      exact hnoworker ID' (List.mem_of_getElem? hcaptured) (hid.symm.trans hqid)

/-- **The accept loop** leaves the client alone, and sees to its worker. -/
theorem Tended.main (hK : Knowledge ids unattended fs w) (hatt : Attended P server gs (w, stream))
    (h : Tended a fs gs w)
    (hmay : (Registry.rules server unattended .main).Allowed (fs .main) o) (ho : Admits o)
    (hsem : sem ids o c w = some (r, w')) :
    Tended a (Function.update fs .main ((fs .main).next o r)) gs w' := by
  have heffect := effect_of_sem hsem
  cases o with
  | getIsWork =>
    obtain ⟨rfl, rfl⟩ := Prod.mk.inj (Option.some.inj hsem)
    refine h.main_stays rfl rfl rfl (fun _ hW => hW) (fun id hadmitted => .inr ?_)
    obtain ⟨ID, hstage | hstage, hid⟩ := hadmitted
    · refine ⟨ID, .inr ?_, hid⟩
      simp only [Facts.next, hstage, isWork_of_knowledge hK, if_true]
    · refine ⟨ID, .inr ?_, hid⟩
      simp only [Facts.next, hstage]
  | distributeID | mapFind _ | acceptResult _ =>
    have hnot := not_admitted_of_enters hmay trivial
    obtain rfl := heffect
    exact h.main_stays rfl rfl rfl (fun _ hW => hW) (fun id hadmitted => absurd hadmitted (hnot id))
  | event e =>
    obtain rfl := heffect
    exact h.main_stays rfl rfl rfl (fun _ hW => hW) (fun id hadmitted => .inr hadmitted)
  | addSessionWorker ID =>
    obtain rfl := heffect
    refine h.main_stays rfl rfl rfl (fun _ hW => List.mem_append_left _ hW)
      (fun id hadmitted => .inl ?_)
    obtain ⟨-, -, hgranted⟩ := hmay
    obtain ⟨ID', hstage, rfl⟩ := hadmitted
    rw [hgranted] at hstage
    obtain rfl := Stage.granted.inj (hstage.resolve_left (fun h => Stage.noConfusion h))
    exact ⟨ID, List.mem_append_right _ (List.mem_singleton_self _), rfl⟩
  | makeSession id =>
    obtain rfl : w' = { w.modify w.allocated (fun _ => .new) with allocated := w.allocated + 1 } := heffect
    have hnew : ∀ s : SessionObject, s.criticalError = false →
        SessionObject.new.criticalError = false := fun _ _ => rfl
    exact h.enters hmay trivial rfl rfl rfl rfl hnew
      (fun p hp => Nat.ne_of_lt (hK.1.allocated p hp))
  | async_accept b =>
    obtain rfl : w' = w.modify b _ := heffect
    refine h.enters hmay trivial rfl rfl rfl rfl (fun _ hs => hs) ?_
    obtain ⟨-, -, ID, q, hmade, rfl⟩ := hmay
    have hat := (hK.2 .main).stage
    rw [hmade] at hat
    exact hat.2.1.2.2
  | mapInsert id q =>
    obtain rfl : w' = { w with
      sessionMap := w.sessionMap.insert id q
      registered := w.registered ++ [q] } := heffect
    exact h.inserts hK hatt hmay
  | _ => exact ho.elim

end

/-! ## Runs -/

/-- What one thread has learnt, taken apart. -/
theorem tended_update {fs : Thread → (Facts × Serving) × Unit} {x : (Facts × Serving) × Unit}
    (h : Tended a (Function.update (fun u => (fs u).1.1) t x.1.1)
      (Function.update (fun u => (fs u).1.2) t x.1.2) w) :
    Tended a (fun u => (Function.update fs t x u).1.1) (fun u => (Function.update fs t x u).1.2) w := by
  show Tended a ((fun y => y.1.1) ∘ Function.update fs t x) ((fun y => y.1.2) ∘ Function.update fs t x) w
  rw [Function.comp_update, Function.comp_update]
  exact h

section

variable (P server ids)

/-- The client at `a` is looked after as long as what has come in begins the frames of the texts. -/
def tending (hread : server.readHandler = true) (hmulti : server.multiConnect = true) (a : Nat)
    {texts : List (List UInt8)} (htexts : ∀ text ∈ texts, Handled P text) :
    Disciplined (watched P server ids) ((Facts × Serving) × Unit) :=
  (steady P server ids hread hmulti).together.strengthen (fun _ o c _ => Spares a o c)
    (fun fs w => w.2 a <+: framed server.magicNumber texts →
      Tended a (fun t => (fs t).1.1) (fun t => (fs t).1.2) w.1) (by
  rintro fs t o c r ⟨w, stream⟩ ⟨w', stream'⟩ ⟨⟨hK, hatt⟩, -⟩ - h ⟨⟨hmay, ho⟩, hsteady⟩ - hspares
    hsem hbegins
  obtain ⟨⟨r₁, w₁⟩, hact, heq⟩ := Option.map_eq_some_iff.mp hsem
  obtain ⟨rfl, hw⟩ := Prod.mk.inj heq
  obtain ⟨rfl, rfl⟩ := Prod.mk.inj hw
  have hstream := (note_begins (t := t) (o := o) (c := c) (w := w) a).trans hbegins
  have htended := h hstream
  refine tended_update ?_
  cases t with
  | reader n =>
    exact htended.reader hK (isWork_of_knowledge hK) hatt hmay ho hspares hstream htexts hact
  | main =>
    show Tended a _ (Function.update (fun t => (fs t).1.2) .main (fs .main).1.2) w₁
    rw [Function.update_eq_self]
    exact htended.main hK hatt hmay hsteady hact
  | network =>
    show Tended a _ (Function.update (fun t => (fs t).1.2) .network (fs .network).1.2) w₁
    rw [Function.update_eq_self]
    obtain rfl : o = .network := hsteady
    exact htended.network hK hact
  | control | user m => exact hsteady.elim)

end

/-- The next call of the thread spares the session at `a`. -/
def sparing (a : Nat) (s : (server.system P ids).State) (t : Thread) (c : Choice) : Prop :=
  ∀ o k, s.threads t = .op o k → Spares a o c

/-- **Every state of a run** that spares the session at `a`. -/
theorem tended_run (hread : server.readHandler = true) (hmulti : server.multiConnect = true)
    {s : (server.system P ids).State} {sched : List (Thread × Choice)}
    (hexec : System.exec (server.started P ids unattended) sched = some s)
    (hids : DistinctIDs ids s.world.handed) (hsched : ∀ step ∈ sched, Bare step.2)
    (hspares : System.Along (sparing a) (server.started P ids unattended) sched)
    {texts : List (List UInt8)} (htexts : ∀ text ∈ texts, Handled P text) :
    ∃ fs, (tending P server ids hread hmulti a htexts).Holds
      (Histories.with_ note s (brought P server ids (server.started P ids unattended) sched)) fs := by
  have htogether := Companion.holds_together (C := steady P server ids hread hmulti)
    (attending_started hread) trivial (fun t => (started_steady P server ids t).mono
      (fun next _ hnext => by
        cases next with
        | some l => exact hnext
        | none => exact hnext) (fun _ _ h => h))
  have hstart : (tending P server ids hread hmulti a htexts).Holds
      (Histories.with_ note (server.started P ids unattended) (fun _ => []))
      (fun _ => ((Facts.nothing, .idle), ())) :=
    ⟨⟨htogether.inv, fun _ => ⟨rfl, fun _ hp => absurd hp List.not_mem_nil, fun _ hp => absurd hp List.not_mem_nil,
      fun _ _ _ h => Serving.noConfusion h, fun _ _ h => Serving.noConfusion h⟩⟩, htogether.keeps⟩
  refine Disciplined.run_rule ?_ (Histories.steps_recorded hexec
    (System.along_and (along_fresh hexec hids hsched) hspares) _) ⟨_, hstart⟩
  exact fun s t c hok o k hk => ⟨⟨⟨hok.1.1 o k hk, hok.1.2⟩, trivial⟩, hok.2 o k hk⟩

/-! ## A server at rest -/

section

variable {hread : server.readHandler = true} {hmulti : server.multiConnect = true}
  {texts : List (List UInt8)} {htexts : ∀ text ∈ texts, Handled P text}
  {s : (server.system P ids).State} {stream : Nat → List UInt8}
  {fs : Thread → (Facts × Serving) × Unit}

/-- The accept loop is waiting for the next client. -/
theorem not_admitted_at_rest (h : (tending P server ids hread hmulti a htexts).Holds
    (Histories.with_ note s stream) fs) (hrest : AtRest s) (id : UInt32) :
    ¬ Admitted (fs .main).1.1.stage id := by
  intro hadmitted
  rcases h.waits (t := .main) (fun c => Quietly c = true) (c := .go) rfl (fun hcrash => hcrash.2)
    (fun c hc => Histories.step_none_recorded (hrest .main (fun h => Thread.noConfusion h) c hc) _)
    with hend | ⟨o, ⟨⟨hmay, -⟩, ho⟩, hnone⟩
  · exact hend.2 rfl
  have hnone := Option.map_eq_none_iff.mp (hnone .go rfl)
  cases o with
  | acceptResult b =>
    -- it does so before it has let the last one in
    exact not_admitted_of_enters hmay trivial id hadmitted
  | getIsWork | distributeID | mapFind id | makeSession id | async_accept b | mapInsert id p
  | addSessionWorker ID | event e => cases hnone
  | _ => exact ho.elim

/-- The worker of the client has taken everything and waits for more. -/
theorem taken_at_rest (h : (tending P server ids hread hmulti a htexts).Holds
    (Histories.with_ note s stream) fs) (hrest : AtRest s)
    (hbrought : stream a = framed server.magicNumber texts) (hp : p ∈ s.world.registered)
    (haddr : p.addr = a) : ∃ n f, (fs (.reader n)).1.2 = .serving p f ∧ f.ledger.taken = texts ∧
      (answererRole P (endOf server n p)).mayRead f.ledger := by
  obtain ⟨⟨⟨hK, hatt⟩, -⟩, htended⟩ := h.inv
  have hbegins : stream a <+: framed server.magicNumber texts := by rw [hbrought]
  have htended := htended hbegins
  have hworker := (htended.staffed p hp haddr).resolve_right (not_admitted_at_rest h hrest _)
  obtain ⟨n, W, hW, hid⟩ := hworker.works
  have hserves : ∀ ptr f, (fs (.reader n)).1.2 = .serving ptr f → ptr = p := by
    intro ptr f hn
    have hattends := hatt.serving n ptr f hn
    obtain ⟨W', hW', hid'⟩ := hattends.works
    rw [hW, Option.some.injEq] at hW'
    exact hK.1.sessionIDs ptr hattends.registered p hp (by rw [← hid, ← hid', hW'])
  have hgood : ∀ f, (fs (.reader n)).1.2 = .serving p f →
      (f.ended = true ∨ ∃ payload ∈ f.ledger.taken, Throws P payload) ∨
        (∃ o, Allowed p.addr (answererRole P (endOf server n p)) f o ∧
          ∀ c, Quietly c = true → sem ids o c s.world = none) →
      f.ledger.taken = texts ∧ (answererRole P (endOf server n p)).mayRead f.ledger := by
    intro f hn hwaits
    have htaken := hatt.goodTaken hbegins htexts hn haddr
    subst haddr
    have hreads : Reads P server.magicNumber p.addr f (stream p.addr) s.world :=
      (hatt.serving n p f hn).reads
    rw [hbrought] at hreads
    exact reader_at_end ids (htended.untroubled n p f hn rfl)
      ⟨isWork_of_knowledge hK, (htended.kept p hp rfl).2, htended.hasError⟩ hreads
      (fun text hx => (htexts text hx).short) htaken (not_refused htaken) hwaits
  rcases h.waits (t := .reader n) (fun c => Quietly c = true) (c := .go) rfl
    (fun hcrash => hcrash.1.2)
    (fun c hc => Histories.step_none_recorded (hrest (.reader n) (fun h => Thread.noConfusion h) c hc) _)
    with hend | ⟨o, ⟨⟨-, ho⟩, -⟩, hnone⟩
  · have hend : atEnd P server (.reader n) (fs (.reader n)).1.2 := hend.1.2
    cases hn : (fs (.reader n)).1.2 with
    | idle | tasked ID =>
      rw [hn] at hend
      exact hend.elim
    | missed ID =>
      have hcaptured := hatt.captured n ID (.inr hn)
      rw [hW, Option.some.injEq] at hcaptured
      exact absurd (by rw [← hid, hcaptured]) (htended.found n ID hn p hp haddr)
    | serving ptr f =>
      obtain rfl := hserves ptr f hn
      rw [hn] at hend
      exact ⟨n, f, hn, hgood f hn (.inl hend)⟩
  · have ho : Serving.May P server n (fs (.reader n)).1.2 o := ho
    have hnone : ∀ c, Quietly c = true → sem ids o c s.world = none :=
      fun c hc => Option.map_eq_none_iff.mp (hnone c hc)
    cases hn : (fs (.reader n)).1.2 with
    | idle =>
      rw [hn] at ho
      cases o with
      | takeTask m =>
        obtain rfl : m = n := ho
        have hnone := hnone .go rfl
        simp only [sem, hW] at hnone
        cases hnone
      | _ => exact ho.elim
    | tasked ID =>
      rw [hn] at ho
      cases o with
      | mapGet id => cases hnone .go rfl
      | _ => exact ho.elim
    | missed ID =>
      rw [hn] at ho
      cases o with
      | sessionTaskDone m => cases hnone .go rfl
      | _ => exact ho.elim
    | serving ptr f =>
      obtain rfl := hserves ptr f hn
      rw [hn] at ho
      exact ⟨n, f, hn, hgood f hn (.inr ⟨o, ho, hnone⟩)⟩

/-- The client has been answered in full. -/
theorem answered_at_rest (h : (tending P server ids hread hmulti a htexts).Holds
    (Histories.with_ note s stream) fs) (hrest : AtRest s)
    (hbrought : stream a = framed server.magicNumber texts) (hp : p ∈ s.world.registered)
    (haddr : p.addr = a) : ∃ answers, (s.world.sessions p.addr).tx = framed server.magicNumber answers ∧
      Exchange.Served (service P texts) (texts.filter (parses P)) answers ∧
      (texts.filter (parses P)).Sublist (handedOf s.world) := by
  obtain ⟨n, f, hn, rfl, hhanded, hwritten, answers, hbegun, hserved⟩ :=
    taken_at_rest h hrest hbrought hp haddr
  obtain ⟨⟨⟨-, hatt⟩, -⟩, -⟩ := h.inv
  have hattends := hatt.serving n p f hn
  refine ⟨answers, ?_, ?_, ?_⟩
  · have hstream := hattends.writer.stream
    rw [hwritten, List.append_nil, hbegun] at hstream
    exact hstream
  · rw [← hhanded]
    exact hserved
  · rw [← hhanded]
    exact hattends.handed

end

/-- **No client starves.** The server takes in every client and is left alone. Whatever becomes of
the other connections, a client on whose connection no call fails, and from which whole texts have
come that a session can go on from, has been answered in full when the server is at rest: the user
has got every payload that parses, and every one that wants an answer has its own. -/
theorem no_client_starves (P : Platform) (server : SegmentServer) (ids : Nat → UInt64)
    (hread : server.readHandler = true) (hmulti : server.multiConnect = true)
    {s : (server.system P ids).State} {sched : List (Thread × Choice)}
    (hexec : System.exec (server.started P ids unattended) sched = some s)
    (hids : DistinctIDs ids s.world.handed) (hsched : ∀ step ∈ sched, Bare step.2)
    (hp : p ∈ s.world.registered)
    (hspares : System.Along (sparing p.addr) (server.started P ids unattended) sched)
    {texts : List (List UInt8)} (htexts : ∀ text ∈ texts, Handled P text)
    (hbrought : brought P server ids (server.started P ids unattended) sched p.addr
      = framed server.magicNumber texts) (hrest : AtRest s) :
    ∃ answers, (s.world.sessions p.addr).tx = framed server.magicNumber answers ∧
      Exchange.Served (service P texts) (texts.filter (parses P)) answers ∧
      (texts.filter (parses P)).Sublist (handedOf s.world) := by
  obtain ⟨fs, hfs⟩ := tended_run hread hmulti hexec hids hsched hspares htexts
  exact answered_at_rest hfs hrest hbrought hp rfl

/-! ## A client whose neighbour breaks off -/

/-- The first client asks. The second breaks off within a header, and its worker goes. -/
def neighbourBreaks : List (Thread × Choice) :=
  comes 0 ++ comes 1 ++ goes 1 ++ goes 0 ++ brings 0 ((frame 7 question).take 3)
    ++ brings 1 [7, 0, 0, 0] ++ brings 0 ((frame 7 question).drop 3) ++ reads 0
    ++ [(.reader 0, .int 6), (.reader 0, .ok 5), (.reader 0, .ok 56)]
    ++ goes 1 ++ [(.reader 1, .fail .eof 0)] ++ List.replicate 10 (.reader 1, .code .success)
    ++ List.replicate 4 (.reader 0, .go) ++ mainSteps 6

/-- The thread is done, or waits for a client, a task or bytes. -/
def isWaiting (w : World) : NetProg (Option ServerLabel) → Bool
  | .pure none => true
  | .op (.acceptResult a) _ => (w.sessions a).accept == .pending
  | .op (.takeTask n) _ => w.sessionWorkers.length ≤ n
  | .op (.read a n) _ => w.isOpen a && (w.sessions a).rx.length < n
  | _ => false

theorem step_of_isWaiting {s : (server.system P ids).State} (hc : Quietly c = true)
    (h : isWaiting s.world (s.threads t) = true) : System.step s t c = none := by
  unfold isWaiting at h
  split at h
  · next hp => simp only [System.step, hp]
  · next b k hp =>
    simp only [System.step, hp, sem, eq_of_beq h]
  · next m k hp =>
    have hlength := of_decide_eq_true h
    simp only [System.step, hp, sem, List.getElem?_eq_none hlength]
  · next b m k hp =>
    rw [Bool.and_eq_true, decide_eq_true_eq] at h
    have hread : readSem b m c s.world = none := by
      cases c with
      | ok j => exact if_neg (by omega)
      | fail ec j => cases hc
      | _ => rfl
    simp only [System.step, hp, sem, hread]
  · cases h

/-- The accept loop and two workers wait, and the other threads are where they were at the start. -/
theorem atRest_of_isWaiting {s : (server.system P ids).State}
    (hsame : ∀ t, t ∉ [Thread.main, .network, .reader 0, .reader 1] →
      s.threads t = (server.started P ids unattended).threads t)
    (hmain : isWaiting s.world (s.threads .main) = true)
    (hfirst : isWaiting s.world (s.threads (.reader 0)) = true)
    (hsecond : isWaiting s.world (s.threads (.reader 1)) = true)
    (hworkers : s.world.sessionWorkers.length = 2) : AtRest s := by
  intro t ht c hc
  refine step_of_isWaiting hc ?_
  cases t with
  | main => exact hmain
  | network => exact absurd rfl ht
  | control | user m =>
    rw [hsame _ (by simp)]
    rfl
  | reader n =>
    rcases n with _ | _ | n
    · exact hfirst
    · exact hsecond
    · rw [hsame _ (by simp)]
      show decide (s.world.sessionWorkers.length ≤ n + 2) = true
      rw [hworkers]
      exact decide_eq_true (Nat.le_add_left 2 n)

/-- A request for information is one that a session can go on from. -/
theorem handled_information : ∀ text ∈ [question], Handled jsonPlatform text := by
  intro text htext
  obtain rfl := List.mem_singleton.mp htext
  exact handled_of_taken ⟨by decide, .inl ⟨"information", 0, decodes_question⟩⟩

/-- The call fails on another connection than that at `a`, if it fails. -/
def isSparing (a : Nat) (s : (server.system P ids).State) (t : Thread) (c : Choice) : Bool :=
  match s.threads t with
  | .op (.read b _) _ | .op (.write_some b _ _) _ => b != a || Quietly c
  | _ => true

theorem sparing_of_isSparing {s : (server.system P ids).State} (h : isSparing a s t c = true) :
    sparing a s t c := by
  intro o k hp hon
  cases o with
  | read b m | write_some b sent rest =>
    obtain rfl : b = a := hon
    simpa only [isSparing, hp, bne_self_eq_false, Bool.false_or] using h
  | _ => exact hon.elim

/-- The neighbour's socket is closed, and the client has its answer. -/
theorem client_served_beside_broken : ∃ s answers, System.exec
      (openServer.started jsonPlatform UInt64.ofNat unattended) neighbourBreaks = some s ∧
    AtRest s ∧ s.world.isOpen 1 = false ∧ answers.length = 1 ∧
    (s.world.sessions 0).tx = framed 7 answers ∧
    Exchange.Served (service jsonPlatform [question]) ([question].filter (parses jsonPlatform)) answers ∧
    ([question].filter (parses jsonPlatform)).Sublist (handedOf s.world) := by
  let start := openServer.started jsonPlatform UInt64.ofNat unattended
  have hended : (System.exec start neighbourBreaks).map (fun s => (
      isWaiting s.world (s.threads .main) && isWaiting s.world (s.threads (.reader 0)) &&
        isWaiting s.world (s.threads (.reader 1)) && !s.world.isOpen 1 &&
        s.world.sessionWorkers.length == 2 && s.world.registered == [⟨0, 0⟩, ⟨1, 1⟩], s.world.handed))
      = some (true, 3) := by decide +kernel
  obtain ⟨s, hexec, hs⟩ := Option.map_eq_some_iff.mp hended
  obtain ⟨hs, hhanded⟩ := Prod.mk.inj hs
  simp only [Bool.and_eq_true, beq_iff_eq, Bool.not_eq_true'] at hs
  obtain ⟨⟨⟨⟨⟨hmain, hfirst⟩, hsecond⟩, hbroken⟩, hworkers⟩, hregistered⟩ := hs
  have hmovers : ∀ step ∈ neighbourBreaks, step.1 ∈ [Thread.main, .network, .reader 0, .reader 1] := by
    decide
  have hrest : AtRest s := by
    refine atRest_of_isWaiting (fun t ht => System.exec_other hexec (fun step hstep heq => ht ?_)) hmain
      hfirst hsecond hworkers
    rw [heq]
    exact hmovers step hstep
  have hbare : ∀ step ∈ neighbourBreaks, isBare step.2 = true := by decide
  have hids : DistinctIDs UInt64.ofNat s.world.handed := by
    rw [hhanded]
    exact Admission.distinctIDs_three
  have hspares : System.Along (sparing 0) start neighbourBreaks :=
    System.along_of_checks (fun _ _ _ => sparing_of_isSparing) (by decide +kernel)
  have hbrought : brought jsonPlatform openServer UInt64.ofNat start neighbourBreaks 0
      = framed openServer.magicNumber [question] := by decide +kernel
  have hp : (⟨0, 0⟩ : SessionPtr) ∈ s.world.registered := by
    rw [hregistered]
    exact List.mem_cons_self ..
  obtain ⟨answers, hsent, hserved, hhanded⟩ := no_client_starves jsonPlatform openServer UInt64.ofNat
    rfl rfl hexec hids (fun step hstep => bare_of_isBare (hbare step hstep)) hp hspares
    handled_information hbrought hrest
  have hlength := hserved.length_eq.symm.trans (by decide +kernel : _ = 1)
  exact ⟨s, answers, hexec, hrest, hbroken, hlength, hsent, hserved, hhanded⟩

end NetworkApplication.Clients
