/-
`stop` and the client that is on its way into the map.

`stop` closes the acceptor and disconnects a copy of the map. A client whose accept has
succeeded before the acceptor was closed, and that the accept loop puts into the map only
behind the copy, is in nobody's hands: it is not in the copy, the flag is cleared, so it gets
no reader, and nothing closes its socket. That is `client_left_connected`.

When the copy is made while no client is on its way (`snapshotComplete`), every session in
the map is closed when `stop` returns. It does not matter then which ids there are: what is
followed here is the addresses, the session the accept loop has made and the sockets that
`stop` has still to close.
-/
import NetworkApplication.RegistryRuns
import NetworkApplication.MissingSession

set_option autoImplicit false

namespace NetworkApplication.Snapshot

open NetworkApplication.Program NetworkApplication.Pool NetworkApplication.Disciplines
open NetworkApplication.Composition
open SegmentServer
open Registry (StopStage AtStop)

/-! ## What is followed -/

/-- The session the accept loop has made and not put into the map, where `stop` is, and the
sockets it has still to close. -/
structure Seen where
  own : Option SessionPtr
  stop : StopStage
  owes : List Nat

namespace Seen

/-- The socket `a` is closed. -/
def closed (f : Seen) (a : Nat) : Seen := { f with owes := f.owes.filter (fun b => b != a) }

/-- What an operation adds. -/
def next (f : Seen) : (o : Op) → o.Res → Seen
  | .isOpen a, false => f.closed a
  | .close a, _ => f.closed a
  | .makeSession _, ptr => { f with own := some ptr }
  | .mapInsert _ _, _ => { f with own := none }
  | .setIsWork _, _ => { f with stop := .cleared }
  | .acceptorIsOpen, is_open => if is_open then f else { f with stop := .deaf }
  | .acceptorClose, _ => { f with stop := .deaf }
  | .mapCopy, copy_map => { f with stop := .copied copy_map }
  | .mapSize, count =>
    match f.stop with
    | .copied copy_map =>
      { f with owes := if count != 0 then copy_map.map SessionPtr.addr else [], stop := .looped }
    | _ => f
  | _, _ => f

theorem next_mapSize_own (f : Seen) (count : Nat) : (f.next .mapSize count).own = f.own := by
  cases hstop : f.stop <;> simp only [next, hstop]

end Seen

/-- What is asked of the thread that performs an operation. -/
def May (t : Thread) (f : Seen) : Op → Prop
  | .makeSession _ => t = .main
  | .mapInsert _ p => t = .main ∧ f.own = some p
  | .setIsWork b => t = .control ∧ b = false ∧ f.stop = .running
  | .acceptorIsOpen | .acceptorClose => t = .control ∧ f.stop = .cleared
  | .mapCopy => t = .control ∧ f.stop = .deaf
  | .mapSize => t = .control → ∃ copy_map, f.stop = .copied copy_map
  | .connect _ | .makeSessionManager => False
  | _ => True

/-- `stop` finds the flag set, as it is cleared by `stop` alone. -/
def Possible (t : Thread) (f : Seen) : (o : Op) → o.Res → Prop
  | .getIsWork, isWork => t = .control → f.stop = .running → isWork = true
  | _, _ => True

/-- The discipline of thread `t`. -/
def rules (t : Thread) : Discipline Net Seen where
  Allowed := May t
  Possible := Possible t
  next := Seen.next
  Crash := fun _ => t ≠ .control

variable {t u : Thread} {f f' f'' : Seen} {P : Platform} {server : SegmentServer} {usage : Usage}

/-- Nothing has been made or begun, and nothing more is owed. -/
structure Lessens (f f' : Seen) : Prop where
  own : f'.own = f.own
  stop : f'.stop = f.stop
  owes : ∀ a ∈ f'.owes, a ∈ f.owes

theorem Lessens.refl (f : Seen) : Lessens f f := ⟨rfl, rfl, fun _ h => h⟩

theorem Lessens.trans (h : Lessens f f') (h' : Lessens f' f'') : Lessens f f'' :=
  ⟨h'.own.trans h.own, h'.stop.trans h.stop, fun a ha => h.owes a (h'.owes a ha)⟩

theorem lessens_closed (f : Seen) (a : Nat) : Lessens f (f.closed a) :=
  ⟨rfl, rfl, fun _ hb => (List.mem_filter.mp hb).1⟩

/-- A program that only goes on with what there is. -/
def Harmless (t : Thread) {α : Type} (p : NetProg α) : Prop :=
  ∀ f, Follows (rules t) (fun _ f' => Lessens f f') (fun _ f' => Lessens f f') f p

theorem Harmless.bind {α β : Type} {p : NetProg α} {g : α → NetProg β} (hp : Harmless t p)
    (hg : ∀ a, Harmless t (g a)) : Harmless t (p >>= g) := by
  intro f
  refine Follows.bind (hp f) (fun a f' h => ?_)
  exact (hg a f').mono (fun _ _ h' => h.trans h') (fun _ _ h' => h.trans h')

theorem harmless_call {o : Op} (ho : SessionOp o) : Harmless t (call o) := by
  intro f
  cases o with
  | isOpen a =>
    refine ⟨trivial, fun is_open _ => ?_⟩
    cases is_open with
    | true => exact Lessens.refl f
    | false => exact lessens_closed f a
  | close a => exact ⟨trivial, fun _ _ => lessens_closed f a⟩
  | read => exact ⟨trivial, fun _ _ => Lessens.refl f⟩
  | shutdown => exact ⟨trivial, fun _ _ => Lessens.refl f⟩
  | getCriticalError => exact ⟨trivial, fun _ _ => Lessens.refl f⟩
  | setCriticalError => exact ⟨trivial, fun _ _ => Lessens.refl f⟩
  | mapGet => exact ⟨trivial, fun _ _ => Lessens.refl f⟩
  | mapErase => exact ⟨trivial, fun _ _ => Lessens.refl f⟩
  | getIsWork => exact ⟨trivial, fun _ _ => Lessens.refl f⟩
  | uniform_int => exact ⟨trivial, fun _ _ => Lessens.refl f⟩
  | uniform_real => exact ⟨trivial, fun _ _ => Lessens.refl f⟩
  | event => exact ⟨trivial, fun _ _ => Lessens.refl f⟩
  | command => exact ⟨trivial, fun _ _ => Lessens.refl f⟩
  | network => exact ⟨trivial, fun _ _ => Lessens.refl f⟩
  | _ => exact ho.elim

/-- The functions of a session are harmless in any thread. -/
theorem harmless (t : Thread) :
    Prog.Compositional (E := Net) (fun p : NetProg _ => Harmless t p) SessionOp where
  pure := fun _ f => Lessens.refl f
  throw := fun _ f => Lessens.refl f
  call := fun _ ho => harmless_call ho
  bind := Harmless.bind
  tryCatch := by
    intro α p h hp hh f
    refine Follows.tryCatch (X := fun _ f' => Lessens f f') (hp f) (fun e f' hle => ?_)
    exact (hh e f').mono (fun _ _ h' => hle.trans h') (fun _ _ h' => hle.trans h')

/-! ## The functions of the server -/

/-- What is known at a label. -/
def atLabel (t : Thread) (f : Seen) : ServerLabel → Prop
  | .acceptLoop => t = .main
  | .flushMain | .flushWorkers _ => t = .control ∧ f.stop = .looped ∧ f.owes = []
  | _ => t ≠ .control

/-- What is known at the end of a thread. -/
def atEnd (usage : Usage) (t : Thread) (f : Seen) : Prop :=
  t = .control → usage.stops = true → f.stop = .looped ∧ f.owes = []

/-- What is known where a block ends. -/
def atNext (usage : Usage) (t : Thread) : Option ServerLabel → Seen → Prop
  | some l, f => atLabel t f l
  | none, f => atEnd usage t f

theorem harmless_write (ptr : SessionPtr) (message : Option Message) :
    Harmless t ((server.session ptr).write P message) := by
  refine of_write (harmless t) (callbacks_session (harmless t) server ptr) ?_
  exact of_asio_write (harmless t) (fun _ _ _ f => ⟨trivial, fun _ _ => Lessens.refl f⟩) _ _ _ _

theorem harmless_disconnect (ptr : SessionPtr) : Harmless t (server.session ptr).disconnect :=
  of_disconnect (harmless t) (callbacks_session (harmless t) server ptr)

/-! ### The readers and the users -/

theorem taskDone_follows (ht : t ≠ .control) (n : Nat) {exn : Exception → Seen → Prop} :
    Follows (rules t) (atNext usage t) exn f (taskDone n) :=
  Follows.step trivial (fun _ _ h => absurd h ht)

/-- Other threads than `control` are asked nothing where they end. -/
theorem harmless_follows (ht : t ≠ .control) {α : Type} {q : NetProg α} (hq : Harmless t q) :
    Follows (rules t) (fun _ _ => True) (fun _ f => atEnd usage t f) f q :=
  (hq f).mono (fun _ _ _ => trivial) (fun _ _ _ h => absurd h ht)

theorem sessionWork_follows (ht : t ≠ .control) (n : Nat) (p : SessionPtr) :
    Follows (rules t) (atNext usage t) (fun _ f => atEnd usage t f) f
      (server.sessionWork P n p) := by
  refine Follows.tryCatch (X := fun _ _ => True) ?_ (fun _ _ _ => taskDone_follows ht n)
  unfold Session.readRound
  refine Follows.step trivial (fun isWork _ => ?_)
  cases isWork with
  | false => exact taskDone_follows ht n
  | true =>
    refine Follows.step trivial (fun hasError _ => ?_)
    cases hasError with
    | true => exact taskDone_follows ht n
    | false =>
      have hread : Harmless t ((server.readerSession P p).read P) := by
        refine of_read (harmless t) (callbacks_readerSession (harmless t) server p (fun reply => ?_))
        exact of_asio_write (harmless t) (fun _ _ _ f => ⟨trivial, fun _ _ => Lessens.refl f⟩) _ _ _ _
      refine Follows.bind (M := fun _ _ => True) ((hread f).mono (fun _ _ _ => trivial) (fun _ _ _ => trivial)) ?_
      exact fun _ _ _ => ht

theorem readerThread_follows (ht : t ≠ .control) (n : Nat) :
    Follows (rules t) (atNext usage t) (fun _ f => atEnd usage t f) f (readerThread n) := by
  refine Follows.step trivial (fun ID _ => Follows.step trivial (fun found _ => ?_))
  cases found with
  | none => exact taskDone_follows ht n
  | some p => exact ht

theorem userLoop_follows (ht : t ≠ .control) :
    Follows (rules t) (atNext usage t) (fun _ f => atEnd usage t f) f (server.userLoop P) := by
  refine Follows.step trivial (fun command _ => ?_)
  cases command with
  | disconnect id =>
    refine Follows.bind (M := fun _ _ => True) ?_ (fun _ _ _ => ht)
    refine Follows.step trivial (fun found _ => ?_)
    cases found with
    | none => exact ht
    | some p => exact harmless_follows ht (harmless_disconnect p)
  | write id data =>
    refine Follows.bind (M := fun _ _ => True) ?_ (fun _ _ _ => ht)
    refine Follows.step trivial (fun found _ => ?_)
    cases found with
    | none => trivial
    | some p => exact harmless_follows ht (harmless_write p _)
  | sessionDisconnect => exact ht
  | sessionWrite m => exact ht

/-! ### The accept loop -/

theorem main_ne : Thread.main ≠ .control := nofun

theorem addSession_follows (id : UInt32) :
    Follows (rules .main) (fun _ _ => True) (fun _ f => atEnd usage .main f) f
      (server.sessionManager.addSession id) := by
  refine Follows.step trivial (fun found _ => ?_)
  cases found with
  | true => trivial
  | false =>
    refine Follows.step rfl (fun ptr _ => ?_)
    refine Follows.step trivial (fun _ _ => Follows.step trivial (fun ec _ => ?_))
    refine Follows.bind (M := fun _ f' => f'.own = some ptr)
      (Follows.when (fun _ => rfl) (fun _ => rfl)) (fun _ f' hown => ?_)
    show Follows (rules .main) _ _ f' (SessionManager.onAccept ptr.sessionID ptr ec)
    unfold SessionManager.onAccept
    split
    · refine Follows.step trivial (fun found _ => ?_)
      split
      · exact harmless_follows main_ne (of_removeSession (harmless .main) _)
      · trivial
    · exact Follows.call ⟨rfl, hown⟩ (fun _ _ => trivial)

theorem keepOrRefuse_follows (ID : UInt64) :
    Follows (rules .main) (atNext usage .main) (fun _ f => atEnd usage .main f) f
      (server.keepOrRefuse ID) := by
  have hkeep : ∀ f, Follows (rules .main) (atNext usage .main) (fun _ f => atEnd usage .main f) f
      (keep ID) := by
    refine fun f => Follows.step trivial (fun isWork _ => ?_)
    cases isWork with
    | false => exact rfl
    | true => exact Follows.step trivial (fun _ _ => rfl)
  unfold keepOrRefuse
  split
  · exact hkeep f
  · refine Follows.step nofun (fun count _ => ?_)
    split
    · refine Follows.bind (M := fun _ _ => True) ?_ (fun _ _ _ => rfl)
      refine Follows.step trivial (fun found _ => ?_)
      cases found with
      | none => exact nofun
      | some p => exact harmless_follows main_ne (harmless_disconnect p)
    · exact hkeep _

theorem acceptLoop_follows :
    Follows (rules .main) (atNext usage .main) (fun _ f => atEnd usage .main f) f
      server.acceptLoop := by
  refine Follows.step trivial (fun isWork _ => ?_)
  cases isWork with
  | false => exact Follows.step trivial (fun _ _ => nofun)
  | true =>
    refine Follows.step trivial (fun ID _ => ?_)
    exact Follows.bind (addSession_follows _) (fun _ _ _ => keepOrRefuse_follows ID)

/-! ### `stop` -/

/-- `disconnect` pays for the socket. -/
theorem disconnect_follows (p : SessionPtr) {exn : Exception → Seen → Prop} :
    Follows (rules t) (fun _ f' => Lessens f f' ∧ p.addr ∉ f'.owes) exn f
      (server.session p).disconnect := by
  have hpaid : ∀ f : Seen, p.addr ∉ (f.closed p.addr).owes := by
    intro f hmem
    have hne := (List.mem_filter.mp hmem).2
    rw [bne_self_eq_false] at hne
    cases hne
  have hremove : ∀ f' b, Follows (rules t) (fun _ f'' => Lessens f' f'') exn f'
      (Prog.when b (SessionManager.removeSession p.sessionID)) := by
    intro f' b
    refine Follows.when (fun _ => Follows.step trivial (fun found _ => ?_)) (fun _ => Lessens.refl f')
    cases found with
    | none => exact Lessens.refl f'
    | some q => exact ⟨trivial, fun _ _ => Lessens.refl f'⟩
  unfold Session.disconnect ConnectHandler.disconnect
  refine Follows.step trivial (fun is_open _ => ?_)
  cases is_open with
  | false => exact ⟨lessens_closed f p.addr, hpaid f⟩
  | true =>
    refine Follows.step trivial (fun ec _ => ?_)
    refine Follows.bind (hremove f _) (fun _ f₁ h₁ => ?_)
    refine Follows.step trivial (fun ec _ => ?_)
    have hclosed := h₁.trans (lessens_closed f₁ p.addr)
    refine Follows.bind (hremove _ _) (fun _ f₂ h₂ => ?_)
    exact ⟨hclosed.trans h₂, fun hmem => hpaid f₁ (h₂.owes _ hmem)⟩

/-- The loop over the copied map pays for all it holds. -/
theorem disconnectAll_follows (ptrs : List SessionPtr) {exn : Exception → Seen → Prop} (howes : ∀ a ∈ f.owes, a ∈ ptrs.map SessionPtr.addr) :
    Follows (rules t) (fun _ f' => f'.stop = f.stop ∧ f'.owes = []) exn f
      (stop.disconnectAll server ptrs) := by
  induction ptrs generalizing f with
  | nil => exact ⟨rfl, List.eq_nil_iff_forall_not_mem.mpr (fun a ha => List.not_mem_nil (howes a ha))⟩
  | cons p rest ih =>
    refine Follows.bind (disconnect_follows p) (fun _ f₁ h₁ => ?_)
    obtain ⟨hle, hpaid⟩ := h₁
    refine (ih (fun a ha => ?_)).mono
      (fun _ f' h => ⟨h.1.trans hle.stop, h.2⟩) (fun _ _ h => h)
    rcases List.mem_cons.mp (howes a (hle.owes a ha)) with rfl | hrest
    · exact absurd ha hpaid
    · exact hrest

theorem stop_follows (hstop : f.stop = .running) :
    Follows (rules .control) (atNext usage .control) (fun _ f => atEnd usage .control f) f
      server.stop := by
  refine Follows.step trivial (fun isWork hisWork => ?_)
  obtain rfl : isWork = true := hisWork rfl hstop
  refine Follows.step ⟨rfl, rfl, hstop⟩ (fun _ _ => ?_)
  refine Follows.bind (M := fun _ f' => f'.stop = .deaf) ?_ (fun _ f₁ hdeaf => ?_)
  · refine Follows.step ⟨rfl, rfl⟩ (fun is_open _ => ?_)
    cases is_open with
    | false => exact rfl
    | true => exact Follows.step trivial (fun _ _ => Follows.step ⟨rfl, rfl⟩ (fun _ _ => rfl))
  refine Follows.step ⟨rfl, hdeaf⟩ (fun copy_map _ => ?_)
  refine Follows.step (fun _ => ⟨copy_map, rfl⟩) (fun count _ => ?_)
  -- what is behind the count owes the copied sockets, if the loop is gone through
  suffices hrest : ∀ f₂ : Seen, f₂.stop = .looped →
      (f₂.owes = if count != 0 then copy_map.map SessionPtr.addr else []) →
      Follows (rules .control) (atNext usage .control) (fun _ f => atEnd usage .control f) f₂
        (Prog.when (count != 0) (stop.disconnectAll server copy_map)
          >>= fun _ => pure (some ServerLabel.flushMain)) from hrest _ rfl rfl
  intro f₂ hlooped howes
  refine Follows.bind (M := fun _ f' => f'.stop = .looped ∧ f'.owes = [])
    (Follows.when (fun hcount => ?_) (fun hcount => ⟨hlooped, ?_⟩)) (fun _ f' hf' => ?_)
  · rw [hcount, if_pos rfl] at howes
    refine (disconnectAll_follows copy_map (fun a ha => ?_)).mono
      (fun _ f' h => ⟨h.1.trans hlooped, h.2⟩) (fun _ _ h => h)
    rwa [howes] at ha
  · rw [howes, hcount]
    rfl
  · exact ⟨rfl, hf'⟩

/-! ## Every thread -/

/-- Every block of the server keeps to the discipline of the thread that runs it. -/
theorem block_follows (l : ServerLabel) (h : atLabel t f l) :
    Follows (rules t) (atNext usage t) (fun _ f => atEnd usage t f) f (server.block P l) := by
  cases l with
  | acceptLoop =>
    obtain rfl : t = .main := h
    exact acceptLoop_follows
  | sessionWork n p => exact sessionWork_follows h n p
  | flushMain =>
    obtain ⟨rfl, hlooped⟩ := h
    exact Follows.step trivial (fun _ _ => ⟨rfl, hlooped⟩)
  | flushWorkers n =>
    obtain ⟨rfl, hlooped⟩ := h
    refine Follows.step trivial (fun size _ => ?_)
    split
    · exact Follows.step trivial (fun _ _ => ⟨rfl, hlooped⟩)
    · exact fun _ _ => hlooped
  | userLoop => exact userLoop_follows h
  | networkLoop => exact Follows.step trivial (fun _ _ => h)

/-- Nothing has been made or begun where a thread starts. -/
def Seen.nothing : Seen := ⟨none, .running, []⟩

/-- So does every thread from where it starts. -/
theorem started_follows (ids : Nat → UInt64) (t : Thread) :
    Follows (rules t) (atNext usage t) (fun _ f => atEnd usage t f) Seen.nothing
      ((server.started P ids usage).threads t) := by
  cases t with
  | main => exact rfl
  | control =>
    show Follows _ _ _ _ (if usage.stops then server.stop else .pure none)
    split
    · exact stop_follows rfl
    · next hstops => exact fun _ h => absurd h hstops
  | reader n =>
    have hn : Thread.reader n ≠ .control := nofun
    exact readerThread_follows hn n
  | user n =>
    show Follows _ _ _ _ (if usage.operates then .pure (some ServerLabel.userLoop) else .pure none)
    have hn : Thread.user n ≠ .control := nofun
    split
    · exact hn
    · exact fun h => absurd h hn
  | network =>
    show Thread.network ≠ .control
    exact nofun

/-! ## What it means in the shared state -/

/-- Every open socket is a registered session's: no client is on its way into the map. -/
def Heard (w : World) : Prop := ∀ a, w.isOpen a = true → ∃ p ∈ w.registered, p.addr = a

/-- The sessions of the map and the one the accept loop has made; behind the copy, every
session of the map is in the copy or closed, and behind the count it is closed or owed. -/
structure Tracked (fs : Thread → Seen) (w : World) : Prop where
  allocated : ∀ p ∈ w.registered, p.addr < w.allocated
  mapped : ∀ id p, w.getSession id = some p → p ∈ w.registered
  own : ∀ p, (fs .main).own = some p → p.addr < w.allocated ∧ Registry.Unregistered w p.addr
  stop : AtStop w (fs .control).stop
  copied : ∀ copy_map, (fs .control).stop = .copied copy_map → Heard w ∧
    ∀ id p, w.getSession id = some p → p ∈ copy_map ∨ w.isOpen p.addr = false
  looped : (fs .control).stop = .looped → Heard w ∧
    ∀ id p, w.getSession id = some p → p.addr ∈ (fs .control).owes ∨ w.isOpen p.addr = false

/-- What is asked of an operation: where `stop` copies the map, no client is on its way. -/
def Complete (w : World) : Op → Prop
  | .mapCopy => Heard w
  | _ => True

section OneOperation

variable {ids : Nat → UInt64} {fs : Thread → Seen} {o : Op} {c : Choice} {r : o.Res} {w w' : World}

/-- Sessions are only ever registered and made, and what `stop` clears and closes stays so. -/
theorem grows_next (ho : May t f o) (h : sem ids o c w = some (r, w')) :
    (∀ p ∈ w.registered, p ∈ w'.registered) ∧ w.allocated ≤ w'.allocated ∧
      (w.acceptorOpen = false → w'.acceptorOpen = false) ∧
      (w'.isWork = w.isWork ∨ o = .setIsWork false ∧ w'.isWork = false) := by
  have heffect := effect_of_sem h
  -- most operations leave all four alone
  have hsame : w'.registered = w.registered → w'.allocated = w.allocated →
      w'.acceptorOpen = w.acceptorOpen → w'.isWork = w.isWork → _ := fun h₁ h₂ h₃ h₄ =>
    (⟨fun p hp => by rwa [h₁], by rw [h₂], fun hp => by rwa [h₃], .inl h₄⟩ :
      (∀ p ∈ w.registered, p ∈ w'.registered) ∧ w.allocated ≤ w'.allocated ∧
      (w.acceptorOpen = false → w'.acceptorOpen = false) ∧
      (w'.isWork = w.isWork ∨ o = .setIsWork false ∧ w'.isWork = false))
  cases o with
  | connect a => exact ho.elim
  | makeSessionManager => exact ho.elim
  | setIsWork b =>
    obtain ⟨-, rfl, -⟩ := ho
    obtain rfl : w' = { w with isWork := false } := heffect
    exact ⟨fun p hp => hp, le_rfl, fun hp => hp, .inr ⟨rfl, rfl⟩⟩
  | acceptorClose =>
    obtain rfl : w' = { w with acceptorOpen := false } := heffect
    exact ⟨fun p hp => hp, le_rfl, fun _ => rfl, .inl rfl⟩
  | makeSession id =>
    obtain rfl := heffect
    exact ⟨fun p hp => hp, Nat.le_succ _, fun hp => hp, .inl rfl⟩
  | mapInsert id p =>
    obtain rfl := heffect
    exact ⟨fun p hp => List.mem_append_left _ hp, le_rfl, fun hp => hp, .inl rfl⟩
  | read a n =>
    obtain ⟨rx, rfl⟩ := heffect
    exact hsame rfl rfl rfl rfl
  | write_some a sent rest =>
    obtain ⟨tx, rfl⟩ := heffect
    exact hsame rfl rfl rfl rfl
  | network =>
    rcases heffect with ⟨a, ec, -, -, rfl⟩ | ⟨a, rx, rfl⟩
    · exact hsame rfl rfl rfl rfl
    · exact hsame rfl rfl rfl rfl
  | _ =>
    obtain rfl := heffect
    exact hsame rfl rfl rfl rfl

theorem not_connect (ho : May t f o) : ∀ b, o ≠ .connect b := by
  rintro b rfl
  exact ho

theorem not_makeSessionManager (ho : May t f o) : o ≠ .makeSessionManager := by
  rintro rfl
  exact ho

/-- With the acceptor closed, no socket is opened. -/
theorem closed_next (ho : May t f o) (h : sem ids o c w = some (r, w'))
    (hdeaf : w.acceptorOpen = false) {a : Nat} (ha : w.isOpen a = false) : w'.isOpen a = false := by
  by_contra hopen
  rw [Bool.not_eq_false] at hopen
  rcases Registry.open_next (not_connect ho) h hopen with hold | ⟨-, hacceptor⟩
  · rw [ha] at hold
    cases hold
  · rw [hdeaf] at hacceptor
    cases hacceptor

theorem heard_next (ho : May t f o) (h : sem ids o c w = some (r, w'))
    (hdeaf : w.acceptorOpen = false) (hheard : Heard w) : Heard w' := by
  intro a ha
  cases hold : w.isOpen a with
  | true =>
    obtain ⟨p, hp, rfl⟩ := hheard a hold
    exact ⟨p, (grows_next ho h).1 p hp, rfl⟩
  | false =>
    rw [closed_next ho h hdeaf hold] at ha
    cases ha

/-- Only the accept loop has a session of its own. -/
theorem own_next {p : SessionPtr} (h : sem ids o c w = some (r, w'))
    (hown : (f.next o r).own = some p) : (f.own = some p ∧ ∀ id q, o ≠ .mapInsert id q) ∨
      ∃ id, o = .makeSession id ∧ p.addr = w.allocated ∧ w'.allocated = w.allocated + 1 ∧
        w'.registered = w.registered := by
  cases o with
  | makeSession id =>
    obtain ⟨hptr, rfl⟩ := Prod.mk.inj (Option.some.inj h)
    have hr : r = p := Option.some.inj hown
    exact .inr ⟨id, rfl, by rw [← hr, ← hptr], rfl, rfl⟩
  | mapInsert id q => cases hown
  | isOpen a =>
    cases r with
    | true => exact .inl ⟨hown, nofun⟩
    | false => exact .inl ⟨hown, nofun⟩
  | acceptorIsOpen =>
    cases r with
    | true => exact .inl ⟨hown, nofun⟩
    | false => exact .inl ⟨hown, nofun⟩
  | mapSize =>
    rw [Seen.next_mapSize_own] at hown
    exact .inl ⟨hown, nofun⟩
  | _ => exact .inl ⟨hown, nofun⟩

/-- The map is what it was, less an entry, or the accept loop has put its own session in. -/
theorem mapped_next {id : UInt32} {p : SessionPtr} (ho : May t f o)
    (h : sem ids o c w = some (r, w')) (hp : w'.getSession id = some p) :
    w.getSession id = some p ∨ o = .mapInsert id p ∧ t = .main ∧ f.own = some p := by
  rcases Registry.getSession_next (not_makeSessionManager ho) h hp with hold | rfl
  · exact .inl hold
  · exact .inr ⟨rfl, ho⟩

theorem atStop_kept {stop : StopStage} (hisWork : w'.isWork = w.isWork)
    (hacceptor : w.acceptorOpen = false → w'.acceptorOpen = false) (hat : AtStop w stop) :
    AtStop w' stop := by
  cases stop with
  | running => exact hisWork.trans hat
  | cleared => exact hisWork.trans hat
  | _ => exact ⟨hisWork.trans hat.1, hacceptor hat.2⟩

/-- `stop` is where it was, or it has taken the step that the operation is. -/
theorem stop_next (ho : May .control f o) (h : sem ids o c w = some (r, w'))
    (hat : AtStop w f.stop) : AtStop w' (f.next o r).stop := by
  obtain ⟨-, -, hacceptor, hisWork⟩ := grows_next ho h
  have hkept : (∀ b, o ≠ .setIsWork b) → AtStop w' f.stop := by
    intro hne
    exact atStop_kept (hisWork.resolve_right (fun hset => hne false hset.1)) hacceptor hat
  cases o with
  | setIsWork b =>
    obtain ⟨-, rfl, -⟩ := ho
    exact (Prod.mk.inj (Option.some.inj h)).2 ▸ rfl
  | acceptorIsOpen =>
    cases r with
    | true => exact hkept nofun
    | false =>
      obtain ⟨hopen, rfl⟩ := Prod.mk.inj (Option.some.inj h)
      rw [ho.2] at hat
      exact ⟨hat, hopen⟩
  | acceptorClose =>
    obtain rfl : w' = { w with acceptorOpen := false } := effect_of_sem h
    rw [ho.2] at hat
    exact ⟨hat, rfl⟩
  | mapCopy =>
    have hkept := hkept nofun
    rw [ho.2] at hkept
    exact hkept
  | mapSize =>
    have hkept := hkept nofun
    obtain ⟨copy_map, hcopied⟩ := ho rfl
    rw [hcopied] at hkept
    simp only [Seen.next, hcopied]
    exact hkept
  | isOpen a =>
    cases r with
    | true => exact hkept nofun
    | false => exact hkept nofun
  | _ => exact hkept nofun

/-- What is copied is the map. -/
theorem copied_next {copy_map : List SessionPtr} (h : sem ids o c w = some (r, w'))
    (hstop : (f.next o r).stop = .copied copy_map) : f.stop = .copied copy_map ∨
      o = .mapCopy ∧ w' = w ∧ copy_map = w.sessionMap.entries.map Sigma.snd := by
  by_cases ho : o = .mapCopy
  · subst ho
    obtain ⟨hcopied, hw⟩ := Prod.mk.inj (Option.some.inj h)
    exact .inr ⟨rfl, hw.symm, (StopStage.copied.inj hstop).symm.trans hcopied.symm⟩
  · revert hstop
    unfold Seen.next
    repeat' split
    all_goals first
      | exact fun hstop => .inl hstop
      | exact absurd rfl ho
      | exact nofun

/-- Behind the count the sockets of the copy are owed, unless the map was empty. -/
theorem looped_next (ho : May .control f o) (h : sem ids o c w = some (r, w'))
    (hstop : (f.next o r).stop = .looped) : (f.stop = .looped ∧ o ≠ .mapSize) ∨
      ∃ copy_map, f.stop = .copied copy_map ∧ w' = w ∧ (w.sessionMap.entries ≠ [] →
        (f.next o r).owes = copy_map.map SessionPtr.addr) := by
  by_cases hsize : o = .mapSize
  · subst hsize
    obtain ⟨copy_map, hcopied⟩ := ho rfl
    obtain ⟨hcount, hw⟩ := Prod.mk.inj (Option.some.inj h)
    refine .inr ⟨copy_map, hcopied, hw.symm, fun hsome => ?_⟩
    have hr : (r != 0) = true := by
      rw [← (show w.sessionMap.entries.length = r from hcount), bne_iff_ne, ne_eq,
        List.length_eq_zero_iff]
      exact hsome
    simp only [Seen.next, hcopied, hr, if_true]
  · revert hstop
    unfold Seen.next
    repeat' split
    all_goals first
      | exact fun hstop => .inl ⟨hstop, hsize⟩
      | exact absurd rfl hsize
      | exact nofun

/-- A socket that is owed stays so until it is closed. -/
theorem owes_next {a : Nat} (hsize : o ≠ .mapSize) (h : sem ids o c w = some (r, w'))
    (ha : a ∈ f.owes) : a ∈ (f.next o r).owes ∨ w'.isOpen a = false := by
  have hclosed : ∀ b, w'.isOpen b = false → a ∈ (f.closed b).owes ∨ w'.isOpen a = false := by
    intro b hb
    by_cases hab : a = b
    · exact .inr (hab ▸ hb)
    · exact .inl (List.mem_filter.mpr ⟨ha, bne_iff_ne.mpr hab⟩)
  cases o with
  | isOpen b =>
    cases r with
    | true => exact .inl ha
    | false =>
      obtain ⟨hb, rfl⟩ := Prod.mk.inj (Option.some.inj h)
      exact hclosed b hb
  | close b =>
    obtain rfl : w' = w.modify b (fun s => { s with isOpen := false }) := effect_of_sem h
    exact hclosed b (Registry.isOpen_modify ..)
  | mapSize => exact absurd rfl hsize
  | acceptorIsOpen =>
    cases r with
    | true => exact .inl ha
    | false => exact .inl ha
  | _ => exact .inl ha

/-- What thread `t` has seen behind an operation. -/
abbrev after (fs : Thread → Seen) (t : Thread) (o : Op) (r : o.Res) : Thread → Seen :=
  Function.update fs t ((fs t).next o r)

variable (htracked : Tracked fs w) (ho : May t (fs t) o) (h : sem ids o c w = some (r, w'))
include htracked ho h

theorem own_tracked {p : SessionPtr} (hown : (after fs t o r .main).own = some p) :
    p.addr < w'.allocated ∧ Registry.Unregistered w' p.addr := by
  have hkept : (fs .main).own = some p → (∀ id q, o ≠ .mapInsert id q) →
      p.addr < w'.allocated ∧ Registry.Unregistered w' p.addr := by
    intro hown hne
    obtain ⟨hallocated, hnew⟩ := htracked.own p hown
    refine ⟨Nat.lt_of_lt_of_le hallocated (grows_next ho h).2.1, fun q hq => ?_⟩
    rcases Registry.registered_next h hq with hold | ⟨id, hinsert, -⟩
    · exact hnew q hold
    · exact absurd hinsert (hne id q)
  by_cases ht : t = .main
  · subst ht
    rw [after, Function.update_self] at hown
    rcases own_next h hown with ⟨hold, hne⟩ | ⟨id, rfl, haddr, hallocated, hregistered⟩
    · exact hkept hold hne
    · -- the address of a session that has just been made is new
      rw [haddr, hallocated]
      refine ⟨Nat.lt_succ_self _, fun q hq => ?_⟩
      rw [hregistered] at hq
      exact Nat.ne_of_lt (htracked.allocated q hq)
  · rw [after, Function.update_of_ne (Ne.symm ht)] at hown
    refine hkept hown ?_
    rintro id q rfl
    exact ht ho.1

/-- Behind the copy a session that comes into the map comes with a closed socket. -/
theorem mapped_closed (hdeaf : w.acceptorOpen = false) (hheard : Heard w) {id : UInt32}
    {p : SessionPtr} (hp : w'.getSession id = some p) :
    w.getSession id = some p ∨ w'.isOpen p.addr = false := by
  rcases mapped_next ho h hp with hold | ⟨-, rfl, hown⟩
  · exact .inl hold
  · refine .inr (closed_next ho h hdeaf ?_)
    by_contra hopen
    rw [Bool.not_eq_false] at hopen
    obtain ⟨q, hq, haddr⟩ := hheard _ hopen
    exact (htracked.own p hown).2 q hq haddr

theorem copied_tracked (hok : Complete w o) {copy_map : List SessionPtr}
    (hstop : (after fs t o r .control).stop = .copied copy_map) : Heard w' ∧
      ∀ id p, w'.getSession id = some p → p ∈ copy_map ∨ w'.isOpen p.addr = false := by
  have hold : (fs .control).stop = .copied copy_map → Heard w' ∧
      ∀ id p, w'.getSession id = some p → p ∈ copy_map ∨ w'.isOpen p.addr = false := by
    intro hcopied
    have hat := htracked.stop
    rw [hcopied] at hat
    obtain ⟨hheard, hall⟩ := htracked.copied copy_map hcopied
    refine ⟨heard_next ho h hat.2 hheard, fun id p hp => ?_⟩
    rcases mapped_closed htracked ho h hat.2 hheard hp with hbefore | hclosed
    · exact (hall id p hbefore).imp_right (closed_next ho h hat.2)
    · exact .inr hclosed
  by_cases ht : t = .control
  · subst ht
    rw [after, Function.update_self] at hstop
    rcases copied_next h hstop with hcopied | ⟨rfl, rfl, rfl⟩
    · exact hold hcopied
    · exact ⟨hok, fun id p hp => .inl (Registry.mem_entries.mpr ⟨id, hp⟩)⟩
  · rw [after, Function.update_of_ne (Ne.symm ht)] at hstop
    exact hold hstop

theorem looped_tracked (hstop : (after fs t o r .control).stop = .looped) : Heard w' ∧
    ∀ id p, w'.getSession id = some p →
      p.addr ∈ (after fs t o r .control).owes ∨ w'.isOpen p.addr = false := by
  have hold : (fs .control).stop = .looped →
      (∀ a ∈ (fs .control).owes, a ∈ (after fs t o r .control).owes ∨ w'.isOpen a = false) →
      Heard w' ∧ ∀ id p, w'.getSession id = some p →
        p.addr ∈ (after fs t o r .control).owes ∨ w'.isOpen p.addr = false := by
    intro hlooped howes
    have hat := htracked.stop
    rw [hlooped] at hat
    obtain ⟨hheard, hall⟩ := htracked.looped hlooped
    refine ⟨heard_next ho h hat.2 hheard, fun id p hp => ?_⟩
    rcases mapped_closed htracked ho h hat.2 hheard hp with hbefore | hclosed
    · rcases hall id p hbefore with howed | hclosed
      · exact howes _ howed
      · exact .inr (closed_next ho h hat.2 hclosed)
    · exact .inr hclosed
  by_cases ht : t = .control
  · subst ht
    have hlooped := hstop
    rw [after, Function.update_self] at hlooped
    rcases looped_next ho h hlooped with ⟨hbefore, hsize⟩ | ⟨copy_map, hcopied, rfl, howes⟩
    · refine hold hbefore (fun a ha => ?_)
      rw [after, Function.update_self]
      exact owes_next hsize h ha
    · obtain ⟨hheard, hall⟩ := htracked.copied copy_map hcopied
      refine ⟨hheard, fun id p hp => ?_⟩
      rw [after, Function.update_self, howes (List.ne_nil_of_mem (AList.mem_lookup_iff.mp hp))]
      exact (hall id p hp).imp_left (fun hmem => List.mem_map_of_mem hmem)
  · rw [after, Function.update_of_ne (Ne.symm ht)] at hstop
    refine hold hstop (fun a ha => .inl ?_)
    rwa [after, Function.update_of_ne (Ne.symm ht)]

/-- One operation keeps track. -/
theorem tracked_next (hok : Complete w o) : Tracked (after fs t o r) w' where
  allocated := by
    intro p hp
    refine Nat.lt_of_lt_of_le ?_ (grows_next ho h).2.1
    rcases Registry.registered_next h hp with hold | ⟨id, rfl, -⟩
    · exact htracked.allocated p hold
    · obtain ⟨rfl, hown⟩ := ho
      exact (htracked.own p hown).1
  mapped := by
    intro id p hp
    rcases mapped_next ho h hp with hold | ⟨rfl, -, -⟩
    · exact (grows_next ho h).1 p (htracked.mapped id p hold)
    · obtain rfl := effect_of_sem h
      exact List.mem_append_right _ (List.mem_singleton_self p)
  own := fun _ hown => own_tracked htracked ho h hown
  stop := by
    by_cases ht : t = .control
    · subst ht
      rw [after, Function.update_self]
      exact stop_next ho h htracked.stop
    · rw [after, Function.update_of_ne (Ne.symm ht)]
      obtain ⟨-, -, hacceptor, hisWork⟩ := grows_next ho h
      have hsame : w'.isWork = w.isWork := by
        refine hisWork.resolve_right ?_
        rintro ⟨rfl, -⟩
        exact ht ho.1
      exact atStop_kept hsame hacceptor htracked.stop
  copied := fun _ hstop => copied_tracked htracked ho h hok hstop
  looped := fun hstop => looped_tracked htracked ho h hstop

end OneOperation

/-! ## Runs -/

variable (P)

/-- A server whose `stop` is followed. -/
def snapshot (server : SegmentServer) (ids : Nat → UInt64) (usage : Usage) :
    Disciplined (server.system P ids) Seen where
  rules := rules
  loop := fun t l f => atLabel t f l
  fin := fun t f => atEnd usage t f
  ok := fun _ o _ w => Complete w o
  inv := Tracked
  block_follows := by
    intro t l f h
    refine (block_follows (P := P) l h).mono (fun next f hnext => ?_) (fun _ _ h => h)
    cases next with
    | some l' => exact hnext
    | none => exact hnext
  keeps := fun fs t o c r w w' htracked ho hok hsem =>
    ⟨by
      cases o with
      | getIsWork =>
        rintro rfl hrunning
        have hat := htracked.stop
        rw [hrunning] at hat
        exact (Prod.mk.inj (Option.some.inj hsem)).1.symm.trans hat
      | _ => trivial,
    tracked_next htracked ho hsem hok⟩

variable {P} {ids : Nat → UInt64} {s : (server.system P ids).State}

/-- Where `stop` copies the map, every client that has been accepted is in it or was. -/
def snapshotComplete (s : (server.system P ids).State) (t : Thread) (_ : Choice) : Prop :=
  ∀ k, s.threads t = .op .mapCopy k → Heard s.world

theorem started_tracked (P : Platform) (server : SegmentServer) (ids : Nat → UInt64)
    (usage : Usage) : Tracked (fun _ => Seen.nothing) (server.started P ids usage).world where
  allocated := nofun
  mapped := by
    intro id p hp
    have hnone : (server.started P ids usage).world.getSession id = none := AList.lookup_empty id
    rw [hnone] at hp
    cases hp
  own := nofun
  stop := rfl
  copied := nofun
  looped := nofun

theorem started_holds (P : Platform) (server : SegmentServer) (ids : Nat → UInt64)
    (usage : Usage) :
    (snapshot P server ids usage).Holds (server.started P ids usage) (fun _ => Seen.nothing) := by
  refine ⟨started_tracked P server ids usage, fun t => ?_⟩
  refine (started_follows ids t).mono (fun next f hnext => ?_) (fun _ _ h => h)
  cases next with
  | some l => exact hnext
  | none => exact hnext

/-- When `stop` has returned every session that is left in the map is closed, in a run in
which no client is on its way into the map where `stop` copies it. -/
theorem stop_leaves_none_open (operates : Bool)
    (hrun : System.Steps snapshotComplete (server.started P ids ⟨true, operates⟩) s)
    (hreturned : s.threads .control = .pure none) {id : UInt32} {p : SessionPtr}
    (hp : s.world.getSession id = some p) : s.world.isOpen p.addr = false := by
  have hallows : ∀ s t c, snapshotComplete s t c →
      (snapshot P server ids ⟨true, operates⟩).Allows s t c := by
    intro s t c hok o k hk
    cases o with
    | mapCopy => exact hok k hk
    | _ => trivial
  obtain ⟨fs, hholds⟩ := Disciplined.run_rule hallows hrun ⟨_, started_holds P server ids _⟩
  have hend := hholds.keeps .control
  rw [hreturned] at hend
  obtain ⟨hlooped, howes⟩ := hend rfl rfl
  rcases (hholds.inv.looped hlooped).2 id p hp with howed | hclosed
  · rw [howes] at howed
    cases howed
  · exact hclosed

/-! ### One client before `stop`, and one during it -/

/-- `stop` moves on; where it calls into a socket, the call succeeds. -/
def controlSteps (n : Nat) : List (Thread × Choice) := List.replicate n (.control, .code .success)

/-- A client is kept, and `stop` gets as far as the copy. -/
def keptThenStop : List (Thread × Choice) := keptClient 0 ++ controlSteps 5

/-- The copy, the loop, the end of the other threads and the flushes. -/
def stopReturns : List (Thread × Choice) :=
  mainSteps 2 ++ List.replicate 5 (.reader 0, .go) ++ controlSteps 11

/-- The step is not the one that copies the map. -/
def notCopy (s : (server.system P ids).State) (t : Thread) (_ : Choice) : Bool :=
  match s.threads t with
  | .op .mapCopy _ => false
  | _ => true

theorem snapshotComplete_of_notCopy (s : (server.system P ids).State) (t : Thread) (c : Choice)
    (h : notCopy s t c = true) : snapshotComplete s t c := by
  intro k hk
  rw [notCopy, hk] at h
  cases h

theorem stop_leaves_kept_client_closed : ∃ s, s.threads .control = .pure none ∧
    System.Steps System.anyStep (MissingSession.openServer.started jsonPlatform
      UInt64.ofNat ⟨true, false⟩) s ∧
    s.world.getSession 0 = some ⟨0, 0⟩ ∧ s.world.isOpen 0 = false := by
  obtain ⟨s₁, hbefore, hchecked₁, hregistered, hopen⟩ : ∃ s₁, System.exec
      (MissingSession.openServer.started jsonPlatform UInt64.ofNat ⟨true, false⟩)
        keptThenStop = some s₁ ∧
      System.checks notCopy (MissingSession.openServer.started jsonPlatform
        UInt64.ofNat ⟨true, false⟩) keptThenStop = true ∧
      s₁.world.registered = [⟨0, 0⟩] ∧ (∀ a, s₁.world.isOpen (a + 1) = false) :=
    ⟨_, rfl, rfl, rfl, fun _ => rfl⟩
  have hheard : Heard s₁.world := by
    intro a ha
    rw [hregistered]
    cases a with
    | zero => exact ⟨_, List.mem_singleton_self _, rfl⟩
    | succ a =>
      rw [hopen] at ha
      cases ha
  obtain ⟨s₂, hcopy, s₃, hafter, hchecked₂, hreturned, hp⟩ : ∃ s₂,
      System.step s₁ .control .go = some s₂ ∧ ∃ s₃, System.exec s₂ stopReturns = some s₃ ∧
      System.checks notCopy s₂ stopReturns = true ∧ s₃.threads .control = .pure none ∧
      s₃.world.getSession 0 = some ⟨0, 0⟩ := by
    obtain rfl := Option.some.inj hbefore
    exact ⟨_, rfl, _, rfl, rfl, rfl, rfl⟩
  have hrun : System.Steps snapshotComplete _ s₃ :=
    ((System.steps_of_along hbefore (System.along_of_checks snapshotComplete_of_notCopy hchecked₁)).tail
      (fun _ _ => hheard) hcopy).trans
      (System.steps_of_along hafter (System.along_of_checks snapshotComplete_of_notCopy hchecked₂))
  exact ⟨s₃, hreturned, hrun.mono (fun _ _ _ _ => trivial), hp,
    stop_leaves_none_open false hrun hreturned hp⟩

/-- The accept has succeeded before the acceptor is closed, and the client comes into the map
behind the copy. -/
def acceptedThenStop : List (Thread × Choice) :=
  acceptCompletes 0 .success ++ mainSteps 1 ++ controlSteps 8 ++ mainSteps 5 ++ controlSteps 3

/-- **A client that is accepted while `stop` runs stays connected.** -/
theorem client_left_connected : ¬ ∀ s : (MissingSession.openServer.system
      jsonPlatform UInt64.ofNat).State,
    System.Steps System.anyStep (MissingSession.openServer.started jsonPlatform
      UInt64.ofNat ⟨true, false⟩) s → s.threads .control = .pure none →
    ∀ id p, s.world.getSession id = some p → s.world.isOpen p.addr = false := by
  intro h
  obtain ⟨s, hexec, hreturned, hp, hopen⟩ : ∃ s, System.exec (MissingSession.openServer.started
      jsonPlatform UInt64.ofNat ⟨true, false⟩) acceptedThenStop = some s ∧
    s.threads .control = .pure none ∧ s.world.getSession 0 = some ⟨0, 0⟩ ∧
    s.world.isOpen 0 = true := ⟨_, rfl, rfl, rfl, rfl⟩
  have hrun : System.Steps System.anyStep _ s := System.steps_of_exec hexec (fun _ _ _ => trivial)
  have hclosed := h s hrun hreturned 0 ⟨0, 0⟩ hp
  rw [hopen] at hclosed
  cases hclosed

end NetworkApplication.Snapshot
