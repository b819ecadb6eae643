/-
A server that has been stopped.

`stop` clears the flag, closes what it finds and then waits: for the task of the main worker, and
for that of every session worker there is. The accept loop creates no worker any more once its task
is done, so the loop over the workers misses none. When `stop` has returned, then, no thread of the
server moves, in that state or in any later one; and as long as no user goes on calling into the
server nothing is sent, handed over or registered any more (`silent_after_stop`).

Nothing is assumed of the ids here, nor of what fails. A client that `stop` has missed may stay
connected to the server that has been stopped; it will never hear anything from it.
-/
import NetworkApplication.Composition
import NetworkApplication.Snapshot

set_option autoImplicit false

namespace NetworkApplication.Silence

open NetworkApplication.Program NetworkApplication.Pool NetworkApplication.Disciplines
open NetworkApplication.Composition SegmentServer

/-! ## Tasks, and the flushes of `stop` -/

/-- Where `stop` is: it has not looked at the flag yet, it goes through the sessions, it has flushed
the main worker and the first `n` session workers, or has counted these besides. -/
inductive Flushing where
  | running
  | stopping
  | flushed (n : Nat)
  | counted (n size : Nat)

/-- What a thread knows: its task has begun, its task is over; and where `stop` is. -/
structure Task where
  begun : Bool
  ended : Bool
  flushing : Flushing

/-- Nothing has begun. -/
def Task.nothing : Task := ⟨false, false, .running⟩

/-- What an operation of a thread adds to what it knows. -/
def Task.next : Thread → Task → (o : Op) → o.Res → Task
  | .control, f, .getIsWork, _ =>
    match f.flushing with
    | .running => { f with flushing := .stopping }
    | _ => f
  | .control, f, .flushMainWorker, _ => { f with flushing := .flushed 0 }
  | .control, f, .sessionWorkersSize, size =>
    match f.flushing with
    | .flushed n => { f with flushing := .counted n size }
    | _ => f
  | .control, f, .flushSessionWorker n, _ => { f with flushing := .flushed (n + 1) }
  | .reader _, f, .takeTask _, _ => { f with begun := true }
  | .reader _, f, .sessionTaskDone _, _ => { f with ended := true }
  | .main, f, .mainTaskDone, _ => { f with ended := true }
  | _, f, _, _ => f

/-- What a task does, and what a function of a session does in any thread. -/
def Ordinary : Thread → Op → Prop
  | .main, .distributeID => True
  | .main, o => AcceptOp o
  | .control, o => SessionOp o
  | _, .write_some _ _ _ => True
  | _, o => SessionOp o

/-- The thread is in the middle of it. -/
def Midway (usage : Usage) : Thread → Task → Prop
  | .main, f => f.ended = false
  | .reader _, f => f.begun = true ∧ f.ended = false
  | .user _, _ => usage.operates = true
  | .control, f => usage.stops = true ∧ f.flushing = .stopping
  | .network, _ => False

/-- What else there is, and when. -/
def Special (usage : Usage) : Thread → Task → Op → Prop
  | .main, f, .mainTaskDone => f.ended = false
  | .reader n, f, .takeTask m => m = n ∧ f.begun = false ∧ f.ended = false
  | .reader n, f, .sessionTaskDone m => m = n ∧ f.begun = true ∧ f.ended = false
  | .network, _, .network => True
  | .control, f, .getIsWork => usage.stops = true ∧ f.flushing = .running
  | .control, f, .setIsWork b => b = false ∧ f.flushing = .stopping
  | .control, f, .acceptorIsOpen | .control, f, .acceptorCancel | .control, f, .acceptorClose
  | .control, f, .mapCopy | .control, f, .mapSize | .control, f, .flushMainWorker =>
    f.flushing = .stopping
  | .control, f, .sessionWorkersSize => ∃ n, f.flushing = .flushed n
  | .control, f, .flushSessionWorker n => ∃ size, f.flushing = .counted n size
  | _, _, _ => False

/-- The discipline of thread `t`. -/
def rules (usage : Usage) (t : Thread) : Discipline Net Task where
  Allowed := fun f o => Midway usage t f ∧ Ordinary t o ∨ Special usage t f o
  Possible := fun f o r => match o, r with
    | .getIsWork, isWork => t = .control → f.flushing = .running → isWork = true
    | _, _ => True
  next := Task.next t
  Crash := fun _ => True

/-- What is known at a label. -/
def atLabel (usage : Usage) : Thread → Task → ServerLabel → Prop
  | .main, f, .acceptLoop => f.ended = false
  | .reader n, f, .sessionWork m _ => m = n ∧ f.begun = true ∧ f.ended = false
  | .user _, _, .userLoop => usage.operates = true
  | .network, _, .networkLoop => True
  | .control, f, .flushMain => usage.stops = true ∧ f.flushing = .stopping
  | .control, f, .flushWorkers n => f.flushing = .flushed n
  | _, _, _ => False

/-- What is known at the end of a thread: `stop` has flushed every worker it has counted. -/
def atEnd (usage : Usage) : Thread → Task → Prop
  | .control, f => usage.stops = true → ∃ n size, f.flushing = .counted n size ∧ size ≤ n
  | _, _ => True

/-- What is known where a block ends. -/
def atNext (usage : Usage) (t : Thread) : Option ServerLabel → Task → Prop
  | some l, f => atLabel usage t f l
  | none, f => atEnd usage t f

variable {P : Platform} {server : SegmentServer} {usage : Usage} {ids : Nat → UInt64} {t : Thread}
  {f : Task} {n : Nat} {ptr : SessionPtr} {o : Op} {r : o.Res} {c : Choice} {w w' : World}

/-! ## The functions -/

/-- A program that a thread performs in the middle of its task. -/
def Within (usage : Usage) (t : Thread) {α : Type} (p : NetProg α) : Prop :=
  ∀ f, Midway usage t f → Follows (rules usage t) (fun _ f' => f' = f) (fun _ f' => f' = f) f p

theorem next_ordinary (ho : Ordinary t o) (hf : Midway usage t f) (r : o.Res) :
    Task.next t f o r = f := by
  cases t with
  | control =>
    cases o with
    | getIsWork => simp only [Task.next, hf.2]
    | flushMainWorker | sessionWorkersSize | flushSessionWorker => exact ho.elim
    | _ => rfl
  | reader m =>
    cases o with
    | takeTask | sessionTaskDone => exact ho.elim
    | _ => rfl
  | main =>
    cases o with
    | mainTaskDone => exact ho.elim
    | _ => rfl
  | user m | network => rfl

/-- Sequences and handlers of such programs are such programs. -/
theorem within (usage : Usage) (t : Thread) :
    Prog.Compositional (E := Net) (Within usage t) (Ordinary t) where
  pure := fun _ _ _ => rfl
  throw := fun _ _ _ => rfl
  call := fun o ho f hf => Follows.call (.inl ⟨hf, ho⟩) (fun r _ => next_ordinary ho hf r)
  bind := fun hp hf f hmid => by
    refine Follows.bind (hp f hmid) ?_
    rintro a f' rfl
    exact hf a _ hmid
  tryCatch := fun hp hh f hmid => by
    refine Follows.tryCatch (hp f hmid) ?_
    rintro e f' rfl
    exact hh e _ hmid

/-- Of what is done in the middle of a task, what is known stays known. -/
theorem Within.then {α β : Type} {p : NetProg α} {k : α → NetProg β} {post : β → Task → Prop}
    {exn : Exception → Task → Prop} (hp : Within usage t p) (hf : Midway usage t f)
    (hexn : ∀ e, exn e f) (hk : ∀ a, Follows (rules usage t) post exn f (k a)) :
    Follows (rules usage t) post exn f (p >>= k) := by
  refine Follows.bind ((hp f hf).mono (fun _ _ h => h) ?_) ?_
  · rintro e f' rfl
    exact hexn e
  · rintro a f' rfl
    exact hk a

/-- An operation in the middle of a task, and what follows it. -/
theorem step_within {α : Type} {k : o.Res → NetProg α} {post : α → Task → Prop}
    {exn : Exception → Task → Prop} (hf : Midway usage t f) (ho : Ordinary t o)
    (hk : ∀ r, Follows (rules usage t) post exn f (k r)) :
    Follows (rules usage t) post exn f (call o >>= k) := by
  refine Follows.step (.inl ⟨hf, ho⟩) (fun r _ => ?_)
  rw [show (rules usage t).next f o r = f from next_ordinary ho hf r]
  exact hk r

theorem ordinary_of_sessionOp (ht : t ≠ .main) (ho : SessionOp o) : Ordinary t o := by
  cases t with
  | main => exact absurd rfl ht
  | control => exact ho
  | reader m | user m | network =>
    cases o with
    | write_some => trivial
    | _ => exact ho

theorem ordinary_of_acceptOp (ho : AcceptOp o) : Ordinary .main o := by
  cases o with
  | distributeID => trivial
  | _ => exact ho

theorem taskDone_follows (hf : f.begun = true ∧ f.ended = false) {exn : Exception → Task → Prop} :
    Follows (rules usage (.reader n)) (atNext usage (.reader n)) exn f (taskDone n) :=
  Follows.step (.inr ⟨rfl, hf⟩) (fun _ _ => trivial)

/-- What a worker does up to the end of its task. -/
theorem sessionWork_follows (hf : f.begun = true ∧ f.ended = false) :
    Follows (rules usage (.reader n)) (atNext usage (.reader n)) (fun _ f => atEnd usage (.reader n) f)
      f (server.sessionWork P n ptr) := by
  have hW := within usage (.reader n)
  have hS := hW.mono (fun o ho => ordinary_of_sessionOp (fun h => Thread.noConfusion h) ho)
  have hwrite : ∀ m, Writes (Within usage (.reader n)) P (server.session ptr) (some m) :=
    fun _ => of_asio_write hS (fun _ _ _ => hW.call _ trivial) _ _ _ _
  refine Follows.tryCatch (X := fun _ g => g.begun = true ∧ g.ended = false) ?_
    (fun _ g hg => taskDone_follows hg)
  unfold Session.readRound
  refine Follows.step (.inl ⟨hf, trivial⟩) (fun isWork _ => ?_)
  cases isWork with
  | false => exact taskDone_follows hf
  | true =>
    refine Follows.step (.inl ⟨hf, trivial⟩) (fun hasError _ => ?_)
    cases hasError with
    | true => exact taskDone_follows hf
    | false =>
      exact Within.then (of_read hS (callbacks_readerSession hS server ptr hwrite)) hf (fun _ => hf)
        (fun _ => ⟨rfl, hf⟩)

theorem readerThread_follows :
    Follows (rules usage (.reader n)) (atNext usage (.reader n)) (fun _ f => atEnd usage (.reader n) f)
      .nothing (readerThread n) := by
  have hbegun : (⟨true, false, .running⟩ : Task).begun = true ∧
      (⟨true, false, .running⟩ : Task).ended = false := ⟨rfl, rfl⟩
  refine Follows.step (.inr ⟨rfl, rfl, rfl⟩) (fun ID _ => ?_)
  refine Follows.step (.inl ⟨hbegun, trivial⟩) (fun found _ => ?_)
  cases found with
  | none => exact taskDone_follows hbegun
  | some ptr => exact ⟨rfl, hbegun⟩

/-- The accept loop, and the end of its task. -/
theorem acceptLoop_follows (hf : f.ended = false) :
    Follows (rules usage .main) (atNext usage .main) (fun _ f => atEnd usage .main f) f
      server.acceptLoop := by
  have hA := (within usage .main).mono (fun o ho => ordinary_of_acceptOp ho)
  refine Follows.step (.inl ⟨hf, trivial⟩) (fun isWork _ => ?_)
  cases isWork with
  | false => exact Follows.step (.inr hf) (fun _ _ => trivial)
  | true =>
    refine Follows.step (.inl ⟨hf, trivial⟩) (fun ID _ => ?_)
    refine Within.then (of_addSession hA server _) hf (fun _ => trivial) (fun _ => ?_)
    -- whatever it does with the client, it goes on at its head
    have hkeep : Follows (rules usage .main) (atNext usage .main) (fun _ f => atEnd usage .main f) f
        (keep ID) :=
      Within.then (hA.call .getIsWork trivial) hf (fun _ => trivial) (fun isWork =>
        Within.then (hA.when (hA.call (.addSessionWorker ID) trivial)) hf (fun _ => trivial)
          (fun _ => hf))
    unfold keepOrRefuse
    split
    · exact hkeep
    · refine Within.then (hA.call .mapSize trivial) hf (fun _ => trivial) (fun count => ?_)
      split
      · refine Within.then (p := server.disconnect ID) ?_ hf (fun _ => trivial) (fun _ => hf)
        refine hA.bind (hA.call (.mapGet _) trivial) (fun found => ?_)
        cases found with
        | none => exact fun _ _ => trivial
        | some ptr =>
          have hS := (hA.mono acceptOp_of_keepOp).mono keepOp_of_sessionOp
          exact of_disconnect hS (callbacks_session hS server ptr)
      · exact hkeep

theorem userLoop_follows (hoperates : usage.operates = true) :
    Follows (rules usage (.user n)) (atNext usage (.user n)) (fun _ f => atEnd usage (.user n) f) f
      (server.userLoop P) := by
  have hW := within usage (.user n)
  have hS := hW.mono (fun o ho => ordinary_of_sessionOp (fun h => Thread.noConfusion h) ho)
  refine Within.then (hW.call .command trivial) hoperates (fun _ => trivial) (fun command => ?_)
  cases command with
  | disconnect id =>
    refine Within.then (p := server.disconnect id) ?_ hoperates (fun _ => trivial) (fun _ => hoperates)
    refine hS.bind (hS.call (.mapGet _) trivial) (fun found => ?_)
    cases found with
    | none => exact fun _ _ => trivial
    | some ptr => exact of_disconnect hS (callbacks_session hS server ptr)
  | write id data =>
    refine Within.then (p := server.write P id data) ?_ hoperates (fun _ => trivial) (fun _ => hoperates)
    refine hS.bind (hS.call (.mapGet _) trivial) (fun found => ?_)
    cases found with
    | none => exact hS.pure ()
    | some ptr =>
      exact of_write hS (callbacks_session hS server ptr)
        (of_asio_write hS (fun _ _ _ => hW.call _ trivial) _ _ _ _)
  | sessionDisconnect => exact hoperates
  | sessionWrite m => exact hoperates

/-- `disconnect` does not throw. -/
theorem disconnect_follows (hf : Midway usage .control f) {exn : Exception → Task → Prop} :
    Follows (rules usage .control) (fun _ f' => f' = f) exn f (server.session ptr).disconnect := by
  have hremove : ∀ b, Follows (rules usage .control) (fun _ f' => f' = f) exn f
      (Prog.when b (SessionManager.removeSession ptr.sessionID)) := by
    refine fun b => Follows.when (fun _ => step_within hf trivial (fun found => ?_)) (fun _ => rfl)
    cases found with
    | none => exact rfl
    | some q => exact Follows.call (.inl ⟨hf, trivial⟩) (fun _ _ => rfl)
  unfold Session.disconnect ConnectHandler.disconnect
  refine step_within hf trivial (fun is_open => ?_)
  cases is_open with
  | false => exact rfl
  | true =>
    refine step_within hf trivial (fun ec => Follows.bind (hremove _) ?_)
    rintro _ _ rfl
    refine step_within hf trivial (fun ec => Follows.bind (hremove _) ?_)
    rintro _ _ rfl
    exact rfl

theorem disconnectAll_follows (hf : Midway usage .control f) (ptrs : List SessionPtr)
    {exn : Exception → Task → Prop} :
    Follows (rules usage .control) (fun _ f' => f' = f) exn f (stop.disconnectAll server ptrs) := by
  induction ptrs with
  | nil => exact rfl
  | cons ptr rest ih =>
    refine Follows.bind (disconnect_follows hf) ?_
    rintro _ _ rfl
    exact ih

/-- `stop` up to its first wait. -/
theorem stop_follows (hstops : usage.stops = true) :
    Follows (rules usage .control) (atNext usage .control) (fun _ f => atEnd usage .control f) .nothing
      server.stop := by
  have hmid : Midway usage .control ⟨false, false, .stopping⟩ := ⟨hstops, rfl⟩
  refine Follows.step (.inr ⟨hstops, rfl⟩) (fun isWork hisWork => ?_)
  obtain rfl : isWork = true := hisWork rfl rfl
  refine Follows.step (.inr ⟨rfl, rfl⟩) (fun _ _ => ?_)
  refine Follows.bind (M := fun _ g => g = ⟨false, false, .stopping⟩) ?_ ?_
  · refine Follows.step (.inr rfl) (fun is_open _ => ?_)
    cases is_open with
    | false => exact rfl
    | true => exact Follows.step (.inr rfl) (fun _ _ => Follows.step (.inr rfl) (fun _ _ => rfl))
  rintro _ _ rfl
  refine Follows.step (.inr rfl) (fun copy_map _ => Follows.step (.inr rfl) (fun count _ => ?_))
  refine Follows.bind (M := fun _ g => g = ⟨false, false, .stopping⟩)
    (Follows.when (fun _ => disconnectAll_follows hmid copy_map) (fun _ => rfl)) ?_
  rintro _ _ rfl
  exact hmid

/-! ## Every thread -/

/-- Every block of the server keeps to the discipline of the thread that runs it. -/
theorem block_follows {l : ServerLabel} (hl : atLabel usage t f l) :
    Follows (rules usage t) (atNext usage t) (fun _ f => atEnd usage t f) f (server.block P l) := by
  cases l with
  | acceptLoop =>
    cases t with
    | main => exact acceptLoop_follows hl
    | _ => exact hl.elim
  | sessionWork m ptr =>
    cases t with
    | reader n =>
      obtain ⟨rfl, hf⟩ := hl
      exact sessionWork_follows hf
    | _ => exact hl.elim
  | flushMain =>
    cases t with
    | control => exact Follows.step (.inr hl.2) (fun _ _ => rfl)
    | _ => exact hl.elim
  | flushWorkers n =>
    cases t with
    | control =>
      have hflushed : f.flushing = .flushed n := hl
      refine Follows.step (.inr ⟨n, hflushed⟩) (fun size _ => ?_)
      have hcounted : (Task.next .control f .sessionWorkersSize size).flushing = .counted n size := by
        simp only [Task.next, hflushed]
      split
      · exact Follows.step (.inr ⟨size, hcounted⟩) (fun _ _ => rfl)
      · next hsize => exact fun _ => ⟨n, size, hcounted, Nat.le_of_not_lt hsize⟩
    | _ => exact hl.elim
  | userLoop =>
    cases t with
    | user n => exact userLoop_follows hl
    | _ => exact hl.elim
  | networkLoop =>
    cases t with
    | network => exact Follows.step (.inr trivial) (fun _ _ => trivial)
    | _ => exact hl.elim

/-- So does every thread from where it starts. -/
theorem started_follows (P : Platform) (server : SegmentServer) (ids : Nat → UInt64) (t : Thread) :
    Follows (rules usage t) (atNext usage t) (fun _ f => atEnd usage t f) .nothing
      ((server.started P ids usage).threads t) := by
  cases t with
  | main => exact (rfl : Task.nothing.ended = false)
  | control =>
    show Follows _ _ _ _ (if usage.stops then server.stop else .pure none)
    split
    · next hstops => exact stop_follows hstops
    · next hstops => exact fun h => absurd h hstops
  | reader n => exact readerThread_follows
  | user n =>
    show Follows _ _ _ _ (if usage.operates then .pure (some ServerLabel.userLoop) else .pure none)
    split
    · next hoperates => exact hoperates
    · trivial
  | network => trivial

/-! ## What it means in the shared state -/

/-- What the main worker and the first `n` session workers have been waited for. -/
def Flushed (w : World) (n : Nat) : Prop := w.mainTasks = 0 ∧ ∀ m < n, w.finished m = true

/-- What is known of the tasks is true. -/
structure Tasks (fs : Thread → Task) (w : World) : Prop where
  isWork : (fs .control).flushing = .running → w.isWork = true
  main : w.mainTasks = 0 → (fs .main).ended = true
  begun : ∀ n, (fs (.reader n)).begun = true → n < w.sessionWorkers.length
  finished : ∀ n, w.finished n = true → (fs (.reader n)).ended = true
  flushed : ∀ n, (fs .control).flushing = .flushed n → Flushed w n
  counted : ∀ n size, (fs .control).flushing = .counted n size →
    Flushed w n ∧ size = w.sessionWorkers.length

/-- The tasks, their number and the flag. -/
structure Kept (w w' : World) : Prop where
  isWork : w'.isWork = w.isWork
  mainTasks : w'.mainTasks = w.mainTasks
  sessionWorkers : w'.sessionWorkers = w.sessionWorkers
  finished : w'.finished = w.finished

/-- The operations that are about tasks or about the flag. -/
def OnTasks : Op → Prop
  | .setIsWork _ | .addMainTask | .mainTaskDone | .addSessionWorker _ | .sessionTaskDone _ => True
  | _ => False

theorem kept_of_sem (hsem : sem ids o c w = some (r, w')) (ho : ¬ OnTasks o) : Kept w w' := by
  have heffect := effect_of_sem hsem
  cases o with
  | setIsWork | addMainTask | mainTaskDone | addSessionWorker | sessionTaskDone => exact absurd trivial ho
  | connect a =>
    rcases heffect with rfl | ⟨rx, tx, rfl⟩
    · exact ⟨rfl, rfl, rfl, rfl⟩
    · exact ⟨rfl, rfl, rfl, rfl⟩
  | read a k =>
    obtain ⟨rx, rfl⟩ := heffect
    exact ⟨rfl, rfl, rfl, rfl⟩
  | write_some a sent rest =>
    obtain ⟨tx, rfl⟩ := heffect
    exact ⟨rfl, rfl, rfl, rfl⟩
  | network =>
    rcases heffect with ⟨a, ec, -, -, rfl⟩ | ⟨a, rx, rfl⟩
    · exact ⟨rfl, rfl, rfl, rfl⟩
    · exact ⟨rfl, rfl, rfl, rfl⟩
  | _ =>
    obtain rfl := heffect
    exact ⟨rfl, rfl, rfl, rfl⟩

section

variable {fs : Thread → Task}

theorem Flushed.kept (h : Flushed w n) (hkept : Kept w w') : Flushed w' n := by
  rw [Flushed, hkept.mainTasks, hkept.finished]
  exact h

/-- Nothing happens to the tasks. -/
theorem Tasks.kept (h : Tasks fs w) (hkept : Kept w w') : Tasks fs w' where
  isWork := by
    rw [hkept.isWork]
    exact h.isWork
  main := by
    rw [hkept.mainTasks]
    exact h.main
  begun := by
    rw [hkept.sessionWorkers]
    exact h.begun
  finished := by
    rw [hkept.finished]
    exact h.finished
  flushed := fun n hn => (h.flushed n hn).kept hkept
  counted := fun n size hn => by
    rw [hkept.sessionWorkers]
    exact ⟨(h.counted n size hn).1.kept hkept, (h.counted n size hn).2⟩

/-- While the accept loop runs, nothing has been flushed. -/
theorem Tasks.not_flushed (h : Tasks fs w) (hended : (fs .main).ended = false) : ¬ Flushed w n := by
  intro hflushed
  have hdone := h.main hflushed.1
  rw [hended] at hdone
  cases hdone

/-- The accept loop creates a worker. -/
theorem Tasks.grow (h : Tasks fs w) (hended : (fs .main).ended = false) (ID : UInt64) :
    Tasks fs { w with sessionWorkers := w.sessionWorkers ++ [ID] } where
  isWork := h.isWork
  main := h.main
  begun := fun n hn => by
    have hlt := h.begun n hn
    rw [List.length_append]
    omega
  finished := h.finished
  flushed := h.flushed
  counted := fun n size hn => absurd (h.counted n size hn).1 (h.not_flushed hended)

/-- What is done in the middle of a task. -/
theorem Tasks.ordinary (h : Tasks fs w) (hf : Midway usage t (fs t)) (ho : Ordinary t o)
    (hsem : sem ids o c w = some (r, w')) : Tasks fs w' := by
  by_cases htask : OnTasks o
  · cases o with
    | addSessionWorker ID =>
      obtain rfl : w' = { w with sessionWorkers := w.sessionWorkers ++ [ID] } := effect_of_sem hsem
      cases t with
      | main => exact h.grow hf ID
      | _ => exact ho.elim
    | setIsWork b | addMainTask | mainTaskDone | sessionTaskDone m =>
      cases t with
      | _ => exact ho.elim
    | _ => exact htask.elim
  · exact h.kept (kept_of_sem hsem htask)

/-- What `stop` does. -/
theorem Tasks.control (h : Tasks fs w) (ho : Special usage .control (fs .control) o)
    (hsem : sem ids o c w = some (r, w')) :
    Tasks (Function.update fs .control (Task.next .control (fs .control) o r)) w' := by
  -- the other threads know what they knew
  have hlearns : ∀ f, Kept w w' → (f.flushing ≠ .running) →
      (∀ n, f.flushing = .flushed n → Flushed w n) →
      (∀ n size, f.flushing = .counted n size → Flushed w n ∧ size = w.sessionWorkers.length) →
      Tasks (Function.update fs .control f) w' := by
    intro f hkept hrunning hflushed hcounted
    have hother : ∀ t ≠ .control, Function.update fs .control f t = fs t :=
      fun t ht => Function.update_of_ne ht _ _
    refine Tasks.kept ⟨?_, ?_, ?_, ?_, ?_, ?_⟩ hkept
    · rw [Function.update_self]
      exact fun hf => absurd hf hrunning
    · rw [hother .main (fun h => Thread.noConfusion h)]
      exact h.main
    · intro n
      rw [hother (.reader n) (fun h => Thread.noConfusion h)]
      exact h.begun n
    · intro n
      rw [hother (.reader n) (fun h => Thread.noConfusion h)]
      exact h.finished n
    · rw [Function.update_self]
      exact hflushed
    · rw [Function.update_self]
      exact hcounted
  have hsame : Kept w w' → (fs .control).flushing = .stopping →
      Tasks (Function.update fs .control (fs .control)) w' := by
    intro hkept _
    rw [Function.update_eq_self]
    exact h.kept hkept
  cases o with
  | getIsWork =>
    refine hlearns _ (kept_of_sem hsem not_false) ?_ ?_ ?_
    all_goals simp [Task.next, ho.2]
  | setIsWork b =>
    obtain rfl : w' = { w with isWork := b } := effect_of_sem hsem
    have hstopping : (fs .control).flushing = .stopping := ho.2
    show Tasks (Function.update fs .control (fs .control)) _
    rw [Function.update_eq_self]
    refine ⟨fun hrunning => ?_, h.main, h.begun, h.finished, h.flushed, h.counted⟩
    rw [hstopping] at hrunning
    cases hrunning
  | acceptorIsOpen | acceptorCancel | acceptorClose | mapCopy | mapSize =>
    exact hsame (kept_of_sem hsem not_false) ho
  | flushMainWorker =>
    have hempty : w.mainTasks = 0 := by
      by_contra hne
      simp [sem, hne] at hsem
    refine hlearns _ (kept_of_sem hsem not_false) ?_ ?_ ?_
    · exact fun h => Flushing.noConfusion h
    · intro n hn
      obtain rfl : 0 = n := Flushing.flushed.inj hn
      exact ⟨hempty, fun m hm => absurd hm (Nat.not_lt_zero m)⟩
    · exact fun _ _ h => Flushing.noConfusion h
  | sessionWorkersSize =>
    obtain ⟨n, hn⟩ := ho
    obtain ⟨rfl, -⟩ := Prod.mk.inj (Option.some.inj hsem)
    have hnext : (Task.next .control (fs .control) .sessionWorkersSize w.sessionWorkers.length).flushing
        = .counted n w.sessionWorkers.length := by
      simp only [Task.next, hn]
    refine hlearns _ (kept_of_sem hsem not_false) ?_ ?_ ?_
    · rw [hnext]
      exact fun h => Flushing.noConfusion h
    · rw [hnext]
      exact fun _ h => Flushing.noConfusion h
    · rw [hnext]
      intro m size hm
      obtain ⟨rfl, rfl⟩ := Flushing.counted.inj hm
      exact ⟨h.flushed n hn, rfl⟩
  | flushSessionWorker n =>
    obtain ⟨size, hn⟩ := ho
    have hfinished : w.finished n = true := by
      by_contra hne
      simp [sem, hne] at hsem
    refine hlearns _ (kept_of_sem hsem not_false) ?_ ?_ ?_
    · exact fun h => Flushing.noConfusion h
    · intro m hm
      obtain rfl : n + 1 = m := Flushing.flushed.inj hm
      obtain ⟨hempty, hall⟩ := (h.counted n size hn).1
      refine ⟨hempty, fun k hk => ?_⟩
      rcases Nat.lt_succ_iff_lt_or_eq.mp hk with hlt | rfl
      · exact hall k hlt
      · exact hfinished
    · exact fun _ _ h => Flushing.noConfusion h
  | _ => exact ho.elim

/-- The beginning and the end of a task. -/
theorem Tasks.task (ht : t ≠ .control) (h : Tasks fs w) (ho : Special usage t (fs t) o)
    (hsem : sem ids o c w = some (r, w')) :
    Tasks (Function.update fs t (Task.next t (fs t) o r)) w' := by
  have hcontrol : ∀ f, Function.update fs t f .control = fs .control :=
    fun f => Function.update_of_ne (Ne.symm ht) _ _
  cases t with
  | control => exact absurd rfl ht
  | user n => exact ho.elim
  | network =>
    cases o with
    | network =>
      show Tasks (Function.update fs .network (fs .network)) w'
      rw [Function.update_eq_self]
      exact h.kept (kept_of_sem hsem not_false)
    | _ => exact ho.elim
  | main =>
    cases o with
    | mainTaskDone =>
      obtain rfl : w' = { w with mainTasks := w.mainTasks - 1 } := effect_of_sem hsem
      refine ⟨?_, fun _ => ?_, fun n => ?_, fun n => ?_, ?_, ?_⟩
      · rw [hcontrol]
        exact h.isWork
      · rw [Function.update_self]
        rfl
      · rw [Function.update_of_ne (fun h => Thread.noConfusion h)]
        exact h.begun n
      · rw [Function.update_of_ne (fun h => Thread.noConfusion h)]
        exact h.finished n
      · rw [hcontrol]
        exact fun n hn => absurd (h.flushed n hn) (h.not_flushed ho)
      · rw [hcontrol]
        exact fun n size hn => absurd (h.counted n size hn).1 (h.not_flushed ho)
    | _ => exact ho.elim
  | reader n =>
    have hmain : ∀ f, Function.update fs (.reader n) f .main = fs .main :=
      fun f => Function.update_of_ne (fun h => Thread.noConfusion h) _ _
    cases o with
    | takeTask m =>
      obtain ⟨rfl, -, hended⟩ := ho
      have hlt : m < w.sessionWorkers.length := by
        by_contra hge
        simp [sem, List.getElem?_eq_none (Nat.le_of_not_lt hge)] at hsem
      refine Tasks.kept ⟨?_, ?_, fun k hk => ?_, fun k hk => ?_, ?_, ?_⟩ (kept_of_sem hsem not_false)
      · rw [hcontrol]
        exact h.isWork
      · rw [hmain]
        exact h.main
      · by_cases hkm : k = m
        · exact hkm ▸ hlt
        · rw [Function.update_of_ne (fun heq => hkm (Thread.reader.inj heq))] at hk
          exact h.begun k hk
      · by_cases hkm : k = m
        · have hdone := h.finished k hk
          rw [hkm, hended] at hdone
          cases hdone
        · rw [Function.update_of_ne (fun heq => hkm (Thread.reader.inj heq))]
          exact h.finished k hk
      · rw [hcontrol]
        exact h.flushed
      · rw [hcontrol]
        exact h.counted
    | sessionTaskDone m =>
      obtain ⟨rfl, hbegun, -⟩ := ho
      obtain rfl : w' = { w with finished := Function.update w.finished m true } := effect_of_sem hsem
      have hmore : ∀ k, Flushed w k →
          Flushed { w with finished := Function.update w.finished m true } k := by
        intro k hk
        refine ⟨hk.1, fun j hj => ?_⟩
        show Function.update w.finished m true j = true
        by_cases hjm : j = m
        · rw [hjm, Function.update_self]
        · rw [Function.update_of_ne hjm]
          exact hk.2 j hj
      refine ⟨?_, ?_, fun k hk => ?_, fun k hk => ?_, ?_, ?_⟩
      · rw [hcontrol]
        exact h.isWork
      · rw [hmain]
        exact h.main
      · by_cases hkm : k = m
        · exact hkm ▸ h.begun m hbegun
        · rw [Function.update_of_ne (fun heq => hkm (Thread.reader.inj heq))] at hk
          exact h.begun k hk
      · by_cases hkm : k = m
        · rw [hkm, Function.update_self]
          rfl
        · have hold : Function.update w.finished m true k = true := hk
          rw [Function.update_of_ne hkm] at hold
          rw [Function.update_of_ne (fun heq => hkm (Thread.reader.inj heq))]
          exact h.finished k hold
      · rw [hcontrol]
        exact fun k hk => hmore k (h.flushed k hk)
      · rw [hcontrol]
        exact fun k size hk => ⟨hmore k (h.counted k size hk).1, (h.counted k size hk).2⟩
    | _ => exact ho.elim

/-- **Every operation keeps the account of the tasks.** -/
theorem Tasks.step (h : Tasks fs w) (ho : (rules usage t).Allowed (fs t) o)
    (hsem : sem ids o c w = some (r, w')) : (rules usage t).Possible (fs t) o r ∧
      Tasks (Function.update fs t ((rules usage t).next (fs t) o r)) w' := by
  constructor
  · cases o with
    | getIsWork =>
      rintro rfl hrunning
      obtain ⟨rfl, -⟩ := Prod.mk.inj (Option.some.inj hsem)
      exact h.isWork hrunning
    | _ => trivial
  · rcases ho with ⟨hf, hordinary⟩ | hspecial
    · show Tasks (Function.update fs t (Task.next t (fs t) o r)) w'
      rw [next_ordinary hordinary hf, Function.update_eq_self]
      exact h.ordinary hf hordinary hsem
    · by_cases ht : t = .control
      · subst ht
        exact h.control hspecial hsem
      · exact h.task ht hspecial hsem

end

/-! ## Behind `stop` -/

/-- The server with what its threads know of their tasks. -/
def tasks (P : Platform) (server : SegmentServer) (ids : Nat → UInt64) (usage : Usage) :
    Disciplined (server.system P ids) Task where
  rules := rules usage
  loop := fun t l f => atLabel usage t f l
  fin := fun t f => atEnd usage t f
  ok := fun _ _ _ _ => True
  inv := Tasks
  block_follows := by
    intro t l f h
    refine (block_follows (P := P) h).mono (fun next f hnext => ?_) (fun _ _ h => h)
    cases next with
    | some l' => exact hnext
    | none => exact hnext
  keeps := fun _ _ _ _ _ _ _ h ho _ hsem => h.step ho hsem

theorem started_tasks (P : Platform) (server : SegmentServer) (ids : Nat → UInt64)
    (usage : Usage) : Tasks (fun _ => .nothing) (server.started P ids usage).world where
  isWork := fun _ => rfl
  main := fun h => Nat.noConfusion h
  begun := fun _ h => Bool.noConfusion h
  finished := fun _ h => Bool.noConfusion h
  flushed := fun _ h => Flushing.noConfusion h
  counted := fun _ _ h => Flushing.noConfusion h

theorem started_holds (P : Platform) (server : SegmentServer) (ids : Nat → UInt64)
    (usage : Usage) :
    (tasks P server ids usage).Holds (server.started P ids usage) (fun _ => .nothing) := by
  refine ⟨started_tasks P server ids usage, fun t => ?_⟩
  refine (started_follows P server ids t).mono (fun next f hnext => ?_) (fun _ _ h => h)
  cases next with
  | some l => exact hnext
  | none => exact hnext

/-- The thread is one of the server's own. -/
def IsServer : Thread → Prop
  | .main | .control | .reader _ => True
  | .user _ | .network => False

/-- No thread of the server can move. -/
def Silent (s : (server.system P ids).State) : Prop :=
  ∀ t, IsServer t → ∀ c, System.step s t c = none

section

variable {s s' : (server.system P ids).State} {fs : Thread → Task}

/-- **Behind the last flush** there is nothing left for the server's threads to do. -/
theorem silent_of_returned (hstops : usage.stops = true) (h : (tasks P server ids usage).Holds s fs)
    (hstop : s.threads .control = .pure none) : Silent s := by
  have hend := h.keeps .control
  rw [hstop] at hend
  obtain ⟨n, size, hcounted, hsize⟩ : ∃ n size, (fs .control).flushing = .counted n size ∧ size ≤ n :=
    hend hstops
  obtain ⟨⟨hmain, hreaders⟩, rfl⟩ := h.inv.counted n size hcounted
  intro t ht c
  by_contra hmoves
  obtain ⟨s', hs⟩ := Option.ne_none_iff_exists'.mp hmoves
  cases t with
  | user m | network => exact ht
  | control => simp [System.step, hstop] at hs
  | main =>
    have hended : (fs .main).ended ≠ false := by
      rw [h.inv.main hmain]
      exact Bool.noConfusion
    rcases h.moves hs with ⟨l, hl, -⟩ | ⟨o, r, ⟨hf, -⟩ | ho, -⟩
    · cases l with
      | acceptLoop => exact hended hl
      | _ => exact hl
    · exact hended hf
    · cases o with
      | mainTaskDone => exact hended ho
      | _ => exact ho
  | reader m =>
    -- the task is over, or there is no such worker
    have hidle : (fs (.reader m)).ended = true ∨
        (fs (.reader m)).begun = false ∧ s.world.sessionWorkers.length ≤ m := by
      rcases Nat.lt_or_ge m s.world.sessionWorkers.length with hlt | hge
      · exact .inl (h.inv.finished m (hreaders m (Nat.lt_of_lt_of_le hlt hsize)))
      · refine .inr ⟨?_, hge⟩
        by_contra hbegun
        exact Nat.not_lt.mpr hge (h.inv.begun m (Bool.not_eq_false _ ▸ hbegun))
    have hmid : ¬ ((fs (.reader m)).begun = true ∧ (fs (.reader m)).ended = false) := by
      rintro ⟨hbegun, hended⟩
      rcases hidle with hdone | ⟨hnone, -⟩
      · exact Bool.false_ne_true (hended.symm.trans hdone)
      · exact Bool.false_ne_true (hnone.symm.trans hbegun)
    rcases h.moves hs with ⟨l, hl, -⟩ | ⟨o, r, ⟨hf, -⟩ | ho, hsem⟩
    · cases l with
      | sessionWork k ptr => exact hmid hl.2
      | _ => exact hl
    · exact hmid hf
    · cases o with
      | takeTask k =>
        obtain ⟨rfl, -, hended⟩ := ho
        rcases hidle with hdone | ⟨-, hge⟩
        · exact Bool.false_ne_true (hended.symm.trans hdone)
        · simp [sem, List.getElem?_eq_none hge] at hsem
      | sessionTaskDone k => exact hmid ho.2
      | _ => exact ho

/-- Nothing is registered, called back or sent from `w` to `w'`. -/
structure Still (w w' : World) : Prop where
  events : w'.events = w.events
  sessionMap : w'.sessionMap = w.sessionMap
  tx : ∀ a, (w'.sessions a).tx = (w.sessions a).tx

theorem still_of_network {c : Choice} {r : Op.network.Res}
    (hsem : sem ids .network c w = some (r, w')) : Still w w' := by
  have htx : ∀ {b : Nat} {g : SessionObject → SessionObject}, (∀ s, (g s).tx = s.tx) →
      ∀ a, ((w.modify b g).sessions a).tx = (w.sessions a).tx := by
    intro b g hg a
    by_cases hab : a = b
    · rw [hab, World.modify_sessions_self, hg]
    · rw [w.modify_sessions_of_ne hab]
  rcases effect_of_sem hsem with ⟨a, ec, -, -, rfl⟩ | ⟨a, rx, rfl⟩
  · exact ⟨rfl, rfl, htx (fun _ => rfl)⟩
  · exact ⟨rfl, rfl, htx (fun _ => rfl)⟩

/-- Only the accept loop registers a session. -/
theorem registered_of_sem (hsem : sem ids o c w = some (r, w')) (ho : ∀ id ptr, o ≠ .mapInsert id ptr) :
    w'.registered = w.registered := by
  have heffect := effect_of_sem hsem
  cases o with
  | mapInsert id ptr => exact absurd rfl (ho id ptr)
  | connect a =>
    rcases heffect with rfl | ⟨rx, tx, rfl⟩
    · rfl
    · rfl
  | read a k =>
    obtain ⟨rx, rfl⟩ := heffect
    rfl
  | write_some a sent rest =>
    obtain ⟨tx, rfl⟩ := heffect
    rfl
  | network =>
    rcases heffect with ⟨a, ec, -, -, rfl⟩ | ⟨a, rx, rfl⟩
    · rfl
    · rfl
  | _ =>
    obtain rfl := heffect
    rfl

/-- What a thread does that is not the server's. -/
theorem step_outside (h : (tasks P server ids usage).Holds s fs) (ht : ¬ IsServer t)
    (hs : System.step s t c = some s') : s'.world.registered = s.world.registered ∧
      ((∀ n, t ≠ .user n) → Still s.world s'.world) := by
  rcases h.moves hs with ⟨l, -, hworld⟩ | ⟨o, r, ho, hsem⟩
  · rw [hworld]
    exact ⟨rfl, fun _ => ⟨rfl, rfl, fun _ => rfl⟩⟩
  · cases t with
    | main | control | reader m => exact absurd trivial ht
    | user m =>
      rcases ho with ⟨-, hordinary⟩ | ho
      · refine ⟨registered_of_sem hsem ?_, fun huser => absurd rfl (huser m)⟩
        rintro id ptr rfl
        exact hordinary
      · exact ho.elim
    | network =>
      rcases ho with ⟨hf, -⟩ | ho
      · exact hf.elim
      · cases o with
        | network =>
          have hsem : sem ids .network c s.world = some (r, s'.world) := hsem
          refine ⟨registered_of_sem hsem ?_, fun _ => still_of_network hsem⟩
          intro id ptr h
          cases h
        | _ => exact ho.elim

theorem Still.trans {w₁ w₂ w₃ : World} (h : Still w₁ w₂) (h' : Still w₂ w₃) : Still w₁ w₃ :=
  ⟨h'.events.trans h.events, h'.sessionMap.trans h.sessionMap, fun a => (h'.tx a).trans (h.tx a)⟩

/-- `stop` has returned. -/
def Returned (usage : Usage) (s : (server.system P ids).State) : Prop :=
  (∃ fs, (tasks P server ids usage).Holds s fs) ∧ s.threads .control = .pure none

/-- **Step lemma.** -/
theorem returned_next (hstops : usage.stops = true) (h : Returned usage s)
    (hs : System.step s t c = some s') : Returned usage s' ∧ s'.world.registered = s.world.registered ∧
      ((∀ n, t ≠ .user n) → Still s.world s'.world) := by
  obtain ⟨⟨fs, h⟩, hreturned⟩ := h
  have ht : ¬ IsServer t := by
    intro ht
    rw [silent_of_returned hstops h hreturned t ht c] at hs
    cases hs
  obtain ⟨f, hnext⟩ := Disciplined.step_rule h (fun _ _ _ => trivial) hs
  refine ⟨⟨⟨_, hnext⟩, ?_⟩, step_outside h ht hs⟩
  have hother : Thread.control ≠ t := by
    rintro rfl
    exact ht trivial
  rw [System.step_other hs hother]
  exact hreturned

/-- **Run lemma.** -/
theorem returned_run {ok : (server.system P ids).State → Thread → Choice → Prop}
    (hstops : usage.stops = true) (h : Returned usage s) (hlater : System.Steps ok s s') :
    Returned usage s' ∧ s'.world.registered = s.world.registered ∧
      ((∀ s t c, ok s t c → ∀ n, t ≠ .user n) → Still s.world s'.world) := by
  refine hlater.invariant (I := fun s' => Returned usage s' ∧ s'.world.registered = s.world.registered ∧
    ((∀ s t c, ok s t c → ∀ n, t ≠ .user n) → Still s.world s'.world)) ?_
    ⟨h, rfl, fun _ => ⟨rfl, rfl, fun _ => rfl⟩⟩
  rintro s₁ t c s₂ ⟨h₁, hregistered, hstill⟩ hok hs
  obtain ⟨h₂, hsame, hquiet⟩ := returned_next hstops h₁ hs
  exact ⟨h₂, hsame.trans hregistered, fun huser => (hstill huser).trans (hquiet (huser s₁ t c hok))⟩

end

/-- **A server that has been stopped is silent for good.** When `stop` has returned, in whatever run,
with whatever users and whatever has failed in it, then in that state and in every later one no thread of
the server can move and no session is registered any more. And as long as no user calls into the server no
callback is called, no entry of the map changes and nothing is sent on any connection. -/
theorem silent_after_stop (P : Platform) (server : SegmentServer) (ids : Nat → UInt64) (operates : Bool)
    {s s' : (server.system P ids).State}
    (hrun : System.Steps System.anyStep (server.started P ids ⟨true, operates⟩) s)
    (hstop : s.threads .control = .pure none) (hlater : System.Steps System.anyStep s s') :
    Silent s' ∧ s'.world.registered = s.world.registered ∧
      (System.Steps (S := server.system P ids) (fun _ t _ => ∀ n, t ≠ .user n) s s' →
        Still s.world s'.world) := by
  have hreturned : Returned ⟨true, operates⟩ s :=
    ⟨Disciplined.run_rule (K := tasks P server ids ⟨true, operates⟩) (fun _ _ _ _ _ _ _ => trivial) hrun
      ⟨_, started_holds P server ids _⟩, hstop⟩
  obtain ⟨⟨⟨fs, h⟩, hreturned'⟩, hregistered, -⟩ := returned_run rfl hreturned hlater
  refine ⟨silent_of_returned rfl h hreturned', hregistered, fun hquiet => ?_⟩
  exact (returned_run rfl hreturned hquiet).2.2 (fun _ _ _ huser => huser)

/-- What the client sends after `stop` has returned. -/
def sentTooLate : List (Thread × Choice) := [(.network, .go), (.network, .delivered 0 [1])]

/-- A client that `stop` has missed is still connected, and what it sends is never read. -/
theorem missed_client_unheard : ∃ s s' : (MissingSession.openServer.system
      jsonPlatform UInt64.ofNat).State, s.threads .control = .pure none ∧
    s'.world.isOpen 0 = true ∧ (s'.world.sessions 0).rx = [1] ∧ Silent s' ∧
    s'.world.registered = s.world.registered ∧ Still s.world s'.world := by
  let start := MissingSession.openServer.started jsonPlatform UInt64.ofNat ⟨true, true⟩
  obtain ⟨s, hexec, hstop, s', hlater, hopen, hrx⟩ : ∃ s,
      System.exec start Snapshot.acceptedThenStop = some s ∧ s.threads .control = .pure none ∧
      ∃ s', System.exec s sentTooLate = some s' ∧ s'.world.isOpen 0 = true ∧
        (s'.world.sessions 0).rx = [1] := ⟨_, rfl, rfl, _, rfl, rfl, rfl⟩
  obtain ⟨hsilent, hregistered, hstill⟩ := silent_after_stop jsonPlatform
    MissingSession.openServer UInt64.ofNat true (System.steps_of_exec hexec (fun _ _ _ => trivial)) hstop
    (System.steps_of_exec hlater (fun _ _ _ => trivial))
  refine ⟨s, s', hstop, hopen, hrx, hsilent, hregistered, hstill (System.steps_of_exec hlater ?_)⟩
  have hnetwork : ∀ step ∈ sentTooLate, step.1 = .network := by decide
  intro _ step hstep n
  rw [hnetwork step hstep]
  exact fun h => Thread.noConfusion h

end NetworkApplication.Silence
