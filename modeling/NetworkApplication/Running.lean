/-
A server that runs, and a client that reads.

`start` queues the task and sets the flag, `stop` clears the flag and flushes the
worker. What should hold in between is that the task is there: in the queue, or being
executed. It does in the runs whose steps are all `Proper`. Three things break it.

A flush leaves the worker in `Flush`, and `addTask` drops what it is given then, so a
`start` after a `stop` that has flushed queues nothing. `SegmentServer::start` queues
the task before it sets the flag, and the worker may test the flag in between.
An exception that leaves the task ends it.

The invariant follows the caller. Inside `start` it says whether the task has been
pushed and whether the flag has been stored (`Starts`), and that what has been pushed is
there (`Held`). It says nothing of the caller inside `stop`.
-/
import NetworkApplication.MainWorker
import NetworkApplication.Composition

set_option autoImplicit false

namespace NetworkApplication.Running

open NetworkApplication.Program NetworkApplication.Pool MainWorker NetworkApplication.Composition

variable {P : Platform} {owner : Owner} {ids : Nat → UInt64} {a : Option Nat} {n x : Nat}

/-! ## The property -/

/-- The worker's `n`-th thread is inside the task `x`. -/
def Executes (n x : Nat) (p : MainProg (Option MainLabel)) : Prop :=
  p = .pure (some (.task n x)) ∨ (∃ o k, p = .op o k) ∧
    p.Ends (fun next => next = some (.task n x) ∨ ∃ threw, next = some (.ended n x threw))

/-- A task is queued on the main worker or is being executed. -/
def HasTask (st : (system owner ids).State) : Prop :=
  st.world.worker.queue.tasks ≠ [] ∨ ∃ n x, Executes n x (st.threads (.worker n))

/-- The caller's last call was a `start`, and that has returned. -/
def Returned (st : (system owner ids).State) : Prop :=
  st.threads .control = .pure (some .started) ∨ st.threads .control = caller owner true

/-- A `stop` begins: the caller calls it, or a `start` whose connect has failed does. -/
def BeginsStop (st : (system owner ids).State) (t : MainThread) (c : MainChoice) : Prop :=
  t = .control ∧ ((c = .call .stop ∧ ∃ b, st.threads t = caller owner b) ∨
    ∃ k, st.threads t = .op (.net (.setIsWork false)) k)

/-- From when a `start` has returned until a `stop` begins, a server's flag is set and
its accept loop is queued or being executed. -/
def Accepts (P : Platform) (server : SegmentServer) (ids : Nat → UInt64) (w : World)
    (ok : (system (ofServer P server) ids).State → MainThread → MainChoice → Prop) : Prop :=
  ∀ st, System.Steps ok (constructed (ofServer P server) ids w) st → Returned st →
    ∀ st', System.Steps (fun s t c => ok s t c ∧ ¬ BeginsStop s t c) st st' →
      st'.world.net.isWork = true ∧ HasTask st'

/-- From when a `start` whose connect has succeeded has returned until a `stop` begins or
the connection fails, a client's reading task is queued or being executed. A connect that
fails stops the client, so that the flag tells whether it has succeeded. -/
def Reads (P : Platform) (client : SegmentClient) (ids : Nat → UInt64) (w : World)
    (ok : (system (ofClient P client) ids).State → MainThread → MainChoice → Prop) : Prop :=
  ∀ st, System.Steps ok (constructed (ofClient P client) ids w) st → Returned st →
    st.world.net.isWork = true →
    ∀ st', System.Steps (fun s t c => ok s t c ∧ ¬ BeginsStop s t c) st st' →
      st'.world.net.isWork = true ∧ (st'.world.net.hasError client.socket = false → HasTask st')

/-! ## The condition -/

/-- The operation sets the flag. -/
def setsIsWork : MainOp → Bool
  | .net (.setIsWork true) => true
  | _ => false

/-- The flag is still to be set on every path through the program. -/
def Sets : MainProg (Option MainLabel) → Prop
  | .op o k => setsIsWork o = true ∨ ∀ r, Sets (k r)
  | _ => False

/-- The worker takes new tasks. -/
def Accepting (w : MainWorld) : Prop := w.worker.status ≠ .Stop ∧ w.worker.status ≠ .Flush

/-- The session whose error ends the task has failed. -/
def Broken (a : Option Nat) (w : MainWorld) : Prop := ∃ b, a = some b ∧ w.net.hasError b = true

/-- The operation at hand, with the outcome that it has here, ends the worker's `n`-th
thread in the task: the accept loop looks up an id that is not in the map, or what has
been read makes the task throw. -/
def EndsTask (n : Nat) (st : (system owner ids).State) (c : MainChoice) : Prop :=
  ∃ o k r w, st.threads (.worker n) = .op o k ∧
    (system owner ids).sem (.worker n) o c st.world = some (r, w) ∧
    (k r = .crash ∨ ∃ x, k r = .pure (some (.ended n x true)))

/-- What a step has to be like. `a` is the session whose error ends the task, if there is
one. -/
structure Proper (a : Option Nat) (st : (system owner ids).State) (t : MainThread)
    (c : MainChoice) : Prop where
  /-- `start` is called on a worker that takes new tasks, with no error left from before. -/
  fresh : ∀ b, t = .control → st.threads t = caller owner b → c = .call .start →
    Accepting st.world ∧ ¬ Broken a st.world
  /-- The task does not test the flag while `start` is still to set it. -/
  tests : ∀ n k, t = .worker n → st.threads t = .op (.net .getIsWork) k →
    Sets (st.threads .control) → st.world.net.isWork = true
  /-- The task neither crashes nor is left by an exception. -/
  ends : ∀ n, t = .worker n → ¬ EndsTask n st c

/-! ## Programs -/

/-- The operations of the worker that neither end its taking tasks nor take one away. -/
def TameWork : WorkerOp → Prop
  | .setStatus s => s ≠ .Stop ∧ s ≠ .Flush
  | .clear | .takeFront => False
  | _ => True

/-- The operations that leave alone what the task depends on. -/
def Tame (a : Option Nat) : MainOp → Prop
  | .net (.setIsWork _) | .call _ => False
  | .net (.makeSession _) => a = none
  | .work o => TameWork o
  | _ => True

/-- The operation pushes a task. -/
def pushes : MainOp → Bool
  | .work .push => true
  | _ => false

/-- What an operation shows of a worker that takes new tasks. -/
def SeesAccepting : (o : MainOp) → o.Res → Prop
  | .work .getStatus, s => s ≠ .Stop ∧ s ≠ .Flush
  | _, _ => True

/-- What an operation shows while the flag is set and the session has not failed. -/
def SeesWork (a : Option Nat) : (o : MainOp) → o.Res → Prop
  | .net .getIsWork, r => r = true
  | .net (.getCriticalError b), r => a = some b → r = false
  | _, _ => True

/-- An operation of a `start` that has stopped the client: the flag stays clear. -/
def Clear : MainOp → Prop
  | .net (.setIsWork true) | .call _ => False
  | _ => True

/-- A `start` that has stopped the client. -/
def Fails (p : MainProg (Option MainLabel)) : Prop :=
  p.AllOps Clear ∧ p.Ends (· = some .started)

/-- A `start` on a worker that takes new tasks: it ends with the task pushed and the flag
stored, unless it stops the client. -/
def Starts (a : Option Nat) : Bool → Bool → MainProg (Option MainLabel) → Prop
  | pushed, stored, .pure next => next = some .started ∧ pushed = true ∧ stored = true
  | pushed, stored, .op o k =>
    (o = .net (.setIsWork false) ∧ a ≠ none ∧ ∀ r, Fails (k r)) ∨
    ((Tame a o ∨ setsIsWork o = true) ∧
      ∀ r, SeesAccepting o r → Starts a (pushed || pushes o) (stored || setsIsWork o) (k r))
  | _, _, _ => True

/-- A round of the task `x`: while the flag is set and the session has not failed it goes
on to the next one, unless it throws. -/
def Stays (a : Option Nat) (n x : Nat) : MainProg (Option MainLabel) → Prop
  | .pure next => next = some (.task n x) ∨ next = some (.ended n x true)
  | .throw _ => False
  | .crash => True
  | .op o k => ∀ r, SeesWork a o r → Stays a n x (k r)

/-- The labels of the worker's `n`-th thread. -/
def OfWorker (n : Nat) : MainLabel → Prop
  | .runThreadTask m | .task m _ | .ended m _ _ => m = n
  | _ => False

/-- A task that is taken is the next thing that is executed. -/
def Takes (n : Nat) : (o : MainOp) → (o.Res → MainProg (Option MainLabel)) → Prop
  | .work .takeFront, k => k none = .crash ∧ ∀ x, k (some x) = .pure (some (.task n x))
  | _, _ => False

/-- A program of the worker's `n`-th thread. -/
def Works (a : Option Nat) (n : Nat) : MainProg (Option MainLabel) → Prop
  | .pure next => ∀ l, next = some l → OfWorker n l
  | .op o k => Takes n o k ∨ Tame a o ∧ ∀ r, Works a n (k r)
  | _ => True

/-- What a server or a client has to be like. -/
structure Sound (owner : Owner) (a : Option Nat) : Prop where
  start : Starts a false false (onNet owner.start >>= fun _ => pure (some .started))
  sets : Sets (onNet owner.start >>= fun _ => pure (some .started))
  stays : ∀ n x, Stays a n x (task owner n x)
  tame : ∀ n x, (task owner n x).AllOps (Tame a)
  begins : ∀ n x, ∃ o k, task owner n x = .op o k

/-! ## What a server and a client are like -/

/-- `w'` still has what the task depends on in `w`. -/
structure Kept (a : Option Nat) (w w' : MainWorld) : Prop where
  isWork : w'.net.isWork = w.net.isWork
  broken : Broken a w → Broken a w'
  accepting : Accepting w → Accepting w'
  tasks : w.worker.queue.tasks ≠ [] → w'.worker.queue.tasks ≠ []

/-- Only the store of the flag changes it. -/
theorem isWork_effect {o : Op} {w w' : World} (h : o.Effect w w') (ho : ∀ b, o ≠ .setIsWork b) :
    w'.isWork = w.isWork := by
  cases o with
  | setIsWork b => exact absurd rfl (ho b)
  | connect b =>
    rcases h with rfl | ⟨rx, tx, rfl⟩
    · rfl
    · rfl
  | read b m =>
    obtain ⟨rx, rfl⟩ := h
    rfl
  | write_some b sent rest =>
    obtain ⟨tx, rfl⟩ := h
    rfl
  | network =>
    rcases h with ⟨b, ec, -, -, rfl⟩ | ⟨b, rx, rfl⟩
    · rfl
    · rfl
  | _ =>
    cases h
    rfl

/-- An error flag stays set, for as long as its session is not made anew. -/
theorem hasError_effect {o : Op} {w w' : World} {b : Nat} (h : o.Effect w w')
    (ho : ∀ id, o ≠ .makeSession id) (hb : w.hasError b = true) : w'.hasError b = true := by
  have hmodify : ∀ {d : Nat} {f : SessionObject → SessionObject},
      (∀ x, x.criticalError = true → (f x).criticalError = true) →
        (w.modify d f).hasError b = true := by
    intro d f hf
    by_cases hbd : b = d
    · rw [hbd, World.hasError, World.modify_sessions_self]
      rw [hbd] at hb
      exact hf _ hb
    · rw [World.hasError, w.modify_sessions_of_ne hbd]
      exact hb
  cases o with
  | makeSession id => exact absurd rfl (ho id)
  | connect d =>
    rcases h with rfl | ⟨rx, tx, rfl⟩
    · exact hb
    · exact hmodify (fun _ hx => hx)
  | read d m =>
    obtain ⟨rx, rfl⟩ := h
    exact hmodify (fun _ hx => hx)
  | write_some d sent rest =>
    obtain ⟨tx, rfl⟩ := h
    exact hmodify (fun _ hx => hx)
  | close d | async_accept d =>
    cases h
    exact hmodify (fun _ hx => hx)
  | setCriticalError d =>
    cases h
    exact hmodify (fun _ _ => rfl)
  | network =>
    rcases h with ⟨d, ec, -, -, rfl⟩ | ⟨d, rx, rfl⟩
    · exact hmodify (fun _ hx => hx)
    · exact hmodify (fun _ hx => hx)
  | _ =>
    cases h
    exact hb

variable {o : MainOp} {c : MainChoice} {r : o.Res} {w w' : MainWorld} {t : MainThread}

theorem kept_work {o : WorkerOp} {c : WorkerChoice} {r : o.Res} {v v' : WorkerState MainThread}
    (ho : TameWork o) (h : Worker.sem t o c v = some (r, v')) :
    (v'.status = v.status ∨ v'.status ≠ .Stop ∧ v'.status ≠ .Flush) ∧
      (v.queue.tasks ≠ [] → v'.queue.tasks ≠ []) := by
  have heffect := Worker.effect_of_sem h
  cases o with
  | setStatus s =>
    obtain rfl := heffect
    exact ⟨.inr ho, id⟩
  | clear => exact ho.elim
  | takeFront => exact ho.elim
  | push =>
    obtain rfl := heffect
    exact ⟨.inl rfl, fun _ => List.append_ne_nil_of_right_ne_nil _ nofun⟩
  | lock | wakeFor =>
    obtain ⟨-, rfl⟩ := heffect
    exact ⟨.inl rfl, id⟩
  | wakeEmpty =>
    obtain ⟨-, -, rfl⟩ := heffect
    exact ⟨.inl rfl, id⟩
  | runTask x =>
    obtain ⟨threw, rfl⟩ := heffect
    exact ⟨.inl rfl, id⟩
  | join =>
    obtain ⟨m, -, -, rfl⟩ := heffect
    exact ⟨.inl rfl, id⟩
  | _ =>
    obtain rfl := heffect
    exact ⟨.inl rfl, id⟩

/-- An operation of the server or client itself. -/
theorem sem_net {o : Op} {r : o.Res} (h : MainWorker.sem ids t (.net o) c w = some (r, w')) :
    ∃ net, o.Effect w.net net ∧ w' = { w with net := net } := by
  cases c with
  | net c =>
    cases hsem : NetworkApplication.sem ids o c w.net with
    | none => simp [MainWorker.sem, hsem] at h
    | some x =>
      obtain ⟨r', net⟩ := x
      simp only [MainWorker.sem, hsem, Option.some.injEq, Prod.mk.injEq] at h
      exact ⟨net, effect_of_sem hsem, h.2.symm⟩
  | _ => cases h

/-- An operation of its main worker. -/
theorem sem_work {o : WorkerOp} {r : o.Res}
    (h : MainWorker.sem ids t (.work o) c w = some (r, w')) :
    ∃ c' worker, Worker.sem t o c' w.worker = some (r, worker) ∧
      w' = { w with worker := worker } := by
  cases c with
  | work c =>
    cases hsem : Worker.sem t o c w.worker with
    | none => simp [MainWorker.sem, hsem] at h
    | some x =>
      simp only [MainWorker.sem, hsem, Option.some.injEq, Prod.mk.injEq] at h
      obtain ⟨rfl, rfl⟩ := h
      exact ⟨c, x.2, hsem, rfl⟩
  | _ => cases h

/-- A tame operation keeps what the task depends on. -/
theorem kept_of_sem (ho : Tame a o) (h : MainWorker.sem ids t o c w = some (r, w')) :
    Kept a w w' := by
  cases o with
  | call b => exact ho.elim
  | net o =>
    obtain ⟨net, heffect, rfl⟩ := sem_net h
    refine ⟨isWork_effect heffect ?_, ?_, id, id⟩
    · rintro b rfl
      exact ho
    · rintro ⟨b, rfl, hb⟩
      refine ⟨b, rfl, hasError_effect heffect ?_ hb⟩
      rintro id rfl
      cases ho
  | work o =>
    obtain ⟨c', worker, hsem, rfl⟩ := sem_work h
    obtain ⟨hstatus, htasks⟩ := kept_work ho hsem
    refine ⟨rfl, id, fun haccepting => ?_, htasks⟩
    rcases hstatus with hsame | hstatus
    · show worker.status ≠ .Stop ∧ worker.status ≠ .Flush
      rw [hsame]
      exact haccepting
    · exact hstatus

/-- The thread is inside the task, in a round that goes on. -/
def InTask (a : Option Nat) (n x : Nat) (p : MainProg (Option MainLabel)) : Prop :=
  Stays a n x p ∧ Executes n x p

/-- The session has failed, or there is a task that goes on. -/
def Held (a : Option Nat) (st : (system owner ids).State) : Prop :=
  Broken a st.world ∨ st.world.worker.queue.tasks ≠ [] ∨
    ∃ n x, InTask a n x (st.threads (.worker n))

/-- Every thread but the caller's does what it should. -/
structure Others (a : Option Nat) (st : (system owner ids).State) : Prop where
  workers : ∀ n, Works a n (st.threads (.worker n))
  network : (st.threads .network).AllOps (Tame a) ∧
    (st.threads .network).Ends (· = some .network)

section OtherSteps

variable {st st' : (system owner ids).State}

end OtherSteps

/-! ## Steps of the caller -/

section CallerSteps

variable {st st' : (system owner ids).State}

/-- The operation is no choice of the caller. -/
def NoCall : MainOp → Prop
  | .call _ => False
  | _ => True

/-- The caller is in or behind a `stop`, or has not called anything yet. -/
def Off (owner : Owner) (p : MainProg (Option MainLabel)) : Prop :=
  p = caller owner false ∨ p.AllOps NoCall ∧
    p.Ends (fun next => next = none ∨ next = some .idle ∨ ∃ l, next = some (.stopping l))

end CallerSteps

/-! ## The invariant -/

/-- Where the caller is, and what holds there. -/
inductive Phase (a : Option Nat) (st : (system owner ids).State) : Prop
  | off (hp : Off owner (st.threads .control))
  | starting (pushed stored : Bool) (hp : Starts a pushed stored (st.threads .control))
      (haccepting : Accepting st.world) (hpushed : pushed = true → Held a st)
      (hstored : stored = true → st.world.net.isWork = true)
      (hsets : stored = false → Sets (st.threads .control))
  | serving (hp : st.threads .control = caller owner true) (haccepting : Accepting st.world)
      (hwork : st.world.net.isWork = true) (hheld : Held a st)
  | failed (hp : st.threads .control = caller owner true ∨ Fails (st.threads .control))
      (ha : a ≠ none) (hwork : st.world.net.isWork = false)

section Invariant

variable {st st' : (system owner ids).State}

/-- What holds from then on, until a `stop` begins. -/
structure Serving (a : Option Nat) (st : (system owner ids).State) : Prop where
  others : Others a st
  accepting : Accepting st.world
  isWork : st.world.net.isWork = true
  held : Held a st
  caller : st.threads .control = caller owner true ∨
    ∃ pushed stored, Starts a pushed stored (st.threads .control)

end Invariant

/-- A server. -/
def oneServer : SegmentServer := ⟨true, 7, false⟩

/-- It has just been constructed. -/
abbrev new : (system (ofServer jsonPlatform oneServer) (fun _ => 0)).State :=
  constructed (ofServer jsonPlatform oneServer) (fun _ => 0) World.init

/-- A client. -/
def oneClient : SegmentClient := ⟨0, 7, false⟩

/-- A client's `start` connects, once the flag is stored, and queues its task. -/
def connects : List (MainThread × MainChoice) :=
  (.control, .net .go) :: (.control, .net (.code .success))
    :: List.replicate 5 (.control, .work .go)

/-- Neither a step of the worker nor a call of `start`. -/
def calm : MainThread × MainChoice → Bool
  | (.worker _, _) | (.control, .call .start) => false
  | _ => true

end NetworkApplication.Running
