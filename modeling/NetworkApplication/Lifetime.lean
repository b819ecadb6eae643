/-
An `Async` session, its completion handlers, and its end.

In the `Async` mode a call starts an operation and returns; the operation completes later,
and the io thread runs its handler. The handlers of a session's operations capture the
session, its `ConnectHandler` or its `TransportHandler` as `this`, and `~Session` waits for
none of them: it closes the socket, which makes the operations complete with an error.

Operations in flight are numbered in the order in which they are started. Handler `k` is a
thread that waits for operation `k`, as the io thread does for all of them. The callbacks of
the user are the session's; what the user does in them, or on threads of its own, are the
calls of the `user` threads, which may come between any two steps of a handler. A call is
not made on a destroyed session, and the destructor does not run beside another call; that
much is the user's to see to.
-/
import NetworkApplication.AsyncRead
import NetworkApplication.AsyncWrite
import NetworkApplication.Disciplines
import Mathlib.Data.Finset.Insert
import Mathlib.Data.Finset.Erase

set_option autoImplicit false

namespace NetworkApplication

open NetworkApplication.Program NetworkApplication.Pool NetworkApplication.Disciplines

namespace ConnectHandler

variable (ch : ConnectHandler)

/-- The completion handler of `async_connect`. -/
def connected (ec : ErrorCode) : NetProg Unit :=
  Prog.tryCatch (do
    Prog.when (check_error ec) (do
      invoke ch.onError ec
      ch.disconnect)
    invoke ch.onConnect ec) (fun _ => pure ())

end ConnectHandler

namespace AcceptHandler

variable (ah : AcceptHandler)

/-- The completion handler of `async_accept`. -/
def accepted (ec : ErrorCode) : NetProg Unit := do
  Prog.when (check_error ec) (invoke ah.onError ec)
  invoke ah.onAccept ec

end AcceptHandler

namespace Lifetime

/-- An asynchronous operation of a session. -/
inductive Operation where
  | connect
  | accept
  | headers
  | payload (json_len : Nat)
  | write (message : TransportMessage)

/-- How it completes; only a read has bytes. -/
abbrev Completion := Except ErrorCode (List UInt8)

/-- What the user calls. -/
inductive Call where
  | connect
  | accept
  | read
  | write (message : Option Message)
  | disconnect
  | destroy

/-- The operations: those of the interface, the start of an asynchronous one, the wait for its
completion, and the begin and the end of a call. -/
inductive LifeOp where
  | net (o : Op)
  | start (operation : Operation)
  | await (k : Nat)
  | call
  | returned
  | destroyed
  | completion

abbrev LifeOp.Res : LifeOp → Type
  | .net o => o.Res
  | .await _ => Operation × Completion
  | .call => Call
  | _ => Unit

abbrev Life : Signature := ⟨LifeOp, LifeOp.Res⟩

abbrev LifeProg := Prog Life Exception

/-- A function that starts no asynchronous operation. -/
def lift {α : Type} : NetProg α → LifeProg α
  | .pure a => .pure a
  | .throw e => .throw e
  | .crash => .crash
  | .op o k => .op (.net o) (fun r => lift (k r))

/-- One operation. -/
def perform (o : LifeOp) : LifeProg o.Res := Prog.perform (E := Life) o

/-! ## The functions -/

variable (P : Platform) (s : Session) (ah : AcceptHandler)

/-- `Session::connect`. -/
def connect : LifeProg Unit := perform (.start .connect)

/-- `Session::accept`. -/
def accept : LifeProg Unit := perform (.start .accept)

/-- `Session::read`. -/
def read : LifeProg Unit := do
  let is_open ← perform (.net (.isOpen s.addr))
  Prog.when is_open (perform (.start .headers))

/-- `Session::write`. -/
def write (message : Option Message) : LifeProg Unit := do
  let transportMessage := MessageHandler.serialize P message
  lift (invoke (s.transport_handler P).onWriteHandler
    (transportMessage.payload, transportMessage.payload.length))
  perform (.start (.write transportMessage))

/-- `~Session`. -/
def destroy : LifeProg Unit := do
  lift s.disconnect
  perform .destroyed

/-- The completion handler of an operation. The accept handler's callback is the one that
`Session::accept` has set. -/
def handler : Operation → Completion → LifeProg Unit
  | .connect, r => lift (s.connection_handler.connected (TransportHandler.readError r))
  | .accept, r => lift ({ ah with onAccept := some (fun ec => invoke s.on_accept ec) }.accepted
      (TransportHandler.readError r))
  | .headers, r => do
    match ← lift ((s.transport_handler P).headersRead r) with
    | some json_len => perform (.start (.payload json_len))
    | none => return
  | .payload _, r => lift ((s.transport_handler P).payloadRead P r)
  | .write transportMessage, r => lift ((s.transport_handler P).written transportMessage
      (TransportHandler.readError r))

/-! ## The threads -/

/-- The user's calls, the handlers by the numbers of their operations, and the network. -/
inductive LifeThread where
  | user (n : Nat)
  | handler (k : Nat)
  | network
  deriving DecidableEq

/-- The loops. -/
inductive LifeLabel where
  | user
  | network

/-- The shared state: the operations that have been started, with the completion of those that
have completed, the users with a call under way, and whether `~Session` has returned. -/
structure LifeWorld where
  world : World
  operations : List (Operation × Option Completion)
  calling : Finset Nat
  destroyed : Bool

/-- What the environment chooses. -/
inductive LifeChoice where
  | go
  | net (c : Choice)
  | call (c : Call)
  | completes (k : Nat) (r : Completion)

/-- An operation may complete in this way: with an error at any time, as a closed socket makes
it; without one only on an open socket, and a read with the bytes it asks for. -/
def CanComplete (is_open : Bool) : Operation → Completion → Prop
  | _, .error ec => ec.failed = true
  | .accept, .ok _ => True
  | .headers, .ok bytes => is_open = true ∧ bytes.length = 8
  | .payload json_len, .ok bytes => is_open = true ∧ bytes.length = json_len
  | _, .ok _ => is_open = true

instance (is_open : Bool) (operation : Operation) (r : Completion) :
    Decidable (CanComplete is_open operation r) := by
  cases r <;> cases operation <;> unfold CanComplete <;> infer_instance

/-- The operation has completed; an accept opens the socket. -/
def completed (a k : Nat) (operation : Operation) (r : Completion) (w : LifeWorld) : LifeWorld :=
  { w with
    operations := w.operations.set k (operation, some r)
    world := match operation, r with
      | .accept, .ok _ => w.world.modify a (fun o => { o with isOpen := true })
      | _, _ => w.world }

/-- What the operations do. -/
def lifeSem (a : Nat) (t : LifeThread) :
    (o : LifeOp) → LifeChoice → LifeWorld → Option (o.Res × LifeWorld)
  | .net o, .net c, w => (sem (fun _ => 0) o c w.world).map (fun x => (x.1, { w with world := x.2 }))
  | .start operation, _, w =>
    -- `async_connect` opens the socket
    some ((), { w with
      operations := w.operations ++ [(operation, none)]
      world := match operation with
        | .connect => w.world.modify a (fun o => { o with isOpen := true })
        | _ => w.world })
  | .await k, _, w =>
    match w.operations[k]? with
    | some (operation, some r) => some ((operation, r), w)
    | _ => none
  | .call, .call c, w =>
    match t with
    | .user n => if w.destroyed then none else some (c, { w with calling := insert n w.calling })
    | _ => none
  | .returned, _, w =>
    match t with
    | .user n => some ((), { w with calling := w.calling.erase n })
    | _ => none
  | .destroyed, _, w =>
    match t with
    | .user n =>
      if w.calling = {n} then some ((), { w with calling := ∅, destroyed := true }) else none
    | _ => none
  | .completion, .completes k r, w =>
    match w.operations[k]? with
    | some (operation, none) =>
      if CanComplete (w.world.isOpen a) operation r then some ((), completed a k operation r w)
      else none
    | _ => none
  | _, _, _ => none

/-- The user's loop: one call after the other, none behind the destructor. -/
def userLoop : LifeProg (Option LifeLabel) := do
  match ← perform .call with
  | .destroy =>
    destroy s
    return none
  | .connect => connect
  | .accept => accept
  | .read => read s
  | .write message => write P s message
  | .disconnect => lift s.disconnect
  perform .returned
  return some .user

def block : LifeLabel → LifeProg (Option LifeLabel)
  | .user => userLoop P s
  | .network => perform .completion >>= fun _ => return some .network

/-- The pool. -/
abbrev system : System where
  sig := Life
  Exn := Exception
  Tid := LifeThread
  Label := LifeLabel
  World := LifeWorld
  Choice := LifeChoice
  decTid := inferInstance
  sem := lifeSem s.addr
  block := block P s

/-- What the io thread does with operation `k`. -/
def completes (k : Nat) : LifeProg (Option LifeLabel) := do
  let (operation, r) ← perform (.await k)
  handler P s ah operation r
  return none

/-- A session that has been constructed. -/
def constructed (w : World) : (system P s).State where
  world := ⟨w, [], ∅, false⟩
  threads := fun
    | .user _ => .pure (some .user)
    | .handler k => completes P s ah k
    | .network => .pure (some .network)

/-! ## What a thread does next -/

/-- How far a thread has got. -/
inductive Stage where
  | idle
  | calling
  | waiting
  | running
  | over
  deriving DecidableEq

/-- The operation of a stage. -/
def Next : LifeThread → Stage → LifeOp → Prop
  | .user _, .idle, o => o = .call
  | .user _, .calling, .net _ | .user _, .calling, .start _ => True
  | .user _, .calling, .returned | .user _, .calling, .destroyed => True
  | .handler k, .waiting, o => o = .await k
  | .handler _, .running, .net _ | .handler _, .running, .start _ => True
  | .network, .running, o => o = .completion
  | _, _, _ => False

/-- The stage behind it. -/
def after (f : Stage) : LifeOp → Stage
  | .call => .calling
  | .returned => .idle
  | .destroyed => .over
  | .await _ => .running
  | _ => f

/-- The discipline of thread `t`. -/
def rules (t : LifeThread) : Discipline Life Stage where
  Allowed := Next t
  Possible := fun _ _ _ => True
  next := fun f o _ => after f o
  Crash := fun _ => t ≠ .network

/-- Where a thread goes on or ends. -/
def Loop : LifeThread → LifeLabel → Stage → Prop
  | .user _, .user, f => f = .idle
  | .network, .network, f => f = .running
  | _, _, _ => False

def Ended : LifeThread → Stage → Prop
  | .user _, f => f = .over ∨ f = .calling
  | .handler _, f => f = .running
  | .network, _ => False

variable {P s ah} {t : LifeThread} {f : Stage}

/-- In the middle of a call or of a handler everything is allowed that starts nothing. -/
theorem follows_lift {α : Type} {post : α → Stage → Prop} {exn : Exception → Stage → Prop}
    (ht : t ≠ .network) (hnet : ∀ o, Next t f (.net o)) (p : NetProg α) (hpost : ∀ a, post a f) (hexn : ∀ e, exn e f) :
    Follows (rules t) post exn f (lift p) := by
  induction p with
  | pure a => exact hpost a
  | throw e => exact hexn e
  | crash => exact ht
  | op o k ih => exact ⟨hnet o, fun r _ => ih r⟩

/-- The user's loop. -/
theorem follows_userLoop (n : Nat) : Follows (rules (.user n)) (fun next f => match next with
      | some l => Loop (.user n) l f
      | none => Ended (.user n) f) (fun _ f => Ended (.user n) f) .idle (userLoop P s) := by
  have hreturns : Follows (rules (.user n)) (fun next f => match next with
        | some l => Loop (.user n) l f
        | none => Ended (.user n) f) (fun _ f => Ended (.user n) f) .calling
      (perform .returned >>= fun _ => return some LifeLabel.user) :=
    Follows.step trivial (fun _ _ => rfl)
  have hlift : ∀ {α : Type} (p : NetProg α), Follows (rules (.user n)) (fun _ f => f = .calling)
      (fun _ f => Ended (.user n) f) .calling (lift p) := fun p =>
    follows_lift (t := .user n) (f := .calling) nofun (fun _ => trivial) p (fun _ => rfl) (fun _ => .inr rfl)
  have hstart : ∀ operation, Follows (rules (.user n)) (fun _ f => f = .calling)
      (fun _ f => Ended (.user n) f) .calling (perform (.start operation)) := fun _ =>
    Follows.call trivial (fun _ _ => rfl)
  -- each call returns to the loop, but for the one that destroys the session
  refine Follows.step rfl (fun c _ => ?_)
  cases c with
  | destroy =>
    refine Follows.bind (M := fun _ f => f = .over) (Follows.bind (hlift _) ?_) ?_
    · rintro _ f rfl
      exact Follows.call trivial (fun _ _ => rfl)
    · rintro _ f rfl
      exact .inl rfl
  | connect =>
    refine Follows.bind (hstart _) ?_
    rintro _ f rfl
    exact hreturns
  | accept =>
    refine Follows.bind (hstart _) ?_
    rintro _ f rfl
    exact hreturns
  | read =>
    refine Follows.bind (M := fun _ f => f = .calling) (Follows.step trivial (fun is_open _ => ?_)) ?_
    · exact Follows.when (fun _ => hstart _) (fun _ => rfl)
    · rintro _ f rfl
      exact hreturns
  | write message =>
    refine Follows.bind (M := fun _ f => f = .calling) (Follows.bind (hlift _) ?_) ?_
    · rintro _ f rfl
      exact hstart _
    · rintro _ f rfl
      exact hreturns
  | disconnect =>
    refine Follows.bind (hlift _) ?_
    rintro _ f rfl
    exact hreturns

/-- A completion handler. -/
theorem follows_handler (k : Nat) (operation : Operation) (r : Completion) :
    Follows (rules (.handler k)) (fun _ f => f = .running) (fun _ f => Ended (.handler k) f)
      .running (handler P s ah operation r) := by
  have hlift : ∀ {α : Type} (p : NetProg α), Follows (rules (.handler k))
      (fun _ f => f = .running) (fun _ f => Ended (.handler k) f) .running (lift p) := fun p =>
    follows_lift (t := .handler k) (f := .running) nofun (fun _ => trivial) p (fun _ => rfl) (fun _ => rfl)
  cases operation with
  | headers =>
    refine Follows.bind (hlift _) ?_
    rintro json_len f rfl
    cases json_len with
    | none => exact rfl
    | some json_len => exact Follows.call trivial (fun _ _ => rfl)
  | connect => exact hlift _
  | accept => exact hlift _
  | payload json_len => exact hlift _
  | write message => exact hlift _

/-! ## What an operation may change -/

variable {fs : LifeThread → Stage} {w w' : LifeWorld}

/-- What an operation of thread `t` that goes through does to the shared state. -/
def LifeOp.Effect (t : LifeThread) : LifeOp → LifeWorld → LifeWorld → Prop
  | .net _, w, w' => ∃ world, w' = { w with world := world }
  | .start operation, w, w' => ∃ world,
    w' = { w with operations := w.operations ++ [(operation, none)], world := world }
  | .await k, w, w' => w' = w ∧ k < w.operations.length
  | .call, w, w' => ∃ n, t = .user n ∧ w.destroyed = false ∧
    w' = { w with calling := insert n w.calling }
  | .returned, w, w' => ∃ n, t = .user n ∧ w' = { w with calling := w.calling.erase n }
  | .destroyed, w, w' => ∃ n, t = .user n ∧ w.calling = {n} ∧
    w' = { w with calling := ∅, destroyed := true }
  | .completion, w, w' => ∃ operations world, operations.length = w.operations.length ∧
    w' = { w with operations := operations, world := world }

theorem effect_of_lifeSem {a : Nat} {o : LifeOp} {c : LifeChoice} {r : o.Res}
    (h : lifeSem a t o c w = some (r, w')) : LifeOp.Effect t o w w' := by
  cases o with
  | net o =>
    cases c with
    | net c =>
      obtain ⟨x, -, hx⟩ := Option.map_eq_some_iff.mp h
      exact ⟨x.2, (Prod.mk.inj hx).2.symm⟩
    | _ => cases h
  | start operation => exact ⟨_, (Prod.mk.inj (Option.some.inj h)).2.symm⟩
  | await k =>
    simp only [lifeSem] at h
    split at h
    · next hcompleted =>
      exact ⟨(Prod.mk.inj (Option.some.inj h)).2.symm, (List.getElem?_eq_some_iff.mp hcompleted).1⟩
    · cases h
  | call =>
    cases t with
    | user n =>
      cases c with
      | call c =>
        simp only [lifeSem, Option.ite_none_left_eq_some, Option.some.injEq, Prod.mk.injEq] at h
        obtain ⟨hdestroyed, -, rfl⟩ := h
        exact ⟨n, rfl, Bool.not_eq_true _ ▸ hdestroyed, rfl⟩
      | _ => cases h
    | _ => cases c <;> cases h
  | returned =>
    cases t with
    | user n => exact ⟨n, rfl, (Prod.mk.inj (Option.some.inj h)).2.symm⟩
    | _ => cases h
  | destroyed =>
    cases t with
    | user n =>
      simp only [lifeSem, Option.ite_none_right_eq_some, Option.some.injEq, Prod.mk.injEq] at h
      obtain ⟨hcalling, -, rfl⟩ := h
      exact ⟨n, rfl, hcalling, rfl⟩
    | _ => cases h
  | completion =>
    cases c with
    | completes k r =>
      simp only [lifeSem] at h
      split at h
      · rw [Option.ite_none_right_eq_some] at h
        exact ⟨_, _, List.length_set, (Prod.mk.inj (Option.some.inj h.2)).2.symm⟩
      · cases h
    | _ => cases h

/-! ## The invariant -/

/-- What the threads' stages have to do with the shared state. -/
structure Inv (fs : LifeThread → Stage) (w : LifeWorld) : Prop where
  calling : ∀ n, fs (.user n) = .calling → n ∈ w.calling
  destroyed : w.destroyed = true → w.calling = ∅
  running : ∀ k, fs (.handler k) = .running → k < w.operations.length

/-- An operation that begins and ends no call, and leaves the operations in flight or adds to
them. -/
theorem Inv.grow (h : Inv fs w) (hcalling : w'.calling = w.calling)
    (hdestroyed : w'.destroyed = w.destroyed) (hle : w.operations.length ≤ w'.operations.length) :
    Inv fs w' where
  calling := by
    rw [hcalling]
    exact h.calling
  destroyed := by
    rw [hcalling, hdestroyed]
    exact h.destroyed
  running := fun k hk => Nat.lt_of_lt_of_le (h.running k hk) hle

/-- User `n` goes over to stage `f`. The other users who are in a call stay in it. -/
theorem Inv.user {n : Nat} {f : Stage} (h : Inv fs w)
    (hoperations : w'.operations = w.operations) (hself : f = .calling → n ∈ w'.calling)
    (hothers : ∀ m, m ≠ n → m ∈ w.calling → m ∈ w'.calling)
    (hdestroyed : w'.destroyed = true → w'.calling = ∅) :
    Inv (Function.update fs (.user n) f) w' where
  calling := by
    intro m hm
    by_cases hmn : m = n
    · subst hmn
      rw [Function.update_self] at hm
      exact hself hm
    · rw [Function.update_of_ne (fun heq => hmn (LifeThread.user.inj heq))] at hm
      exact hothers m hmn (h.calling m hm)
  destroyed := hdestroyed
  running := by
    intro k hk
    rw [Function.update_of_ne (by exact nofun)] at hk
    rw [hoperations]
    exact h.running k hk

/-- Handler `k` begins to run, and its operation is one of those started. -/
theorem Inv.handler {k : Nat} (h : Inv fs w) (hk : k < w.operations.length) :
    Inv (Function.update fs (.handler k) .running) w where
  calling := by
    intro n hn
    rw [Function.update_of_ne (by exact nofun)] at hn
    exact h.calling n hn
  destroyed := h.destroyed
  running := by
    intro k' hk'
    by_cases hkk : k' = k
    · rw [hkk]
      exact hk
    · rw [Function.update_of_ne (fun heq => hkk (LifeThread.handler.inj heq))] at hk'
      exact h.running k' hk'

theorem inv_step {a : Nat} {o : LifeOp} {c : LifeChoice} {r : o.Res} (h : Inv fs w)
    (hnext : Next t (fs t) o) (hsem : lifeSem a t o c w = some (r, w')) :
    Inv (Function.update fs t (after (fs t) o)) w' := by
  have heffect := effect_of_lifeSem hsem
  have hsame : Function.update fs t (fs t) = fs := Function.update_eq_self ..
  cases o with
  | net o =>
    rw [show after (fs t) (.net o) = fs t from rfl, hsame]
    obtain ⟨world, rfl⟩ := heffect
    exact h.grow rfl rfl (Nat.le_refl _)
  | start operation =>
    rw [show after (fs t) (.start operation) = fs t from rfl, hsame]
    obtain ⟨world, rfl⟩ := heffect
    refine h.grow rfl rfl ?_
    rw [List.length_append]
    exact Nat.le_add_right ..
  | completion =>
    rw [show after (fs t) .completion = fs t from rfl, hsame]
    obtain ⟨operations, world, hlength, rfl⟩ := heffect
    exact h.grow rfl rfl (Nat.le_of_eq hlength.symm)
  | await k =>
    obtain ⟨rfl, hk⟩ := heffect
    cases t with
    | handler k' =>
      -- a handler waits for its own operation
      have hkk : k = k' := by
        generalize fs (.handler k') = f at hnext
        cases f with
        | waiting => exact LifeOp.await.inj hnext
        | _ => exact hnext.elim
      subst hkk
      exact h.handler hk
    | user n =>
      generalize fs (.user n) = f at hnext
      cases f with
      | idle => cases hnext
      | _ => exact hnext.elim
    | network =>
      generalize fs .network = f at hnext
      cases f with
      | running => cases hnext
      | _ => exact hnext.elim
  -- the caller is counted from here to where the call returns
  | call =>
    obtain ⟨n, rfl, hdestroyed, rfl⟩ := heffect
    refine h.user rfl (fun _ => Finset.mem_insert_self ..)
      (fun m _ hm => Finset.mem_insert_of_mem hm) (fun hd => ?_)
    exact absurd (hdestroyed.symm.trans hd) nofun
  | returned =>
    obtain ⟨n, rfl, rfl⟩ := heffect
    refine h.user rfl nofun (fun m hmn hm => Finset.mem_erase.mpr ⟨hmn, hm⟩) (fun hd => ?_)
    rw [h.destroyed hd]
    exact Finset.erase_eq_of_notMem (Finset.notMem_empty n)
  | destroyed =>
    obtain ⟨n, rfl, hcalling, rfl⟩ := heffect
    refine h.user rfl nofun (fun m hmn hm => ?_) (fun _ => rfl)
    -- Nobody else is in a call.
    rw [hcalling, Finset.mem_singleton] at hm
    exact absurd hm hmn

/-- The pool keeps to the discipline. -/
def disciplined (P : Platform) (s : Session) : Disciplined (system P s) Stage where
  rules := rules
  loop := Loop
  fin := Ended
  ok := fun _ _ _ _ => True
  inv := Inv
  block_follows := by
    intro t l f hloop
    cases l with
    | user =>
      cases t with
      | user n =>
        obtain rfl : f = .idle := hloop
        refine (follows_userLoop n).mono (fun next f h => ?_) (fun _ _ h => h)
        cases next with
        | some l => exact h
        | none => exact h
      | _ => exact hloop.elim
    | network =>
      cases t with
      | network =>
        obtain rfl : f = .running := hloop
        exact Follows.step rfl (fun _ _ => rfl)
      | _ => exact hloop.elim
  keeps := fun _ _ _ _ _ _ _ h hnext _ hsem => ⟨trivial, inv_step h hnext hsem⟩

theorem constructed_holds (w : World) : ∃ fs, (disciplined P s).Holds (constructed P s ah w) fs := by
  refine ⟨fun
    | .user _ => .idle
    | .handler _ => .waiting
    | .network => .running, ⟨⟨nofun, nofun, nofun⟩, ?_⟩⟩
  rintro (n | k | _)
  · exact rfl
  · refine Follows.step rfl (fun x _ => ?_)
    refine Follows.bind (follows_handler k x.1 x.2) ?_
    rintro _ f rfl
    exact rfl
  · exact rfl

/-! ## Runs -/

/-- Nothing is left of a program. -/
def Over {α : Type} : LifeProg (Option α) → Prop
  | .pure (some _) | .op _ _ => False
  | _ => True

instance {α : Type} (p : LifeProg (Option α)) : Decidable (Over p) := by
  cases p with
  | pure l => cases l <;> unfold Over <;> infer_instance
  | _ => unfold Over; infer_instance

/-- No operation of the session is outstanding: every handler has run to its end. -/
def Quiet (st : (system P s).State) : Prop :=
  ∀ k < st.world.operations.length, Over (st.threads (.handler k))

/-- The step, if it is the one with which `~Session` returns, finds the session quiet. -/
def destroyedQuiet (st : (system P s).State) (t : LifeThread) (_ : LifeChoice) : Prop :=
  ∀ k, st.threads t = .op .destroyed k → Quiet st

variable {st st' : (system P s).State} {c : LifeChoice}

/-- A program that is over makes no step. -/
theorem no_step_of_over (h : Over (st.threads t)) : System.step st t c = none := by
  unfold System.step
  generalize st.threads t = p at h
  cases p with
  | pure l =>
    cases l with
    | none => rfl
    | some l => exact h.elim
  | op o k => exact h.elim
  | throw e => rfl
  | crash => rfl

/-- A handler whose operation has not been started waits. -/
theorem no_step_of_unstarted {k : Nat} (h : (disciplined P s).Holds st fs)
    (hk : st.world.operations.length ≤ k) : System.step st (.handler k) c = none := by
  cases hstep : System.step st (.handler k) c with
  | none => rfl
  | some st' =>
    have hkeeps := h.keeps (.handler k)
    rcases System.step_cases hstep with ⟨l, hl, -⟩ | ⟨o, next, r, w, ho, hsem, -⟩
    · rw [hl] at hkeeps
      exact hkeeps.elim
    · rw [ho] at hkeeps
      have hnext : Next (.handler k) (fs (.handler k)) o := hkeeps.1
      have hnot : fs (.handler k) ≠ .running := fun hrunning =>
        absurd (h.inv.running k hrunning) (Nat.not_lt_of_le hk)
      generalize fs (.handler k) = f at hnext hnot
      cases f with
      | waiting =>
        obtain rfl : o = .await k := hnext
        have hnone : st.world.operations[k]? = none := List.getElem?_eq_none hk
        have hblocked : lifeSem s.addr (.handler k) (.await k) c st.world = none := by
          simp only [lifeSem, hnone]
        exact absurd (hblocked.symm.trans hsem) nofun
      | running => exact absurd rfl hnot
      | _ => exact hnext.elim

/-- Behind `~Session` no handler makes a step. -/
def Gone (st : (system P s).State) : Prop :=
  st.world.destroyed = true → Quiet st

/-- Only the end of the destructor destroys, and it starts nothing. -/
theorem destroyed_of_sem {a : Nat} {o : LifeOp} {r : o.Res} (h : lifeSem a t o c w = some (r, w'))
    (hdestroyed : w'.destroyed = true) :
    w.destroyed = true ∨ o = .destroyed ∧ (∃ n, t = .user n) ∧ w'.operations = w.operations := by
  have heffect := effect_of_lifeSem h
  cases o with
  | net o =>
    obtain ⟨world, rfl⟩ := heffect
    exact .inl hdestroyed
  | start operation =>
    obtain ⟨world, rfl⟩ := heffect
    exact .inl hdestroyed
  | await k =>
    obtain ⟨rfl, -⟩ := heffect
    exact .inl hdestroyed
  | call =>
    obtain ⟨n, -, -, rfl⟩ := heffect
    exact .inl hdestroyed
  | returned =>
    obtain ⟨n, -, rfl⟩ := heffect
    exact .inl hdestroyed
  | destroyed =>
    obtain ⟨n, ht, -, rfl⟩ := heffect
    exact .inr ⟨rfl, ⟨n, ht⟩, rfl⟩
  | completion =>
    obtain ⟨operations, world, -, rfl⟩ := heffect
    exact .inl hdestroyed

/-- The network starts nothing. -/
theorem length_of_completion {a : Nat} {r : Unit}
    (h : lifeSem a t .completion c w = some (r, w')) :
    w'.operations.length = w.operations.length := by
  obtain ⟨operations, world, hlength, rfl⟩ := effect_of_lifeSem h
  exact hlength

/-- **One step** keeps a session that is gone quiet: its users make no calls, and its handlers
are over. -/
theorem gone_step (h : (disciplined P s).Holds st fs) (hgone : Gone st)
    (hok : destroyedQuiet st t c) (hstep : System.step st t c = some st') : Gone st' := by
  intro hdestroyed
  have hothers : st'.world.operations.length = st.world.operations.length → Quiet st →
      (∀ k, t ≠ .handler k) → Quiet st' := by
    intro hlength hquiet ht k hk
    rw [hlength] at hk
    rw [System.step_other hstep (fun heq => ht k heq.symm)]
    exact hquiet k hk
  have hkeeps := h.keeps t
  -- behind the destructor no operation is started, so a step of another than a handler is enough
  rcases System.step_cases hstep with ⟨l, hl, rfl⟩ | ⟨o, next, r, w, ho, hsem, rfl⟩
  · have hquiet := hgone hdestroyed
    rw [hl] at hkeeps
    refine hothers rfl hquiet ?_
    rintro k rfl
    exact hkeeps.elim
  · rw [ho] at hkeeps
    have hnext : Next t (fs t) o := hkeeps.1
    rcases destroyed_of_sem hsem hdestroyed with hbefore | ⟨rfl, ⟨n, rfl⟩, hoperations⟩
    · have hquiet := hgone hbefore
      cases t with
      | handler k =>
        -- No handler can move.
        by_cases hk : k < st.world.operations.length
        · rw [no_step_of_over (hquiet k hk)] at hstep
          cases hstep
        · rw [no_step_of_unstarted h (Nat.le_of_not_lt hk)] at hstep
          cases hstep
      | user n =>
        -- No call is under way, and none is made.
        have hnot : fs (.user n) ≠ .calling := by
          intro hcalling
          have hmem := h.inv.calling n hcalling
          rw [h.inv.destroyed hbefore] at hmem
          exact absurd hmem (Finset.notMem_empty n)
        generalize fs (.user n) = f at hnext hnot
        cases f with
        | idle =>
          obtain rfl : o = .call := hnext
          have hblocked : lifeSem s.addr (.user n) .call c st.world = none := by
            cases c with
            | call c => simp only [lifeSem, hbefore, if_true]
            | _ => rfl
          exact absurd (hblocked.symm.trans hsem) nofun
        | calling => exact absurd rfl hnot
        | _ => exact hnext.elim
      | network =>
        generalize fs .network = f at hnext
        cases f with
        | running =>
          obtain rfl : o = .completion := hnext
          have hlength : w.operations.length = st.world.operations.length :=
            length_of_completion (a := s.addr) (t := .network) (c := c) (r := r) hsem
          exact hothers hlength hquiet (fun _ => nofun)
        | _ => exact hnext.elim
    · exact hothers (congrArg List.length hoperations) (hok next ho) (fun _ => nofun)

/-- **No handler outlives its session**: for every session and every sequence of calls, in
every order of completions and with the session destroyed at any point where nothing of it is
outstanding, no completion handler makes a step behind `~Session`. -/
theorem no_handler_after_destroyed (w : World)
    (hrun : System.Steps destroyedQuiet (constructed P s ah w) st)
    (hdestroyed : st.world.destroyed = true) (k : Nat) (c : LifeChoice) :
    System.step st (.handler k) c = none := by
  have hinv : (∃ fs, (disciplined P s).Holds st fs) ∧ Gone st := by
    refine hrun.invariant (I := fun st => (∃ fs, (disciplined P s).Holds st fs) ∧ Gone st) ?_
      ⟨constructed_holds w, nofun⟩
    rintro st t c st' ⟨⟨fs, hfs⟩, hgone⟩ hok hstep
    obtain ⟨f, hf⟩ := Disciplined.step_rule hfs (fun _ _ _ => trivial) hstep
    exact ⟨⟨_, hf⟩, gone_step hfs hgone hok hstep⟩
  obtain ⟨⟨fs, hfs⟩, hgone⟩ := hinv
  -- a handler of an operation that was started is over, any other has nothing to wait for
  by_cases hk : k < st.world.operations.length
  · exact no_step_of_over (hgone hdestroyed k hk)
  · exact no_step_of_unstarted hfs (Nat.le_of_not_lt hk)

/-! ## What is pending comes back -/

/-- The network can always be brought to where it completes an operation. -/
theorem network_next (h : (disciplined P s).Holds st fs) : ∃ st₁ next,
    System.Steps System.anyStep st st₁ ∧ st₁.world = st.world ∧
    (∀ k, st₁.threads (.handler k) = st.threads (.handler k)) ∧
    st₁.threads .network = .op .completion next := by
  have hkeeps := h.keeps .network
  cases hp : st.threads .network with
  | pure l =>
    rw [hp] at hkeeps
    cases l with
    | none => exact hkeeps.elim
    | some l =>
      cases l with
      | user => exact hkeeps.elim
      | network =>
        refine ⟨_, fun _ => .pure (some .network), (System.Steps.refl st).tail trivial
          (System.step_jump LifeChoice.go hp), rfl, fun k => ?_, ?_⟩
        · have hne : LifeThread.handler k ≠ .network := nofun
          exact Function.update_of_ne hne (block P s .network) st.threads
        · exact Function.update_self LifeThread.network (block P s .network) st.threads
  | throw e =>
    rw [hp] at hkeeps
    exact hkeeps.elim
  | crash =>
    rw [hp] at hkeeps
    exact absurd rfl hkeeps
  | op o next =>
    rw [hp] at hkeeps
    have hnext : Next .network (fs .network) o := hkeeps.1
    generalize fs .network = f at hnext
    cases f with
    | running =>
      obtain rfl : o = .completion := hnext
      exact ⟨st, next, System.Steps.refl st, rfl, fun _ => rfl, hp⟩
    | _ => exact hnext.elim

/-- A handler whose operation has completed can begin. -/
theorem handler_begins {k : Nat} {operation : Operation} {r : Completion}
    (hk : st.world.operations[k]? = some (operation, some r))
    (hwaits : st.threads (.handler k) = completes P s ah k) :
    ∃ c, (System.step st (.handler k) c).isSome = true := by
  have hsem : lifeSem s.addr (.handler k) (.await k) .go st.world
      = some ((operation, r), st.world) := by
    simp only [lifeSem, hk]
  exact ⟨.go, Option.isSome_iff_exists.mpr ⟨_, System.step_op hwaits hsem⟩⟩

/-- **The condition cannot be done without**: whatever is pending when `~Session` returns can
still complete, and then its handler runs. -/
theorem pending_outlives {w : World} {k : Nat}
    (hrun : System.Steps System.anyStep (constructed P s ah w) st)
    (hk : k < st.world.operations.length)
    (hwaits : st.threads (.handler k) = completes P s ah k) :
    ∃ st', System.Steps System.anyStep st st' ∧ st'.world.destroyed = st.world.destroyed ∧
      ∃ c, (System.step st' (.handler k) c).isSome = true := by
  have hstart : ∃ fs, (disciplined P s).Holds (constructed P s ah w) fs := constructed_holds w
  obtain ⟨fs, hfs⟩ := Disciplined.run_rule (fun _ _ _ _ _ _ _ => trivial) hrun hstart
  obtain ⟨⟨operation, r⟩, hpending⟩ : ∃ x, st.world.operations[k]? = some x :=
    ⟨_, List.getElem?_eq_getElem hk⟩
  -- a result that is there can be taken; else the closed socket makes one
  cases r with
  | some r => exact ⟨st, System.Steps.refl st, rfl, handler_begins hpending hwaits⟩
  | none =>
    obtain ⟨st₁, next, hsteps, hworld, hhandlers, hnetwork⟩ := network_next hfs
    rw [← hworld] at hpending
    have hcan : CanComplete (st₁.world.world.isOpen s.addr) operation
        (.error .operation_aborted) := by
      cases operation with
      | _ => exact rfl
    have hsem : lifeSem s.addr .network .completion (.completes k (.error .operation_aborted))
        st₁.world = some ((), completed s.addr k operation (.error .operation_aborted) st₁.world) := by
      simp only [lifeSem, hpending, if_pos hcan]
    have hlt := (List.getElem?_eq_some_iff.mp hpending).1
    have hstep := System.step_op (c := LifeChoice.completes k (.error .operation_aborted)) hnetwork
      hsem
    refine ⟨_, hsteps.tail trivial hstep, ?_, ?_⟩
    · show st₁.world.destroyed = st.world.destroyed
      rw [hworld]
    · have hcompleted : (st₁.world.operations.set k (operation, some (.error .operation_aborted)))[k]?
          = some (operation, some (.error .operation_aborted)) := List.getElem?_set_self hlt
      have hne : LifeThread.handler k ≠ .network := nofun
      have hwaits' : Function.update st₁.threads .network (next ()) (.handler k)
          = completes P s ah k := by
        rw [Function.update_of_ne hne, hhandlers k, hwaits]
      exact handler_begins hcompleted hwaits'

/-! ## One connect -/

/-- A session without callbacks, and an accept handler without. -/
def plainSession : Session := ⟨0, 7, none, none, none, none, none, none, none⟩

def plainAcceptHandler : AcceptHandler := ⟨none, none, none⟩

/-- The user calls `connect`. -/
def connects : List (LifeThread × LifeChoice) :=
  [(.user 0, .go), (.user 0, .call .connect), (.user 0, .go), (.user 0, .go)]

/-- Operation `k` completes with `r`. -/
def delivers (k : Nat) (r : Completion) : List (LifeThread × LifeChoice) :=
  [(.network, .go), (.network, .completes k r)]

/-- The user destroys the session. -/
def destroys : List (LifeThread × LifeChoice) :=
  [(.user 0, .go), (.user 0, .call .destroy), (.user 0, .net .go),
    (.user 0, .net (.code .success)), (.user 0, .net (.code .success)), (.user 0, .go)]

/-- The test that decides `destroyedQuiet`. -/
def findsQuiet (st : (system P s).State) (t : LifeThread) (_ : LifeChoice) : Bool :=
  match st.threads t with
  | .op .destroyed _ => ∀ k < st.world.operations.length, Over (st.threads (.handler k))
  | _ => true

theorem destroyedQuiet_of_findsQuiet (st : (system P s).State) (t : LifeThread) (c : LifeChoice)
    (h : findsQuiet st t c = true) : destroyedQuiet st t c := by
  intro k hk
  rw [findsQuiet, hk] at h
  have hquiet : ∀ k < st.world.operations.length, Over (st.threads (.handler k)) :=
    of_decide_eq_true h
  exact hquiet

/-- The session is destroyed when its one handler has run. -/
theorem no_handler_after_connected : ∃ st,
    System.exec (constructed jsonPlatform plainSession plainAcceptHandler World.init)
      (connects ++ delivers 0 (.ok []) ++ [(.handler 0, .go)] ++ destroys) = some st ∧
    st.world.destroyed = true ∧ ∀ k c, System.step st (.handler k) c = none := by
  have hchecked : System.checks findsQuiet
      (constructed jsonPlatform plainSession plainAcceptHandler World.init)
      (connects ++ delivers 0 (.ok []) ++ [(.handler 0, .go)] ++ destroys) = true := rfl
  exact ⟨_, rfl, rfl, no_handler_after_destroyed World.init (System.steps_of_along rfl
    (System.along_of_checks destroyedQuiet_of_findsQuiet hchecked)) rfl⟩

/-- **A handler behind the destructor**: the session is destroyed with its connect pending. The
closed socket completes it, and the handler runs on a session that is no more. -/
theorem connect_outlives_session : ∃ st st',
    System.exec (constructed jsonPlatform plainSession plainAcceptHandler World.init)
      (connects ++ destroys ++ delivers 0 (.error .operation_aborted)) = some st ∧
    st.world.destroyed = true ∧
    System.exec st [(.handler 0, .go), (.handler 0, .net .go)] = some st' :=
  ⟨_, _, rfl, rfl, rfl⟩

end Lifetime

end NetworkApplication
