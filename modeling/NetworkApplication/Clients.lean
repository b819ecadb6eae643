/-
The clients of one server.

A server takes in any number of clients, and a worker of its own reads and answers each. What a
client gets to hear should depend on what it has sent and on nothing else: not on the other
clients, on how the network cuts and orders their bytes, on who comes and goes in between, or on
when the server is stopped. In `Conversation.lean` one client and one worker talk to each other;
here the whole server runs, from `start` on, with its accept loop and all its workers.

A worker takes its task, looks the session up, and serves it from then on (`Serving`); the other
threads of the server leave the streams alone. That every worker keeps to its session is a
discipline, which stands on what `Registry.lean` says of the map. What the network has brought to a
session in the course of a run is not in the state any more, so it is taken down (`brought`).
-/
import NetworkApplication.Admission
import NetworkApplication.Companions
import NetworkApplication.ConversationRuns
import NetworkApplication.Histories

set_option autoImplicit false

namespace NetworkApplication.Clients

open NetworkApplication.Program NetworkApplication.Pool NetworkApplication.Disciplines
open SegmentServer Delivery BadPayload Replies StreamRoles StreamEnds Exchange Conversation

/-! ## The history -/

section

variable (P : Platform) (server : SegmentServer) (ids : Nat → UInt64)

/-- What the network brings is taken down for the session it is brought to. -/
def note : Thread → Op → Choice → World → (Nat → List UInt8) → Nat → List UInt8
  | _, .network, .delivered a bytes, _, brought => Function.update brought a (brought a ++ bytes)
  | _, _, _, _, brought => brought

/-- What the network has brought to each session in the course of a schedule. -/
def brought (s : (server.system P ids).State) (sched : List (Thread × Choice)) : Nat → List UInt8 :=
  Histories.history (S := server.system P ids) note s sched (fun _ => [])

/-- The server, with what its clients have sent so far. -/
abbrev watched : System := Histories.recorded (server.system P ids) (Nat → List UInt8) note

/-! ## What a thread knows of its session -/

/-- A worker has no task yet, or the id its task captured, or has found no session of that id, or
has the session it serves. -/
inductive Serving where
  | idle
  | tasked (ID : UInt64)
  | missed (ID : UInt64)
  | serving (ptr : SessionPtr) (f : Knows)

/-- The worker `n` and its session, as one end of a conversation. -/
def endOf (n : Nat) (ptr : SessionPtr) : Setup where
  magicNumber := server.magicNumber
  multiConnect := server.multiConnect
  socket := 0
  ptr := ptr
  worker := n
  lines := []
  stops := false

/-- What an operation adds to what a worker knows. -/
def Serving.next : Serving → (o : Op) → o.Res → Serving
  | .serving ptr f, o, r => .serving ptr (f.next server.magicNumber o r)
  | .idle, .takeTask _, ID => .tasked ID
  | .tasked _, .mapGet _, some ptr => .serving ptr .nothing
  | .tasked ID, .mapGet _, none => .missed ID
  | f, _, _ => f

/-- What worker `n` may do. -/
def Serving.May (n : Nat) : Serving → Op → Prop
  | .serving ptr f, o => StreamRoles.Allowed ptr.addr (answererRole P (endOf server n ptr)) f o
  | .idle, .takeTask m => m = n
  | .tasked ID, .mapGet id => id = UInt64.toUInt32 ID
  | .missed _, .sessionTaskDone _ => True
  | _, _ => False

/-- What it may see. -/
def Serving.Sees : Serving → (o : Op) → o.Res → Prop
  | .serving _ f, o, r => StreamRoles.Possible f o r
  | _, _, _ => True

/-- The discipline of worker `n`. -/
def worker (n : Nat) : Discipline Net Serving where
  Allowed := Serving.May P server n
  Possible := Serving.Sees
  next := Serving.next server
  Crash := fun _ => False

/-- What the other threads do not do: they leave the streams alone. -/
def Streams : Op → Prop
  | .connect _ | .read _ _ | .write_some _ _ _ | .event (.onReadHandler _ _ _) | .takeTask _ => True
  | _ => False

/-- The discipline of the other threads. No user writes. -/
def other : Discipline Net Serving where
  Allowed := fun _ o => ¬ Streams o
  Possible := fun _ o r => match o, r with
    | .command, command => ∀ id data, command ≠ .write id data
    | _, _ => True
  next := fun f _ _ => f
  Crash := fun _ => True

/-- Who keeps to what. -/
def rules : Thread → Discipline Net Serving
  | .reader n => worker P server n
  | _ => other

/-- What is known at a label: a worker is in front of the next round. -/
def atLabel : Thread → ServerLabel → Serving → Prop
  | .reader n, .sessionWork _ ptr, g =>
    ∃ f, g = .serving ptr f ∧ Round (answererRole P (endOf server n ptr)) f
  | .reader _, _, _ | _, .sessionWork _ _, _ => False
  | _, _, _ => True

/-- What is known where a thread ends: a worker has found no session, or left its loop. -/
def atEnd : Thread → Serving → Prop
  | .reader _, .missed _ => True
  | .reader n, .serving ptr f => Done P (endOf server n ptr) .answerer f
  | .reader _, _ => False
  | _, _ => True

/-- What is known where a block ends. -/
def atNext (t : Thread) : Option ServerLabel → Serving → Prop
  | some l, g => atLabel P server t l g
  | none, g => atEnd P server t g

end

variable {P : Platform} {server : SegmentServer} {t : Thread} {g : Serving} {f : Knows} {n : Nat}
  {ptr : SessionPtr} {α : Type}

/-! ## The workers -/

theorem server_endOf (hread : server.readHandler = true) : (endOf server n ptr).server = server := by
  obtain ⟨multiConnect, magicNumber, readHandler⟩ := server
  obtain rfl : readHandler = true := hread
  rfl

/-- A program of a worker that serves its session, as one end of a conversation. -/
theorem serving_follows {post : α → Knows → Prop} {post' : α → Serving → Prop} {p : NetProg α}
    (h : Follows (disciplineOf P (endOf server n ptr) .answerer) post
      (fun _ => Done P (endOf server n ptr) .answerer) f p)
    (hpost : ∀ a f, post a f → post' a (.serving ptr f)) :
    Follows (worker P server n) post' (fun _ g => atEnd P server (.reader n) g) (.serving ptr f) p :=
  Follows.embed (ι := Serving.serving ptr) (fun _ _ ho => ho) (fun _ _ _ _ hr => hr)
    (fun _ _ _ _ => rfl) (fun _ hcrash => hcrash) hpost (fun _ _ hdone => hdone) h

theorem sessionWork_follows (hread : server.readHandler = true) {m : Nat}
    (hf : Round (answererRole P (endOf server n ptr)) f) :
    Follows (worker P server n) (atNext P server (.reader n))
      (fun _ g => atEnd P server (.reader n) g) (.serving ptr f)
      (server.sessionWork P m ptr) := by
  have hround := @keeps_sessionWork P { endOf server n ptr with worker := m } f hf
  have hserver : ({ endOf server n ptr with worker := m } : Setup).server = server := server_endOf hread
  rw [hserver] at hround
  refine serving_follows hround (fun next f hnext => ?_)
  cases next with
  | none => exact hnext
  | some l =>
    cases l with
    | sessionWork m' ptr' =>
      obtain ⟨-, rfl, hround⟩ := hnext
      exact ⟨f, rfl, hround⟩
    | _ => exact hnext.elim

theorem taskDone_follows {ID : UInt64} (m : Nat) :
    Follows (worker P server n) (atNext P server (.reader n))
      (fun _ g => atEnd P server (.reader n) g) (.missed ID) (taskDone m) := Follows.step trivial (fun _ _ => trivial)

/-- A worker serves the session of the id that its task captured. -/
theorem readerThread_follows :
    Follows (worker P server n) (atNext P server (.reader n))
      (fun _ g => atEnd P server (.reader n) g) .idle
      (readerThread n) := by
  refine Follows.step rfl (fun ID _ => Follows.step rfl (fun found _ => ?_))
  cases found with
  | none => exact taskDone_follows n
  | some ptr => exact ⟨.nothing, rfl, .inl ⟨rfl, ⟨rfl, rfl, [], rfl, served_nil⟩, nofun⟩⟩

/-! ## The other threads -/

theorem apart_streams {o : Op} (ho : Apart o) : ¬ Streams o := by
  intro hstreams
  cases o with
  | connect | read | write_some | takeTask => exact ho
  | event e => exact ho
  | _ => exact hstreams

/-- Who only asks, closes and waits leaves the streams alone. -/
theorem other_of_aside {p : NetProg α} (hp : Aside p) :
    Follows other (fun _ _ => True) (fun _ _ => True) g p :=
  Follows.embed (D := bystander true) (ι := fun _ => g) (fun _ _ ho => apart_streams ho.2)
    (fun _ _ _ _ _ => trivial) (fun _ _ _ _ => rfl) (fun _ hcrash => hcrash.elim)
    (fun _ _ _ => trivial) (fun _ _ _ => trivial) (hp .nothing)

/-- The thread does not go on as a worker. -/
def Elsewhere : Option ServerLabel → Prop
  | some (.sessionWork _ _) => False
  | _ => True

theorem aside_disconnect_session (ptr : SessionPtr) : Aside (server.session ptr).disconnect :=
  aside_disconnect (fun _ => aside_removeSession _) (fun _ => aside_pure ())

theorem disconnect_follows (id : UInt64) :
    Follows other (fun _ _ => True) (fun _ _ => True) g (server.disconnect id) := by
  refine Follows.step not_false (fun found _ => ?_)
  cases found with
  | none => trivial
  | some ptr => exact other_of_aside (aside_disconnect_session ptr)

theorem addSession_follows (id : UInt32) :
    Follows other (fun _ _ => True) (fun _ _ => True) g (server.sessionManager.addSession id) := by
  refine Follows.step not_false (fun found _ => ?_)
  cases found with
  | true => trivial
  | false =>
    refine Follows.step not_false (fun ptr _ => Follows.step not_false (fun _ _ => ?_))
    refine Follows.step not_false (fun ec _ => ?_)
    refine Follows.bind (M := fun _ _ => True) (Follows.when (fun _ => trivial) (fun _ => trivial))
      (fun _ g' _ => ?_)
    show Follows other _ _ g' (SessionManager.onAccept ptr.sessionID ptr ec)
    unfold SessionManager.onAccept
    split
    · refine Follows.step not_false (fun found _ => ?_)
      cases found with
      | true => exact other_of_aside (aside_removeSession _)
      | false => trivial
    · exact Follows.call not_false (fun _ _ => trivial)

theorem keep_follows (ID : UInt64) :
    Follows other (fun next _ => Elsewhere next) (fun _ _ => True) g (keep ID) := by
  refine Follows.step not_false (fun isWork _ => ?_)
  refine Follows.bind (M := fun _ _ => True) (Follows.when (fun _ => ?_) (fun _ => trivial))
    (fun _ _ _ => trivial)
  exact Follows.call not_false (fun _ _ => trivial)

theorem acceptLoop_follows :
    Follows other (fun next _ => Elsewhere next) (fun _ _ => True) g server.acceptLoop := by
  refine Follows.step not_false (fun isWork _ => ?_)
  cases isWork with
  | false => exact Follows.step not_false (fun _ _ => trivial)
  | true =>
    refine Follows.step not_false (fun ID _ => Follows.bind (addSession_follows _) (fun _ g' _ => ?_))
    unfold keepOrRefuse
    split
    · exact keep_follows ID
    · refine Follows.step not_false (fun count _ => ?_)
      split
      · exact Follows.bind (disconnect_follows ID) (fun _ _ _ => trivial)
      · exact keep_follows ID

theorem stop_follows :
    Follows other (fun next _ => Elsewhere next) (fun _ _ => True) g server.stop := by
  refine Follows.step not_false (fun isWork _ => ?_)
  cases isWork with
  | false => trivial
  | true =>
    refine Follows.step not_false (fun _ _ => ?_)
    refine Follows.bind (other_of_aside aside_closeAcceptor) (fun _ g' _ => ?_)
    refine Follows.step not_false (fun copy_map _ => Follows.step not_false (fun count _ => ?_))
    exact Follows.bind (other_of_aside (aside_disconnectAll server copy_map).when)
      (fun _ _ _ => trivial)

theorem flushWorkers_follows (n : Nat) :
    Follows other (fun next _ => Elsewhere next) (fun _ _ => True) g (flushWorkers n) := by
  refine Follows.step not_false (fun size _ => ?_)
  split
  · exact Follows.step not_false (fun _ _ => trivial)
  · trivial

/-- A user that does not write. -/
theorem userLoop_follows :
    Follows other (fun next _ => Elsewhere next) (fun _ _ => True) g (server.userLoop P) := by
  refine Follows.step not_false (fun command hcommand => ?_)
  cases command with
  | disconnect id => exact Follows.bind (disconnect_follows id) (fun _ _ _ => trivial)
  | write id data => exact absurd rfl (hcommand id data)
  | sessionDisconnect => trivial
  | sessionWrite m => trivial

/-- The blocks that are no worker's. -/
theorem other_block_follows {l : ServerLabel} (hl : Elsewhere (some l)) :
    Follows other (fun next _ => Elsewhere next) (fun _ _ => True) g (server.block P l) := by
  cases l with
  | acceptLoop => exact acceptLoop_follows
  | sessionWork n ptr => exact hl.elim
  | flushMain => exact Follows.step not_false (fun _ _ => trivial)
  | flushWorkers n => exact flushWorkers_follows n
  | userLoop => exact userLoop_follows
  | networkLoop => exact Follows.step not_false (fun _ _ => trivial)

/-- A thread that is no worker. -/
def Other (t : Thread) : Prop := ∀ n, t ≠ .reader n

theorem rules_of_other (ht : Other t) : rules P server t = other := by
  cases t with
  | reader n => exact absurd rfl (ht n)
  | _ => rfl

theorem atEnd_of_other (ht : Other t) : atEnd P server t g := by
  cases t with
  | reader n => exact absurd rfl (ht n)
  | _ => trivial

theorem atNext_of_elsewhere (ht : Other t) {next : Option ServerLabel} (h : Elsewhere next) :
    atNext P server t next g := by
  cases next with
  | none => exact atEnd_of_other ht
  | some l =>
    cases t with
    | reader n => exact absurd rfl (ht n)
    | _ =>
      cases l with
      | sessionWork m ptr => exact h.elim
      | _ => trivial

/-- Every block keeps to the discipline of the thread that runs it. -/
theorem block_follows (hread : server.readHandler = true) {l : ServerLabel}
    (hl : atLabel P server t l g) :
    Follows (rules P server t) (atNext P server t) (fun _ g => atEnd P server t g) g
      (server.block P l) := by
  by_cases ht : Other t
  · have helsewhere : Elsewhere (some l) := by
      cases l with
      | sessionWork m ptr =>
        cases t with
        | reader n => exact absurd rfl (ht n)
        | _ => exact hl
      | _ => trivial
    rw [rules_of_other ht]
    exact (other_block_follows helsewhere).mono (fun _ _ h => atNext_of_elsewhere ht h)
      (fun _ _ _ => atEnd_of_other ht)
  · obtain ⟨n, rfl⟩ : ∃ n, t = .reader n := by
      by_contra hnone
      exact ht (fun n hn => hnone ⟨n, hn⟩)
    cases l with
    | sessionWork m ptr =>
      obtain ⟨f, rfl, hround⟩ := hl
      exact sessionWork_follows hread hround
    | _ => exact hl.elim

/-- So does every thread from where it starts. -/
theorem started_follows (ids : Nat → UInt64) (usage : Usage) (t : Thread) :
    Follows (rules P server t) (atNext P server t) (fun _ g => atEnd P server t g) .idle
      ((server.started P ids usage).threads t) := by
  cases t with
  | main => trivial
  | control =>
    show Follows other _ _ _ (if usage.stops then server.stop else .pure none)
    split
    · exact stop_follows.mono (fun _ _ h => atNext_of_elsewhere (fun _ h => Thread.noConfusion h) h)
        (fun _ _ _ => trivial)
    · trivial
  | reader n => exact readerThread_follows
  | user n =>
    show Follows other _ _ _ (if usage.operates then .pure (some ServerLabel.userLoop) else .pure none)
    split
    · trivial
    · trivial
  | network => trivial

end NetworkApplication.Clients
