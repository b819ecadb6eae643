/-
What the clients of one server get to hear.

In every state of a run each worker and its session are one end of a conversation of their own:
what the worker has taken is the beginning of what the network has brought to this session, and
what it has sent are the answers to it. No other thread of the server disturbs that. Two workers
never serve one session, a session that is served is neither made nor accepted again, and who
closes a socket or takes an entry out of the map leaves the bytes alone (`clients_in_order`).
-/
import NetworkApplication.Clients

set_option autoImplicit false

namespace NetworkApplication.Clients

open NetworkApplication.Program NetworkApplication.Pool NetworkApplication.Disciplines
open SegmentServer Delivery BadPayload Replies StreamRoles StreamEnds Exchange Conversation
open Echo (question answer)
open Registry (Knowledge Consistent Later DistinctIDs FreshID freshID Facts)
open Admission (WorksFor worker_unique)

variable {P : Platform} {server : SegmentServer} {ids : Nat → UInt64} {usage : Usage}
  {t : Thread} {g : Serving} {f : Knows} {n m : Nat} {ptr ptr' : SessionPtr} {a : Nat}
  {o : Op} {r : o.Res} {c : Choice} {w w' : World} {stream : List UInt8}

/-! ## What an operation does to the sessions -/

/-- The session object that an operation is about. -/
def touched (w : World) : Op → Choice → Option Nat
  | .connect a, _ | .read a _, _ | .write_some a _ _, _ | .close a, _ | .async_accept a, _
  | .setCriticalError a, _ => some a
  | .makeSession _, _ => some w.allocated
  | .network, .accepted a _ | .network, .delivered a _ => some a
  | _, _ => none

/-- **Frame.** The other session objects stay as they are. -/
theorem sessions_untouched (hsem : sem ids o c w = some (r, w')) (ha : touched w o c ≠ some a) :
    w'.sessions a = w.sessions a := by
  have heffect := effect_of_sem hsem
  have hother : ∀ {b : Nat} {x : SessionObject → SessionObject}, some b ≠ some a →
      w' = w.modify b x → w'.sessions a = w.sessions a := by
    rintro b x hb rfl
    exact w.modify_sessions_of_ne (fun hab => hb (congrArg some hab.symm)) x
  cases o with
  | connect b =>
    rcases heffect with rfl | ⟨rx, tx, hw'⟩
    · rfl
    · exact hother ha hw'
  | read b k =>
    obtain ⟨rx, hw'⟩ := heffect
    exact hother ha hw'
  | write_some b sent rest =>
    obtain ⟨tx, hw'⟩ := heffect
    exact hother ha hw'
  | close b => exact hother ha heffect
  | async_accept b => exact hother ha heffect
  | setCriticalError b => exact hother ha heffect
  | makeSession id =>
    obtain rfl : w' = { w.modify w.allocated (fun _ => .new) with allocated := w.allocated + 1 } := heffect
    show (w.modify w.allocated (fun _ => .new)).sessions a = w.sessions a
    exact w.modify_sessions_of_ne (fun hab => ha (congrArg some hab.symm)) _
  | network =>
    have hnetwork : networkSem c w = some (r, w') := hsem
    cases c with
    | accepted b ec =>
      simp only [networkSem, Option.ite_none_right_eq_some, Option.some.injEq, Prod.mk.injEq] at hnetwork
      exact hother ha hnetwork.2.2.symm
    | delivered b bytes =>
      simp only [networkSem, Option.ite_none_right_eq_some, Option.some.injEq, Prod.mk.injEq] at hnetwork
      exact hother ha hnetwork.2.2.symm
    | _ => cases hnetwork
  | _ =>
    obtain rfl := heffect
    rfl

/-- What has been handed over grows by what an operation hands over. -/
theorem handedOf_sem (hsem : sem ids o c w = some (r, w')) :
    handedOf w' = handedOf w ++ handedBy o := by
  have heffect := effect_of_sem hsem
  cases o with
  | connect b =>
    rcases heffect with rfl | ⟨rx, tx, rfl⟩ <;> exact (List.append_nil _).symm
  | network =>
    rcases heffect with ⟨b, ec, -, -, rfl⟩ | ⟨b, rx, rfl⟩ <;> exact (List.append_nil _).symm
  | async_accept b =>
    obtain rfl := heffect
    exact (List.append_nil _).symm
  | makeSession id =>
    obtain rfl := heffect
    exact (List.append_nil _).symm
  | read b k => exact (moved_read hsem).handed
  | write_some b sent rest => exact (moved_write_some hsem).handed
  | _ =>
    refine Moved.handed (a := 0) (moved_of_sem ?_ hsem)
    exact trivial

/-- The bytes at a session stay as they are, its socket is not opened and its flag not cleared. -/
structure Still (a : Nat) (w w' : World) : Prop where
  rx : (w'.sessions a).rx = (w.sessions a).rx
  tx : (w'.sessions a).tx = (w.sessions a).tx
  isOpen : w'.isOpen a = true → w.isOpen a = true
  hasError : w.hasError a = true → w'.hasError a = true

theorem still_of_eq (h : w'.sessions a = w.sessions a) : Still a w w' := by
  refine ⟨?_, ?_, ?_, ?_⟩
  · rw [h]
  · rw [h]
  · rw [World.isOpen, World.isOpen, h]
    exact id
  · rw [World.hasError, World.hasError, h]
    exact id

/-- Closing a socket, setting the error flag and starting an accept leave the bytes alone. -/
theorem still_of_modify {x : SessionObject → SessionObject} (hrx : ∀ s, (x s).rx = s.rx)
    (htx : ∀ s, (x s).tx = s.tx) (hopen : ∀ s, (x s).isOpen = true → s.isOpen = true)
    (herror : ∀ s, s.criticalError = true → (x s).criticalError = true) :
    Still a w (w.modify a x) := by
  refine ⟨?_, ?_, ?_, ?_⟩
  · rw [World.modify_sessions_self, hrx]
  · rw [World.modify_sessions_self, htx]
  · rw [World.isOpen, World.modify_sessions_self]
    exact hopen _
  · rw [World.hasError, World.hasError, World.modify_sessions_self]
    exact herror _

/-- The operations on a session that may disturb who serves it. -/
def Disturbs (w : World) (a : Nat) : Op → Choice → Prop
  | .connect b, _ | .read b _, _ | .write_some b _ _, _ => b = a
  | .makeSession _, _ => w.allocated = a
  | .network, .accepted b _ | .network, .delivered b _ => b = a
  | _, _ => False

theorem still_of_sem (hsem : sem ids o c w = some (r, w')) (hundisturbed : ¬ Disturbs w a o c) :
    Still a w w' := by
  by_cases ha : touched w o c = some a
  swap
  · exact still_of_eq (sessions_untouched hsem ha)
  have heffect := effect_of_sem hsem
  cases o with
  | close b =>
    obtain rfl := Option.some.inj ha
    obtain rfl : w' = w.modify b _ := heffect
    exact still_of_modify (fun _ => rfl) (fun _ => rfl) (fun _ h => by cases h) (fun _ h => h)
  | async_accept b =>
    obtain rfl := Option.some.inj ha
    obtain rfl : w' = w.modify b _ := heffect
    exact still_of_modify (fun _ => rfl) (fun _ => rfl) (fun _ h => h) (fun _ h => h)
  | setCriticalError b =>
    obtain rfl := Option.some.inj ha
    obtain rfl : w' = w.modify b _ := heffect
    exact still_of_modify (fun _ => rfl) (fun _ => rfl) (fun _ h => h) (fun _ _ => rfl)
  | connect b => exact absurd (Option.some.inj ha) hundisturbed
  | read b k => exact absurd (Option.some.inj ha) hundisturbed
  | write_some b sent rest => exact absurd (Option.some.inj ha) hundisturbed
  | makeSession id => exact absurd (Option.some.inj ha) hundisturbed
  | network =>
    cases c with
    | accepted b ec => exact absurd (Option.some.inj ha) hundisturbed
    | delivered b bytes => exact absurd (Option.some.inj ha) hundisturbed
    | _ => cases ha
  | _ => cases ha

theorem Still.aware (h : Still a w w') (haware : Aware a f w) : Aware a f w' where
  closed := fun hclosed => by
    cases hopen : w'.isOpen a with
    | false => rfl
    | true => rw [← haware.closed hclosed, h.isOpen hopen]
  flagged := fun hflagged => h.hasError (haware.flagged hflagged)

theorem Still.reads {magicNumber : UInt32} (h : Still a w w')
    (hreads : Reads P magicNumber a f stream w) : Reads P magicNumber a f stream w' where
  aware := h.aware hreads.aware
  reads := by
    rw [h.rx]
    exact hreads.reads
  short := hreads.short
  parsed := hreads.parsed

theorem Still.writer (h : Still a w w') (hwriter : Writer a f w) : Writer a f w' where
  aware := h.aware hwriter.aware
  stream := by rw [h.tx, hwriter.stream]
  whole := by
    rw [h.tx]
    exact hwriter.whole

/-! ## Workers and their sessions -/

/-- Worker `n` serves the session: it was created for it, what it has taken is the beginning of the
stream, and what it has begun to send are the answers. -/
structure Attends (P : Platform) (server : SegmentServer) (n : Nat) (ptr : SessionPtr) (f : Knows)
    (stream : List UInt8) (w : World) : Prop where
  registered : ptr ∈ w.registered
  works : WorksFor w n ptr.sessionID
  reads : Reads P server.magicNumber ptr.addr f stream w
  writer : Writer ptr.addr f w
  answered : ∃ answers, f.ledger.begun = answers.map (frame server.magicNumber) ∧
    Answered (protocol P []) f.ledger.handed answers
  handed : f.ledger.handed.Sublist (handedOf w)

theorem worksFor_later {id : UInt32} (hlater : Later w w') (h : WorksFor w n id) : WorksFor w' n id := by
  obtain ⟨W, hW, hid⟩ := h
  exact ⟨W, hlater.workers n W hW, hid⟩

/-- The rest of the server goes on. -/
theorem Attends.still (h : Attends P server n ptr f stream w) (hstill : Still ptr.addr w w')
    (hlater : Later w w') {more : List (List UInt8)} (hhanded : handedOf w' = handedOf w ++ more) :
    Attends P server n ptr f stream w' where
  registered := hlater.registered ptr h.registered
  works := worksFor_later hlater h.works
  reads := hstill.reads h.reads
  writer := hstill.writer h.writer
  answered := h.answered
  handed := by
    rw [hhanded]
    exact h.handed.trans (List.sublist_append_left _ _)

/-- The network brings something to the session. -/
theorem Attends.grow (h : Attends P server n ptr f stream w) (bytes : List UInt8) :
    Attends P server n ptr f (stream ++ bytes)
      (w.modify ptr.addr (fun s => { s with rx := s.rx ++ bytes })) :=
  { h with
    reads := h.reads.grow bytes
    writer := h.writer.grow bytes }

/-- The worker itself does something. -/
theorem Attends.next (h : Attends P server n ptr f stream w)
    (ho : Allowed ptr.addr (answererRole P (endOf server n ptr)) f o) (hc : Cuts c)
    (hsem : sem ids o c w = some (r, w')) (hlater : Later w w') :
    Attends P server n ptr (f.next server.magicNumber o r) stream w' := by
  have hrole : ∀ l payload, (answererRole P (endOf server n ptr)).mayHand l payload →
      l.handed ++ [payload] = l.taken.filter (parses P) := fun _ _ hl => hl.1
  refine ⟨hlater.registered ptr h.registered, worksFor_later hlater h.works,
    h.reads.next hrole ho hc hsem, h.writer.next ho hc hsem,
    answered_next ho (possible_of_sem h.writer.aware ho hc hsem) h.answered, ?_⟩
  rw [handed_next, handedOf_sem hsem]
  exact h.handed.append_right _

/-- A worker has just found its session. -/
theorem attends_fresh (hregistered : ptr ∈ w.registered) (hworks : WorksFor w n ptr.sessionID)
    (hstream : stream = (w.sessions ptr.addr).rx) (htx : (w.sessions ptr.addr).tx = []) :
    Attends P server n ptr .nothing stream w where
  registered := hregistered
  works := hworks
  reads := ⟨⟨nofun, nofun⟩, ⟨[], hstream, rfl⟩, nofun, ⟨[], rfl⟩⟩
  writer := writer_fresh ptr.addr htx
  answered := ⟨[], rfl, .inl served_nil⟩
  handed := List.nil_sublist _

/-- The id that the worker's task captured. -/
def Captured (g : Serving) (ID : UInt64) : Prop := g = .tasked ID ∨ g = .missed ID

/-- No worker serves the session at `a`. -/
def Free (gs : Thread → Serving) (a : Nat) : Prop :=
  ∀ n ptr f, gs (.reader n) = .serving ptr f → ptr.addr ≠ a

/-- What the workers know is true, and nothing has been read from a session that none serves. -/
structure Attended (P : Platform) (server : SegmentServer) (gs : Thread → Serving)
    (w : World × (Nat → List UInt8)) : Prop where
  captured : ∀ n ID, Captured (gs (.reader n)) ID → w.1.sessionWorkers[n]? = some ID
  serving : ∀ n ptr f, gs (.reader n) = .serving ptr f → Attends P server n ptr f (w.2 ptr.addr) w.1
  free : ∀ a, Free gs a → (w.1.sessions a).tx = [] ∧ w.2 a = (w.1.sessions a).rx
  unmade : ∀ a, w.1.allocated ≤ a →
    (w.1.sessions a).isOpen = false ∧ (w.1.sessions a).accept = .idle ∧ w.2 a = []

/-- Two workers never serve one session. -/
theorem Attended.unique {gs : Thread → Serving} {w : World × (Nat → List UInt8)} {f' : Knows}
    (h : Attended P server gs w) (hw : Consistent ids w.1) (hn : gs (.reader n) = .serving ptr f)
    (hm : gs (.reader m) = .serving ptr' f') (haddr : ptr.addr = ptr'.addr) : n = m := by
  have hserves := h.serving n ptr f hn
  have hserves' := h.serving m ptr' f' hm
  obtain rfl := hw.addrs ptr hserves.registered ptr' hserves'.registered haddr
  exact worker_unique hw hserves.works hserves'.works

/-! ## One operation -/

section OneOperation

variable {fs : Thread → Facts} {gs : Thread → Serving} {w : World} {stream : Nat → List UInt8}

/-- An operation on a stream is a worker's, on the session it serves. -/
theorem serves_of_streams (ho : (rules P server t).Allowed (gs t) o)
    (hstream : ∃ b, (∃ k, o = .read b k) ∨ ∃ sent rest, o = .write_some b sent rest) :
    ∃ n ptr f, t = .reader n ∧ gs t = .serving ptr f ∧ touched w o c = some ptr.addr := by
  by_cases ht : Other t
  · rw [rules_of_other ht] at ho
    obtain ⟨b, ⟨k, rfl⟩ | ⟨sent, rest, rfl⟩⟩ := hstream
    · exact absurd trivial ho
    · exact absurd trivial ho
  · obtain ⟨n, rfl⟩ : ∃ n, t = .reader n := by
      by_contra hnone
      exact ht (fun n hn => hnone ⟨n, hn⟩)
    have hmay : Serving.May P server n (gs (.reader n)) o := ho
    cases hg : gs (.reader n) with
    | serving ptr f =>
      rw [hg] at hmay
      refine ⟨n, ptr, f, rfl, rfl, ?_⟩
      obtain ⟨b, ⟨k, rfl⟩ | ⟨sent, rest, rfl⟩⟩ := hstream
      · exact congrArg some hmay.1
      · exact congrArg some hmay.1
    | idle =>
      rw [hg] at hmay
      obtain ⟨b, ⟨k, rfl⟩ | ⟨sent, rest, rfl⟩⟩ := hstream
      · exact hmay.elim
      · exact hmay.elim
    | tasked ID | missed ID =>
      rw [hg] at hmay
      obtain ⟨b, ⟨k, rfl⟩ | ⟨sent, rest, rfl⟩⟩ := hstream
      · exact hmay.elim
      · exact hmay.elim

/-- **Nobody else disturbs who is served**: the network may bring something. -/
theorem undisturbed (hK : Knowledge ids usage fs w) (h : Attended P server gs (w, stream))
    (hmay : (Registry.rules server usage t).Allowed (fs t) o)
    (ho : (rules P server t).Allowed (gs t) o) (hsem : sem ids o c w = some (r, w'))
    (hn : gs (.reader n) = .serving ptr f) (ht : t ≠ .reader n) :
    ¬ Disturbs w ptr.addr o c ∨ ∃ bytes, o = .network ∧ c = .delivered ptr.addr bytes := by
  have hserves := h.serving n ptr f hn
  -- a worker of its own would be the same
  have hstream : (∃ b, (∃ k, o = .read b k) ∨ ∃ sent rest, o = .write_some b sent rest) →
      touched w o c ≠ some ptr.addr := by
    intro hstreams haddr
    obtain ⟨m, ptr', f', rfl, hm, htouched⟩ := serves_of_streams (w := w) (c := c) ho hstreams
    rw [htouched, Option.some.injEq] at haddr
    exact ht (congrArg Thread.reader (h.unique hK.1 hm hn haddr))
  cases o with
  | connect b => exact hmay.2.elim
  | read b k => exact .inl (fun hb => hstream ⟨b, .inl ⟨k, rfl⟩⟩ (congrArg some hb))
  | write_some b sent rest =>
    exact .inl (fun hb => hstream ⟨b, .inr ⟨sent, rest, rfl⟩⟩ (congrArg some hb))
  | makeSession id =>
    exact .inl (fun hb => Nat.ne_of_gt (hK.1.allocated ptr hserves.registered) hb)
  | network =>
    have hnetwork : networkSem c w = some (r, w') := hsem
    cases c with
    | accepted b ec =>
      simp only [networkSem, Option.ite_none_right_eq_some] at hnetwork
      refine .inl (fun hb => ?_)
      obtain rfl : b = ptr.addr := hb
      exact hK.1.accepted ptr hserves.registered hnetwork.1.1
    | delivered b bytes =>
      by_cases hb : b = ptr.addr
      · subst hb
        exact .inr ⟨bytes, rfl, rfl⟩
      · exact .inl hb
    | _ => exact .inl id
  | _ => exact .inl id

/-- What the network brings is taken down. -/
theorem note_delivered (bytes : List UInt8) :
    note t .network (.delivered a bytes) w stream a = stream a ++ bytes :=
  Function.update_self ..

/-- Nothing else is. -/
theorem note_other (h : ∀ bytes, ¬ (o = .network ∧ c = .delivered a bytes)) :
    note t o c w stream a = stream a := by
  unfold note
  split
  · next b bytes =>
    exact Function.update_of_ne (fun hab => h bytes ⟨rfl, by rw [hab]⟩) _ _
  · rfl

/-- A worker that does not move. -/
theorem attends_other (hK : Knowledge ids usage fs w) (h : Attended P server gs (w, stream))
    (hmay : (Registry.rules server usage t).Allowed (fs t) o)
    (ho : (rules P server t).Allowed (gs t) o) (hsem : sem ids o c w = some (r, w'))
    (hn : gs (.reader n) = .serving ptr f) (ht : t ≠ .reader n) :
    Attends P server n ptr f (note t o c w stream ptr.addr) w' := by
  have hserves := h.serving n ptr f hn
  have hlater := (Registry.moves hK.1 (hK.2 t) hmay hsem).2.later
  rcases undisturbed hK h hmay ho hsem hn ht with hundisturbed | ⟨bytes, rfl, rfl⟩
  · rw [note_other (fun bytes hdelivered => hundisturbed (by rw [hdelivered.1, hdelivered.2]; rfl))]
    exact hserves.still (still_of_sem hsem hundisturbed) hlater (handedOf_sem hsem)
  · rw [note_delivered]
    have hnetwork : networkSem (.delivered ptr.addr bytes) w = some (r, w') := hsem
    simp only [networkSem, Option.ite_none_right_eq_some, Option.some.injEq, Prod.mk.injEq] at hnetwork
    obtain ⟨-, -, rfl⟩ := hnetwork
    exact hserves.grow bytes

/-- A worker that serves its session. -/
theorem attends_self (hK : Knowledge ids usage fs w) (h : Attended P server gs (w, stream))
    (hmay : (Registry.rules server usage (.reader n)).Allowed (fs (.reader n)) o)
    (hn : gs (.reader n) = .serving ptr f)
    (ho : Allowed ptr.addr (answererRole P (endOf server n ptr)) f o) (hc : Cuts c)
    (hsem : sem ids o c w = some (r, w')) :
    Attends P server n ptr (f.next server.magicNumber o r) (note (.reader n) o c w stream ptr.addr) w' := by
  have hnetwork : o ≠ .network := by
    rintro rfl
    exact ho
  rw [note_other (fun _ hdelivered => hnetwork hdelivered.1)]
  exact (h.serving n ptr f hn).next ho hc hsem (Registry.moves hK.1 (hK.2 _) hmay hsem).2.later

/-- A worker that has found its session. -/
theorem attends_found (hK : Knowledge ids usage fs w) (h : Attended P server gs (w, stream))
    {ID : UInt64} {id : UInt32} (hn : gs (.reader n) = .tasked ID) (hid : id = UInt64.toUInt32 ID)
    (hfound : w.getSession id = some ptr) :
    Attends P server n ptr .nothing (stream ptr.addr) w := by
  obtain ⟨hregistered, hsessionID⟩ := hK.1.sessionMap id ptr hfound
  have hworks : WorksFor w n ptr.sessionID := ⟨ID, h.captured n ID (.inl hn), by rw [hsessionID, hid]⟩
  obtain ⟨htx, hstream⟩ := h.free ptr.addr (fun m ptr' f' hm haddr => by
    have hserves := h.serving m ptr' f' hm
    obtain rfl := hK.1.addrs ptr' hserves.registered ptr hregistered haddr
    rw [worker_unique hK.1 hserves.works hworks, hn] at hm
    cases hm)
  exact attends_fresh hregistered hworks hstream htx

/-- A session that no worker serves: what comes in stays where it is, and nothing goes out. -/
theorem free_next (h : Attended P server gs (w, stream))
    (hmay : (Registry.rules server usage t).Allowed (fs t) o)
    (ho : (rules P server t).Allowed (gs t) o) (hsem : sem ids o c w = some (r, w'))
    (ha : Free gs a) : (w'.sessions a).tx = [] ∧ note t o c w stream a = (w'.sessions a).rx := by
  obtain ⟨htx, hrx⟩ := h.free a ha
  have hstreams : (∃ b, (∃ k, o = .read b k) ∨ ∃ sent rest, o = .write_some b sent rest) →
      touched w o c ≠ some a := by
    intro hstreams
    obtain ⟨m, ptr, f, rfl, hm, htouched⟩ := serves_of_streams (w := w) (c := c) ho hstreams
    rw [htouched]
    exact fun haddr => ha m ptr f hm (Option.some.inj haddr)
  have hundisturbed : ¬ Disturbs w a o c →
      (w'.sessions a).tx = [] ∧ note t o c w stream a = (w'.sessions a).rx := by
    intro hundisturbed
    have hstill := still_of_sem hsem hundisturbed
    rw [note_other (fun bytes hdelivered => hundisturbed (by rw [hdelivered.1, hdelivered.2]; rfl)),
      hstill.tx, hstill.rx]
    exact ⟨htx, hrx⟩
  cases o with
  | connect b => exact hmay.2.elim
  | read b k => exact hundisturbed (fun hb => hstreams ⟨b, .inl ⟨k, rfl⟩⟩ (congrArg some hb))
  | write_some b sent rest =>
    exact hundisturbed (fun hb => hstreams ⟨b, .inr ⟨sent, rest, rfl⟩⟩ (congrArg some hb))
  | makeSession id =>
    by_cases ha : w.allocated = a
    · obtain rfl : w' = { w.modify w.allocated (fun _ => .new) with allocated := w.allocated + 1 } :=
        effect_of_sem hsem
      have hnew : (w.modify w.allocated (fun _ => .new)).sessions a = .new := by
        rw [← ha, World.modify_sessions_self]
      refine ⟨congrArg SessionObject.tx hnew, ?_⟩
      rw [note_other (fun _ hdelivered => by cases hdelivered.1)]
      exact (h.unmade a (Nat.le_of_eq ha)).2.2.trans (congrArg SessionObject.rx hnew).symm
    · exact hundisturbed ha
  | network =>
    have hnetwork : networkSem c w = some (r, w') := hsem
    cases c with
    | accepted b ec =>
      simp only [networkSem, Option.ite_none_right_eq_some, Option.some.injEq, Prod.mk.injEq] at hnetwork
      obtain ⟨-, -, rfl⟩ := hnetwork
      rw [note_other (fun _ hdelivered => by cases hdelivered.2)]
      by_cases hb : a = b
      · subst hb
        rw [World.modify_sessions_self]
        exact ⟨htx, hrx⟩
      · rw [World.modify_sessions_of_ne w hb]
        exact ⟨htx, hrx⟩
    | delivered b bytes =>
      by_cases hb : b = a
      · subst hb
        simp only [networkSem, Option.ite_none_right_eq_some, Option.some.injEq, Prod.mk.injEq] at hnetwork
        obtain ⟨-, -, rfl⟩ := hnetwork
        rw [note_delivered, World.modify_sessions_self]
        exact ⟨htx, congrArg (· ++ bytes) hrx⟩
      · exact hundisturbed hb
    | _ => exact hundisturbed id
  | _ => exact hundisturbed id

/-- A session that has not been made is closed, and nothing comes to it. -/
theorem unmade_next (hK : Knowledge ids usage fs w) (h : Attended P server gs (w, stream))
    (hmay : (Registry.rules server usage t).Allowed (fs t) o)
    (hsem : sem ids o c w = some (r, w')) (ha : w'.allocated ≤ a) :
    (w'.sessions a).isOpen = false ∧ (w'.sessions a).accept = .idle ∧
      note t o c w stream a = [] := by
  have heffect := effect_of_sem hsem
  have hallocated : w.allocated ≤ w'.allocated := by
    cases o with
    | connect b => exact hmay.2.elim
    | read b k =>
      obtain ⟨rx, rfl⟩ := heffect
      exact le_rfl
    | write_some b sent rest =>
      obtain ⟨tx, rfl⟩ := heffect
      exact le_rfl
    | makeSession id =>
      obtain rfl := heffect
      exact Nat.le_succ _
    | network =>
      rcases heffect with ⟨b, ec, -, -, rfl⟩ | ⟨b, rx, rfl⟩
      · exact le_rfl
      · exact le_rfl
    | _ =>
      obtain rfl := heffect
      exact le_rfl
  obtain ⟨hclosed, hidle, hnothing⟩ := h.unmade a (hallocated.trans ha)
  have hdelivered : ∀ bytes, ¬ (o = .network ∧ c = .delivered a bytes) := by
    rintro bytes ⟨rfl, rfl⟩
    have hnetwork : networkSem (.delivered a bytes) w = some (r, w') := hsem
    simp only [networkSem, Option.ite_none_right_eq_some] at hnetwork
    exact absurd (hclosed.symm.trans hnetwork.1) Bool.false_ne_true
  rw [note_other hdelivered]
  have hsame : ∀ {b : Nat} {x : SessionObject → SessionObject}, w' = w.modify b x →
      (∀ s, s.isOpen = false → (x s).isOpen = false) → (∀ s, (x s).accept = s.accept) →
      (w'.sessions a).isOpen = false ∧ (w'.sessions a).accept = .idle ∧ stream a = [] := by
    rintro b x rfl hopen haccept
    by_cases hb : a = b
    · subst hb
      rw [World.modify_sessions_self]
      exact ⟨hopen _ hclosed, (haccept _).trans hidle, hnothing⟩
    · rw [World.modify_sessions_of_ne w hb]
      exact ⟨hclosed, hidle, hnothing⟩
  have huntouched : touched w o c ≠ some a →
      (w'.sessions a).isOpen = false ∧ (w'.sessions a).accept = .idle ∧ stream a = [] := by
    intro htouched
    rw [sessions_untouched hsem htouched]
    exact ⟨hclosed, hidle, hnothing⟩
  cases o with
  | connect b => exact hmay.2.elim
  | read b k =>
    obtain ⟨rx, hw'⟩ := heffect
    exact hsame hw' (fun _ hs => hs) (fun _ => rfl)
  | write_some b sent rest =>
    obtain ⟨tx, hw'⟩ := heffect
    exact hsame hw' (fun _ hs => hs) (fun _ => rfl)
  | close b => exact hsame heffect (fun _ _ => rfl) (fun _ => rfl)
  | setCriticalError b => exact hsame heffect (fun _ hs => hs) (fun _ => rfl)
  | async_accept b =>
    -- the accept loop has made the session
    obtain ⟨rfl, ID, p, hstage, rfl⟩ := hmay.2
    have hat := (hK.2 .main).stage
    rw [hstage] at hat
    refine huntouched (fun hb => ?_)
    have hpa : p.addr = a := Option.some.inj hb
    have hlt := hat.2.1.2.1
    omega
  | makeSession id =>
    obtain rfl : w' = { w.modify w.allocated (fun _ => .new) with allocated := w.allocated + 1 } := heffect
    refine huntouched (fun hb => ?_)
    exact absurd (Option.some.inj hb) (Nat.ne_of_lt ha)
  | network =>
    have hnetwork : networkSem c w = some (r, w') := hsem
    cases c with
    | accepted b ec =>
      simp only [networkSem, Option.ite_none_right_eq_some] at hnetwork
      refine huntouched (fun hb => ?_)
      obtain rfl : b = a := Option.some.inj hb
      rw [hidle] at hnetwork
      cases hnetwork.1.1
    | delivered b bytes =>
      refine huntouched (fun hb => ?_)
      exact hdelivered bytes ⟨rfl, by rw [Option.some.inj hb]⟩
    | _ => cases hnetwork
  | _ => exact huntouched (fun hb => by cases hb)

end OneOperation

/-- The choice cuts a connection if it fails a call, and no user writes. -/
def Bare (c : Choice) : Prop := Cuts c ∧ ∀ id data, c ≠ .command (.write id data)

section

variable {fs : Thread → Facts} {gs : Thread → Serving} {w : World} {stream : Nat → List UInt8}

/-- What the disciplines exclude does not happen. -/
theorem possible (h : Attended P server gs (w, stream)) (ho : (rules P server t).Allowed (gs t) o)
    (hc : Bare c) (hsem : sem ids o c w = some (r, w')) :
    (rules P server t).Possible (gs t) o r := by
  by_cases ht : Other t
  · rw [rules_of_other ht]
    cases o with
    | command =>
      cases c with
      | command cmd =>
        obtain ⟨rfl, -⟩ := Prod.mk.inj (Option.some.inj hsem)
        exact fun id data hwrite => hc.2 id data (by rw [hwrite])
      | _ => cases hsem
    | _ => trivial
  · obtain ⟨n, rfl⟩ : ∃ n, t = .reader n := by
      by_contra hnone
      exact ht (fun n hn => hnone ⟨n, hn⟩)
    have hmay : Serving.May P server n (gs (.reader n)) o := ho
    show Serving.Sees (gs (.reader n)) o r
    cases hg : gs (.reader n) with
    | serving ptr f =>
      rw [hg] at hmay
      exact possible_of_sem (h.serving n ptr f hg).writer.aware hmay hc.1 hsem
    | _ => trivial

/-- What a worker that has learnt something serves, it served before or has just found. -/
theorem serving_of_next {g : Serving} (hmay : Serving.May P server n g o)
    (hnext : g.next server o r = .serving ptr f) :
    (∃ f', g = .serving ptr f' ∧ f = f'.next server.magicNumber o r) ∨
      ∃ ID id, g = .tasked ID ∧ o = .mapGet id ∧ HEq r (some ptr) ∧ id = UInt64.toUInt32 ID ∧ f = .nothing := by
  cases g with
  | serving ptr' f' =>
    obtain ⟨rfl, rfl⟩ := Serving.serving.inj hnext
    exact .inl ⟨f', rfl, rfl⟩
  | idle =>
    cases o with
    | takeTask k => cases hnext
    | _ => exact hmay.elim
  | tasked ID =>
    cases o with
    | mapGet id =>
      cases r with
      | none => cases hnext
      | some found =>
        obtain ⟨rfl, rfl⟩ := Serving.serving.inj hnext
        exact .inr ⟨ID, id, rfl, rfl, .rfl, hmay, rfl⟩
    | _ => exact hmay.elim
  | missed ID =>
    cases o with
    | sessionTaskDone k => cases hnext
    | _ => exact hmay.elim

/-- What a worker that has learnt something has as its task. -/
theorem captured_of_next {g : Serving} {ID : UInt64} (hmay : Serving.May P server n g o)
    (hnext : Captured (g.next server o r) ID) : Captured g ID ∨ o = .takeTask n ∧ HEq r ID := by
  cases g with
  | serving ptr' f' => exact hnext.elim nofun nofun
  | idle =>
    cases o with
    | takeTask k =>
      obtain rfl : k = n := hmay
      obtain rfl := Serving.tasked.inj (hnext.resolve_right nofun)
      exact .inr ⟨rfl, .rfl⟩
    | _ => exact hmay.elim
  | tasked ID' =>
    cases o with
    | mapGet id =>
      cases r with
      | none =>
        obtain rfl := Serving.missed.inj (hnext.resolve_left nofun)
        exact .inl (.inl rfl)
      | some found => exact hnext.elim nofun nofun
    | _ => exact hmay.elim
  | missed ID' =>
    cases o with
    | sessionTaskDone k => exact .inl hnext
    | _ => exact hmay.elim

/-- A worker that has missed its session has missed it before, or has just looked it up. -/
theorem missed_of_next {g : Serving} {ID : UInt64} (hmay : Serving.May P server n g o)
    (hnext : g.next server o r = .missed ID) :
    g = .missed ID ∨ ∃ id, o = .mapGet id ∧ HEq r (none : Option SessionPtr) ∧ id = UInt64.toUInt32 ID := by
  cases g with
  | serving ptr' f' => cases hnext
  | idle =>
    cases o with
    | takeTask k => cases hnext
    | _ => exact hmay.elim
  | tasked ID' =>
    cases o with
    | mapGet id =>
      cases r with
      | none =>
        obtain rfl := Serving.missed.inj hnext
        exact .inr ⟨id, rfl, .rfl, hmay⟩
      | some found => cases hnext
    | _ => exact hmay.elim
  | missed ID' =>
    cases o with
    | sessionTaskDone k => exact .inl hnext
    | _ => exact hmay.elim

/-- **Every operation keeps the workers at their sessions.** -/
theorem Attended.step (hK : Knowledge ids usage fs w) (h : Attended P server gs (w, stream))
    (hmay : (Registry.rules server usage t).Allowed (fs t) o)
    (ho : (rules P server t).Allowed (gs t) o) (hc : Bare c) (hsem : sem ids o c w = some (r, w')) :
    Attended P server (Function.update gs t ((rules P server t).next (gs t) o r))
      (w', note t o c w stream) := by
  have hlater := (Registry.moves hK.1 (hK.2 t) hmay hsem).2.later
  constructor
  · intro n ID hID
    by_cases ht : t = .reader n
    · subst ht
      rw [Function.update_self] at hID
      rcases captured_of_next (P := P) ho hID with hold | ⟨rfl, hr⟩
      · exact hlater.workers n ID (h.captured n ID hold)
      · obtain rfl := eq_of_heq hr
        cases hW : w.sessionWorkers[n]? with
        | none => simp [sem, hW] at hsem
        | some W =>
          simp only [sem, hW] at hsem
          obtain ⟨rfl, rfl⟩ := Prod.mk.inj (Option.some.inj hsem)
          exact hW
    · rw [Function.update_of_ne (Ne.symm ht)] at hID
      exact hlater.workers n ID (h.captured n ID hID)
  · intro n ptr f hf
    by_cases ht : t = .reader n
    · subst ht
      rw [Function.update_self] at hf
      rcases serving_of_next (P := P) ho hf with ⟨f', hold, rfl⟩ | ⟨ID, id, hold, rfl, hr, hid, rfl⟩
      · have hself : Allowed ptr.addr (answererRole P (endOf server n ptr)) f' o := by
          have hmine : Serving.May P server n (gs (.reader n)) o := ho
          rw [hold] at hmine
          exact hmine
        exact attends_self hK h hmay hold hself hc.1 hsem
      · obtain rfl := eq_of_heq hr
        obtain ⟨hfound, rfl⟩ := Prod.mk.inj (Option.some.inj hsem)
        show Attends P server n ptr .nothing (note (.reader n) (.mapGet id) c w stream ptr.addr) w
        rw [note_other (fun _ hdelivered => by cases hdelivered.1)]
        exact attends_found hK h hold hid hfound
    · rw [Function.update_of_ne (Ne.symm ht)] at hf
      exact attends_other hK h hmay ho hsem hf ht
  · intro a ha
    -- who serves a session goes on serving it
    refine free_next h hmay ho hsem (fun n ptr f hf haddr => ?_)
    by_cases ht : t = .reader n
    · subst ht
      refine ha n ptr (f.next server.magicNumber o r) ?_ haddr
      rw [Function.update_self]
      show Serving.next server (gs (.reader n)) o r = _
      rw [hf]
      rfl
    · refine ha n ptr f ?_ haddr
      rw [Function.update_of_ne (Ne.symm ht)]
      exact hf
  · exact fun a ha => unmade_next hK h hmay hsem ha

end

/-! ## Runs -/

variable (P server ids usage)

/-- The workers of a server keep to their sessions, in runs in which the ids differ. -/
def attending (hread : server.readHandler = true) :
    Companion (Histories.disciplined (S := server.system P ids) (H := Nat → List UInt8) note
      (Registry.disciplined P server ids usage)) Serving where
  rules := rules P server
  loop := fun t l g => atLabel P server t l g
  fin := fun t g => atEnd P server t g
  ok := fun _ _ c _ => Bare c
  inv := Attended P server
  block_follows := by
    intro t l g hl
    refine (block_follows hread hl).mono (fun next g hnext => ?_) (fun _ _ h => h)
    cases next with
    | some l' => exact hnext
    | none => exact hnext
  keeps := by
    rintro fs gs t o c r ⟨w, stream⟩ ⟨w', stream'⟩ hK - h hmay - ho hc hsem
    obtain ⟨⟨r₁, w₁⟩, hact, heq⟩ := Option.map_eq_some_iff.mp hsem
    obtain ⟨rfl, hw⟩ := Prod.mk.inj heq
    obtain ⟨rfl, rfl⟩ := Prod.mk.inj hw
    exact ⟨possible h ho hc hact, h.step hK hmay ho hc hact⟩

variable {P server ids usage}

/-- Nothing has happened to any session when the server has started. -/
theorem attended_started :
    Attended P server (fun _ => .idle) ((server.started P ids usage).world, fun _ => []) where
  captured := fun _ _ h => h.elim nofun nofun
  serving := nofun
  free := fun _ _ => ⟨rfl, rfl⟩
  unmade := fun _ _ => ⟨rfl, rfl, rfl⟩

theorem attending_started (hread : server.readHandler = true) :
    (attending P server ids usage hread).together.Holds
      (Histories.with_ note (server.started P ids usage) (fun _ => []))
      (fun _ => (Facts.nothing, .idle)) := by
  have hholds := @Histories.holds_recorded _ _ _ note _ _ _ (Registry.started_holds P server ids usage)
    (fun _ => [])
  refine Companion.holds_together (C := attending P server ids usage hread) hholds attended_started
    (fun t => (started_follows (P := P) ids usage t).mono (fun next g hnext => ?_) (fun _ _ h => h))
  cases next with
  | some l => exact hnext
  | none => exact hnext

/-- In a schedule whose ids differ every id that is handed out is new. -/
theorem along_fresh {s s' : (server.system P ids).State} {sched : List (Thread × Choice)}
    (hexec : System.exec s sched = some s') (hids : DistinctIDs ids s'.world.handed)
    (hsched : ∀ step ∈ sched, Bare step.2) :
    System.Along (fun s t c => freshID P s t c ∧ Bare c) s sched := by
  induction sched generalizing s with
  | nil => trivial
  | cons tc rest ih =>
    obtain ⟨t, c⟩ := tc
    simp only [System.exec, Option.bind_eq_some_iff] at hexec
    obtain ⟨s₁, hstep, hrest⟩ := hexec
    have hlater : System.Steps (S := server.system P ids) System.anyStep s₁ s' :=
      System.steps_of_exec hrest (fun _ _ _ => trivial)
    have hids₁ := hids.mono (Registry.handed_mono P hlater)
    exact System.along_cons ⟨Registry.freshID_of_step P hstep hids₁, hsched (t, c) (List.mem_cons_self ..)⟩
      hstep (ih hrest (fun step hmem => hsched step (List.mem_cons_of_mem _ hmem)))

/-- **Every state of a run** in which the ids differ, no user writes and a call that fails ends its
connection. -/
theorem attended_run (hread : server.readHandler = true) {s : (server.system P ids).State}
    {sched : List (Thread × Choice)} (hexec : System.exec (server.started P ids usage) sched = some s)
    (hids : DistinctIDs ids s.world.handed) (hsched : ∀ step ∈ sched, Bare step.2) :
    ∃ fs, (attending P server ids usage hread).together.Holds
      (Histories.with_ note s (brought P server ids (server.started P ids usage) sched)) fs := by
  refine Disciplined.run_rule ?_ (Histories.steps_recorded hexec (along_fresh hexec hids hsched) _)
    ⟨_, attending_started hread⟩
  exact fun s t c hok o k hk => ⟨hok.1 o k hk, hok.2⟩

/-- What a server owes to a client that has sent these texts. -/
def service (P : Platform) (texts : List (List UInt8)) : Exchange.Protocol (List UInt8) (List UInt8) :=
  { protocol P [] with script := texts.filter (parses P) }

/-- **Every client is answered in order, and as if it were alone.** Whatever the threads of the
server do in between, who else connects, sends, leaves or is refused, how the network cuts the bytes
and mixes those of the clients, and whenever the server is stopped: what has been sent on a session
are the answers to the frames that the network has brought to this session, in their order, one to
each that wants one, and all of them whole but perhaps the last. What has been handed to the user of it has been handed
over in the order of these frames. -/
theorem clients_in_order (P : Platform) (server : SegmentServer) (ids : Nat → UInt64) (usage : Usage)
    (hread : server.readHandler = true) {s : (server.system P ids).State}
    {sched : List (Thread × Choice)} (hexec : System.exec (server.started P ids usage) sched = some s)
    (hids : DistinctIDs ids s.world.handed) (hsched : ∀ step ∈ sched, Bare step.2) (a : Nat) :
    ∃ texts e, framed server.magicNumber texts <+: brought P server ids (server.started P ids usage) sched a ∧
      Exchange.Reachable (service P texts) e ∧ e.received.Sublist (handedOf s.world) ∧
      Written server.magicNumber e.answers (s.world.sessions a).tx := by
  obtain ⟨fs, hinv, -⟩ := attended_run hread hexec hids hsched
  obtain ⟨-, hattended⟩ := hinv
  by_cases ha : Free (fun t => (fs t).2) a
  · -- nothing has been sent to who is not served
    obtain ⟨htx, -⟩ := hattended.free a ha
    refine ⟨[], .start, List.nil_prefix, .refl, List.nil_sublist _, ?_⟩
    rw [show (s.world.sessions a).tx = [] from htx]
    exact written_framed server.magicNumber []
  · obtain ⟨n, ptr, f, hf, rfl⟩ : ∃ n ptr f, (fs (.reader n)).2 = .serving ptr f ∧ ptr.addr = a := by
      by_contra hnone
      exact ha (fun n ptr f hf haddr => hnone ⟨n, ptr, f, hf, haddr⟩)
    have hserves := hattended.serving n ptr f hf
    obtain ⟨consumed, hstream, hbehind⟩ := hserves.reads.reads
    obtain ⟨answers, hbegun, hanswered⟩ := hserves.answered
    refine ⟨f.ledger.taken, ⟨f.ledger.taken.filter (parses P), f.ledger.handed, answers, []⟩, ?_,
      reachable_iff.mpr ⟨List.prefix_rfl, hserves.reads.parsed, hanswered, List.nil_prefix⟩,
      hserves.handed, hserves.writer.written hbegun⟩
    have htaken := hbehind.framed_begins.trans (List.prefix_append _ (s.world.sessions ptr.addr).rx)
    rwa [← show brought P server ids (server.started P ids usage) sched ptr.addr
      = consumed ++ (s.world.sessions ptr.addr).rx from hstream] at htaken

/-! ## Two clients at once -/

/-- The choice is no command, and a failure that ends the connection if it is one. -/
def isBare : Choice → Bool
  | .fail ec _ => check_error ec
  | .command _ => false
  | _ => true

theorem bare_of_isBare (h : isBare c = true) : Bare c := by
  constructor
  · rintro ec n rfl
    exact h
  · rintro id data rfl
    cases h

/-- A server that takes in every client. -/
def openServer : SegmentServer := ⟨true, 7, true⟩

/-- The session is made, accepted and registered, and gets its worker. -/
def comes (addr : Nat) : List (Thread × Choice) :=
  acceptCompletes addr .success ++ mainSteps 4

/-- The network brings a piece. -/
def brings (addr : Nat) (bytes : List UInt8) : List (Thread × Choice) :=
  [(.network, .go), (.network, .delivered addr bytes)]

/-- A worker takes its task, or goes on to the next round. -/
def goes (n : Nat) : List (Thread × Choice) := List.replicate 3 (.reader n, .go)

/-- A worker takes a frame and hands its payload over. -/
def reads (n : Nat) : List (Thread × Choice) :=
  goes n ++ [(.reader n, .ok 0), (.reader n, .ok 0), (.reader n, .go)]

/-- Two clients ask at once. The frame of the first comes in two pieces, that of the second in
between, and the replies go out in turns. -/
def bothAsk : List (Thread × Choice) :=
  comes 0 ++ comes 1 ++ goes 1 ++ goes 0 ++ brings 0 ((frame 7 question).take 3)
    ++ brings 1 (frame 7 question) ++ brings 0 ((frame 7 question).drop 3) ++ reads 0 ++ reads 1
    ++ [(.reader 0, .int 6), (.reader 1, .int 9), (.reader 0, .ok 5), (.reader 1, .ok 61), (.reader 0, .ok 56)]

/-- Each gets the reply to its own question. -/
theorem two_clients_in_order : ∃ s, System.exec
      (openServer.started jsonPlatform UInt64.ofNat ⟨true, true⟩) bothAsk = some s ∧
    (s.world.sessions 0).tx = frame 7 (answer 6) ∧
    (s.world.sessions 1).tx = frame 7 (answer 9) ∧
    ∀ a, ∃ texts e, framed 7 texts <+: brought jsonPlatform openServer UInt64.ofNat
        (openServer.started jsonPlatform UInt64.ofNat ⟨true, true⟩) bothAsk a ∧
      Exchange.Reachable (service jsonPlatform texts) e ∧ e.received.Sublist (handedOf s.world) ∧
      Written 7 e.answers (s.world.sessions a).tx := by
  have hsent : (System.exec (openServer.started jsonPlatform UInt64.ofNat ⟨true, true⟩) bothAsk).map
      (fun s => ((s.world.sessions 0).tx, (s.world.sessions 1).tx, s.world.handed))
      = some (frame 7 (answer 6), frame 7 (answer 9), 2) := by decide +kernel
  obtain ⟨s, hexec, hs⟩ := Option.map_eq_some_iff.mp hsent
  obtain ⟨hfirst, hs⟩ := Prod.mk.inj hs
  obtain ⟨hsecond, hhanded⟩ := Prod.mk.inj hs
  have hbare : ∀ step ∈ bothAsk, isBare step.2 = true := by decide
  refine ⟨s, hexec, hfirst, hsecond, fun a => ?_⟩
  refine clients_in_order jsonPlatform openServer UInt64.ofNat ⟨true, true⟩ rfl hexec ?_
    (fun step hstep => bare_of_isBare (hbare step hstep)) a
  rw [hhanded]
  exact Admission.distinctIDs_three.mono (by decide)

end NetworkApplication.Clients
