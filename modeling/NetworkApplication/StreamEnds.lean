/-
One end of a connection, and what its threads know about it.

The threads at an end share the socket. One of them may read, one may write, and the others see
the bytes come and go; what they all rely on is that nobody opens the socket again or clears the
error flag. So what an operation does to the end is put in five lines (`Moved`), and what is kept
by it follows from those: for the reader that its ledger is the beginning of the peer's stream
(`Reader`), for the writer that the bytes sent are the frames it has begun (`Writer`).
-/
import NetworkApplication.PrefixCode
import NetworkApplication.StreamRoles

set_option autoImplicit false

namespace NetworkApplication.StreamEnds

open NetworkApplication.Program NetworkApplication.Disciplines
open BadPayload StreamRoles

variable {P : Platform} {ids : Nat → UInt64} {a : Nat} {magicNumber : UInt32} {role : Role}
  {f : Knows} {o : Op} {r : o.Res} {c : Choice} {w w' : World} {stream bytes : List UInt8}

/-! ## What an operation does to an end -/

/-- The payloads that have been handed to the user's read handler. -/
def handedOf (w : World) : List (List UInt8) :=
  w.events.filterMap (fun
    | .onReadHandler _ data _ => some data
    | _ => none)

/-- The bytes an operation takes off the stream. -/
def takenBy : (o : Op) → o.Res → List UInt8
  | .read _ _, .ok bytes => bytes
  | _, _ => []

/-- The bytes an operation sends. -/
def sentBy : (o : Op) → o.Res → List UInt8
  | .write_some _ _ rest, .ok n => rest.take n
  | _, _ => []

/-- The payload an operation hands over. -/
def handedBy : Op → List (List UInt8)
  | .event (.onReadHandler _ data _) => [data]
  | _ => []

/-- A read that fails. -/
def FailedRead : (o : Op) → o.Res → Prop
  | .read _ _, .error _ => True
  | _, _ => False

/-- An operation of a thread at the end `a`. -/
def Handles (a : Nat) : Op → Prop
  | .read b _ | .write_some b _ _ => b = a
  | .connect _ | .async_accept _ | .makeSession _ | .network => False
  | _ => True

/-- What an operation does to the end `a`. A read that fails may have taken some bytes. -/
structure Moved (a : Nat) (o : Op) (r : o.Res) (w w' : World) : Prop where
  rx : ∃ lost, (w.sessions a).rx = takenBy o r ++ lost ++ (w'.sessions a).rx ∧
    (¬ FailedRead o r → lost = [])
  tx : (w'.sessions a).tx = (w.sessions a).tx ++ sentBy o r
  handed : handedOf w' = handedOf w ++ handedBy o
  isOpen : w'.isOpen a = true → w.isOpen a = true
  hasError : w.hasError a = true → w'.hasError a = true

/-- An operation that does nothing to the sockets but close one or set a flag. -/
theorem moved_of_modify {b : Nat} {g : SessionObject → SessionObject} (hrx : ∀ s, (g s).rx = s.rx)
    (htx : ∀ s, (g s).tx = s.tx) (hopen : ∀ s, (g s).isOpen = true → s.isOpen = true)
    (herror : ∀ s, s.criticalError = true → (g s).criticalError = true)
    (htaken : takenBy o r = []) (hsent : sentBy o r = []) (hhanded : handedBy o = []) :
    Moved a o r w (w.modify b g) := by
  by_cases hab : a = b
  · subst hab
    refine ⟨⟨[], ?_, fun _ => rfl⟩, ?_, ?_, ?_, ?_⟩
    · rw [htaken, World.modify_sessions_self, hrx]
      rfl
    · rw [hsent, List.append_nil, World.modify_sessions_self, htx]
    · rw [hhanded, List.append_nil]
      rfl
    · rw [World.isOpen, World.modify_sessions_self]
      exact hopen _
    · rw [World.hasError, World.hasError, World.modify_sessions_self]
      exact herror _
  · have hsame := w.modify_sessions_of_ne hab g
    refine ⟨⟨[], ?_, fun _ => rfl⟩, ?_, ?_, ?_, ?_⟩
    · rw [htaken, hsame]
      rfl
    · rw [hsent, List.append_nil, hsame]
    · rw [hhanded, List.append_nil]
      rfl
    · rw [World.isOpen, World.isOpen, hsame]
      exact id
    · rw [World.hasError, World.hasError, hsame]
      exact id

/-- An operation that leaves the sockets alone. -/
theorem moved_of_same (hsessions : w'.sessions = w.sessions)
    (hevents : handedOf w' = handedOf w ++ handedBy o) (htaken : takenBy o r = [])
    (hsent : sentBy o r = []) : Moved a o r w w' where
  rx := ⟨[], by rw [htaken, hsessions]; rfl, fun _ => rfl⟩
  tx := by rw [hsent, List.append_nil, hsessions]
  handed := hevents
  isOpen := by
    rw [World.isOpen, World.isOpen, hsessions]
    exact id
  hasError := by
    rw [World.hasError, World.hasError, hsessions]
    exact id

theorem moved_read {n : Nat} {r : Except ErrorCode (List UInt8)}
    (h : sem ids (.read a n) c w = some (r, w')) : Moved a (.read a n) r w w' := by
  have hsem : readSem a n c w = some (r, w') := h
  cases c with
  | ok m =>
    simp only [readSem, Option.ite_none_right_eq_some, Option.some.injEq, Prod.mk.injEq] at hsem
    obtain ⟨-, rfl, rfl⟩ := hsem
    refine ⟨⟨[], ?_, fun _ => rfl⟩, ?_, (List.append_nil _).symm, ?_, ?_⟩
    · rw [World.modify_sessions_self, List.append_nil]
      exact (List.take_append_drop n _).symm
    · rw [World.modify_sessions_self]
      exact (List.append_nil _).symm
    · rw [World.isOpen, World.modify_sessions_self]
      exact id
    · rw [World.hasError, World.hasError, World.modify_sessions_self]
      exact id
  | fail ec m =>
    simp only [readSem, Option.ite_none_right_eq_some, Option.some.injEq, Prod.mk.injEq] at hsem
    obtain ⟨-, rfl, rfl⟩ := hsem
    refine ⟨⟨(w.sessions a).rx.take m, ?_, fun hread => absurd trivial hread⟩, ?_,
      (List.append_nil _).symm, ?_, ?_⟩
    · rw [World.modify_sessions_self]
      exact (List.take_append_drop m _).symm
    · rw [World.modify_sessions_self]
      exact (List.append_nil _).symm
    · rw [World.isOpen, World.modify_sessions_self]
      exact id
    · rw [World.hasError, World.hasError, World.modify_sessions_self]
      exact id
  | _ => cases hsem

theorem moved_write_some {sent : Nat} {rest : List UInt8} {r : Except ErrorCode Nat}
    (h : sem ids (.write_some a sent rest) c w = some (r, w')) :
    Moved a (.write_some a sent rest) r w w' := by
  have hsem : writeSem a rest c w = some (r, w') := h
  cases c with
  | ok n =>
    simp only [writeSem, Option.ite_none_right_eq_some, Option.some.injEq, Prod.mk.injEq] at hsem
    obtain ⟨-, rfl, rfl⟩ := hsem
    refine ⟨⟨[], ?_, fun _ => rfl⟩, ?_, (List.append_nil _).symm, ?_, ?_⟩
    · rw [World.modify_sessions_self]
      rfl
    · rw [World.modify_sessions_self]
      rfl
    · rw [World.isOpen, World.modify_sessions_self]
      exact id
    · rw [World.hasError, World.hasError, World.modify_sessions_self]
      exact id
  | fail ec m =>
    simp only [writeSem, Option.ite_none_right_eq_some, Option.some.injEq, Prod.mk.injEq] at hsem
    obtain ⟨-, rfl, rfl⟩ := hsem
    exact moved_of_same rfl (List.append_nil _).symm rfl rfl
  | _ => cases hsem

/-- **What an operation does to an end.** -/
theorem moved_of_sem (ho : Handles a o) (h : sem ids o c w = some (r, w')) : Moved a o r w w' := by
  have heffect := effect_of_sem h
  have hevents : ∀ {w' : World}, w'.events = w.events → handedOf w' = handedOf w ++ [] := by
    intro w' heq
    rw [handedOf, heq, List.append_nil, handedOf]
  cases o with
  | read b n =>
    obtain rfl : b = a := ho
    exact moved_read h
  | write_some b sent rest =>
    obtain rfl : b = a := ho
    exact moved_write_some h
  | close b =>
    obtain rfl : w' = w.modify b _ := heffect
    exact moved_of_modify (fun _ => rfl) (fun _ => rfl) (fun _ h => by cases h) (fun _ h => h) rfl
      rfl rfl
  | setCriticalError b =>
    obtain rfl : w' = w.modify b _ := heffect
    exact moved_of_modify (fun _ => rfl) (fun _ => rfl) (fun _ h => h) (fun _ _ => rfl) rfl rfl rfl
  | event e =>
    obtain rfl : w' = { w with events := w.events ++ [e] } := heffect
    refine moved_of_same rfl ?_ rfl rfl
    simp only [handedOf, List.filterMap_append]
    cases e <;> rfl
  | mapErase id =>
    obtain rfl : w' = { w with sessionMap := w.sessionMap.erase id } := heffect
    exact moved_of_same rfl (hevents rfl) rfl rfl
  | mapInsert id ptr =>
    obtain rfl : w' = { w with sessionMap := w.sessionMap.insert id ptr,
                               registered := w.registered ++ [ptr] } := heffect
    exact moved_of_same rfl (hevents rfl) rfl rfl
  | acceptorClose =>
    obtain rfl : w' = { w with acceptorOpen := false } := heffect
    exact moved_of_same rfl (hevents rfl) rfl rfl
  | makeSessionManager =>
    obtain rfl : w' = { w with sessionMap := ∅, acceptorOpen := true } := heffect
    exact moved_of_same rfl (hevents rfl) rfl rfl
  | setIsWork b =>
    obtain rfl : w' = { w with isWork := b } := heffect
    exact moved_of_same rfl (hevents rfl) rfl rfl
  | distributeID =>
    obtain rfl : w' = { w with handed := w.handed + 1 } := heffect
    exact moved_of_same rfl (hevents rfl) rfl rfl
  | addMainTask =>
    obtain rfl : w' = { w with mainTasks := w.mainTasks + 1 } := heffect
    exact moved_of_same rfl (hevents rfl) rfl rfl
  | mainTaskDone =>
    obtain rfl : w' = { w with mainTasks := w.mainTasks - 1 } := heffect
    exact moved_of_same rfl (hevents rfl) rfl rfl
  | addSessionWorker id =>
    obtain rfl : w' = { w with sessionWorkers := w.sessionWorkers ++ [id] } := heffect
    exact moved_of_same rfl (hevents rfl) rfl rfl
  | sessionTaskDone n =>
    obtain rfl : w' = { w with finished := Function.update w.finished n true } := heffect
    exact moved_of_same rfl (hevents rfl) rfl rfl
  | connect _ | async_accept _ | makeSession _ | network => exact ho.elim
  | _ =>
    obtain rfl : w' = w := heffect
    exact moved_of_same rfl (hevents rfl) rfl rfl

theorem handles_of_allowed (ho : Allowed a role f o) : Handles a o := by
  cases o with
  | read b n => exact ho.1
  | write_some b sent rest => exact ho.1
  | connect _ | async_accept _ | makeSession _ | network => exact ho.elim
  | _ => exact trivial

/-- A thread that only writes takes nothing off the stream and hands nothing over. -/
theorem takes_nothing (ho : Allowed a role f o) (hread : ∀ l, ¬ role.mayRead l)
    (hhand : ∀ l payload, ¬ role.mayHand l payload) (r : o.Res) :
    takenBy o r = [] ∧ ¬ FailedRead o r ∧ handedBy o = [] := by
  cases o with
  | read b n => exact absurd ho.2.1 (hread _)
  | event e =>
    cases e with
    | onReadHandler id data size => exact absurd ho (hhand _ _)
    | _ => exact ho.elim
  | _ => exact ⟨rfl, id, rfl⟩

/-- A thread that does not write sends nothing. -/
theorem sends_nothing (ho : Allowed a role f o) (hwrites : ¬ role.writes) (r : o.Res) :
    sentBy o r = [] := by
  cases o with
  | write_some b sent rest => exact absurd ho.2.1 hwrites
  | _ => rfl

/-- What a thread does that has nothing to do with the stream: it asks, closes and waits. -/
def Apart : Op → Prop
  | .isOpen _ | .shutdown _ | .close _ | .getIsWork | .setIsWork _ | .acceptorIsOpen
  | .acceptorCancel | .acceptorClose | .mapCopy | .mapSize | .mapGet _ | .mapErase _
  | .flushMainWorker | .sessionWorkersSize | .flushSessionWorker _ => True
  | _ => False

theorem Apart.untouched (ho : Apart o) (r : o.Res) : Handles a o ∧ takenBy o r = [] ∧
    ¬ FailedRead o r ∧ handedBy o = [] ∧ sentBy o r = [] := by
  cases o <;> first
    | exact ho.elim
    | exact ⟨trivial, rfl, id, rfl, rfl⟩

/-! ## What is known stays true -/

/-- What the thread knows of the socket and of the flag is so. -/
structure Aware (a : Nat) (f : Knows) (w : World) : Prop where
  closed : f.closed = true → w.isOpen a = false
  flagged : f.flagged = true → w.hasError a = true

theorem Aware.moved (h : Aware a f w) (hmoved : Moved a o r w w') : Aware a f w' where
  closed := fun hclosed => by
    cases hopen : w'.isOpen a with
    | false => rfl
    | true => rw [← h.closed hclosed, hmoved.isOpen hopen]
  flagged := fun hflagged => hmoved.hasError (h.flagged hflagged)

/-- What an operation shows of the socket and of the flag is so. -/
theorem Aware.next (h : Aware a f w) (ho : Allowed a role f o) (hsem : sem ids o c w = some (r, w')) :
    Aware a (f.next magicNumber o r) w' := by
  have hmoved := h.moved (moved_of_sem (handles_of_allowed ho) hsem)
  cases o with
  | isOpen b =>
    obtain rfl : b = a := ho
    obtain ⟨hr, rfl⟩ := Prod.mk.inj (Option.some.inj hsem)
    cases r with
    | false => exact ⟨fun _ => hr, hmoved.flagged⟩
    | true => exact hmoved
  | close b =>
    obtain rfl : b = a := ho.1
    have hclose : reported c (w.modify b (fun s => { s with isOpen := false })) = some (r, w') := hsem
    obtain rfl := reported_eq_some hclose
    refine ⟨fun _ => ?_, hmoved.flagged⟩
    rw [World.isOpen, World.modify_sessions_self]
  | setCriticalError b =>
    obtain rfl : b = a := ho.1
    obtain ⟨-, rfl⟩ := Prod.mk.inj (Option.some.inj hsem)
    refine ⟨hmoved.closed, fun _ => ?_⟩
    rw [World.hasError, World.modify_sessions_self]
  | read b n =>
    cases r with
    | error ec => exact ⟨hmoved.closed, hmoved.flagged⟩
    | ok bytes =>
      simp only [Knows.next]
      split
      · exact ⟨hmoved.closed, hmoved.flagged⟩
      · exact ⟨hmoved.closed, hmoved.flagged⟩
      · exact hmoved
  | write_some b sent rest =>
    cases r with
    | error ec => exact ⟨hmoved.closed, hmoved.flagged⟩
    | ok n => exact ⟨hmoved.closed, hmoved.flagged⟩
  | event e =>
    cases e with
    | onReadHandler id data size => exact ⟨hmoved.closed, hmoved.flagged⟩
    | _ => exact hmoved
  | getIsWork | getCriticalError b => cases r <;> exact ⟨hmoved.closed, hmoved.flagged⟩
  | _ => exact hmoved

/-- What is known is known of the socket's state and of the flag, not of the bytes in front. -/
theorem Aware.grow (h : Aware a f w) (bytes : List UInt8) :
    Aware a f (w.modify a (fun s => { s with rx := s.rx ++ bytes })) where
  closed := fun hclosed => by
    rw [World.isOpen, World.modify_sessions_self]
    exact h.closed hclosed
  flagged := fun hflagged => by
    rw [World.hasError, World.modify_sessions_self]
    exact h.flagged hflagged

/-- Every failing call into a socket ends the connection. -/
def Cuts (c : Choice) : Prop := ∀ ec n, c = .fail ec n → check_error ec = true

/-- What the discipline of a role excludes does not happen. -/
theorem possible_of_sem (h : Aware a f w) (ho : Allowed a role f o) (hc : Cuts c)
    (hsem : sem ids o c w = some (r, w')) : Possible f o r := by
  cases o with
  | read b n =>
    have hread : readSem b n c w = some (r, w') := hsem
    cases c with
    | ok m =>
      simp only [readSem, Option.ite_none_right_eq_some, Option.some.injEq, Prod.mk.injEq] at hread
      obtain ⟨hn, rfl, -⟩ := hread
      show ((w.sessions b).rx.take n).length = n
      rw [List.length_take]
      omega
    | fail ec m =>
      simp only [readSem, Option.ite_none_right_eq_some, Option.some.injEq, Prod.mk.injEq] at hread
      obtain ⟨-, rfl, -⟩ := hread
      exact hc ec m rfl
    | _ => cases hread
  | write_some b sent rest =>
    have hwrite : writeSem b rest c w = some (r, w') := hsem
    cases c with
    | ok n =>
      simp only [writeSem, Option.ite_none_right_eq_some, Option.some.injEq, Prod.mk.injEq] at hwrite
      obtain ⟨⟨hopen, hpos, hle, -⟩, rfl, -⟩ := hwrite
      refine ⟨hpos, hle, ?_⟩
      obtain rfl : b = a := ho.1
      cases hclosed : f.closed with
      | false => rfl
      | true => rw [h.closed hclosed] at hopen; cases hopen
    | fail ec m =>
      simp only [writeSem, Option.ite_none_right_eq_some, Option.some.injEq, Prod.mk.injEq] at hwrite
      obtain ⟨-, rfl, -⟩ := hwrite
      exact hc ec m rfl
    | _ => cases hwrite
  | getCriticalError b =>
    obtain rfl : b = a := ho
    obtain ⟨rfl, -⟩ := Prod.mk.inj (Option.some.inj hsem)
    exact h.flagged
  | uniform_int lo hi =>
    cases c with
    | int n =>
      simp only [sem, Option.ite_none_right_eq_some, Option.some.injEq, Prod.mk.injEq] at hsem
      obtain ⟨hn, rfl, -⟩ := hsem
      exact hn
    | _ => cases hsem
  | _ => exact trivial

/-! ## The writer -/

/-- With the rest of the last frame, the bytes sent are the frames begun, and all but the last of
these are sent. -/
structure Writer (a : Nat) (f : Knows) (w : World) : Prop where
  aware : Aware a f w
  stream : (w.sessions a).tx ++ f.ledger.rest = f.ledger.begun.flatten
  whole : f.ledger.begun.dropLast.flatten <+: (w.sessions a).tx

/-- Nothing has been sent. -/
theorem writer_fresh (a : Nat) (htx : (w.sessions a).tx = []) : Writer a .nothing w where
  aware := ⟨nofun, nofun⟩
  stream := by rw [htx]; rfl
  whole := List.nil_prefix

/-- Another thread of the end does something. -/
theorem Writer.moved (h : Writer a f w) (hm : Moved a o r w w') (hsent : sentBy o r = []) :
    Writer a f w' where
  aware := h.aware.moved hm
  stream := by rw [hm.tx, hsent, List.append_nil, h.stream]
  whole := by
    rw [hm.tx, hsent, List.append_nil]
    exact h.whole

theorem Writer.congr {f' : Knows} (h : Writer a f w) (haware : Aware a f' w)
    (hbegun : f'.ledger.begun = f.ledger.begun) (hrest : f'.ledger.rest = f.ledger.rest) :
    Writer a f' w :=
  ⟨haware, by rw [hbegun, hrest, h.stream], hbegun ▸ h.whole⟩

/-- The network brings bytes. -/
theorem Writer.grow (h : Writer a f w) (bytes : List UInt8) :
    Writer a f (w.modify a (fun s => { s with rx := s.rx ++ bytes })) where
  aware := h.aware.grow bytes
  stream := by rw [World.modify_sessions_self, h.stream]
  whole := by
    rw [World.modify_sessions_self]
    exact h.whole

/-- The writer does something itself. -/
theorem Writer.next (h : Writer a f w) (ho : Allowed a role f o) (hc : Cuts c)
    (hsem : sem ids o c w = some (r, w')) : Writer a (f.next magicNumber o r) w' := by
  have hm := moved_of_sem (handles_of_allowed ho) hsem
  have haware : Aware a (f.next magicNumber o r) w' := h.aware.next ho hsem
  cases o with
  | write_some b sent rest =>
    have hpossible : Possible f (.write_some b sent rest) r := possible_of_sem h.aware ho hc hsem
    cases r with
    | error ec => exact (h.moved hm rfl).congr haware rfl rfl
    | ok n =>
      obtain ⟨hpos, hle, hopen⟩ : 0 < n ∧ n ≤ rest.length ∧ f.closed = false := hpossible
      obtain ⟨-, -, -, hstart⟩ := ho
      have htx : (w'.sessions a).tx = (w.sessions a).tx ++ rest.take n := hm.tx
      rcases hstart with hclosed | ⟨-, ⟨rfl, hnil, -⟩ | ⟨hsent, rfl⟩⟩
      · rw [hclosed] at hopen
        cases hopen
      · -- the first piece of a frame, and all before it are sent
        have hstream := h.stream
        rw [hnil, List.append_nil] at hstream
        refine ⟨haware, ?_, ?_⟩
        · show (w'.sessions a).tx ++ rest.drop n = (f.ledger.begun ++ [rest]).flatten
          rw [htx, List.append_assoc, List.take_append_drop, hstream, List.flatten_concat]
        · show (f.ledger.begun ++ [rest]).dropLast.flatten <+: (w'.sessions a).tx
          rw [List.dropLast_concat, htx, hstream]
          exact List.prefix_append _ _
      · have hbegun : (f.next magicNumber (.write_some b sent f.ledger.rest) (.ok n)).ledger.begun
            = f.ledger.begun := if_neg (Nat.pos_iff_ne_zero.mp hsent)
        refine ⟨haware, ?_, ?_⟩
        · show (w'.sessions a).tx ++ f.ledger.rest.drop n = _
          rw [hbegun, htx, List.append_assoc, List.take_append_drop, h.stream]
        · rw [hbegun, htx]
          exact h.whole.trans (List.prefix_append _ _)
  | read b n =>
    cases r with
    | error ec => exact (h.moved hm rfl).congr haware rfl rfl
    | ok bytes =>
      refine (h.moved hm rfl).congr haware ?_ ?_ <;>
        · simp only [Knows.next]
          split <;> rfl
  | event e => cases e <;> exact (h.moved hm rfl).congr haware rfl rfl
  | isOpen b | getIsWork | getCriticalError b =>
    cases r <;> exact (h.moved hm rfl).congr haware rfl rfl
  | _ => exact (h.moved hm rfl).congr haware rfl rfl

/-- The stream is made of the frames of these payloads, whole but for the last, which may be cut
short. -/
structure Written (magicNumber : UInt32) (payloads : List (List UInt8)) (stream : List UInt8) :
    Prop where
  begins : stream <+: framed magicNumber payloads
  whole : framed magicNumber payloads.dropLast <+: stream

/-- What has been sent is written so, of the payloads whose frames have been begun. -/
theorem Writer.written {payloads : List (List UInt8)} (h : Writer a f w)
    (hbegun : f.ledger.begun = payloads.map (frame magicNumber)) :
    Written magicNumber payloads (w.sessions a).tx := by
  have hstream := h.stream
  have hwhole := h.whole
  rw [hbegun] at hstream hwhole
  rw [← List.map_dropLast] at hwhole
  exact ⟨⟨_, hstream⟩, hwhole⟩

/-- Everything is written. -/
theorem written_framed (magicNumber : UInt32) (payloads : List (List UInt8)) :
    Written magicNumber payloads (framed magicNumber payloads) where
  begins := List.prefix_rfl
  whole := by
    obtain ⟨rest, hrest⟩ := payloads.dropLast_prefix
    refine ⟨framed magicNumber rest, ?_⟩
    conv_rhs => rw [← hrest]
    exact (PrefixCode.encode_append payloads.dropLast rest).symm

/-! ## The reader -/

/-- The payload parses. -/
def parses (P : Platform) (payload : List UInt8) : Bool := !(P.parse payload).error.failed

/-- What has been consumed of the stream when a reader is at a position. -/
def Behind (magicNumber : UInt32) (taken : List (List UInt8)) (consumed : List UInt8) :
    Position → Prop
  | .head => consumed = framed magicNumber taken
  | .header n => ∃ json_len : UInt32, n = json_len.toNat ∧
    consumed = framed magicNumber taken ++ (bytes32 magicNumber ++ bytes32 json_len)
  | .lost => framed magicNumber taken <+: consumed

/-- The frames taken are the beginning of the stream, and what parses of them, in order and once,
has been handed over, the last one perhaps not yet. -/
structure Reads (P : Platform) (magicNumber : UInt32) (a : Nat) (f : Knows) (stream : List UInt8)
    (w : World) : Prop where
  aware : Aware a f w
  reads : ∃ consumed, stream = consumed ++ (w.sessions a).rx ∧
    Behind magicNumber f.ledger.taken consumed f.position
  short : ∀ payload ∈ f.ledger.taken, payload.length < 2 ^ 32
  parsed : f.ledger.handed <+: f.ledger.taken.filter (parses P)

/-- A reader that is the only one there is. -/
structure Reader (P : Platform) (magicNumber : UInt32) (a : Nat) (f : Knows) (stream : List UInt8)
    (w : World) : Prop extends Reads P magicNumber a f stream w where
  handed : handedOf w = f.ledger.handed

theorem framed_concat (magicNumber : UInt32) (payloads : List (List UInt8)) (payload : List UInt8) :
    framed magicNumber (payloads ++ [payload])
      = framed magicNumber payloads ++ frame magicNumber payload :=
  PrefixCode.encode_concat payloads payload

theorem Behind.framed_begins {taken : List (List UInt8)} {consumed : List UInt8}
    {position : Position} (h : Behind magicNumber taken consumed position) :
    framed magicNumber taken <+: consumed := by
  cases position with
  | head => exact (Eq.symm h) ▸ List.prefix_rfl
  | header n =>
    obtain ⟨json_len, -, rfl⟩ := h
    exact List.prefix_append _ _
  | lost => exact h

/-- Another thread of the end does something. -/
theorem Reads.moved (h : Reads P magicNumber a f stream w) (hm : Moved a o r w w')
    (htaken : takenBy o r = []) (hread : ¬ FailedRead o r) :
    Reads P magicNumber a f stream w' := by
  obtain ⟨consumed, hstream, hbehind⟩ := h.reads
  obtain ⟨lost, hrx, hlost⟩ := hm.rx
  rw [htaken, hlost hread] at hrx
  refine ⟨h.aware.moved hm, ⟨consumed, ?_, hbehind⟩, h.short, h.parsed⟩
  rw [hstream, hrx]
  rfl

theorem Reader.moved (h : Reader P magicNumber a f stream w) (hm : Moved a o r w w')
    (htaken : takenBy o r = []) (hread : ¬ FailedRead o r) (hhanded : handedBy o = []) :
    Reader P magicNumber a f stream w' where
  toReads := h.toReads.moved hm htaken hread
  handed := by rw [hm.handed, hhanded, List.append_nil, h.handed]

theorem Reads.congr {f' : Knows} (h : Reads P magicNumber a f stream w) (haware : Aware a f' w)
    (hposition : f'.position = f.position) (htaken : f'.ledger.taken = f.ledger.taken)
    (hhanded : f'.ledger.handed = f.ledger.handed) : Reads P magicNumber a f' stream w := by
  refine ⟨haware, ?_, ?_, ?_⟩
  · rw [hposition, htaken]
    exact h.reads
  · rw [htaken]
    exact h.short
  · rw [hhanded, htaken]
    exact h.parsed

/-- The network brings bytes. -/
theorem Reads.grow (h : Reads P magicNumber a f stream w) (bytes : List UInt8) :
    Reads P magicNumber a f (stream ++ bytes) (w.modify a (fun s => { s with rx := s.rx ++ bytes })) := by
  obtain ⟨consumed, hstream, hbehind⟩ := h.reads
  refine ⟨h.aware.grow bytes, ⟨consumed, ?_, hbehind⟩, h.short, h.parsed⟩
  rw [World.modify_sessions_self, hstream, List.append_assoc]

theorem Reader.grow (h : Reader P magicNumber a f stream w) (bytes : List UInt8) :
    Reader P magicNumber a f (stream ++ bytes) (w.modify a (fun s => { s with rx := s.rx ++ bytes })) :=
  ⟨h.toReads.grow bytes, h.handed⟩

/-- A header is read. -/
theorem behind_header {taken : List (List UInt8)} (hbytes : bytes.length = 8)
    (hmagic : magicOf bytes = magicNumber) :
    Behind magicNumber taken (framed magicNumber taken ++ bytes) (.header (lengthOf bytes)) := by
  refine ⟨uint32_of_bytes ((bytes.drop 4).take 4), rfl, ?_⟩
  have hheader := eq_header_append bytes (by omega)
  rw [List.drop_of_length_le (by omega : bytes.length ≤ 8), List.append_nil, hmagic] at hheader
  exact congrArg (framed magicNumber taken ++ ·) hheader

/-- A payload is read. -/
theorem behind_payload {taken : List (List UInt8)} {json_len : UInt32}
    (hbytes : bytes.length = json_len.toNat) :
    framed magicNumber taken ++ (bytes32 magicNumber ++ bytes32 json_len) ++ bytes
      = framed magicNumber (taken ++ [bytes]) := by
  rw [framed_concat, frame, hbytes, UInt32.ofNat_toNat, List.append_assoc]

/-- The reader does something itself. -/
theorem Reads.next (hrole : ∀ l payload, role.mayHand l payload →
      l.handed ++ [payload] = l.taken.filter (parses P))
    (h : Reads P magicNumber a f stream w) (ho : Allowed a role f o) (hc : Cuts c)
    (hsem : sem ids o c w = some (r, w')) :
    Reads P magicNumber a (f.next magicNumber o r) stream w' := by
  have hm := moved_of_sem (handles_of_allowed ho) hsem
  have haware : Aware a (f.next magicNumber o r) w' := h.aware.next ho hsem
  have hpossible : Possible f o r := possible_of_sem h.aware ho hc hsem
  cases o with
  | read b n =>
    obtain ⟨consumed, hstream, hbehind⟩ := h.reads
    obtain ⟨lost, hrx, hlost⟩ := hm.rx
    cases r with
    | error ec =>
      have htaken : takenBy (.read b n) (.error ec) = [] := rfl
      refine ⟨haware, ⟨consumed ++ lost, ?_, ?_⟩, h.short, h.parsed⟩
      · rw [hstream, hrx, htaken, List.nil_append, List.append_assoc]
      · exact hbehind.framed_begins.trans (List.prefix_append _ _)
    | ok bytes =>
      have hlength : bytes.length = n := hpossible
      rw [hlost id, List.append_nil] at hrx
      have hstream' : stream = consumed ++ bytes ++ (w'.sessions a).rx := by
        rw [hstream, hrx, List.append_assoc]
        rfl
      rcases ho.2.2 with ⟨hposition, rfl⟩ | hposition
      · -- at the head of a frame
        rw [hposition] at hbehind
        obtain rfl : consumed = framed magicNumber f.ledger.taken := hbehind
        have hnext : f.next magicNumber (.read b 8) (.ok bytes) = { f with
            position := if magicOf bytes = magicNumber then .header (lengthOf bytes) else .lost } := by
          simp only [Knows.next, hposition]
        rw [hnext] at haware ⊢
        refine ⟨haware, ⟨_, hstream', ?_⟩, h.short, h.parsed⟩
        show Behind _ _ _ (if magicOf bytes = magicNumber then .header (lengthOf bytes) else .lost)
        split
        · next hmagic => exact behind_header hlength hmagic
        · exact List.prefix_append _ _
      · -- behind a header
        rw [hposition] at hbehind
        obtain ⟨json_len, rfl, rfl⟩ := hbehind
        have hnext : f.next magicNumber (.read b json_len.toNat) (.ok bytes)
            = { f with position := .head, ledger := f.ledger.take bytes } := by
          simp only [Knows.next, hposition]
        rw [hnext] at haware ⊢
        refine ⟨haware, ⟨_, hstream', behind_payload hlength⟩, ?_, ?_⟩
        · intro payload hpayload
          rcases List.mem_append.mp hpayload with hpayload | hpayload
          · exact h.short payload hpayload
          · rw [List.mem_singleton.mp hpayload, hlength]
            exact json_len.toNat_lt
        · show f.ledger.handed <+: (f.ledger.taken ++ [bytes]).filter (parses P)
          rw [List.filter_append]
          exact h.parsed.trans (List.prefix_append _ _)
  | event e =>
    cases e with
    | onReadHandler number data size =>
      obtain ⟨lost, hrx, hlost⟩ := hm.rx
      rw [hlost id] at hrx
      obtain ⟨consumed, hstream, hbehind⟩ := h.reads
      refine ⟨haware, ⟨consumed, ?_, hbehind⟩, h.short, ?_⟩
      · rw [hstream, hrx]
        rfl
      · exact hrole f.ledger data ho ▸ List.prefix_rfl
    | _ => exact (h.moved hm rfl id).congr haware rfl rfl rfl
  | write_some b sent rest =>
    cases r <;> exact (h.moved hm rfl id).congr haware rfl rfl rfl
  | isOpen b | getIsWork | getCriticalError b =>
    cases r <;> exact (h.moved hm rfl id).congr haware rfl rfl rfl
  | _ => exact (h.moved hm rfl id).congr haware rfl rfl rfl

/-- What an operation hands over is in the ledger behind it. -/
theorem handed_next (f : Knows) (o : Op) (r : o.Res) :
    (f.next magicNumber o r).ledger.handed = f.ledger.handed ++ handedBy o := by
  cases o with
  | read b n =>
    cases r with
    | error ec => exact (List.append_nil _).symm
    | ok bytes =>
      simp only [Knows.next]
      split <;> exact (List.append_nil _).symm
  | write_some b sent rest => cases r <;> exact (List.append_nil _).symm
  | event e =>
    cases e with
    | onReadHandler id data size => rfl
    | _ => exact (List.append_nil _).symm
  | isOpen b | getIsWork | getCriticalError b => cases r <;> exact (List.append_nil _).symm
  | _ => exact (List.append_nil _).symm

theorem Reader.next (hrole : ∀ l payload, role.mayHand l payload →
      l.handed ++ [payload] = l.taken.filter (parses P))
    (h : Reader P magicNumber a f stream w) (ho : Allowed a role f o) (hc : Cuts c)
    (hsem : sem ids o c w = some (r, w')) :
    Reader P magicNumber a (f.next magicNumber o r) stream w' where
  toReads := h.toReads.next hrole ho hc hsem
  handed := by rw [(moved_of_sem (handles_of_allowed ho) hsem).handed, handed_next, h.handed]

/-! ## What the frames on a stream say -/

/-- Frames of payloads whose length fits are read back. -/
theorem readBack_frame (magicNumber : UInt32) :
    PrefixCode.ReadBack (frame magicNumber) (fun payload => payload.length < 2 ^ 32) where
  ne_nil := fun payload _ h => by
    have hlength := congrArg List.length h
    rw [length_frame, List.length_nil] at hlength
    omega
  first := fun x y s t hx hy h => by
    have hread := takeFrame_frame magicNumber x s hx
    rw [h, takeFrame_frame magicNumber y t hy, Option.some.injEq, Prod.mk.injEq] at hread
    exact hread.1.symm

/-- **What a reader has taken** is the beginning of what has been written. -/
theorem Reads.taken_begins (h : Reads P magicNumber a f stream w) {texts : List (List UInt8)}
    (htexts : ∀ text ∈ texts, text.length < 2 ^ 32) (hstream : stream <+: framed magicNumber texts) :
    f.ledger.taken <+: texts := by
  obtain ⟨consumed, rfl, hbehind⟩ := h.reads
  refine PrefixCode.prefix_of_encode (readBack_frame magicNumber) h.short htexts ?_
  exact hbehind.framed_begins.trans ((List.prefix_append _ _).trans hstream)

end NetworkApplication.StreamEnds
