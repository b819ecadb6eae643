/-
The threads at one end of a connection.

A thread that uses a session reads frames off its socket, hands their payloads to the user, and
puts frames on it. What it has done so far is its `Ledger`: the payloads it has taken off the
stream and handed over, the frames it has begun and what is left of the last one. Where it is in
the stream of the peer, and whether it has seen the connection go, is the rest of what it knows.

A `Role` says when a thread may read, what it may hand over and what it may begin to write, in
terms of its ledger only; which threads play which role is said in `Conversation.lean`. Here the
functions of a session are gone through once, for any role. What comes out is a discipline: a
round of a reader's loop ends at the head of the next frame, with everything that came of the
last one in the ledger, or with the error flag set.
-/
import NetworkApplication.Disciplines
import NetworkApplication.Replies

set_option autoImplicit false

namespace NetworkApplication.StreamRoles

open NetworkApplication.Program NetworkApplication.Disciplines
open Delivery BadPayload RequestResponseHandler Replies

/-! ## What a thread knows -/

/-- Where a reader is in the stream: at the head of a frame, behind a header that announces so
many bytes, or nowhere it could go on from. -/
inductive Position where
  | head
  | header (json_len : Nat)
  | lost
  deriving DecidableEq

/-- What a thread has done with the connection. -/
structure Ledger where
  taken : List (List UInt8)
  handed : List (List UInt8)
  begun : List (List UInt8)
  rest : List UInt8

/-- What a thread knows: a write of its own has failed, the socket is closed, the error flag is
set, it has seen that its loop has ended. -/
structure Knows where
  position : Position
  ledger : Ledger
  broken : Bool
  closed : Bool
  flagged : Bool
  ended : Bool

namespace Ledger

/-- A frame is taken off the stream. -/
def take (l : Ledger) (payload : List UInt8) : Ledger := { l with taken := l.taken ++ [payload] }

/-- A payload is handed to the user. -/
def hand (l : Ledger) (payload : List UInt8) : Ledger := { l with handed := l.handed ++ [payload] }

/-- A frame is written whole. -/
def write (l : Ledger) (bytes : List UInt8) : Ledger :=
  { l with begun := l.begun ++ [bytes], rest := [] }

end Ledger

namespace Knows

/-- Nothing has happened. -/
def nothing : Knows := ⟨.head, ⟨[], [], [], []⟩, false, false, false, false⟩

/-- The session has been torn down. -/
def gone (f : Knows) : Knows := { f with flagged := true, closed := true }

/-- What an operation adds to what is known. -/
def next (magicNumber : UInt32) (f : Knows) : (o : Op) → o.Res → Knows
  | .read _ _, .ok bytes =>
    match f.position with
    | .head =>
      { f with
        position := if magicOf bytes = magicNumber then .header (lengthOf bytes) else .lost }
    | .header _ => { f with position := .head, ledger := f.ledger.take bytes }
    | .lost => f
  | .read _ _, .error _ => { f with position := .lost }
  | .write_some _ sent rest, .ok n =>
    { f with ledger := { f.ledger with
        begun := if sent = 0 then f.ledger.begun ++ [rest] else f.ledger.begun
        rest := rest.drop n } }
  | .write_some _ _ _, .error _ => { f with broken := true }
  | .event (.onReadHandler _ data _), _ => { f with ledger := f.ledger.hand data }
  | .isOpen _, false => { f with closed := true }
  | .close _, _ => { f with closed := true }
  | .setCriticalError _, _ => { f with flagged := true }
  | .getIsWork, false => { f with ended := true }
  | .getCriticalError _, true => { f with ended := true }
  | _, _ => f

end Knows

/-! ## What it may do -/

/-- When a thread may read, what it may hand over, whether it writes at all and what it may
begin to write, when it may end the connection though no call has failed, and which entries of the
map it may take out then. -/
structure Role where
  mayRead : Ledger → Prop
  mayHand : Ledger → List UInt8 → Prop
  writes : Prop
  mayBegin : Ledger → List UInt8 → Prop
  mayEnd : Ledger → Prop
  mayRemove : UInt32 → Prop

/-- The thread may end the connection. -/
def MayEnd (role : Role) (f : Knows) : Prop :=
  f.broken = true ∨ f.position = .lost ∨ role.mayEnd f.ledger

/-- What an operation asks of the thread that performs it on the session at `a`. -/
def Allowed (a : Nat) (role : Role) (f : Knows) : Op → Prop
  | .read b n => b = a ∧ role.mayRead f.ledger ∧
    (f.position = .head ∧ n = 8 ∨ f.position = .header n)
  | .write_some b sent rest => b = a ∧ role.writes ∧ rest ≠ [] ∧ (f.closed = true ∨ f.broken = false ∧
    (sent = 0 ∧ f.ledger.rest = [] ∧ role.mayBegin f.ledger rest ∨ 0 < sent ∧ f.ledger.rest = rest))
  | .event (.onReadHandler _ data _) => role.mayHand f.ledger data
  | .isOpen b | .getCriticalError b => b = a
  | .shutdown b | .close b | .setCriticalError b => b = a ∧ MayEnd role f
  | .setIsWork _ | .flushMainWorker => MayEnd role f
  | .mapErase id => MayEnd role f ∧ role.mayRemove id
  | .uniform_int lo hi => lo ≤ hi
  | .mapGet _ | .getIsWork | .uniform_real | .mainTaskDone | .sessionTaskDone _ => True
  | _ => False

/-- What may be seen of an operation. A call into a socket that fails reports an error that ends
the connection, and on a closed socket every write fails. -/
def Possible (f : Knows) : (o : Op) → o.Res → Prop
  | .read _ n, .ok bytes => bytes.length = n
  | .read _ _, .error ec => check_error ec = true
  | .write_some _ _ rest, .ok n => 0 < n ∧ n ≤ rest.length ∧ f.closed = false
  | .write_some _ _ _, .error ec => check_error ec = true
  | .getCriticalError _, hasError => f.flagged = true → hasError = true
  | .uniform_int lo hi, n => lo ≤ n ∧ n ≤ hi
  | _, _ => True

/-- The discipline of a thread in a role. -/
def rules (magicNumber : UInt32) (a : Nat) (role : Role) : Discipline Net Knows where
  Allowed := Allowed a role
  Possible := Possible
  next := Knows.next magicNumber
  Crash := fun _ => False

variable {P : Platform} {s : Session} {a : Nat} {magicNumber : UInt32} {role : Role} {f : Knows}
  {o : Op} {r : o.Res} {α : Type}

/-- The program returns where `post` holds, and does not throw. -/
def Returns (magicNumber : UInt32) (a : Nat) (role : Role) (post : α → Knows → Prop) (f : Knows)
    (p : NetProg α) : Prop :=
  Follows (rules magicNumber a role) post (fun _ _ => False) f p

/-- The program adds nothing to what is known. -/
def Quiet (magicNumber : UInt32) (a : Nat) (role : Role) (p : NetProg Unit) : Prop :=
  ∀ f, Returns magicNumber a role (fun _ f' => f' = f) f p

/-- Nor does this one, and it runs where the connection may be ended. -/
def QuietlyEnds (magicNumber : UInt32) (a : Nat) (role : Role) (p : NetProg Unit) : Prop :=
  ∀ f, MayEnd role f → Returns magicNumber a role (fun _ f' => f' = f) f p

theorem quiet_pure : Quiet magicNumber a role (Prog.pure ()) := fun _ => rfl

/-- A part that is quiet where it runs, and what comes behind it. -/
theorem QuietlyEnds.bind {b : Bool} {p : NetProg Unit} {k : Unit → NetProg α} {post : α → Knows → Prop}
    {exn : Exception → Knows → Prop} (hp : QuietlyEnds magicNumber a role p)
    (hend : b = true → MayEnd role f)
    (hk : Follows (rules magicNumber a role) post exn f (k ())) :
    Follows (rules magicNumber a role) post exn f (Prog.when b p >>= k) := by
  refine Follows.bind (M := fun _ f' => f' = f) (Follows.when (fun hb => ?_) (fun _ => rfl)) ?_
  · exact (hp f (hend hb)).mono (fun _ _ h => h) (fun _ _ h => h.elim)
  · rintro _ f' rfl
    exact hk

/-- A quiet part, and what comes behind it. -/
theorem Quiet.bind {p : NetProg Unit} {k : Unit → NetProg α} {post : α → Knows → Prop}
    {exn : Exception → Knows → Prop} (hp : Quiet magicNumber a role p)
    (hk : Follows (rules magicNumber a role) post exn f (k ())) :
    Follows (rules magicNumber a role) post exn f (p >>= k) := by
  refine Follows.bind ((hp f).mono (fun _ _ h => h) (fun _ _ h => h.elim)) ?_
  rintro _ f' rfl
  exact hk

/-- What an operation adds to the ledger: a frame is begun, or a payload is handed over, or
neither. -/
theorem Knows.ledger_next (magicNumber : UInt32) (ho : Allowed a role f o) (hr : Possible f o r) :
    ((f.next magicNumber o r).ledger.begun = f.ledger.begun ∧
      (f.next magicNumber o r).ledger.handed = f.ledger.handed) ∨
    (∃ bytes, role.mayBegin f.ledger bytes ∧
      (f.next magicNumber o r).ledger.begun = f.ledger.begun ++ [bytes] ∧
      (f.next magicNumber o r).ledger.handed = f.ledger.handed) ∨
    (∃ payload, role.mayHand f.ledger payload ∧
      (f.next magicNumber o r).ledger.begun = f.ledger.begun ∧
      (f.next magicNumber o r).ledger.handed = f.ledger.handed ++ [payload]) := by
  cases o with
  | read b n =>
    cases r with
    | error ec => exact .inl ⟨rfl, rfl⟩
    | ok bytes =>
      refine .inl ?_
      simp only [Knows.next]
      split <;> exact ⟨rfl, rfl⟩
  | write_some b sent rest =>
    cases r with
    | error ec => exact .inl ⟨rfl, rfl⟩
    | ok n =>
      obtain ⟨-, -, hopen⟩ : 0 < n ∧ n ≤ rest.length ∧ f.closed = false := hr
      rcases ho.2.2.2 with hclosed | ⟨-, ⟨rfl, -, hmay⟩ | ⟨hsent, -⟩⟩
      · rw [hclosed] at hopen
        cases hopen
      · exact .inr (.inl ⟨rest, hmay, by simp only [Knows.next, if_true], rfl⟩)
      · exact .inl ⟨by simp only [Knows.next, if_neg (Nat.pos_iff_ne_zero.mp hsent)], rfl⟩
  | event e =>
    cases e with
    | onReadHandler id data size => exact .inr (.inr ⟨data, ho, rfl, rfl⟩)
    | _ => exact .inl ⟨rfl, rfl⟩
  | isOpen b | getIsWork | getCriticalError b => cases r <;> exact .inl ⟨rfl, rfl⟩
  | _ => exact .inl ⟨rfl, rfl⟩

/-! ## The functions of a session -/

/-- The callbacks of a session that report an error or the end of a transfer are quiet. -/
structure Discreet (magicNumber : UInt32) (role : Role) (s : Session) : Prop where
  onError : ∀ ec, QuietlyEnds magicNumber s.addr role (invoke s.onError ec)
  on_disconnect : ∀ ec, Quiet magicNumber s.addr role (invoke s.on_disconnect ec)
  on_all_write : ∀ ec, Quiet magicNumber s.addr role (invoke s.on_all_write ec)
  on_all_read_none : ∀ ec, Quiet magicNumber s.addr role (invoke s.on_all_read (ec, none))

theorem returns_disconnect (hs : Discreet magicNumber role s) (hend : MayEnd role f) :
    Returns magicNumber s.addr role (fun _ f' => f' = { f with closed := true }) f s.disconnect := by
  unfold Session.disconnect ConnectHandler.disconnect
  refine Follows.step rfl (fun is_open _ => ?_)
  cases is_open with
  | false => exact rfl
  | true =>
    refine Follows.step ⟨rfl, hend⟩ (fun ec _ => ?_)
    refine QuietlyEnds.bind (hs.onError ec) (fun _ => hend) ?_
    refine Follows.step ⟨rfl, hend⟩ (fun ec _ => ?_)
    refine QuietlyEnds.bind (hs.onError ec) (fun _ => hend) ?_
    exact hs.on_disconnect ec _

theorem returns_criticalError (hs : Discreet magicNumber role s) (hend : MayEnd role f) :
    Returns magicNumber s.addr role (fun _ f' => f' = f.gone) f s.criticalError :=
  Follows.step ⟨rfl, hend⟩ (fun _ _ => returns_disconnect hs hend)

/-- The composed write, behind its first piece. -/
theorem returns_asio_write_rest (hwrites : role.writes) (bound sent : Nat) (rest : List UInt8)
    (hbound : rest.length ≤ bound) (hsent : 0 < sent) (hrest : f.ledger.rest = rest)
    (hbroken : f.broken = false) :
    Returns magicNumber a role (fun ec f' => ec = .success ∧
        f' = { f with ledger := { f.ledger with rest := [] } } ∨
          check_error ec = true ∧ f'.broken = true) f
      (asio_write a bound sent rest) := by
  subst hrest
  induction bound generalizing sent f with
  | zero =>
    have hnil : f.ledger.rest = [] := List.length_eq_zero_iff.mp (by omega)
    refine .inl ⟨rfl, ?_⟩
    rw [← hnil]
  | succ bound ih =>
    unfold asio_write
    split
    · next hempty =>
      refine .inl ⟨rfl, ?_⟩
      rw [← List.isEmpty_iff.mp hempty]
    · next hempty =>
      have hne : f.ledger.rest ≠ [] := fun h => hempty (List.isEmpty_iff.mpr h)
      refine Follows.step ⟨rfl, hwrites, hne, .inr ⟨hbroken, .inr ⟨hsent, rfl⟩⟩⟩ (fun r hr => ?_)
      cases r with
      | error ec => exact .inr ⟨hr, rfl⟩
      | ok n =>
        obtain ⟨hpos, hle, -⟩ : 0 < n ∧ n ≤ f.ledger.rest.length ∧ f.closed = false := hr
        have hnext : (rules magicNumber a role).next f (.write_some a sent f.ledger.rest) (.ok n)
            = { f with ledger := { f.ledger with rest := f.ledger.rest.drop n } } := by
          simp only [rules, Knows.next, if_neg (Nat.pos_iff_ne_zero.mp hsent)]
        rw [hnext]
        have hlength : (f.ledger.rest.drop n).length ≤ bound := by
          rw [List.length_drop]
          omega
        exact ih (f := { f with ledger := { f.ledger with rest := f.ledger.rest.drop n } }) (sent + n)
          (Nat.add_pos_left hsent n) hbroken hlength

/-- **The composed write** of a frame that the thread may begin. -/
theorem returns_asio_write (hwrites : role.writes) {bytes : List UInt8} (hbytes : bytes ≠ [])
    (hrest : f.ledger.rest = []) (hmay : role.mayBegin f.ledger bytes)
    (hsound : f.broken = true → f.closed = true) :
    Returns magicNumber a role (fun ec f' => ec = .success ∧
        f' = { f with ledger := f.ledger.write bytes } ∨ check_error ec = true ∧ f'.broken = true) f
      (asio_write a bytes.length 0 bytes) := by
  obtain ⟨bound, hbound⟩ : ∃ bound, bytes.length = bound + 1 :=
    ⟨bytes.length - 1, by have := List.length_pos_iff.mpr hbytes; omega⟩
  have hstart : f.closed = true ∨ f.broken = false ∧
      ((0 : Nat) = 0 ∧ f.ledger.rest = [] ∧ role.mayBegin f.ledger bytes ∨
        0 < 0 ∧ f.ledger.rest = bytes) := by
    cases hbroken : f.broken with
    | true => exact .inl (hsound hbroken)
    | false => exact .inr ⟨rfl, .inl ⟨rfl, hrest, hmay⟩⟩
  rw [hbound, asio_write, List.isEmpty_eq_false_iff.mpr hbytes, if_neg (by decide)]
  refine Follows.step ⟨rfl, hwrites, hbytes, hstart⟩ (fun r hr => ?_)
  cases r with
  | error ec => exact .inr ⟨hr, rfl⟩
  | ok n =>
    obtain ⟨hpos, hle, hopen⟩ : 0 < n ∧ n ≤ bytes.length ∧ f.closed = false := hr
    have hbroken : f.broken = false := by
      cases hb : f.broken with
      | false => rfl
      | true => rw [hsound hb] at hopen; cases hopen
    have hlength : (bytes.drop n).length ≤ bound := by
      rw [List.length_drop]
      omega
    exact returns_asio_write_rest (f := (rules magicNumber a role).next f (.write_some a 0 bytes) (.ok n))
      hwrites bound (0 + n) _ hlength (by omega) rfl hbroken

/-- **`Session::write`**: the frame is on the stream, or the session is gone. -/
theorem returns_write (hs : Discreet s.magicNumber role s) (hwrites : role.writes) {m : Message}
    (hrest : f.ledger.rest = []) (hmay : role.mayBegin f.ledger (frameOf P s.magicNumber m))
    (hsound : f.broken = true → f.closed = true) :
    Returns s.magicNumber s.addr role (fun _ f' =>
        f' = { f with ledger := f.ledger.write (frameOf P s.magicNumber m) } ∨
          f'.flagged = true ∧ f'.closed = true) f (s.write P (some m)) := by
  have hframe : frameOf P s.magicNumber m ≠ [] := by
    intro h
    have hlength := congrArg List.length h
    rw [frameOf, length_frame, List.length_nil] at hlength
    omega
  refine Follows.tryCatch (X := fun _ _ => False) (Follows.bind
    (returns_asio_write hwrites hframe hrest hmay hsound) ?_) (fun _ _ h => h.elim)
  rintro ec f' h
  have hend : check_error ec = true → MayEnd role f' := by
    rintro hec
    rcases h with ⟨rfl, -⟩ | ⟨-, hbroken⟩
    · cases hec
    · exact .inl hbroken
  refine QuietlyEnds.bind (hs.onError ec) hend (Quiet.bind (hs.on_all_write ec) ?_)
  rcases h with ⟨rfl, rfl⟩ | ⟨hec, hbroken⟩
  · exact .inl rfl
  · rw [hec]
    exact (returns_criticalError hs (.inl hbroken)).mono
      (fun _ f'' hf'' => .inr (by rw [hf'']; exact ⟨rfl, rfl⟩)) (fun _ _ h => h)

/-- On a closed socket nothing is begun, and the session stays gone. -/
theorem returns_write_of_closed (hs : Discreet s.magicNumber role s) (hwrites : role.writes)
    {m : Message} (hclosed : f.closed = true) :
    Returns s.magicNumber s.addr role (fun _ f' => f'.closed = true) f (s.write P (some m)) := by
  obtain ⟨n, hn⟩ : ∃ n, (frameOf P s.magicNumber m).length = n + 1 :=
    ⟨_, (length_frame _ _).trans (Nat.add_comm 8 _)⟩
  have hwrite : Returns s.magicNumber s.addr role
      (fun ec f' => check_error ec = true ∧ f' = { f with broken := true }) f
      (asio_write s.addr (frameOf P s.magicNumber m).length 0 (frameOf P s.magicNumber m)) := by
    have hbytes : frameOf P s.magicNumber m ≠ [] := by
      rw [← List.length_pos_iff, hn]
      exact Nat.succ_pos n
    rw [hn, asio_write, List.isEmpty_eq_false_iff.mpr hbytes, if_neg (by decide)]
    refine Follows.step ⟨rfl, hwrites, hbytes, .inl hclosed⟩ (fun r hr => ?_)
    cases r with
    | error ec => exact ⟨hr, rfl⟩
    | ok n =>
      obtain ⟨-, -, hopen⟩ : 0 < n ∧ n ≤ _ ∧ f.closed = false := hr
      rw [hclosed] at hopen
      cases hopen
  refine Follows.tryCatch (X := fun _ _ => False) (Follows.bind hwrite ?_) (fun _ _ h => h.elim)
  rintro ec f' ⟨hec, rfl⟩
  refine QuietlyEnds.bind (hs.onError ec) (fun _ => .inl rfl) (Quiet.bind (hs.on_all_write ec) ?_)
  rw [hec]
  exact (returns_criticalError hs (.inl rfl)).mono (fun _ f'' hf'' => by rw [hf'']; rfl)
    (fun _ _ h => h)

/-- The error exit of a read. -/
theorem returns_errorHandler_of_critical (hs : Discreet magicNumber role s) (hend : MayEnd role f)
    {ec : ErrorCode} (hec : check_error ec = true) :
    Returns magicNumber s.addr role (fun b f' => b = true ∧ f' = f.gone) f
      ((s.transport_handler P).errorHandler ec) := by
  unfold TransportHandler.errorHandler
  refine QuietlyEnds.bind (hs.onError ec) (fun _ => hend) ?_
  rw [if_pos (failed_of_check_error hec)]
  refine Follows.bind (M := fun _ f' => f' = f.gone) ?_ (fun _ f' hf' => ⟨rfl, hf'⟩)
  show Follows _ _ _ _ (s.onAllRead P (ec, TransportHandler.setErrorMessage))
  rw [Session.onAllRead_of_critical P s hec]
  exact Quiet.bind (hs.on_all_read_none ec) (returns_criticalError hs hend)

/-- An error that does not end the connection is reported without a message. -/
theorem returns_errorHandler_of_ignored (hs : Discreet magicNumber role s) {ec : ErrorCode}
    (hec : check_error ec = false) (hfailed : ec.failed = true) :
    Returns magicNumber s.addr role (fun b f' => b = true ∧ f' = f) f
      ((s.transport_handler P).errorHandler ec) := by
  unfold TransportHandler.errorHandler
  rw [hec, Prog.when_false, Prog.pure_bind', if_pos hfailed]
  refine Follows.bind (M := fun _ f' => f' = f) ?_ (fun _ f' hf' => ⟨rfl, hf'⟩)
  show Follows _ _ _ _ (s.onAllRead P (ec, TransportHandler.setErrorMessage))
  have hnone : MessageHandler.parse P TransportHandler.setErrorMessage = none := by
    rw [MessageHandler.parse]
    simp [TransportHandler.setErrorMessage, MessageHandler.createMessage_eq]
  rw [Session.onAllRead_of_not_critical P s hec, hnone]
  exact hs.on_all_read_none ec f

/-! ## The reader's round -/

/-- The thread may take the next frame, or the error flag is set. -/
def Round (role : Role) (f : Knows) : Prop :=
  (f.position = .head ∧ role.mayRead f.ledger ∧ (f.broken = true → f.closed = true)) ∨ f.flagged = true

/-- What a session's callbacks do with a payload that has been taken: it is handed over if it
parses, and what `on_all_read` makes of its message brings the thread to its next round. -/
structure Listens (P : Platform) (role : Role) (s : Session) : Prop
    extends Discreet s.magicNumber role s where
  skip : ∀ l payload, role.mayRead l → (P.parse payload).error.failed = true →
    role.mayRead (l.take payload)
  refuse : ∀ (l : Ledger) payload, check_error (P.parse payload).error = true → role.mayEnd (l.take payload)
  onReadHandler : ∀ f l payload, role.mayRead l → f.ledger = l.take payload →
    (P.parse payload).error.failed = false →
    Returns s.magicNumber s.addr role (fun _ f' => f' = { f with ledger := f.ledger.hand payload }) f
      (invoke s.onReadHandler (0, payload, payload.length + 1))
  on_all_read : ∀ f l payload ec, f.position = .head → role.mayRead l →
    f.ledger = (l.take payload).hand payload → (f.broken = true → f.closed = true) →
    (P.parse payload).error.failed = false →
    Returns s.magicNumber s.addr role (fun _ f' => Round role f') f
      (invoke s.on_all_read (ec, parsedMessage P payload))

/-- The payload parses, and what it parses to is not decoded. -/
def Throws (P : Platform) (payload : List UInt8) : Prop :=
  (P.parse payload).error.failed = false ∧ ∃ e, TransportHandler.decode (P.parse payload).value = .error e

/-- An exception of the decoding ends the thread's loop. -/
def Ends (P : Platform) : Exception → Knows → Prop := fun _ f => ∃ payload ∈ f.ledger.taken, Throws P payload

theorem round_gone (f : Knows) : Round role f.gone := .inr rfl

/-- From a payload that has been taken to the next round. -/
theorem follows_read_json (hs : Listens P role s) {l : Ledger} {payload : List UInt8}
    (hl : role.mayRead l) (hposition : f.position = .head) (hledger : f.ledger = l.take payload)
    (hsound : f.broken = true → f.closed = true) :
    Follows (rules s.magicNumber s.addr role) (fun _ f' => Round role f') (Ends P) f
      ((s.transport_handler P).read_json P payload) := by
  unfold TransportHandler.read_json
  cases hfailed : (P.parse payload).error.failed with
  | true =>
    cases hcritical : check_error (P.parse payload).error with
    | true =>
      have hend : MayEnd role f := by
        refine .inr (.inr ?_)
        rw [hledger]
        exact hs.refuse l payload hcritical
      refine Follows.bind ((returns_errorHandler_of_critical hs.toDiscreet hend hcritical).mono
        (fun _ _ h => h) (fun _ _ h => h.elim)) ?_
      rintro _ f' ⟨rfl, rfl⟩
      exact round_gone f
    | false =>
      refine Follows.bind ((returns_errorHandler_of_ignored hs.toDiscreet hcritical hfailed).mono
        (fun _ _ h => h) (fun _ _ h => h.elim)) ?_
      rintro _ f' ⟨rfl, rfl⟩
      refine .inl ⟨hposition, ?_, hsound⟩
      rw [hledger]
      exact hs.skip l payload hl hfailed
  | false =>
    simp only [SyncRead.errorHandler_of_not_failed hfailed, Prog.pure_bind', Bool.false_eq_true,
      if_false]
    refine Follows.bind ((hs.onReadHandler f l payload hl hledger hfailed).mono
      (fun _ _ h => h) (fun _ _ h => h.elim)) ?_
    rintro _ f' rfl
    cases hdecode : TransportHandler.decode (P.parse payload).value with
    | error e =>
      refine ⟨payload, ?_, hfailed, e, hdecode⟩
      show payload ∈ f.ledger.taken
      rw [hledger]
      exact List.mem_append_right _ (List.mem_singleton.mpr rfl)
    | ok decoded =>
      obtain ⟨type, transaction⟩ := decoded
      have hmessage : parsedMessage P payload
          = MessageHandler.parse P ⟨type, transaction, payload⟩ := by
        rw [parsedMessage, if_neg (by simp [hfailed]), hdecode]
      show Follows _ _ _ _ (s.onAllRead P ((P.parse payload).error, ⟨type, transaction, payload⟩))
      rw [Session.onAllRead_of_not_critical P s (check_error_of_not_failed hfailed), ← hmessage]
      refine (hs.on_all_read _ l payload _ ?_ hl ?_ ?_ hfailed).mono (fun _ _ h => h)
        (fun _ _ h => h.elim)
      · exact hposition
      · rw [hledger]
      · exact hsound

/-- What `asio::read` reports is handled, and then the bytes. -/
theorem follows_exit (hs : Discreet s.magicNumber role s) (rest : List UInt8 → NetProg Unit)
    {r : Except ErrorCode (List UInt8)}
    (hr : ∀ ec, r = .error ec → check_error ec = true ∧ f.position = .lost)
    (hrest : ∀ bytes, r = .ok bytes →
      Follows (rules s.magicNumber s.addr role) (fun _ f' => Round role f') (Ends P) f (rest bytes)) :
    Follows (rules s.magicNumber s.addr role) (fun _ f' => Round role f') (Ends P) f
      ((s.transport_handler P).errorHandler (TransportHandler.readError r) >>= fun b =>
        if b = true then Prog.pure () else rest (r.toOption.getD [])) := by
  cases r with
  | error ec =>
    obtain ⟨hec, hlost⟩ := hr ec rfl
    refine Follows.bind ((returns_errorHandler_of_critical hs (.inr (.inl hlost)) hec).mono
      (fun _ _ h => h) (fun _ _ h => h.elim)) ?_
    rintro _ f' ⟨rfl, rfl⟩
    exact round_gone f
  | ok bytes =>
    simp only [TransportHandler.readError,
      SyncRead.errorHandler_of_not_failed ErrorCode.failed_success, Prog.pure_bind',
      Bool.false_eq_true, if_false]
    exact hrest bytes rfl

/-- **`Session::read`** takes one frame, or the session is gone. -/
theorem follows_read (hs : Listens P role s) (hposition : f.position = .head)
    (hl : role.mayRead f.ledger) (hsound : f.broken = true → f.closed = true) :
    Follows (rules s.magicNumber s.addr role) (fun _ f' => Round role f') (Ends P) f (s.read P) := by
  refine Follows.step rfl (fun is_open _ => ?_)
  cases is_open with
  | false => exact .inl ⟨hposition, hl, fun _ => rfl⟩
  | true =>
    refine Follows.step ⟨rfl, hl, .inl ⟨hposition, rfl⟩⟩ (fun headers hheaders => ?_)
    refine follows_exit hs.toDiscreet (fun bytes =>
      if magicOf bytes ≠ s.magicNumber then
        (s.transport_handler P).errorHandler .eof >>= fun _ => pure ()
      else (s.transport_handler P).read_payload P (lengthOf bytes)) ?_ ?_
    · rintro ec rfl
      exact ⟨hheaders, rfl⟩
    rintro bytes rfl
    have hnext : (rules s.magicNumber s.addr role).next f (.read s.addr 8) (.ok bytes) = { f with
        position := if magicOf bytes = s.magicNumber then .header (lengthOf bytes) else .lost } := by
      simp only [rules, Knows.next, hposition]
    show Follows _ _ _ ((rules s.magicNumber s.addr role).next f (.read s.addr 8) (.ok bytes)) _
    rw [hnext]
    by_cases hmagic : magicOf bytes = s.magicNumber
    swap
    · rw [if_neg hmagic, if_pos hmagic]
      exact Follows.bind ((returns_errorHandler_of_critical hs.toDiscreet (.inr (.inl rfl)) rfl).mono
        (fun _ _ h => h) (fun _ _ h => h.elim)) (fun _ f' hf' => by rw [hf'.2]; exact round_gone _)
    -- the header is right, and its length is what the payload is read with
    rw [if_pos hmagic, if_neg (not_not.mpr hmagic)]
    refine Follows.step ⟨rfl, hl, .inr rfl⟩ (fun payload hpayload => ?_)
    refine follows_exit hs.toDiscreet (fun payload =>
      (s.transport_handler P).read_json P payload) ?_ ?_
    · rintro ec rfl
      exact ⟨hpayload, rfl⟩
    · rintro payload rfl
      exact follows_read_json hs hl rfl rfl hsound

/-- One round of the reader's loop. -/
theorem follows_readRound (hs : Listens P role s) {again done : NetProg α} {post : α → Knows → Prop}
    (hf : Round role f)
    (hagain : ∀ f', Round role f' → Follows (rules s.magicNumber s.addr role) post (Ends P) f' again)
    (hdone : ∀ f' : Knows, f'.ended = true →
      Follows (rules s.magicNumber s.addr role) post (Ends P) f' done) :
    Follows (rules s.magicNumber s.addr role) post (Ends P) f (s.readRound P again done) := by
  refine Follows.step trivial (fun isWork _ => ?_)
  cases isWork with
  | false => exact hdone _ rfl
  | true =>
    refine Follows.step rfl (fun hasError hpossible => ?_)
    cases hasError with
    | true => exact hdone _ rfl
    | false =>
      -- without the flag the thread is at the head of a frame
      obtain ⟨hposition, hl, hsound⟩ : f.position = .head ∧ role.mayRead f.ledger ∧
          (f.broken = true → f.closed = true) := by
        refine hf.resolve_right (fun hflagged => ?_)
        cases (show f.flagged = true → false = true from hpossible) hflagged
      exact Follows.bind (follows_read hs hposition hl hsound) (fun _ f' hf' => hagain f' hf')

/-! ## The reply -/

theorem returns_drawSamples (n : Nat) :
    Returns magicNumber a role (fun samples f' => samples.length = n ∧ f' = f) f (drawSamples n) := by
  induction n with
  | zero => exact ⟨rfl, rfl⟩
  | succ n ih =>
    refine Follows.step trivial (fun re _ => Follows.step trivial (fun im _ => ?_))
    refine Follows.bind ih ?_
    rintro samples f' ⟨rfl, rfl⟩
    exact ⟨rfl, rfl⟩

/-- `createResponse` draws an answer. -/
theorem returns_createResponse (m : Message) :
    Returns magicNumber a role (fun r f' => Answer m r ∧ f' = f) f (createResponse (some m)) := by
  unfold createResponse Answer
  simp only
  split
  · exact ⟨rfl, rfl⟩
  split
  · refine Follows.step (by decide : (5 : Int32) ≤ 20) (fun n hn => Follows.bind (returns_drawSamples _) ?_)
    obtain ⟨hlo, hhi⟩ : (5 : Int32) ≤ n ∧ n ≤ 20 := hn
    rintro samples f' ⟨hlength, rfl⟩
    refine Follows.step (by decide : (3000 : Int32) ≤ 10000)
      (fun freq hfreq => ⟨⟨freq, samples, hfreq.1, hfreq.2, ?_, ?_, rfl⟩, rfl⟩)
    · have := Int32.le_iff_toInt_le.mp hlo
      have h5 : (5 : Int32).toInt = 5 := rfl
      omega
    · have := Int32.le_iff_toInt_le.mp hhi
      have h20 : (20 : Int32).toInt = 20 := rfl
      omega
  split
  · exact Follows.step (by decide : (5 : Int32) ≤ 20) (fun n hn => ⟨⟨n, hn.1, hn.2, rfl⟩, rfl⟩)
  · exact ⟨rfl, rfl⟩

end NetworkApplication.StreamRoles
