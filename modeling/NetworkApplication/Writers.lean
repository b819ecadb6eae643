/-
Several writers on one session.

`asio::write` sends a frame in pieces, and nothing in `Session` or `TransportHandler`
keeps a second `write` off the socket between two pieces. So the frames stay whole in
the runs in which every piece is sent while no other thread has a frame partly sent
(`Undisturbed`), and not in all runs.

What carries the proof is what a program may look like at a `write_some`: with nothing
sent yet the bytes are the frame of a message, and behind a piece stands the call for
the rest of the same frame (`Whole`). That a program is `Whole` is kept by composition,
so `Composition.lean` gives it for the functions of a session. The invariant of a run is
then that the bytes on the stream, with the rest of the one frame in flight, are the
frames begun so far.
-/
import NetworkApplication.Composition

set_option autoImplicit false

namespace NetworkApplication.Writers

open NetworkApplication.Program NetworkApplication.Pool NetworkApplication.Composition SessionPool

variable {P : Platform} {s : Session} {magicNumber : UInt32} {a : Nat} {α β : Type}

/-! ## Programs at a `write_some` -/

/-- The frame that `write` puts on the stream for a message. -/
def frameOf (P : Platform) (magicNumber : UInt32) (m : Message) : List UInt8 :=
  frame magicNumber (MessageHandler.serialize P (some m)).payload

/-- The thread has sent a part of a frame, and its next call sends more of it. -/
def MidFrame (a : Nat) : NetProg α → Prop
  | .op (.write_some b sent _) _ => b = a ∧ 0 < sent
  | _ => False

/-- An operation of a thread around a session that sends nothing: those of the session's
functions, and the store that ends its reader's loop. -/
def Quiet : Op → Prop
  | .setIsWork _ => True
  | o => SessionOp o

theorem quiet_of_sessionOp {o : Op} (ho : SessionOp o) : Quiet o := by
  cases o with
  | setIsWork b => trivial
  | _ => exact ho

/-- An operation of a thread around session `a`; a `write_some` that starts a frame has
the frame of a message to send. -/
def Starts (P : Platform) (magicNumber : UInt32) (a : Nat) : Op → Prop
  | .write_some b sent rest =>
    b = a ∧ rest ≠ [] ∧ (sent = 0 → ∃ m, rest = frameOf P magicNumber m)
  | o => Quiet o

/-- What follows an operation: behind a piece of a frame the rest of the frame, and
behind everything else no call that is in the middle of one. -/
def Continues (a : Nat) : (o : Op) → o.Res → NetProg α → Prop
  | .write_some _ sent rest, .ok n, p =>
    if n < rest.length then ∃ k, p = .op (.write_some a (sent + n) (rest.drop n)) k
    else ¬ MidFrame a p
  | _, _, p => ¬ MidFrame a p

/-- A piece is never empty. -/
def Possible : (o : Op) → o.Res → Prop
  | .write_some _ _ _, .ok n => 0 < n
  | _, _ => True

/-- Every frame of the program is sent from its first byte to its last. -/
def Whole (P : Platform) (magicNumber : UInt32) (a : Nat) : NetProg α → Prop
  | .op o k => Starts P magicNumber a o ∧
      ∀ r, Possible o r → Continues a o r (k r) ∧ Whole P magicNumber a (k r)
  | _ => True

/-- And the program is not in the middle of a frame. -/
def Framed (P : Platform) (magicNumber : UInt32) (a : Nat) (p : NetProg α) : Prop :=
  ¬ MidFrame a p ∧ Whole P magicNumber a p

theorem midFrame_bind {p : NetProg α} {f : α → NetProg β} (hp : ¬ MidFrame a p)
    (hf : ∀ x, ¬ MidFrame a (f x)) : ¬ MidFrame a (p >>= f) := by
  cases p with
  | pure x => exact hf x
  | throw e => exact id
  | crash => exact id
  | op o k =>
    cases o with
    | write_some b sent rest => exact hp
    | _ => exact id

theorem midFrame_tryCatch {p : NetProg α} {h : Exception → NetProg α} (hp : ¬ MidFrame a p)
    (hh : ∀ e, ¬ MidFrame a (h e)) : ¬ MidFrame a (p.tryCatch h) := by
  cases p with
  | pure x => exact id
  | throw e => exact hh e
  | crash => exact id
  | op o k =>
    cases o with
    | write_some b sent rest => exact hp
    | _ => exact id

theorem continues_bind {o : Op} {r : o.Res} {p : NetProg α} {f : α → NetProg β}
    (hp : Continues a o r p) (hf : ∀ x, ¬ MidFrame a (f x)) : Continues a o r (p >>= f) := by
  cases o with
  | write_some b sent rest =>
    cases r with
    | ok n =>
      simp only [Continues] at hp ⊢
      split
      · next hn =>
        rw [if_pos hn] at hp
        obtain ⟨k, rfl⟩ := hp
        exact ⟨_, rfl⟩
      · next hn =>
        rw [if_neg hn] at hp
        exact midFrame_bind hp hf
    | error ec => exact midFrame_bind hp hf
  | _ => exact midFrame_bind hp hf

theorem continues_tryCatch {o : Op} {r : o.Res} {p : NetProg α} {h : Exception → NetProg α}
    (hp : Continues a o r p) (hh : ∀ e, ¬ MidFrame a (h e)) :
    Continues a o r (p.tryCatch h) := by
  cases o with
  | write_some b sent rest =>
    cases r with
    | ok n =>
      simp only [Continues] at hp ⊢
      split
      · next hn =>
        rw [if_pos hn] at hp
        obtain ⟨k, rfl⟩ := hp
        exact ⟨_, rfl⟩
      · next hn =>
        rw [if_neg hn] at hp
        exact midFrame_tryCatch hp hh
    | error ec => exact midFrame_tryCatch hp hh
  | _ => exact midFrame_tryCatch hp hh

theorem Whole.bind {p : NetProg α} {f : α → NetProg β} (hp : Whole P magicNumber a p)
    (hf : ∀ x, Framed P magicNumber a (f x)) : Whole P magicNumber a (p >>= f) := by
  induction p with
  | pure x => exact (hf x).2
  | throw e => trivial
  | crash => trivial
  | op o k ih =>
    obtain ⟨hstarts, hnext⟩ := hp
    refine ⟨hstarts, fun r hr => ⟨?_, ih r (hnext r hr).2⟩⟩
    exact continues_bind (hnext r hr).1 (fun x => (hf x).1)

theorem Whole.tryCatch {p : NetProg α} {h : Exception → NetProg α}
    (hp : Whole P magicNumber a p) (hh : ∀ e, Framed P magicNumber a (h e)) :
    Whole P magicNumber a (p.tryCatch h) := by
  induction p with
  | pure x => trivial
  | throw e => exact (hh e).2
  | crash => trivial
  | op o k ih =>
    obtain ⟨hstarts, hnext⟩ := hp
    refine ⟨hstarts, fun r hr => ⟨?_, ih r (hnext r hr).2⟩⟩
    exact continues_tryCatch (hnext r hr).1 (fun e => (hh e).1)

/-- An operation other than `write_some` is no part of a frame. -/
theorem framed_call {o : Op} (ho : SessionOp o) : Framed P magicNumber a (call o) := by
  cases o with
  | write_some b sent rest => exact ho.elim
  | _ => exact ⟨id, quiet_of_sessionOp ho, fun _ _ => ⟨id, trivial⟩⟩

/-- Being framed is kept by composition. -/
theorem framed (P : Platform) (magicNumber : UInt32) (a : Nat) :
    Prog.Compositional (E := Net) (fun p : NetProg _ => Framed P magicNumber a p) SessionOp where
  pure := fun _ => ⟨id, trivial⟩
  throw := fun _ => ⟨id, trivial⟩
  call := fun _ ho => framed_call ho
  bind := fun hp hf => ⟨midFrame_bind hp.1 (fun x => (hf x).1), hp.2.bind hf⟩
  tryCatch := fun hp hh => ⟨midFrame_tryCatch hp.1 (fun e => (hh e).1), hp.2.tryCatch hh⟩

/-! ## The functions of a session -/

/-- The composed write, from wherever it is in its frame. -/
theorem whole_asio_write (bound sent : Nat) (rest : List UInt8) (hbound : rest.length ≤ bound)
    (hframe : sent = 0 → ∃ m, rest = frameOf P magicNumber m) :
    Whole P magicNumber a (asio_write a bound sent rest) := by
  induction bound generalizing sent rest with
  | zero => trivial
  | succ bound ih =>
    unfold asio_write
    split
    · trivial
    next hempty =>
    have hne : rest ≠ [] := fun h => hempty (by rw [h, List.isEmpty_nil])
    refine ⟨⟨rfl, hne, hframe⟩, fun r hr => ?_⟩
    cases r with
    | error ec => exact ⟨id, trivial⟩
    | ok n =>
      have hpos : 0 < n := hr
      have hlen : (rest.drop n).length = rest.length - n := List.length_drop
      refine ⟨?_, ih (sent + n) (rest.drop n) (by omega) (fun h => by omega)⟩
      simp only [Continues]
      split
      · next hn =>
        -- something is left, and so is a call to send it with
        have hrest : (rest.drop n).isEmpty = false := by
          rw [List.isEmpty_eq_false_iff, ← List.length_pos_iff]
          omega
        obtain ⟨bound', rfl⟩ : ∃ bound', bound = bound' + 1 := ⟨bound - 1, by omega⟩
        show ∃ k, asio_write a (bound' + 1) (sent + n) (rest.drop n) = _
        rw [asio_write, hrest]
        exact ⟨_, rfl⟩
      · next hn =>
        have hnil : rest.drop n = [] := List.drop_eq_nil_of_le (by omega)
        show ¬ MidFrame a (asio_write a bound (sent + n) (rest.drop n))
        rw [hnil]
        cases bound with
        | zero => exact id
        | succ bound => exact id

theorem frameOf_ne_nil (m : Message) : frameOf P magicNumber m ≠ [] := by
  intro h
  have hlen := congrArg List.length h
  rw [frameOf, length_frame, List.length_nil] at hlen
  omega

/-- A write starts with the whole frame of its message. -/
theorem asio_write_frameOf (magicNumber : UInt32) (a : Nat) (m : Message) :
    ∃ k, asio_write a (frameOf P magicNumber m).length 0 (frameOf P magicNumber m)
      = .op (.write_some a 0 (frameOf P magicNumber m)) k := by
  have hne : (frameOf P magicNumber m).isEmpty = false :=
    List.isEmpty_eq_false_iff.mpr (frameOf_ne_nil m)
  obtain ⟨bound, hbound⟩ : ∃ bound, (frameOf P magicNumber m).length = bound + 1 :=
    ⟨(frameOf P magicNumber m).length - 1, by rw [frameOf, length_frame]; omega⟩
  rw [hbound, asio_write, hne]
  exact ⟨_, rfl⟩

/-- `Session::write` begins by offering the socket the whole frame of its message. -/
theorem write_begins (s : Session) (m : Message) :
    ∃ k, s.write P (some m) = .op (.write_some s.addr 0 (frameOf P s.magicNumber m)) k := by
  obtain ⟨k, hk⟩ := asio_write_frameOf (P := P) s.magicNumber s.addr m
  have hwrite : s.write P (some m) = (asio_write s.addr (frameOf P s.magicNumber m).length 0
      (frameOf P s.magicNumber m) >>= fun error => do
        Prog.when (check_error error) (invoke s.onError error)
        s.onAllWrite (error, MessageHandler.serialize P (some m))).tryCatch
          (fun _ => pure ()) := rfl
  rw [hwrite, hk]
  exact ⟨_, rfl⟩

theorem framed_writes (m : Message) :
    Writes (fun p : NetProg _ => Framed P s.magicNumber s.addr p) P s (some m) := by
  constructor
  · obtain ⟨k, hk⟩ := asio_write_frameOf (P := P) s.magicNumber s.addr m
    show ¬ MidFrame s.addr (asio_write s.addr (frameOf P s.magicNumber m).length 0
      (frameOf P s.magicNumber m))
    rw [hk]
    exact fun h => Nat.lt_irrefl 0 h.2
  · exact whole_asio_write _ _ _ (Nat.le_refl _) (fun _ => ⟨m, rfl⟩)

theorem callbacks_framed (hs : LoopSession P s) :
    Callbacks (fun p : NetProg _ => Framed P s.magicNumber s.addr p) s := by
  cases hs with
  | server server ptr =>
    exact callbacks_readerSession (framed P _ _) server ptr
      (fun m => framed_writes (s := server.session ptr) m)
  | client client => exact callbacks_client (framed P _ _) client

/-- Every block around the session is framed. -/
theorem framed_block (hs : LoopSession P s) (l : SessionLabel) :
    Framed P s.magicNumber s.addr (block P s l) := by
  have hQ := framed P s.magicNumber s.addr
  have hcallbacks := callbacks_framed hs
  cases l with
  | readLoop =>
    exact hQ.tryCatch (of_readRound hQ hcallbacks (hQ.pure _) (hQ.pure _)) (fun _ => hQ.pure _)
  | userLoop =>
    refine hQ.bind (hQ.call .command trivial) (fun command => ?_)
    cases command with
    | sessionDisconnect => exact hQ.bind (of_disconnect hQ hcallbacks) (fun _ => hQ.pure _)
    | sessionWrite m =>
      exact hQ.bind (of_write hQ hcallbacks (framed_writes m)) (fun _ => hQ.pure _)
    | disconnect id => exact hQ.pure _
    | write id data => exact hQ.pure _
  | networkLoop => exact hQ.bind (hQ.call .network trivial) (fun _ => hQ.pure _)

/-! ## The stream -/

/-- What is left of the frame that a thread has partly sent. -/
def unsent (a : Nat) : NetProg α → List UInt8
  | .op (.write_some b sent rest) _ => if b = a ∧ 0 < sent then rest else []
  | _ => []

theorem unsent_of_not_midFrame {p : NetProg α} (h : ¬ MidFrame a p) : unsent a p = [] := by
  cases p with
  | op o k =>
    cases o with
    | write_some b sent rest => exact if_neg h
    | _ => rfl
  | _ => rfl

/-- The frame that a thread is about to begin. -/
def begins (a : Nat) : NetProg α → List (List UInt8)
  | .op (.write_some b sent rest) _ => if b = a ∧ sent = 0 then [rest] else []
  | _ => []

/-- The frames that are begun along a schedule, in that order. -/
def framesBegun (P : Platform) (s : Session) :
    (system P s).State → List (SessionThread × Choice) → List (List UInt8)
  | _, [] => []
  | st, (t, c) :: rest =>
    match System.step st t c with
    | some st' => begins s.addr (st.threads t) ++ framesBegun P s st' rest
    | none => []

/-- The bytes sent on the session. -/
def sentBytes (P : Platform) (s : Session) (st : (system P s).State) : List UInt8 :=
  (st.world.sessions s.addr).tx

/-- The invariant: with the rest of the frame in flight, if there is one, the bytes sent
are those sent before, then the frames begun. -/
structure Invariant (P : Platform) (s : Session) (before : List UInt8)
    (frames : List (List UInt8)) (st : (system P s).State) : Prop where
  whole : ∀ t, Whole P s.magicNumber s.addr (st.threads t)
  messages : ∀ f ∈ frames, ∃ m, f = frameOf P s.magicNumber m
  stream : ∀ t, (∀ u, u ≠ t → ¬ MidFrame s.addr (st.threads u)) →
    sentBytes P s st ++ unsent s.addr (st.threads t) = before ++ frames.flatten

/-- Every piece is sent: no `write_some` fails. -/
def SendsPieces (P : Platform) (s : Session) (st : (system P s).State) (t : SessionThread)
    (c : Choice) : Prop :=
  ∀ b sent rest k, st.threads t = .op (.write_some b sent rest) k → ∃ n, c = .ok n

/-- A piece is sent only while no other thread has a frame partly sent. -/
def Undisturbed (P : Platform) (s : Session) (st : (system P s).State) (t : SessionThread)
    (_ : Choice) : Prop :=
  ∀ b sent rest k, st.threads t = .op (.write_some b sent rest) k →
    ∀ u, u ≠ t → ¬ MidFrame s.addr (st.threads u)

variable {ids : Nat → UInt64} {o : Op} {c : Choice} {r : o.Res} {w w' : World}

/-- No operation but `write_some` touches the bytes sent. -/
theorem tx_sem (h : sem ids o c w = some (r, w')) (ho : Quiet o) :
    (w'.sessions a).tx = (w.sessions a).tx := by
  have hmodify : ∀ {b : Nat} {f : SessionObject → SessionObject}, (∀ x, (f x).tx = x.tx) →
      ((w.modify b f).sessions a).tx = (w.sessions a).tx := by
    intro b f hf
    by_cases hab : a = b
    · subst hab
      rw [World.modify_sessions_self, hf]
    · rw [w.modify_sessions_of_ne hab]
  have heffect := effect_of_sem h
  cases o with
  | read b n =>
    obtain ⟨rx, rfl⟩ := heffect
    exact hmodify (fun _ => rfl)
  | close b =>
    obtain rfl : w' = w.modify b _ := heffect
    exact hmodify (fun _ => rfl)
  | setCriticalError b =>
    obtain rfl : w' = w.modify b _ := heffect
    exact hmodify (fun _ => rfl)
  | network =>
    rcases heffect with ⟨b, ec, -, -, rfl⟩ | ⟨b, rx, rfl⟩
    · exact hmodify (fun _ => rfl)
    · exact hmodify (fun _ => rfl)
  | setIsWork b =>
    obtain rfl : w' = { w with isWork := b } := heffect
    rfl
  | event e =>
    obtain rfl : w' = { w with events := w.events ++ [e] } := heffect
    rfl
  | mapErase id =>
    obtain rfl : w' = { w with sessionMap := w.sessionMap.erase id } := heffect
    rfl
  | isOpen _ | shutdown _ | getCriticalError _ | mapGet _ | getIsWork | uniform_int _ _
  | uniform_real | command =>
    obtain rfl : w' = w := heffect
    rfl
  | _ => exact ho.elim

/-- A piece that is sent. -/
theorem sent_sem {sent n : Nat} {rest : List UInt8} {r : Except ErrorCode Nat}
    (h : sem ids (.write_some a sent rest) (.ok n) w = some (r, w')) :
    r = .ok n ∧ 0 < n ∧ n ≤ rest.length ∧
      (w'.sessions a).tx = (w.sessions a).tx ++ rest.take n := by
  simp only [sem, writeSem, Option.ite_none_right_eq_some, Option.some.injEq, Prod.mk.injEq] at h
  obtain ⟨⟨-, hpos, hle, -⟩, rfl, rfl⟩ := h
  refine ⟨rfl, hpos, hle, ?_⟩
  rw [World.modify_sessions_self]

/-- A program that is about to do something else than send has nothing unsent and begins
nothing. -/
theorem quiet_head {o : Op} {k : o.Res → NetProg α} (ho : Quiet o) :
    ¬ MidFrame a (.op o k : NetProg α) ∧ begins a (.op o k : NetProg α) = [] := by
  cases o with
  | write_some b sent rest => exact ho.elim
  | _ => exact ⟨id, rfl⟩

/-- What `Continues` says behind an operation that is no `write_some`. -/
theorem not_midFrame_of_continues {o : Op} {r : o.Res} {p : NetProg α} (ho : Quiet o)
    (h : Continues a o r p) : ¬ MidFrame a p := by
  cases o with
  | write_some b sent rest => exact ho.elim
  | _ => exact h

theorem possible_of_quiet {o : Op} (ho : Quiet o) (r : o.Res) : Possible o r := by
  cases o with
  | write_some b sent rest => exact ho.elim
  | _ => trivial

/-- A piece is sent: behind it the rest of its frame is unsent, and nothing else. -/
theorem unsent_of_continues {sent n : Nat} {rest : List UInt8} {p : NetProg α} (hpos : 0 < n)
    (h : Continues a (.write_some a sent rest) (.ok n) p) : unsent a p = rest.drop n := by
  simp only [Continues] at h
  split at h
  · obtain ⟨k, rfl⟩ := h
    exact if_pos ⟨rfl, by omega⟩
  · next hn =>
    rw [unsent_of_not_midFrame h, List.drop_eq_nil_of_le (by omega)]

/-- A jump keeps the invariant: no thread that jumps is in the middle of a frame. -/
theorem invariant_jump (hs : LoopSession P s) {before : List UInt8} {frames : List (List UInt8)}
    {st : (system P s).State} {t : SessionThread} {l : SessionLabel}
    (hi : Invariant P s before frames st) (hl : st.threads t = .pure (some l)) :
    Invariant P s before frames
      { st with threads := Function.update st.threads t (block P s l) } := by
  obtain ⟨hmid, hwhole⟩ := framed_block hs l
  have hsame : ∀ u, unsent s.addr (Function.update st.threads t (block P s l) u)
      = unsent s.addr (st.threads u) := by
    intro u
    by_cases hu : u = t
    · subst hu
      rw [Function.update_self, unsent_of_not_midFrame hmid, hl]
      rfl
    · rw [Function.update_of_ne hu]
  refine ⟨fun u => ?_, hi.messages, fun u hu => ?_⟩
  · by_cases hut : u = t
    · subst hut
      simp only [Function.update_self]
      exact hwhole
    · simp only [Function.update_of_ne hut]
      exact hi.whole u
  · show sentBytes P s st ++ unsent s.addr (Function.update st.threads t (block P s l) u) = _
    rw [hsame]
    apply hi.stream
    intro v hv
    by_cases hvt : v = t
    · subst hvt
      rw [hl]
      exact id
    · have := hu v hv
      simp only [Function.update_of_ne hvt] at this
      exact this

/-- An operation that sends nothing keeps the invariant. -/
theorem invariant_quiet {before : List UInt8} {frames : List (List UInt8)}
    {st : (system P s).State} {t : SessionThread} {o : Op}
    {k : o.Res → NetProg (Option SessionLabel)} {r : o.Res} {c : Choice} {w : World}
    (hi : Invariant P s before frames st) (hk : st.threads t = .op o k) (ho : Quiet o)
    (hsem : sem (fun _ => 0) o c st.world = some (r, w)) :
    Invariant P s before frames ⟨w, Function.update st.threads t (k r)⟩ := by
  have hwhole := hi.whole t
  rw [hk] at hwhole
  obtain ⟨hcontinues, hnext⟩ := hwhole.2 r (possible_of_quiet ho r)
  have hmid := not_midFrame_of_continues ho hcontinues
  have hold : ¬ MidFrame s.addr (st.threads t) := by
    rw [hk]
    exact (quiet_head ho).1
  refine ⟨fun u => ?_, hi.messages, fun u hu => ?_⟩
  · by_cases hut : u = t
    · subst hut
      simp only [Function.update_self]
      exact hnext
    · simp only [Function.update_of_ne hut]
      exact hi.whole u
  · have hstream : sentBytes P s st ++ unsent s.addr (st.threads u) = before ++ frames.flatten := by
      apply hi.stream
      intro v hv
      by_cases hvt : v = t
      · rwa [hvt]
      · have := hu v hv
        simp only [Function.update_of_ne hvt] at this
        exact this
    show (w.sessions s.addr).tx ++ unsent s.addr (Function.update st.threads t (k r) u) = _
    rw [tx_sem hsem ho]
    by_cases hut : u = t
    · subst hut
      rw [Function.update_self, unsent_of_not_midFrame hmid]
      rwa [unsent_of_not_midFrame hold] at hstream
    · rw [Function.update_of_ne hut]
      exact hstream

/-- A piece that is sent while no other thread has a frame partly sent keeps the
invariant, with a new frame if it is the first piece. -/
theorem invariant_send {before : List UInt8} {frames : List (List UInt8)}
    {st : (system P s).State} {t : SessionThread} {sent : Nat} {rest : List UInt8}
    {k : Except ErrorCode Nat → NetProg (Option SessionLabel)} {r : Except ErrorCode Nat}
    {n : Nat} {w : World} (hi : Invariant P s before frames st)
    (hk : st.threads t = .op (.write_some s.addr sent rest) k)
    (halone : ∀ u, u ≠ t → ¬ MidFrame s.addr (st.threads u))
    (hsem : sem (fun _ => 0) (.write_some s.addr sent rest) (.ok n) st.world = some (r, w)) :
    Invariant P s before (frames ++ begins s.addr (st.threads t))
      ⟨w, Function.update st.threads t (k r)⟩ := by
  obtain ⟨rfl, hpos, hle, htx⟩ := sent_sem hsem
  have hwhole := hi.whole t
  rw [hk] at hwhole
  obtain ⟨⟨-, -, hframe⟩, hnext⟩ := hwhole
  obtain ⟨hcontinues, hwhole'⟩ := hnext (.ok n) hpos
  have hbegins : begins s.addr (st.threads t) = if sent = 0 then [rest] else [] := by
    rw [hk]
    simp only [begins, true_and]
  -- the bytes that were unsent or not yet begun are now the bytes behind the piece
  have hstream : sentBytes P s st ++ rest
      = before ++ (frames ++ begins s.addr (st.threads t)).flatten := by
    have hold := hi.stream t halone
    rw [hk] at hold
    rw [hbegins]
    by_cases hsent : sent = 0
    · rw [unsent, if_neg (fun h => by omega), List.append_nil] at hold
      rw [if_pos hsent, List.flatten_append, ← List.append_assoc, ← hold]
      simp only [List.flatten_cons, List.flatten_nil, List.append_nil]
    · rw [unsent, if_pos ⟨rfl, by omega⟩] at hold
      rw [if_neg hsent, List.append_nil, hold]
  refine ⟨fun u => ?_, fun f hf => ?_, fun u hu => ?_⟩
  · by_cases hut : u = t
    · subst hut
      simp only [Function.update_self]
      exact hwhole'
    · simp only [Function.update_of_ne hut]
      exact hi.whole u
  · rcases List.mem_append.mp hf with hold | hnew
    · exact hi.messages f hold
    · rw [hbegins] at hnew
      by_cases hsent : sent = 0
      · rw [if_pos hsent, List.mem_singleton] at hnew
        rw [hnew]
        exact hframe hsent
      · rw [if_neg hsent] at hnew
        cases hnew
  · show (w.sessions s.addr).tx ++ unsent s.addr (Function.update st.threads t (k (.ok n)) u) = _
    have hall : sentBytes P s st ++ rest.take n ++ rest.drop n
        = before ++ (frames ++ begins s.addr (st.threads t)).flatten := by
      rw [List.append_assoc, List.take_append_drop, hstream]
    have hunsent := unsent_of_continues hpos hcontinues
    rw [htx]
    by_cases hut : u = t
    · subst hut
      rw [Function.update_self, hunsent]
      exact hall
    · -- nobody else is in the middle of a frame, and now neither is `t`
      have ht := hu t (Ne.symm hut)
      simp only [Function.update_self] at ht
      rw [unsent_of_not_midFrame ht] at hunsent
      rw [Function.update_of_ne hut, unsent_of_not_midFrame (halone u hut), hunsent]
      exact hall

/-- **Step lemma.** -/
theorem invariant_step (hs : LoopSession P s) {before : List UInt8} {frames : List (List UInt8)}
    {st st' : (system P s).State} {t : SessionThread} {c : Choice}
    (hi : Invariant P s before frames st) (hsends : SendsPieces P s st t c)
    (hundisturbed : Undisturbed P s st t c) (h : System.step st t c = some st') :
    Invariant P s before (frames ++ begins s.addr (st.threads t)) st' := by
  rcases System.step_cases h with ⟨l, hl, rfl⟩ | ⟨o, k, r, w, hk, hsem, rfl⟩
  · have hnone : begins s.addr (st.threads t) = [] := by
      rw [hl]
      rfl
    rw [hnone, List.append_nil]
    exact invariant_jump hs hi hl
  replace hsem : sem (fun _ => 0) o c st.world = some (r, w) := hsem
  have hstarts : Starts P s.magicNumber s.addr o := by
    have := hi.whole t
    rw [hk] at this
    exact this.1
  by_cases hwrite : ∃ b sent rest, o = .write_some b sent rest
  · obtain ⟨b, sent, rest, rfl⟩ := hwrite
    obtain rfl : b = s.addr := hstarts.1
    obtain ⟨n, rfl⟩ := hsends _ _ _ _ hk
    exact invariant_send hi hk (hundisturbed _ _ _ _ hk) hsem
  · have ho : Quiet o := by
      cases o with
      | write_some b sent rest => exact absurd ⟨b, sent, rest, rfl⟩ hwrite
      | _ => exact hstarts
    have hnone : begins s.addr (st.threads t) = [] := by
      rw [hk]
      exact (quiet_head ho).2
    rw [hnone, List.append_nil]
    exact invariant_quiet hi hk ho hsem

/-- **Run lemma.** -/
theorem invariant_exec (hs : LoopSession P s) {before : List UInt8} {frames : List (List UInt8)}
    {st st' : (system P s).State} {sched : List (SessionThread × Choice)}
    (hi : Invariant P s before frames st)
    (halong : System.Along (fun st t c => SendsPieces P s st t c ∧ Undisturbed P s st t c) st sched)
    (hexec : System.exec st sched = some st') :
    Invariant P s before (frames ++ framesBegun P s st sched) st' := by
  induction sched generalizing st frames with
  | nil =>
    simp only [System.exec, Option.some.injEq] at hexec
    subst hexec
    rwa [framesBegun, List.append_nil]
  | cons tc rest ih =>
    obtain ⟨t, c⟩ := tc
    simp only [System.exec, Option.bind_eq_some_iff] at hexec
    obtain ⟨st₁, hstep, hrest⟩ := hexec
    obtain ⟨⟨hsends, hundisturbed⟩, hnext⟩ := halong
    have hi₁ := invariant_step hs hi hsends hundisturbed hstep
    simp only [framesBegun, hstep]
    rw [← List.append_assoc]
    exact ih hi₁ (hnext st₁ hstep) hrest

/-- The pool starts with the invariant. -/
theorem invariant_connected (w : World) :
    Invariant P s (w.sessions s.addr).tx [] (connected P s w) where
  whole := fun t => by
    cases t with
    | stopper => exact ⟨trivial, fun _ _ => ⟨id, trivial⟩⟩
    | _ => trivial
  messages := nofun
  stream := fun t _ => by
    cases t with
    | _ => rfl

/-- A list of frames of messages is the frames of a list of messages. -/
theorem exists_messages {frames : List (List UInt8)}
    (h : ∀ f ∈ frames, ∃ m, f = frameOf P magicNumber m) :
    ∃ messages : List Message, frames = messages.map (frameOf P magicNumber) := by
  induction frames with
  | nil => exact ⟨[], rfl⟩
  | cons f frames ih =>
    obtain ⟨m, rfl⟩ := h f (List.mem_cons_self ..)
    obtain ⟨messages, rfl⟩ := ih (fun g hg => h g (List.mem_cons_of_mem _ hg))
    exact ⟨m :: messages, rfl⟩

/-! ## The result -/

/-- Frames stay whole: whenever no thread has a frame partly sent, the bytes sent since
the start are the frames of the messages whose writes have begun, in that order; and
the peer reads back exactly their payloads, if these are short enough for their length
to be told. -/
def FramesWhole (P : Platform) (s : Session) (w : World)
    (ok : (system P s).State → SessionThread → Choice → Prop) : Prop :=
  ∀ sched st', System.exec (connected P s w) sched = some st' →
    System.Along ok (connected P s w) sched → (∀ t, ¬ MidFrame s.addr (st'.threads t)) →
    ∃ messages : List Message,
      framesBegun P s (connected P s w) sched = messages.map (frameOf P s.magicNumber) ∧
      sentBytes P s st' = (w.sessions s.addr).tx
        ++ (messages.map (frameOf P s.magicNumber)).flatten ∧
      ((∀ m ∈ messages, (MessageHandler.serialize P (some m)).payload.length < 2 ^ 32) →
        takeFrames s.magicNumber messages.length
            ((sentBytes P s st').drop (w.sessions s.addr).tx.length)
          = some (messages.map (fun m => (MessageHandler.serialize P (some m)).payload), []))

/-- **The frames of concurrent writers stay whole**, as long as every piece is sent while
no other thread has a frame partly sent. -/
theorem frames_whole_of_undisturbed (hs : LoopSession P s) (w : World) :
    FramesWhole P s w (fun st t c => SendsPieces P s st t c ∧ Undisturbed P s st t c) := by
  intro sched st' hexec halong hidle
  have hi := invariant_exec hs (invariant_connected w) halong hexec
  obtain ⟨messages, hmessages⟩ := exists_messages hi.messages
  have hstream := hi.stream .reader (fun u _ => hidle u)
  rw [unsent_of_not_midFrame (hidle .reader), List.append_nil, List.nil_append] at hstream
  rw [List.nil_append] at hmessages
  refine ⟨messages, hmessages, ?_, fun hshort => ?_⟩
  · rw [hstream, hmessages]
  · rw [hstream, hmessages, List.drop_left]
    have hpayloads := takeFrames_frames s.magicNumber
      (messages.map (fun m => (MessageHandler.serialize P (some m)).payload)) []
      (fun payload hp => by
        obtain ⟨m, hm, rfl⟩ := List.mem_map.mp hp
        exact hshort m hm)
    rw [List.length_map, List.map_map, List.append_nil] at hpayloads
    exact hpayloads

/-! ## Two runs -/

/-- The threads around a client's session. -/
abbrev twoUsers : (system jsonPlatform oneClient.session).State :=
  connected jsonPlatform oneClient.session connectedWorld

/-- What the one user writes, and what the other. -/
def firstMessage : Message := .base "signal" .Request

def secondMessage : Message := .base "information" .Request

/-- Their frames. -/
def firstFrame : List UInt8 := frameOf jsonPlatform 7 firstMessage

def secondFrame : List UInt8 := frameOf jsonPlatform 7 secondMessage

/-- Both users' threads come to their `write`. -/
def comeToWrite : List (SessionThread × Choice) :=
  [(.user 0, .go), (.user 0, .command (.sessionWrite firstMessage)),
    (.user 1, .go), (.user 1, .command (.sessionWrite secondMessage))]

/-- The second user sends when the first has sent its frame, in two pieces. -/
def writeInTurn : List (SessionThread × Choice) :=
  comeToWrite ++ [(.user 0, .ok 3), (.user 0, .ok 38), (.user 1, .ok 46)]

/-- The second user sends between the two pieces. -/
def writeInBetween : List (SessionThread × Choice) :=
  comeToWrite ++ [(.user 0, .ok 1), (.user 1, .ok 46), (.user 0, .ok 40)]

theorem not_midFrame_twoUsers (t : SessionThread) : ¬ MidFrame 0 (twoUsers.threads t) := by
  cases t with
  | _ => exact id

/-- The other threads do not move. -/
theorem not_midFrame_of_two (sched : List (SessionThread × Choice))
    {st : (system jsonPlatform oneClient.session).State} (hexec : System.exec twoUsers sched = some st)
    (hmovers : ∀ step ∈ sched, step.1 = .user 0 ∨ step.1 = .user 1) (t : SessionThread)
    (hfirst : t = .user 0 → ¬ MidFrame 0 (st.threads (.user 0)))
    (hsecond : t = .user 1 → ¬ MidFrame 0 (st.threads (.user 1))) : ¬ MidFrame 0 (st.threads t) := by
  by_cases h₀ : t = .user 0
  · rw [h₀]
    exact hfirst h₀
  by_cases h₁ : t = .user 1
  · rw [h₁]
    exact hsecond h₁
  have hidle : ∀ step ∈ sched, t ≠ step.1 := by
    rintro step hstep rfl
    rcases hmovers step hstep with h | h
    · exact h₀ h
    · exact h₁ h
  rw [System.exec_other hexec hidle]
  exact not_midFrame_twoUsers t

/-- The frames of two users who send one behind the other. -/
theorem frames_whole_of_two_users :
    ∃ st', System.exec twoUsers writeInTurn = some st' ∧ ∃ messages : List Message,
      messages.map (frameOf jsonPlatform 7) = [firstFrame, secondFrame] ∧
      sentBytes jsonPlatform oneClient.session st' = firstFrame ++ secondFrame := by
  have hmovers : ∀ step ∈ writeInTurn, step.1 = .user 0 ∨ step.1 = .user 1 := by decide
  obtain ⟨st', hexec, hfirst, hsecond, halong, hbegun⟩ : ∃ st', System.exec twoUsers writeInTurn = some st' ∧
      ¬ MidFrame 0 (st'.threads (.user 0)) ∧ ¬ MidFrame 0 (st'.threads (.user 1)) ∧
      System.Along (fun st t c => SendsPieces jsonPlatform oneClient.session st t c ∧
        Undisturbed jsonPlatform oneClient.session st t c) twoUsers writeInTurn ∧
      framesBegun jsonPlatform oneClient.session twoUsers writeInTurn = [firstFrame, secondFrame] := by
    refine ⟨_, rfl, id, id, System.along_cons ⟨nofun, nofun⟩ rfl (System.along_cons ⟨nofun, nofun⟩ rfl
      (System.along_cons ⟨nofun, nofun⟩ rfl (System.along_cons ⟨nofun, nofun⟩ rfl
      (System.along_cons ⟨?_, ?_⟩ rfl (System.along_cons ⟨?_, ?_⟩ rfl
      (System.along_cons ⟨?_, ?_⟩ rfl trivial)))))), rfl⟩
    · exact fun _ _ _ _ _ => ⟨3, rfl⟩
    · exact fun _ _ _ _ _ u hu =>
        not_midFrame_of_two comeToWrite rfl (by decide) u (fun h => absurd h hu) (fun _ => nofun)
    · exact fun _ _ _ _ _ => ⟨38, rfl⟩
    · exact fun _ _ _ _ _ u hu => not_midFrame_of_two (comeToWrite ++ [(.user 0, .ok 3)]) rfl (by decide) u
        (fun h => absurd h hu) (fun _ => nofun)
    · exact fun _ _ _ _ _ => ⟨46, rfl⟩
    · exact fun _ _ _ _ _ u hu =>
        not_midFrame_of_two (comeToWrite ++ [(.user 0, .ok 3), (.user 0, .ok 38)]) rfl (by decide) u
          (fun _ => id) (fun h => absurd h hu)
  obtain ⟨messages, hmessages, hstream, -⟩ :=
    frames_whole_of_undisturbed (.client oneClient) connectedWorld _ st' hexec halong
      (fun t => not_midFrame_of_two writeInTurn hexec hmovers t (fun _ => hfirst) (fun _ => hsecond))
  refine ⟨st', hexec, messages, hmessages.symm.trans hbegun, ?_⟩
  rw [hstream, ← hmessages, hbegun]
  rfl

/-- **Two users' frames get mixed.** -/
theorem frames_mixed : ¬ FramesWhole jsonPlatform oneClient.session connectedWorld
    (SendsPieces jsonPlatform oneClient.session) := by
  intro h
  have hmovers : ∀ step ∈ writeInBetween, step.1 = .user 0 ∨ step.1 = .user 1 := by decide
  obtain ⟨st', hexec, hfirst, hsecond, halong, hsent, hframes⟩ : ∃ st',
      System.exec twoUsers writeInBetween = some st' ∧ ¬ MidFrame 0 (st'.threads (.user 0)) ∧
      ¬ MidFrame 0 (st'.threads (.user 1)) ∧
      System.Along (SendsPieces jsonPlatform oneClient.session) twoUsers writeInBetween ∧
      sentBytes jsonPlatform oneClient.session st'
        = firstFrame.take 1 ++ secondFrame ++ firstFrame.drop 1 ∧
      framesBegun jsonPlatform oneClient.session twoUsers writeInBetween
        = [firstFrame, secondFrame] := by
    refine ⟨_, rfl, id, id, System.along_cons nofun rfl (System.along_cons nofun rfl
      (System.along_cons nofun rfl (System.along_cons nofun rfl (System.along_cons ?_ rfl
        (System.along_cons ?_ rfl (System.along_cons ?_ rfl trivial)))))), rfl, rfl⟩
    · exact fun _ _ _ _ _ => ⟨1, rfl⟩
    · exact fun _ _ _ _ _ => ⟨46, rfl⟩
    · exact fun _ _ _ _ _ => ⟨40, rfl⟩
  obtain ⟨messages, hmessages, hstream, -⟩ :=
    h _ st' hexec halong
      (fun t => not_midFrame_of_two writeInBetween hexec hmovers t (fun _ => hfirst) (fun _ => hsecond))
  rw [← hmessages, hframes, hsent] at hstream
  revert hstream
  decide +kernel

end NetworkApplication.Writers
