/-
What comes of a conversation.

What the threads of either side know fits together: the client's reader has taken the beginning
of what the session has sent, and the session's reader the beginning of what the client has sent,
as far as the network has brought it. Every operation keeps that, so it holds in every state of
every run, and in such a state everything is in order (`conversation_in_order`).
-/
import NetworkApplication.Conversation

set_option autoImplicit false

namespace NetworkApplication.Conversation

open NetworkApplication.Program NetworkApplication.Pool NetworkApplication.Disciplines
open Delivery BadPayload RequestResponseHandler Replies Echo StreamRoles StreamEnds Exchange

/-! ## The two sides -/

variable {P : Platform} {ids : Nat → UInt64} {setup : Setup} {f g : Knows} {o : Op} {r : o.Res}
  {c : Choice} {w w' : World} {stream : List UInt8}

/-- The client: what its main thread and its worker know of the socket. -/
structure ClientSide (P : Platform) (setup : Setup) (f g : Knows) (stream : List UInt8) (w : World) : Prop where
  writer : Writer setup.socket f w
  asked : ∃ asked, f.ledger.begun = asked.map (frame setup.magicNumber) ∧ asked <+: texts P setup.lines
  reader : Reader P setup.magicNumber setup.socket g stream w

/-- The server: what the session's worker knows of the socket. -/
structure ServerSide (P : Platform) (setup : Setup) (f : Knows)
    (stream : List UInt8) (w : World) : Prop where
  writer : Writer setup.ptr.addr f w
  reader : Reader P setup.magicNumber setup.ptr.addr f stream w
  answered : ∃ answers, f.ledger.begun = answers.map (frame setup.magicNumber) ∧
    Answered (protocol P setup.lines) f.ledger.handed answers

theorem ClientSide.caller (h : ClientSide P setup f g stream w)
    (ho : Allowed setup.socket (callerRole P setup) f o) (hc : Cuts c)
    (hsem : sem ids o c w = some (r, w')) :
    ClientSide P setup (f.next setup.magicNumber o r) g stream w' := by
  have hm := moved_of_sem (handles_of_allowed ho) hsem
  obtain ⟨htaken, hread, hhanded⟩ := takes_nothing ho (fun _ h => h) (fun _ _ h => h) r
  refine ⟨h.writer.next ho hc hsem, ?_, h.reader.moved hm htaken hread hhanded⟩
  rcases Knows.ledger_next setup.magicNumber ho
    (possible_of_sem h.writer.aware ho hc hsem) with ⟨hbegun, -⟩ | ⟨bytes, hmay, hbegun, -⟩ | ⟨_, hno, -⟩
  · rw [hbegun]
    exact h.asked
  · obtain ⟨asked, text, hasked, rfl, htexts⟩ := hmay
    refine ⟨asked ++ [text], ?_, htexts⟩
    rw [hbegun, hasked, List.map_append]
    rfl
  · exact hno.elim

theorem ClientSide.listener (h : ClientSide P setup f g stream w)
    (ho : Allowed setup.socket (listenerRole P) g o) (hc : Cuts c)
    (hsem : sem ids o c w = some (r, w')) :
    ClientSide P setup f (g.next setup.magicNumber o r) stream w' where
  writer := h.writer.moved (moved_of_sem (handles_of_allowed ho) hsem) (sends_nothing ho id r)
  asked := h.asked
  reader := h.reader.next (fun _ _ hl => hl) ho hc hsem

theorem ClientSide.apart (h : ClientSide P setup f g stream w) (ho : Apart o)
    (hsem : sem ids o c w = some (r, w')) : ClientSide P setup f g stream w' := by
  obtain ⟨hhandles, htaken, hread, hhanded, hsent⟩ := ho.untouched (a := setup.socket) r
  have hm := moved_of_sem hhandles hsem
  exact ⟨h.writer.moved hm hsent, h.asked, h.reader.moved hm htaken hread hhanded⟩

/-- What an answerer hands over it answers, and before it hands over anything else. -/
theorem answered_next {a : Nat} (ho : Allowed a (answererRole P setup) f o) (hr : Possible f o r)
    (h : ∃ answers, f.ledger.begun = answers.map (frame setup.magicNumber) ∧
      Answered (protocol P setup.lines) f.ledger.handed answers) :
    ∃ answers, (f.next setup.magicNumber o r).ledger.begun = answers.map (frame setup.magicNumber) ∧
      Answered (protocol P setup.lines) (f.next setup.magicNumber o r).ledger.handed answers := by
  rcases Knows.ledger_next setup.magicNumber ho hr with
    ⟨hbegun, hhanded⟩ | ⟨bytes, hmay, hbegun, hhanded⟩ | ⟨payload, hmay, hbegun, hhanded⟩
  · rw [hbegun, hhanded]
    exact h
  · obtain ⟨answers, text, hanswers, rfl, hserved⟩ := hmay
    refine ⟨answers ++ [text], ?_, .inl ?_⟩
    · rw [hbegun, hanswers, List.map_append]
      rfl
    · rw [hhanded]
      exact hserved
  · obtain ⟨-, answers, hanswers, hserved⟩ := hmay
    refine ⟨answers, hbegun.trans hanswers, ?_⟩
    rw [hhanded]
    exact answered_concat payload hserved

theorem ServerSide.answerer (h : ServerSide P setup f stream w)
    (ho : Allowed setup.ptr.addr (answererRole P setup) f o) (hc : Cuts c)
    (hsem : sem ids o c w = some (r, w')) :
    ServerSide P setup (f.next setup.magicNumber o r) stream w' := by
  have hrole : ∀ l payload, (answererRole P setup).mayHand l payload →
      l.handed ++ [payload] = l.taken.filter (parses P) := fun _ _ hl => hl.1
  exact ⟨h.writer.next ho hc hsem, h.reader.next hrole ho hc hsem,
    answered_next ho (possible_of_sem h.writer.aware ho hc hsem) h.answered⟩

theorem ServerSide.apart (h : ServerSide P setup f stream w) (ho : Apart o)
    (hsem : sem ids o c w = some (r, w')) : ServerSide P setup f stream w' := by
  obtain ⟨hhandles, htaken, hread, hhanded, hsent⟩ := ho.untouched (a := setup.ptr.addr) r
  have hm := moved_of_sem hhandles hsem
  exact ⟨h.writer.moved hm hsent, h.reader.moved hm htaken hread hhanded, h.answered⟩

/-! ## The network -/

theorem carry_eq_some {sent : List UInt8} {brought a n : Nat} (h : carry sent brought a c w = some (n, w')) :
    ∃ bytes, bytes <+: sent.drop brought ∧ n = brought + bytes.length ∧
      w' = w.modify a (fun s => { s with rx := s.rx ++ bytes }) := by
  cases c with
  | delivered b bytes =>
    simp only [carry, Option.ite_none_right_eq_some, Option.map_eq_some_iff] at h
    obtain ⟨⟨-, hbytes⟩, ⟨x, w₁⟩, hsem, heq⟩ := h
    simp only [networkSem, Option.ite_none_right_eq_some, Option.some.injEq, Prod.mk.injEq] at hsem
    obtain ⟨-, -, rfl⟩ := hsem
    obtain ⟨rfl, rfl⟩ := Prod.mk.inj heq
    exact ⟨bytes, hbytes, rfl, rfl⟩
  | _ => cases h

/-- What has been brought grows by the piece. -/
theorem take_brought {sent bytes : List UInt8} {brought : Nat} (hbytes : bytes <+: sent.drop brought) :
    sent.take (brought + bytes.length) = sent.take brought ++ bytes := by
  rw [List.take_add, ← List.prefix_iff_eq_take.mp hbytes]

theorem brought_le {sent bytes : List UInt8} {brought : Nat} (hbytes : bytes <+: sent.drop brought)
    (h : brought ≤ sent.length) : brought + bytes.length ≤ sent.length := by
  have hlength := hbytes.length_le
  rw [List.length_drop] at hlength
  omega

theorem ClientSide.grow (h : ClientSide P setup f g stream w) (bytes : List UInt8) :
    ClientSide P setup f g (stream ++ bytes)
      (w.modify setup.socket (fun s => { s with rx := s.rx ++ bytes })) :=
  ⟨h.writer.grow bytes, h.asked, h.reader.grow bytes⟩

theorem ServerSide.grow (h : ServerSide P setup f stream w) (bytes : List UInt8) :
    ServerSide P setup f (stream ++ bytes)
      (w.modify setup.ptr.addr (fun s => { s with rx := s.rx ++ bytes })) :=
  ⟨h.writer.grow bytes, h.reader.grow bytes, h.answered⟩

/-! ## The two sides together -/

variable {fs fs' : Party → Knows} {t : Talk}

/-- Each side has got the beginning of what the other has sent. -/
structure Ordered (P : Platform) (setup : Setup) (fs : Party → Knows)
    (t : Talk) : Prop where
  client : ClientSide P setup (fs .caller) (fs .listener) ((t.answered setup).take t.down) t.client
  server : ServerSide P setup (fs .answerer) ((t.asked setup).take t.up) t.server
  up : t.up ≤ (t.asked setup).length
  down : t.down ≤ (t.answered setup).length

/-- The client has done something. -/
theorem Ordered.client_moves (h : Ordered P setup fs t)
    (hclient : ClientSide P setup (fs' .caller) (fs' .listener)
      ((t.answered setup).take t.down) w')
    (hm : Moved setup.socket o r t.client w') (hsame : fs' .answerer = fs .answerer) :
    Ordered P setup fs' { t with client := w' } := by
  have htx : (w'.sessions setup.socket).tx = t.asked setup ++ sentBy o r := hm.tx
  refine ⟨hclient, ?_, ?_, h.down⟩
  · show ServerSide P setup (fs' .answerer) ((w'.sessions setup.socket).tx.take t.up) t.server
    rw [htx, List.take_append_of_le_length h.up, hsame]
    exact h.server
  · show t.up ≤ (w'.sessions setup.socket).tx.length
    rw [htx, List.length_append]
    exact Nat.le_add_right_of_le h.up

/-- The server has done something. -/
theorem Ordered.server_moves (h : Ordered P setup fs t)
    (hserver : ServerSide P setup (fs' .answerer) ((t.asked setup).take t.up) w')
    (hm : Moved setup.ptr.addr o r t.server w') (hcaller : fs' .caller = fs .caller)
    (hlistener : fs' .listener = fs .listener) :
    Ordered P setup fs' { t with server := w' } := by
  have htx : (w'.sessions setup.ptr.addr).tx = t.answered setup ++ sentBy o r := hm.tx
  refine ⟨?_, hserver, h.up, ?_⟩
  · show ClientSide P setup (fs' .caller) (fs' .listener)
      ((w'.sessions setup.ptr.addr).tx.take t.down) t.client
    rw [htx, List.take_append_of_le_length h.down, hcaller, hlistener]
    exact h.client
  · show t.down ≤ (w'.sessions setup.ptr.addr).tx.length
    rw [htx, List.length_append]
    exact Nat.le_add_right_of_le h.down

/-- The network has brought something up. -/
theorem Ordered.uplink {n : Nat} (h : Ordered P setup fs t)
    (hcarry : carry (t.asked setup) t.up setup.ptr.addr c t.server = some (n, w')) :
    Ordered P setup fs { t with up := n, server := w' } := by
  obtain ⟨bytes, hbytes, rfl, rfl⟩ := carry_eq_some hcarry
  refine ⟨?_, ?_, brought_le hbytes h.up, ?_⟩
  · simp only [Talk.answered, World.modify_sessions_self]
    exact h.client
  · show ServerSide P setup _ ((t.asked setup).take (t.up + bytes.length)) _
    rw [take_brought hbytes]
    exact h.server.grow bytes
  · simp only [Talk.answered, World.modify_sessions_self]
    exact h.down

/-- The network has brought something down. -/
theorem Ordered.downlink {n : Nat} (h : Ordered P setup fs t)
    (hcarry : carry (t.answered setup) t.down setup.socket c t.client = some (n, w')) :
    Ordered P setup fs { t with down := n, client := w' } := by
  obtain ⟨bytes, hbytes, rfl, rfl⟩ := carry_eq_some hcarry
  refine ⟨?_, ?_, ?_, brought_le hbytes h.down⟩
  · show ClientSide P setup _ _ ((t.answered setup).take (t.down + bytes.length)) _
    rw [take_brought hbytes]
    exact h.client.grow bytes
  · simp only [Talk.asked, World.modify_sessions_self]
    exact h.server
  · simp only [Talk.asked, World.modify_sessions_self]
    exact h.up

/-! ## The disciplines -/

/-- A thread that has nothing to do with the stream; without `stops` it does not even run. -/
def bystander (stops : Bool) : Discipline Net Knows where
  Allowed := fun _ o => stops = true ∧ Apart o
  Possible := fun _ _ _ => True
  next := fun f _ _ => f
  Crash := fun _ => False

/-- The network. -/
def carrier : Discipline Net Knows where
  Allowed := fun _ o => o = .network
  Possible := fun _ _ _ => True
  next := fun f _ _ => f
  Crash := fun _ => False

/-- Who keeps to what. -/
def disciplineOf (P : Platform) (setup : Setup) :
    Party → Discipline Net Knows
  | .caller => rules setup.magicNumber setup.socket (callerRole P setup)
  | .listener => rules setup.magicNumber setup.socket (listenerRole P)
  | .answerer => rules setup.magicNumber setup.ptr.addr (answererRole P setup)
  | .clientControl | .serverControl => bystander setup.stops
  | .uplink | .downlink => carrier

/-- What a thread of the client does. -/
theorem client_act {t' : Talk} (h : (sem ids o c t.client).map
    (fun x => (x.1, ({ t with client := x.2 } : Talk))) = some (r, t')) :
    ∃ w', sem ids o c t.client = some (r, w') ∧ t' = { t with client := w' } := by
  obtain ⟨⟨_, w'⟩, hact, heq⟩ := Option.map_eq_some_iff.mp h
  obtain ⟨rfl, rfl⟩ := Prod.mk.inj heq
  exact ⟨w', hact, rfl⟩

/-- What a thread of the server does. -/
theorem server_act {t' : Talk} (h : (sem ids o c t.server).map
    (fun x => (x.1, ({ t with server := x.2 } : Talk))) = some (r, t')) :
    ∃ w', sem ids o c t.server = some (r, w') ∧ t' = { t with server := w' } := by
  obtain ⟨⟨_, w'⟩, hact, heq⟩ := Option.map_eq_some_iff.mp h
  obtain ⟨rfl, rfl⟩ := Prod.mk.inj heq
  exact ⟨w', hact, rfl⟩

/-- **Every operation keeps the order.** -/
theorem Ordered.step {t' : Talk} {party : Party} (h : Ordered P setup fs t)
    (ho : (disciplineOf P setup party).Allowed (fs party) o) (hc : Cuts c)
    (hsem : talkSem ids setup party o c t = some (r, t')) :
    (disciplineOf P setup party).Possible (fs party) o r ∧
      Ordered P setup (Function.update fs party
        ((disciplineOf P setup party).next (fs party) o r)) t' := by
  cases party with
  | caller =>
    obtain ⟨w', hact, rfl⟩ := client_act hsem
    exact ⟨possible_of_sem h.client.writer.aware ho hc hact,
      h.client_moves (h.client.caller ho hc hact) (moved_of_sem (handles_of_allowed ho) hact) rfl⟩
  | listener =>
    obtain ⟨w', hact, rfl⟩ := client_act hsem
    exact ⟨possible_of_sem h.client.reader.aware ho hc hact,
      h.client_moves (h.client.listener ho hc hact) (moved_of_sem (handles_of_allowed ho) hact) rfl⟩
  | clientControl =>
    obtain ⟨w', hact, rfl⟩ := client_act hsem
    exact ⟨trivial, h.client_moves (h.client.apart ho.2 hact)
      (moved_of_sem (Apart.untouched ho.2 r).1 hact) rfl⟩
  | answerer =>
    obtain ⟨w', hact, rfl⟩ := server_act hsem
    exact ⟨possible_of_sem h.server.writer.aware ho hc hact,
      h.server_moves (h.server.answerer ho hc hact) (moved_of_sem (handles_of_allowed ho) hact) rfl
        rfl⟩
  | serverControl =>
    obtain ⟨w', hact, rfl⟩ := server_act hsem
    exact ⟨trivial, h.server_moves (h.server.apart ho.2 hact)
      (moved_of_sem (Apart.untouched ho.2 r).1 hact) rfl rfl⟩
  | uplink =>
    obtain rfl : o = .network := ho
    obtain ⟨⟨n, w'⟩, hcarry, heq⟩ := Option.map_eq_some_iff.mp hsem
    obtain ⟨-, rfl⟩ := Prod.mk.inj heq
    refine ⟨trivial, ?_⟩
    rw [show (disciplineOf P setup .uplink).next (fs .uplink) .network r = fs .uplink from rfl,
      Function.update_eq_self]
    exact h.uplink hcarry
  | downlink =>
    obtain rfl : o = .network := ho
    obtain ⟨⟨n, w'⟩, hcarry, heq⟩ := Option.map_eq_some_iff.mp hsem
    obtain ⟨-, rfl⟩ := Prod.mk.inj heq
    refine ⟨trivial, ?_⟩
    rw [show (disciplineOf P setup .downlink).next (fs .downlink) .network r = fs .downlink
      from rfl, Function.update_eq_self]
    exact h.downlink hcarry

/-! ## The programs keep to them -/

/-- What a reader knows at the head of its loop. -/
def Loops (P : Platform) (setup : Setup) :
    Party → TalkLabel → Knows → Prop
  | .listener, .readTask, f => Round (listenerRole P) f
  | .answerer, .server (.sessionWork n ptr), f =>
    n = setup.worker ∧ ptr = setup.ptr ∧ Round (answererRole P setup) f
  | .serverControl, .server .flushMain, _ | .serverControl, .server (.flushWorkers _), _ =>
    setup.stops = true
  | .uplink, .uplink, _ | .downlink, .downlink, _ => True
  | _, _, _ => False

/-- What a thread knows when it is done: without a `stop`, and while its loop goes on, it has
written everything, or comes to no end. -/
def Done (P : Platform) (setup : Setup) : Party → Knows → Prop
  | .caller, f => setup.stops = true ∨ f.closed = true ∨ f.ended = true ∨
    f.ledger.begun = (texts P setup.lines).map (frame setup.magicNumber) ∧ f.ledger.rest = []
  | .listener, f | .answerer, f => f.ended = true ∨ ∃ payload ∈ f.ledger.taken, Throws P payload
  | .clientControl, _ | .serverControl, _ => True
  | .uplink, _ | .downlink, _ => False

/-- Where a thread goes on from a block. -/
def GoesOn (P : Platform) (setup : Setup) (party : Party) : Option TalkLabel → Knows → Prop
  | some l, f => Loops P setup party l f
  | none, f => Done P setup party f

/-- The main thread of the client, in front of the lines that are left. -/
theorem returns_inputLoop (rest : List (List UInt8)) :
    ∀ f : Knows, (f.closed = true ∨ ∃ asked, f.ledger.begun = asked.map (frame setup.magicNumber) ∧
      asked ++ texts P rest = texts P setup.lines ∧ f.ledger.rest = [] ∧ f.broken = false) →
      Returns setup.magicNumber setup.socket (callerRole P setup)
        (fun _ f' => f'.closed = true ∨ f'.ended = true ∨
          f'.ledger.begun = (texts P setup.lines).map (frame setup.magicNumber) ∧ f'.ledger.rest = [])
        f (inputLoop P setup rest) := by
  induction rest with
  | nil =>
    rintro f (hclosed | ⟨asked, hbegun, htexts, hrest, -⟩)
    · exact .inl hclosed
    · rw [← htexts]
      exact .inr (.inr ⟨by rw [hbegun, texts, List.map_nil, List.append_nil], hrest⟩)
  | cons data rest ih =>
    intro f hf
    refine Follows.step trivial (fun isWork _ => ?_)
    cases isWork with
    | false => exact .inr (.inl rfl)
    | true =>
      show Returns setup.magicNumber setup.socket (callerRole P setup) _ f
        (setup.client.write P (SegmentServer.messageOf data) >>= fun _ => inputLoop P setup rest)
      rcases hf with hclosed | ⟨asked, hbegun, htexts, hrest, hbroken⟩
      · exact Follows.bind (returns_write_of_closed (s := setup.client.session) discreet_client trivial
          hclosed) (fun _ f' hf' => ih f' (.inl hf'))
      · have hmay : (callerRole P setup).mayBegin f.ledger
            (frameOf P setup.magicNumber (SegmentServer.messageOf data)) := by
          refine ⟨asked, _, hbegun, rfl, ?_⟩
          rw [← htexts]
          exact (List.prefix_append_right_inj asked).mpr ⟨texts P rest, rfl⟩
        have hsound : f.broken = true → f.closed = true :=
          fun h => absurd (hbroken.symm.trans h) Bool.false_ne_true
        refine Follows.bind (returns_write (s := setup.client.session) discreet_client trivial hrest
          hmay hsound) ?_
        rintro _ f' (rfl | ⟨-, hclosed⟩)
        · refine ih _ (.inr ⟨asked ++ [textOf P (SegmentServer.messageOf data)], ?_, ?_, rfl, hbroken⟩)
          · show f.ledger.begun ++ [_] = _
            rw [hbegun, List.map_append]
            rfl
          · rw [← htexts, List.append_assoc]
            rfl
        · exact ih f' (.inl hclosed)

/-- The main thread of the client. -/
theorem keeps_mainThread :
    Follows (disciplineOf P setup .caller) (GoesOn P setup .caller) (fun _ => Done P setup .caller)
      .nothing (mainThread P setup) := by
  refine Follows.bind ((returns_inputLoop setup.lines .nothing (.inr ⟨[], rfl, rfl, rfl, rfl⟩)).mono
    (fun _ _ h => h) (fun _ _ h => h.elim)) (fun _ f hf => ?_)
  cases hstops : setup.stops with
  | false => exact .inr hf
  | true =>
    have hend : ∀ f, MayEnd (callerRole P setup) f := fun _ => .inr (.inr hstops)
    have hdone : ∀ f, Done P setup .caller f := fun _ => .inl hstops
    refine Follows.bind (M := fun _ _ => True) ?_ (fun _ f _ => hdone f)
    refine Follows.step trivial (fun isWork _ => Follows.when (fun _ => ?_) (fun _ => trivial))
    refine Follows.step (hend _) (fun _ _ => ?_)
    refine Follows.bind ((returns_disconnect (s := setup.client.connected) ?_ (hend _)).mono
      (fun _ _ h => h) (fun _ _ h => h.elim)) (fun _ _ _ => Follows.call (hend _) (fun _ _ => trivial))
    exact ⟨fun _ _ _ => rfl, fun _ => quiet_pure, fun _ => quiet_pure, fun _ => quiet_pure⟩

theorem keeps_taskDone (hf : Done P setup .listener f) : Follows (disciplineOf P setup .listener)
    (GoesOn P setup .listener) (fun _ => Done P setup .listener) f taskDone :=
  Follows.step trivial (fun _ _ => hf)

/-- The client's worker. -/
theorem keeps_readTask (hf : Round (listenerRole P) f) :
    Follows (disciplineOf P setup .listener) (GoesOn P setup .listener)
      (fun _ => Done P setup .listener) f (readTask P setup) := by
  refine Follows.tryCatch (X := Ends P) (follows_readRound (s := setup.client.session) listens_client hf
    (fun _ hf' => hf') (fun f' hf' => Follows.step trivial (fun _ _ => .inl hf'))) ?_
  exact fun _ f' hf' => keeps_taskDone (.inr hf')

/-- The session's worker. -/
theorem keeps_sessionWork (hf : Round (answererRole P setup) f) :
    Follows (disciplineOf P setup .answerer)
      (fun next f => GoesOn P setup .answerer (next.map .server) f) (fun _ => Done P setup .answerer)
      f (setup.server.sessionWork P setup.worker setup.ptr) := by
  refine Follows.tryCatch (X := Ends P) (follows_readRound (s := setup.server.readerSession P setup.ptr)
    listens_server hf (fun _ hf' => ⟨rfl, rfl, hf'⟩)
    (fun f' hf' => Follows.step trivial (fun _ _ => .inl hf'))) ?_
  exact fun _ f' hf' => Follows.step trivial (fun _ _ => .inr hf')

/-- The program only asks, closes and waits. -/
def Aside {α : Type} (p : NetProg α) : Prop :=
  ∀ f, Follows (bystander true) (fun _ _ => True) (fun _ _ => True) f p

theorem aside_pure {α : Type} (a : α) : Aside (Prog.pure a : NetProg α) := fun _ => trivial

theorem Aside.bind {α β : Type} {p : NetProg α} {k : α → NetProg β} (hp : Aside p)
    (hk : ∀ a, Aside (k a)) : Aside (p >>= k) :=
  fun f => Follows.bind (hp f) (fun a f' _ => hk a f')

theorem Aside.when {b : Bool} {p : NetProg Unit} (hp : Aside p) : Aside (Prog.when b p) :=
  fun f => Follows.when (fun _ => hp f) (fun _ => trivial)

theorem Aside.step {α : Type} {k : o.Res → NetProg α} (ho : Apart o) (hk : ∀ r, Aside (k r)) :
    Aside (call o >>= k) := fun _ => Follows.step ⟨rfl, ho⟩ (fun r _ => hk r _)

theorem aside_call (ho : Apart o) : Aside (call o) :=
  fun _ => Follows.call ⟨rfl, ho⟩ (fun _ _ => trivial)

theorem aside_disconnect {s : Session} (honError : ∀ ec, Aside (invoke s.onError ec))
    (hdisconnect : ∀ ec, Aside (invoke s.on_disconnect ec)) : Aside s.disconnect := by
  unfold Session.disconnect ConnectHandler.disconnect
  refine Aside.step trivial (fun is_open => ?_)
  cases is_open with
  | false => exact aside_pure ()
  | true =>
    refine Aside.step trivial (fun ec => (honError ec).when.bind (fun _ => ?_))
    exact Aside.step trivial (fun ec => (honError ec).when.bind (fun _ => hdisconnect ec))

theorem aside_removeSession (id : UInt32) : Aside (SessionManager.removeSession id) := by
  refine Aside.step trivial (fun found => ?_)
  cases found with
  | none => exact aside_pure ()
  | some ptr => exact aside_call trivial

theorem aside_disconnectAll (server : SegmentServer) (ptrs : List SessionPtr) :
    Aside (SegmentServer.stop.disconnectAll server ptrs) := by
  induction ptrs with
  | nil => exact aside_pure ()
  | cons ptr ptrs ih =>
    have hdisconnect : Aside (server.session ptr).disconnect :=
      aside_disconnect (fun _ => aside_removeSession _) (fun _ => aside_pure ())
    exact hdisconnect.bind (fun _ => ih)

theorem aside_clientStop : Aside setup.client.stop := by
  refine Aside.step trivial (fun isWork => Aside.when ?_)
  refine Aside.step trivial (fun _ => Aside.bind ?_ (fun _ => aside_call trivial))
  exact aside_disconnect (fun _ => aside_pure ()) (fun _ => aside_pure ())

theorem aside_closeAcceptor : Aside SessionManager.closeAcceptor := by
  refine Aside.step trivial (fun is_open => ?_)
  cases is_open with
  | false => exact aside_pure ()
  | true => exact Aside.step trivial (fun _ => Aside.step trivial (fun _ => aside_pure ()))

/-- The thread of the client that stops it. -/
theorem keeps_clientControl (hstops : setup.stops = true) :
    Follows (disciplineOf P setup .clientControl) (GoesOn P setup .clientControl)
      (fun _ => Done P setup .clientControl) f (clientControl setup) := by
  show Follows (bystander setup.stops) _ _ f _
  rw [hstops]
  exact Follows.bind (aside_clientStop f) (fun _ _ _ => trivial)

/-- The thread of the server that stops it. -/
theorem keeps_stop (hstops : setup.stops = true) : Follows (disciplineOf P setup .serverControl)
    (fun next f => GoesOn P setup .serverControl (next.map .server) f)
    (fun _ => Done P setup .serverControl) f setup.server.stop := by
  show Follows (bystander setup.stops) _ _ f _
  rw [hstops]
  refine Follows.step ⟨rfl, trivial⟩ (fun isWork _ => ?_)
  cases isWork with
  | false => exact trivial
  | true =>
    refine Follows.step ⟨rfl, trivial⟩ (fun _ _ => Follows.bind (aside_closeAcceptor _) (fun _ _ _ => ?_))
    refine Follows.step ⟨rfl, trivial⟩ (fun copy_map _ => Follows.step ⟨rfl, trivial⟩ (fun count _ => ?_))
    exact Follows.bind ((aside_disconnectAll setup.server copy_map).when _) (fun _ _ _ => hstops)

theorem keeps_flushMain (hstops : setup.stops = true) : Follows (disciplineOf P setup .serverControl)
    (fun next f => GoesOn P setup .serverControl (next.map .server) f)
    (fun _ => Done P setup .serverControl) f SegmentServer.flushMain :=
  Follows.step ⟨hstops, trivial⟩ (fun _ _ => hstops)

theorem keeps_flushWorkers (hstops : setup.stops = true) (n : Nat) :
    Follows (disciplineOf P setup .serverControl)
      (fun next f => GoesOn P setup .serverControl (next.map .server) f)
      (fun _ => Done P setup .serverControl) f (SegmentServer.flushWorkers n) := by
  refine Follows.step ⟨hstops, trivial⟩ (fun size _ => ?_)
  split
  · exact Follows.step ⟨hstops, trivial⟩ (fun _ _ => hstops)
  · exact trivial

/-- Every block keeps to the discipline of who runs it. -/
theorem keeps_block {party : Party} {l : TalkLabel} (hl : Loops P setup party l f) :
    Follows (disciplineOf P setup party) (GoesOn P setup party) (fun _ => Done P setup party) f
      (block P setup l) := by
  unfold Loops at hl
  split at hl
  · exact keeps_readTask hl
  · obtain ⟨rfl, rfl, hround⟩ := hl
    exact Follows.bind (keeps_sessionWork hround) (fun _ _ h => h)
  · exact Follows.bind (keeps_flushMain hl) (fun _ _ h => h)
  · exact Follows.bind (keeps_flushWorkers hl _) (fun _ _ h => h)
  · exact Follows.step rfl (fun _ _ => trivial)
  · exact Follows.step rfl (fun _ _ => trivial)
  · exact hl.elim

/-- The two programs and the network keep to the disciplines. -/
def orderly (P : Platform) (ids : Nat → UInt64) (setup : Setup) :
    Disciplined (system P ids setup) Knows where
  rules := disciplineOf P setup
  loop := Loops P setup
  fin := Done P setup
  ok := fun _ _ c _ => Cuts c
  inv := Ordered P setup
  block_follows := by
    intro party l f hl
    refine (keeps_block hl).mono (fun next f' hnext => ?_) (fun _ _ h => h)
    cases next with
    | some l' => exact hnext
    | none => exact hnext
  keeps := fun _ _ _ _ _ _ _ h ho hc hsem => h.step ho hc hsem

/-! ## From the connection on -/

theorem reader_fresh (a : Nat) (hrx : (w.sessions a).rx = []) (hhanded : handedOf w = []) :
    Reader P setup.magicNumber a .nothing [] w where
  aware := ⟨nofun, nofun⟩
  reads := ⟨[], by rw [hrx]; rfl, rfl⟩
  short := nofun
  handed := hhanded
  parsed := ⟨[], rfl⟩

theorem holds_connected (h : Fresh setup t) :
    (orderly P ids setup).Holds (connected P ids setup t) (fun _ => .nothing) := by
  refine ⟨⟨⟨writer_fresh _ h.client_tx, ⟨[], rfl, ⟨_, rfl⟩⟩, ?_⟩, ⟨writer_fresh _ h.server_tx, ?_,
    ⟨[], rfl, .inl served_nil⟩⟩, ?_, ?_⟩, fun party => ?_⟩
  · show Reader P setup.magicNumber setup.socket .nothing ((t.answered setup).take t.down) t.client
    rw [h.down]
    exact reader_fresh _ h.client_rx h.client_handed
  · show Reader P setup.magicNumber setup.ptr.addr .nothing ((t.asked setup).take t.up) t.server
    rw [h.up]
    exact reader_fresh _ h.server_rx h.server_handed
  · show t.up ≤ _
    rw [h.up]
    exact Nat.zero_le _
  · show t.down ≤ _
    rw [h.down]
    exact Nat.zero_le _
  have hnext : ∀ party next f, GoesOn P setup party next f →
      (orderly P ids setup).next party next f := by
    intro party next f h
    cases next with
    | some l => exact h
    | none => exact h
  refine Follows.mono ?_ (hnext party) (fun _ _ h => h)
  have hround : ∀ role : Role, role.mayRead ⟨[], [], [], []⟩ → Round role .nothing :=
    fun _ hrole => .inl ⟨rfl, hrole, fun h => by cases h⟩
  cases party with
  | caller => exact keeps_mainThread
  | listener => exact hround _ rfl
  | clientControl =>
    show Follows _ _ _ _ (if setup.stops = true then _ else _)
    split
    · next hstops => exact keeps_clientControl hstops
    · exact trivial
  | answerer => exact ⟨rfl, rfl, hround _ ⟨rfl, rfl, [], rfl, served_nil⟩⟩
  | serverControl =>
    show Follows _ _ _ _ (if setup.stops = true then _ else _)
    split
    · next hstops => exact Follows.bind (keeps_stop hstops) (fun _ _ h => h)
    · exact trivial
  | uplink => exact trivial
  | downlink => exact trivial

theorem answer_of_reply {payload : List UInt8} {r : Message} (h : ReplyTo P payload (some r)) :
    ∃ m, Answer m r := by
  unfold ReplyTo at h
  split at h
  · cases h
  · next m _ =>
    split at h
    · cases h
    · obtain ⟨_, hr, hanswer⟩ := h
      obtain rfl := Option.some.inj hr
      exact ⟨m, hanswer⟩

/-- The answers are texts of replies. -/
theorem text_of_answered {lines received answers : List (List UInt8)} {answer : List UInt8}
    (h : Answered (protocol P lines) received answers) (hanswer : answer ∈ answers) :
    ∃ m r, Answer m r ∧ answer = textOf P r := by
  obtain ⟨q, r, hreply, rfl⟩ := h.of_mem hanswer
  obtain ⟨m, hm⟩ := answer_of_reply hreply
  exact ⟨m, r, hm, rfl⟩

/-- What has been asked and answered, and what has come of it, as `Exchange` sees it. A text counts
as soon as a byte of its frame is on the stream, so the last one may not be there whole. -/
structure Shows (P : Platform) (setup : Setup) (t : Talk)
    (e : Exchange.State (List UInt8) (List UInt8)) : Prop where
  asked : ∃ written, e.asked = written.filter (parses P) ∧
    Written setup.magicNumber written (t.asked setup)
  received : e.received = handedOf t.server
  answers : Written setup.magicNumber e.answers (t.answered setup)
  heard : e.heard = handedOf t.client

/-- What the session's reader has taken are the first texts the client has begun. -/
theorem Ordered.taken_asked (h : Ordered P setup fs t)
    (htexts : ∀ text ∈ texts P setup.lines, text.length < 2 ^ 32) :
    ∃ asked, (fs .caller).ledger.begun = asked.map (frame setup.magicNumber) ∧
      asked <+: texts P setup.lines ∧ Written setup.magicNumber asked (t.asked setup) ∧
      (fs .answerer).ledger.taken <+: asked := by
  obtain ⟨asked, hasked, hscript⟩ := h.client.asked
  have hup : Written setup.magicNumber asked (t.asked setup) := h.client.writer.written hasked
  exact ⟨asked, hasked, hscript, hup, h.server.reader.taken_begins
    (fun text hx => htexts text (hscript.subset hx)) ((List.take_prefix _ _).trans hup.begins)⟩

/-- What the client's reader has taken are the first answers the session has begun. -/
theorem Ordered.taken_answers (h : Ordered P setup fs t)
    (hreplies : ∀ m r, Answer m r → (textOf P r).length < 2 ^ 32) :
    ∃ answers, (fs .answerer).ledger.begun = answers.map (frame setup.magicNumber) ∧
      Answered (protocol P setup.lines) (fs .answerer).ledger.handed answers ∧
      Written setup.magicNumber answers (t.answered setup) ∧
      (fs .listener).ledger.taken <+: answers := by
  obtain ⟨answers, hanswers, hanswered⟩ := h.server.answered
  have hdown : Written setup.magicNumber answers (t.answered setup) :=
    h.server.writer.written hanswers
  have hshort : ∀ answer ∈ answers, answer.length < 2 ^ 32 := by
    intro answer hanswer
    obtain ⟨m, r, hr, rfl⟩ := text_of_answered hanswered hanswer
    exact hreplies m r hr
  exact ⟨answers, hanswers, hanswered, hdown, h.client.reader.taken_begins hshort
    ((List.take_prefix _ _).trans hdown.begins)⟩

/-- **Order in one state.** -/
theorem Ordered.shows (h : Ordered P setup fs t)
    (htexts : ∀ text ∈ texts P setup.lines, text.length < 2 ^ 32)
    (hreplies : ∀ m r, Answer m r → (textOf P r).length < 2 ^ 32) :
    ∃ e, Shows P setup t e ∧ InOrder (protocol P setup.lines) e := by
  obtain ⟨asked, -, hscript, hup, htaken⟩ := h.taken_asked htexts
  obtain ⟨answers, -, hanswered, hdown, hheard⟩ := h.taken_answers hreplies
  refine ⟨⟨asked.filter (parses P), handedOf t.server, answers, handedOf t.client⟩,
    ⟨⟨asked, rfl, hup⟩, rfl, hdown, rfl⟩, hscript.filter _, ?_, ?_, ?_⟩
  · show handedOf t.server <+: asked.filter (parses P)
    rw [h.server.reader.handed]
    exact h.server.reader.parsed.trans (htaken.filter _)
  · show Answered (protocol P setup.lines) (handedOf t.server) answers
    rw [h.server.reader.handed]
    exact hanswered
  · show handedOf t.client <+: answers.filter (parses P)
    rw [h.client.reader.handed]
    exact h.client.reader.parsed.trans (hheard.filter _)

/-- **The conversation is in order.** Whatever the threads' interleaving, the pieces the bytes
come in, the calls that fail and the moment either side is stopped: what has been asked, received,
answered and heard is a state that questions and answers, in order, get into. -/
theorem conversation_in_order (hfresh : Fresh setup t)
    (htexts : ∀ text ∈ texts P setup.lines, text.length < 2 ^ 32)
    (hreplies : ∀ m r, Answer m r → (textOf P r).length < 2 ^ 32)
    {s : (system P ids setup).State}
    (hrun : System.Steps (cutting P ids setup) (connected P ids setup t) s) :
    ∃ e, Shows P setup s.world e ∧ Exchange.Reachable (protocol P setup.lines) e := by
  obtain ⟨fs, hfs⟩ := Disciplined.run_rule (K := orderly P ids setup)
    (fun s party c hc o k _ => hc) hrun ⟨_, holds_connected hfresh⟩
  obtain ⟨e, hshows, horder⟩ := hfs.inv.shows htexts hreplies
  exact ⟨e, hshows, reachable_iff.mpr horder⟩

/-! ## A request for information -/

/-- The choice is no failure. -/
def Quietly : Choice → Bool
  | .fail _ _ => false
  | _ => true

theorem cuts_of_quietly (h : Quietly c = true) : Cuts c := by
  rintro ec n rfl
  cases h

/-- One client and one server, with their sockets connected. -/
def oneSetup : Setup := ⟨7, true, 0, ⟨0, 1⟩, 0, [ascii "information"], false⟩

def bothOpen : Talk := ⟨SessionPool.connectedWorld, SessionPool.connectedWorld, 0, 0⟩

/-- The client asks, and its frame comes in two pieces; the reply is written in two pieces and
comes in one. -/
def oneExchange : List (Party × Choice) :=
  [(.caller, .go), (.caller, .ok 46), (.uplink, .go),
    (.uplink, .delivered 0 ((frame 7 question).take 3)), (.uplink, .go),
    (.uplink, .delivered 0 ((frame 7 question).drop 3)),
    (.answerer, .go), (.answerer, .go), (.answerer, .go), (.answerer, .go), (.answerer, .ok 0),
    (.answerer, .ok 0), (.answerer, .go), (.answerer, .int 6), (.answerer, .ok 5), (.answerer, .ok 56),
    (.downlink, .go), (.downlink, .delivered 0 (frame 7 (answer 6))),
    (.listener, .go), (.listener, .go), (.listener, .go), (.listener, .go), (.listener, .ok 0),
    (.listener, .ok 0), (.listener, .go)]

/-- A request for information is received, answered and its answer heard. -/
theorem information_in_order : ∃ (s : (system jsonPlatform (fun _ => 0) oneSetup).State)
    (e : Exchange.State (List UInt8) (List UInt8)),
    handedOf s.world.server = [question] ∧ handedOf s.world.client = [answer 6] ∧
      Shows jsonPlatform oneSetup s.world e ∧
      Exchange.Reachable (protocol jsonPlatform oneSetup.lines) e := by
  let start := connected jsonPlatform (fun _ => 0) oneSetup bothOpen
  have hheard : (System.exec start oneExchange).map
      (fun s => (handedOf s.world.server, handedOf s.world.client))
      = some ([question], [answer 6]) := by decide +kernel
  obtain ⟨s, hexec, hs⟩ := Option.map_eq_some_iff.mp hheard
  obtain ⟨hserver, hclient⟩ := Prod.mk.inj hs
  have hquiet : ∀ step ∈ oneExchange, Quietly step.2 = true := by decide +kernel
  have hrun : System.Steps (cutting jsonPlatform (fun _ => 0) oneSetup) start s :=
    System.steps_of_exec hexec (fun _ step hstep => cuts_of_quietly (hquiet step hstep))
  obtain ⟨e, hshows, hreachable⟩ := conversation_in_order
    ⟨rfl, rfl, rfl, rfl, rfl, rfl, rfl, rfl⟩ (by decide +kernel)
    (fun m r hr => (repliesDecode_jsonPlatform m r hr).1) hrun
  exact ⟨s, e, hserver, hclient, hshows, hreachable⟩

end NetworkApplication.Conversation
