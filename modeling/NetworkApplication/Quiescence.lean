/-
A conversation that is over.

Order alone is kept by two programs that do nothing. Here no call into a socket fails, neither
side is stopped, and every text parses to something a session can go on from. Then no thread ends
the connection and no reader's loop is left, so when none of the threads can move any more there
is nothing left to do: everything has been asked, received, answered and heard
(`conversation_completes`). A reader that waits at that point waits at the head of a frame, behind
the last one, because the stream of its peer is a sequence of whole frames.
-/
import NetworkApplication.ConversationRuns

set_option autoImplicit false

namespace NetworkApplication.Conversation

open NetworkApplication.Program NetworkApplication.Pool NetworkApplication.Disciplines
open SyncRead Delivery BadPayload RequestResponseHandler Replies Echo StreamRoles StreamEnds Exchange

variable {P : Platform} {ids : Nat → UInt64} {setup : Setup} {a : Nat} {magicNumber : UInt32}
  {role : Role} {f : Knows} {o : Op} {r : o.Res} {c : Choice} {w w' : World} {stream : List UInt8}
  {payloads : List (List UInt8)}

/-! ## A reader in front of whole frames -/

/-- Behind the frames taken, the stream goes on with the frames of the payloads that are left. -/
theorem framed_of_taken (magicNumber : UInt32) {taken payloads : List (List UInt8)}
    (h : taken <+: payloads) : ∃ more, payloads = taken ++ more ∧
      framed magicNumber payloads = framed magicNumber taken ++ framed magicNumber more := by
  obtain ⟨more, rfl⟩ := h
  exact ⟨more, rfl, PrefixCode.encode_append taken more⟩

/-- A header that a reader meets is a right one. -/
theorem Reads.magic_of_header (h : Reads P magicNumber a f stream w)
    (hshort : ∀ payload ∈ payloads, payload.length < 2 ^ 32) (hstream : stream <+: framed magicNumber payloads)
    (hposition : f.position = .head) {bytes rest : List UInt8} (hrx : (w.sessions a).rx = bytes ++ rest)
    (hbytes : bytes.length = 8) : magicOf bytes = magicNumber := by
  obtain ⟨more, -, hframed⟩ := framed_of_taken magicNumber (h.taken_begins hshort hstream)
  obtain ⟨consumed, rfl, hbehind⟩ := h.reads
  rw [hposition] at hbehind
  obtain rfl : consumed = framed magicNumber f.ledger.taken := hbehind
  rw [hframed, hrx, List.prefix_append_right_inj] at hstream
  obtain ⟨tail, htail⟩ := hstream
  cases more with
  | nil =>
    have hnil := congrArg List.length htail
    simp only [List.length_append, hbytes, framed, List.map_nil, List.flatten_nil, List.length_nil] at hnil
    omega
  | cons payload more =>
    have htake := congrArg (List.take 4) htail
    rw [List.append_assoc, List.take_append_of_le_length (by omega)] at htake
    rw [magicOf, htake]
    show uint32_of_bytes ((frame magicNumber payload ++ framed magicNumber more).take 4) = magicNumber
    rw [frame, List.append_assoc, List.append_assoc, take_append_four _ _ rfl, uint32_of_bytes32]

/-- **A reader that waits has taken everything.** -/
theorem Reads.all_taken (h : Reads P magicNumber a f (framed magicNumber payloads) w)
    (hshort : ∀ payload ∈ payloads, payload.length < 2 ^ 32) {n : Nat}
    (hposition : f.position = .head ∧ n = 8 ∨ f.position = .header n)
    (hwaits : (w.sessions a).rx.length < n) : f.ledger.taken = payloads := by
  obtain ⟨more, hmore, hframed⟩ := framed_of_taken magicNumber
    (h.taken_begins hshort List.prefix_rfl)
  obtain ⟨consumed, hstream, hbehind⟩ := h.reads
  rw [hframed] at hstream
  rcases hposition with ⟨hposition, rfl⟩ | hposition
  · rw [hposition] at hbehind
    obtain rfl : consumed = framed magicNumber f.ledger.taken := hbehind
    rw [List.append_cancel_left_eq] at hstream
    cases more with
    | nil => rw [hmore, List.append_nil]
    | cons payload more =>
      have hlength := congrArg List.length hstream
      rw [show framed magicNumber (payload :: more) = frame magicNumber payload ++ framed magicNumber more
        from rfl, List.length_append, length_frame] at hlength
      omega
  · rw [hposition] at hbehind
    obtain ⟨json_len, rfl, rfl⟩ := hbehind
    rw [List.append_assoc, List.append_cancel_left_eq] at hstream
    cases more with
    | nil =>
      have hlength := congrArg List.length hstream
      simp only [List.length_append, length_bytes32, framed, List.map_nil, List.flatten_nil,
        List.length_nil] at hlength
      omega
    | cons payload more =>
      -- what is announced is the length of the next payload, and that is there
      have hpayload : payload.length < 2 ^ 32 := hshort payload (by rw [hmore]; simp)
      have hframe : bytes32 magicNumber ++ (bytes32 (UInt32.ofNat payload.length) ++
          (payload ++ framed magicNumber more))
          = bytes32 magicNumber ++ (bytes32 json_len ++ (w.sessions a).rx) := by
        simpa only [framed, frame, List.map_cons, List.flatten_cons, List.append_assoc] using hstream
      rw [List.append_cancel_left_eq] at hframe
      obtain ⟨hlen, hrx⟩ := List.append_inj hframe rfl
      have hjson := congrArg uint32_of_bytes hlen
      rw [uint32_of_bytes32, uint32_of_bytes32] at hjson
      have hannounced : json_len.toNat = payload.length := by
        rw [← hjson, UInt32.toNat_ofNat']
        omega
      rw [← hrx, List.length_append] at hwaits
      omega

/-! ## An end that is up -/

/-- The program runs, and the socket is open and has no error. -/
structure Up (a : Nat) (w : World) : Prop where
  isWork : w.isWork = true
  isOpen : w.isOpen a = true
  hasError : w.hasError a = false

/-- The thread has met with no trouble. -/
structure Untroubled (f : Knows) : Prop where
  broken : f.broken = false
  position : f.position ≠ .lost
  closed : f.closed = false
  ended : f.ended = false

theorem Up.modify {g : SessionObject → SessionObject} (h : Up a w)
    (hopen : ∀ s, (g s).isOpen = s.isOpen) (herror : ∀ s, (g s).criticalError = s.criticalError) :
    Up a (w.modify a g) where
  isWork := h.isWork
  isOpen := by
    rw [World.isOpen, World.modify_sessions_self, hopen]
    exact h.isOpen
  hasError := by
    rw [World.hasError, World.modify_sessions_self, herror]
    exact h.hasError

theorem Up.grow (h : Up a w) (bytes : List UInt8) :
    Up a (w.modify a (fun s => { s with rx := s.rx ++ bytes })) :=
  h.modify (fun _ => rfl) (fun _ => rfl)

/-- Who has met with no trouble may not end the connection, if its role does not say so. -/
theorem Untroubled.not_mayEnd (hf : Untroubled f) (hend : ¬ role.mayEnd f.ledger) :
    ¬ MayEnd role f := by
  rintro (hbroken | hlost | h)
  · exact Bool.false_ne_true (hf.broken.symm.trans hbroken)
  · exact hf.position hlost
  · exact hend h

/-- The operation is a call on the stream of the session at `a`. -/
def OnStream (a : Nat) : Op → Prop
  | .read b _ | .write_some b _ _ => b = a
  | _ => False

/-- It does not fail there. -/
def Spares (a : Nat) (o : Op) (c : Choice) : Prop := OnStream a o → Quietly c = true

/-- **Nothing but a failure gets a thread into trouble**, as long as the headers it meets are
right ones. -/
theorem Untroubled.next (hf : Untroubled f) (hup : Up a w) (ho : Allowed a role f o)
    (hend : ¬ role.mayEnd f.ledger) (hc : Spares a o c)
    (hmagic : role.mayRead f.ledger → ∀ bytes rest, (w.sessions a).rx = bytes ++ rest →
      bytes.length = 8 → f.position = .head → magicOf bytes = magicNumber)
    (hsem : sem ids o c w = some (r, w')) : Untroubled (f.next magicNumber o r) ∧ Up a w' := by
  cases o with
  | read b n =>
    obtain ⟨rfl, hmay, hposition⟩ := ho
    have hread : readSem b n c w = some (r, w') := hsem
    cases c with
    | ok m =>
      simp only [readSem, Option.ite_none_right_eq_some, Option.some.injEq, Prod.mk.injEq] at hread
      obtain ⟨hn, rfl, rfl⟩ := hread
      refine ⟨?_, hup.modify (fun _ => rfl) (fun _ => rfl)⟩
      rcases hposition with ⟨hhead, rfl⟩ | hheader
      · have hbytes : ((w.sessions b).rx.take 8).length = 8 := by
          rw [List.length_take]
          omega
        have hright := hmagic hmay _ _ (List.take_append_drop 8 _).symm hbytes hhead
        simp only [Knows.next, hhead, if_pos hright]
        exact ⟨hf.broken, fun h => Position.noConfusion h, hf.closed, hf.ended⟩
      · simp only [Knows.next, hheader]
        exact ⟨hf.broken, fun h => Position.noConfusion h, hf.closed, hf.ended⟩
    | fail ec m => cases hc rfl
    | _ => cases hread
  | write_some b sent rest =>
    obtain rfl : b = a := ho.1
    have hwrite : writeSem b rest c w = some (r, w') := hsem
    cases c with
    | ok m =>
      simp only [writeSem, Option.ite_none_right_eq_some, Option.some.injEq, Prod.mk.injEq] at hwrite
      obtain ⟨-, rfl, rfl⟩ := hwrite
      exact ⟨⟨hf.broken, hf.position, hf.closed, hf.ended⟩, hup.modify (fun _ => rfl) (fun _ => rfl)⟩
    | fail ec m => cases hc rfl
    | _ => cases hwrite
  | isOpen b =>
    obtain rfl : b = a := ho
    obtain ⟨rfl, rfl⟩ := Prod.mk.inj (Option.some.inj hsem)
    rw [hup.isOpen]
    exact ⟨hf, hup⟩
  | getCriticalError b =>
    obtain rfl : b = a := ho
    obtain ⟨rfl, rfl⟩ := Prod.mk.inj (Option.some.inj hsem)
    rw [hup.hasError]
    exact ⟨hf, hup⟩
  | getIsWork =>
    obtain ⟨rfl, rfl⟩ := Prod.mk.inj (Option.some.inj hsem)
    rw [hup.isWork]
    exact ⟨hf, hup⟩
  | shutdown b | close b | setCriticalError b => exact absurd ho.2 (hf.not_mayEnd hend)
  | mapErase id => exact absurd ho.1 (hf.not_mayEnd hend)
  | setIsWork b => exact absurd ho (hf.not_mayEnd hend)
  | flushMainWorker => exact absurd ho (hf.not_mayEnd hend)
  | event e =>
    obtain rfl : w' = { w with events := w.events ++ [e] } := effect_of_sem hsem
    cases e with
    | onReadHandler id data size =>
      exact ⟨⟨hf.broken, hf.position, hf.closed, hf.ended⟩, ⟨hup.isWork, hup.isOpen, hup.hasError⟩⟩
    | _ => exact ho.elim
  | mainTaskDone =>
    obtain rfl : w' = { w with mainTasks := w.mainTasks - 1 } := effect_of_sem hsem
    exact ⟨hf, ⟨hup.isWork, hup.isOpen, hup.hasError⟩⟩
  | sessionTaskDone n =>
    obtain rfl : w' = { w with finished := Function.update w.finished n true } := effect_of_sem hsem
    exact ⟨hf, ⟨hup.isWork, hup.isOpen, hup.hasError⟩⟩
  | mapGet id | uniform_int lo hi | uniform_real =>
    obtain rfl : w' = w := effect_of_sem hsem
    exact ⟨hf, hup⟩
  | _ => exact ho.elim

/-- An operation of an end that is up goes through, unless it is a read that waits for bytes. -/
theorem enabled (ids : Nat → UInt64) (hf : Untroubled f) (hup : Up a w) (ho : Allowed a role f o)
    (hend : ¬ role.mayEnd f.ledger) : (∃ c r w', Quietly c = true ∧ sem ids o c w = some (r, w')) ∨
      ∃ n, o = .read a n ∧ (w.sessions a).rx.length < n := by
  cases o with
  | read b n =>
    obtain ⟨rfl, -, -⟩ := ho
    by_cases hwaits : (w.sessions b).rx.length < n
    · exact .inr ⟨n, rfl, hwaits⟩
    · refine .inl ⟨.ok 0, .ok ((w.sessions b).rx.take n), _, rfl, if_pos (.inr ⟨hup.isOpen, ?_⟩)⟩
      omega
  | write_some b sent rest =>
    obtain ⟨rfl, -, hne, -⟩ := ho
    have hlength := List.length_pos_iff.mpr hne
    exact .inl ⟨.ok 1, .ok 1, _, rfl,
      if_pos ⟨hup.isOpen, Nat.one_pos, hlength, (by decide : 1 ≤ 65536)⟩⟩
  | shutdown b | close b | setCriticalError b => exact absurd ho.2 (hf.not_mayEnd hend)
  | mapErase id => exact absurd ho.1 (hf.not_mayEnd hend)
  | setIsWork b => exact absurd ho (hf.not_mayEnd hend)
  | flushMainWorker => exact absurd ho (hf.not_mayEnd hend)
  | uniform_int lo hi => exact .inl ⟨.int lo, lo, w, rfl, if_pos ⟨Int32.le_refl lo, ho⟩⟩
  | uniform_real => exact .inl ⟨.bits 0, 0, w, rfl, rfl⟩
  | isOpen b | getCriticalError b | getIsWork | event e | mapGet id | mainTaskDone
  | sessionTaskDone n => exact .inl ⟨.go, _, _, rfl, rfl⟩
  | _ => exact ho.elim

/-! ## Both ends -/

variable {fs fs' : Party → Knows} {t t' : Talk} {party : Party}

/-- The text is one that a session can go on from. -/
structure Handled (P : Platform) (text : List UInt8) : Prop where
  short : text.length < 2 ^ 32
  kept : ¬ Refused P text
  decodes : ¬ Throws P text

/-- Both ends are up, and no thread has met with trouble. -/
structure Smooth (setup : Setup) (fs : Party → Knows) (t : Talk) : Prop where
  client : Up setup.socket t.client
  server : Up setup.ptr.addr t.server
  caller : Untroubled (fs .caller)
  listener : Untroubled (fs .listener)
  answerer : Untroubled (fs .answerer)

/-- What the session's reader has taken can be gone on from. -/
theorem Ordered.asked_handled (h : Ordered P setup fs t)
    (htexts : ∀ text ∈ texts P setup.lines, Handled P text) :
    ∀ payload ∈ (fs .answerer).ledger.taken, Handled P payload := by
  obtain ⟨asked, -, hscript, -, htaken⟩ := h.taken_asked (fun text hx => (htexts text hx).short)
  exact fun payload hx => htexts payload ((htaken.trans hscript).subset hx)

/-- What the client's reader has taken can be gone on from. -/
theorem Ordered.answers_handled (h : Ordered P setup fs t)
    (hreplies : ∀ m r, Answer m r → Handled P (textOf P r)) :
    ∀ payload ∈ (fs .listener).ledger.taken, Handled P payload := by
  obtain ⟨answers, -, hanswered, -, htaken⟩ := h.taken_answers (fun m r hr => (hreplies m r hr).short)
  intro payload hx
  obtain ⟨m, r, hr, rfl⟩ := text_of_answered hanswered (htaken.subset hx)
  exact hreplies m r hr

/-- Payloads that can be gone on from are no reason to end the connection. -/
theorem not_refused {taken : List (List UInt8)} (h : ∀ payload ∈ taken, Handled P payload) :
    ¬ ∃ payload ∈ taken, Refused P payload := by
  rintro ⟨payload, hx, hrefused⟩
  exact (h payload hx).kept hrefused

theorem Smooth.step (h : Smooth setup fs t) (hordered : Ordered P setup fs t)
    (hstops : setup.stops = false)
    (htexts : ∀ text ∈ texts P setup.lines, Handled P text)
    (hreplies : ∀ m r, Answer m r → Handled P (textOf P r))
    (ho : (disciplineOf P setup party).Allowed (fs party) o) (hc : Quietly c = true)
    (hsem : talkSem ids setup party o c t = some (r, t')) :
    Smooth setup (Function.update fs party ((disciplineOf P setup party).next (fs party) o r)) t' := by
  have hnostop : ¬ setup.stops = true := fun htrue => Bool.false_ne_true (hstops.symm.trans htrue)
  cases party with
  | caller =>
    obtain ⟨w', hact, rfl⟩ := client_act hsem
    obtain ⟨hf, hup⟩ := Untroubled.next h.caller h.client ho hnostop (fun _ => hc) (fun hno => hno.elim) hact
    exact ⟨hup, h.server, hf, h.listener, h.answerer⟩
  | listener =>
    obtain ⟨w', hact, rfl⟩ := client_act hsem
    obtain ⟨answers, -, hanswered, hdown, -⟩ :=
      hordered.taken_answers (fun m r hr => (hreplies m r hr).short)
    have hshort : ∀ answer ∈ answers, answer.length < 2 ^ 32 := by
      intro answer hanswer
      obtain ⟨m, r, hr, rfl⟩ := text_of_answered hanswered hanswer
      exact (hreplies m r hr).short
    obtain ⟨hf, hup⟩ := Untroubled.next h.listener h.client ho
      (not_refused (hordered.answers_handled hreplies)) (fun _ => hc) (fun _ bytes rest hrx hbytes hhead =>
        Reads.magic_of_header hordered.client.reader.toReads hshort ((List.take_prefix _ _).trans hdown.begins)
          hhead hrx hbytes) hact
    exact ⟨hup, h.server, h.caller, hf, h.answerer⟩
  | answerer =>
    obtain ⟨w', hact, rfl⟩ := server_act hsem
    obtain ⟨asked, -, hscript, hup, -⟩ := hordered.taken_asked (fun text hx => (htexts text hx).short)
    obtain ⟨hf, hserver⟩ := Untroubled.next h.answerer h.server ho
      (not_refused (hordered.asked_handled htexts)) (fun _ => hc) (fun _ bytes rest hrx hbytes hhead =>
        Reads.magic_of_header hordered.server.reader.toReads
          (fun text hx => (htexts text (hscript.subset hx)).short)
          ((List.take_prefix _ _).trans hup.begins) hhead hrx hbytes) hact
    exact ⟨h.client, hserver, h.caller, h.listener, hf⟩
  | clientControl | serverControl => exact absurd ho.1 hnostop
  | uplink =>
    obtain rfl : o = .network := ho
    obtain ⟨⟨n, w'⟩, hcarry, heq⟩ := Option.map_eq_some_iff.mp hsem
    obtain ⟨-, rfl⟩ := Prod.mk.inj heq
    obtain ⟨bytes, -, -, rfl⟩ := carry_eq_some hcarry
    exact ⟨h.client, h.server.grow bytes, h.caller, h.listener, h.answerer⟩
  | downlink =>
    obtain rfl : o = .network := ho
    obtain ⟨⟨n, w'⟩, hcarry, heq⟩ := Option.map_eq_some_iff.mp hsem
    obtain ⟨-, rfl⟩ := Prod.mk.inj heq
    obtain ⟨bytes, -, -, rfl⟩ := carry_eq_some hcarry
    exact ⟨h.client.grow bytes, h.server, h.caller, h.listener, h.answerer⟩

/-- The threads keep to the disciplines, and meet with no trouble. -/
def smoothly (ids : Nat → UInt64) (hstops : setup.stops = false)
    (htexts : ∀ text ∈ texts P setup.lines, Handled P text)
    (hreplies : ∀ m r, Answer m r → Handled P (textOf P r)) : Disciplined (system P ids setup) Knows :=
  (orderly P ids setup).strengthen (fun _ _ c _ => Quietly c = true) (Smooth setup)
    (fun _ _ _ _ _ _ _ hordered _ h ho _ hc hsem => h.step hordered hstops htexts hreplies ho hc hsem)

/-! ## When no thread can move -/

/-- No thread can move, unless a call fails. -/
def Quiescent (P : Platform) (ids : Nat → UInt64) (setup : Setup) (s : (system P ids setup).State) :
    Prop :=
  ∀ party c, Quietly c = true → System.step s party c = none

/-- A thread that cannot move is done, or waits in an operation. -/
theorem waits_of_quiescent {s : (system P ids setup).State} (h : (orderly P ids setup).Holds s fs)
    (hquiet : Quiescent P ids setup s) (party : Party) : Done P setup party (fs party) ∨
      ∃ o, (disciplineOf P setup party).Allowed (fs party) o ∧
        ∀ c, Quietly c = true → talkSem ids setup party o c s.world = none := by
  refine h.waits (fun c => Quietly c = true) (c := .go) rfl ?_ (hquiet party)
  cases party <;> exact not_false

/-- A thread that waits in an operation of an end that is up, waits for bytes. -/
theorem reads_of_waiting (hf : Untroubled f) (hup : Up a w) (ho : Allowed a role f o)
    (hend : ¬ role.mayEnd f.ledger) (hnone : ∀ c, Quietly c = true → sem ids o c w = none) :
    ∃ n, Allowed a role f (.read a n) ∧ (w.sessions a).rx.length < n := by
  rcases enabled ids hf hup ho hend with ⟨c, r, w', hc, hsem⟩ | ⟨n, rfl, hwaits⟩
  · rw [hnone c hc] at hsem
    cases hsem
  · exact ⟨n, ho, hwaits⟩

/-- A reader that cannot move has taken everything, and may take more. -/
theorem reader_at_end (ids : Nat → UInt64) (hf : Untroubled f) (hup : Up a w)
    (hreader : Reads P magicNumber a f (framed magicNumber payloads) w)
    (hshort : ∀ payload ∈ payloads, payload.length < 2 ^ 32)
    (hhandled : ∀ payload ∈ f.ledger.taken, Handled P payload) (hend : ¬ role.mayEnd f.ledger)
    (hwaits : (f.ended = true ∨ ∃ payload ∈ f.ledger.taken, Throws P payload) ∨
      ∃ o, Allowed a role f o ∧ ∀ c, Quietly c = true → sem ids o c w = none) :
    f.ledger.taken = payloads ∧ role.mayRead f.ledger := by
  rcases hwaits with (hended | ⟨payload, hx, hthrows⟩) | ⟨o, ho, hnone⟩
  · exact absurd (hf.ended.symm.trans hended) Bool.false_ne_true
  · exact absurd hthrows (hhandled payload hx).decodes
  · obtain ⟨n, ⟨-, hmay, hposition⟩, hless⟩ := reads_of_waiting hf hup ho hend hnone
    exact ⟨Reads.all_taken hreader hshort hposition hless, hmay⟩

/-- The network has brought everything that was sent. -/
theorem brought_of_quiescent {sent : List UInt8} {brought : Nat} (hup : Up a w)
    (hquiet : ∀ c, Quietly c = true → carry sent brought a c w = none) : sent.take brought = sent := by
  rw [List.take_eq_self_iff]
  by_contra hlt
  cases hleft : sent.drop brought with
  | nil =>
    have hlength := congrArg List.length hleft
    rw [List.length_drop, List.length_nil] at hlength
    omega
  | cons byte left =>
    have hcarry := hquiet (.delivered a [byte]) rfl
    have hbegins : [byte] ≠ [] ∧ [byte] <+: sent.drop brought := ⟨nofun, by rw [hleft]; simp⟩
    simp only [carry, if_pos hbegins, networkSem, if_pos hup.isOpen, Option.map_some] at hcarry
    cases hcarry

/-- **Nothing is left to do in a state in which no thread can move.** -/
theorem Ordered.complete {s : (system P ids setup).State} (h : (orderly P ids setup).Holds s fs)
    (hsmooth : Smooth setup fs s.world) (hstops : setup.stops = false)
    (htexts : ∀ text ∈ texts P setup.lines, Handled P text)
    (hreplies : ∀ m r, Answer m r → Handled P (textOf P r)) (hquiet : Quiescent P ids setup s) :
    ∃ e, Shows P setup s.world e ∧ Complete (protocol P setup.lines) e := by
  have hordered : Ordered P setup fs s.world := h.inv
  have hwaits := waits_of_quiescent h hquiet
  -- the network
  have hup : (s.world.asked setup).take s.world.up = s.world.asked setup := by
    rcases hwaits .uplink with hdone | ⟨o, ho, hnone⟩
    · exact hdone.elim
    · obtain rfl : o = .network := ho
      exact brought_of_quiescent hsmooth.server
        (fun c hc => Option.map_eq_none_iff.mp (hnone c hc))
  have hdown : (s.world.answered setup).take s.world.down = s.world.answered setup := by
    rcases hwaits .downlink with hdone | ⟨o, ho, hnone⟩
    · exact hdone.elim
    · obtain rfl : o = .network := ho
      exact brought_of_quiescent hsmooth.client
        (fun c hc => Option.map_eq_none_iff.mp (hnone c hc))
  -- the client's main thread has written all lines
  have hcaller : (fs .caller).ledger.begun
      = (texts P setup.lines).map (frame setup.magicNumber) ∧
        (fs .caller).ledger.rest = [] := by
    rcases hwaits .caller with hdone | ⟨o, ho, hnone⟩
    · rcases hdone with htrue | hclosed | hended | hall
      · exact absurd (hstops.symm.trans htrue) Bool.false_ne_true
      · exact absurd (hsmooth.caller.closed.symm.trans hclosed) Bool.false_ne_true
      · exact absurd (hsmooth.caller.ended.symm.trans hended) Bool.false_ne_true
      · exact hall
    · obtain ⟨n, hread, -⟩ := reads_of_waiting hsmooth.caller hsmooth.client ho
        (fun htrue => Bool.false_ne_true (hstops.symm.trans htrue))
        (fun c hc => Option.map_eq_none_iff.mp (hnone c hc))
      exact hread.2.1.elim
  have hasked : s.world.asked setup = framed setup.magicNumber (texts P setup.lines) := by
    have hstream := hordered.client.writer.stream
    rw [hcaller.1, hcaller.2, List.append_nil] at hstream
    exact hstream
  -- the session's reader waits behind the last of them
  have hserver : Reader P setup.magicNumber setup.ptr.addr (fs .answerer)
      (framed setup.magicNumber (texts P setup.lines)) s.world.server := by
    rw [← hasked, ← hup]
    exact hordered.server.reader
  have hanswerer : (fs .answerer).ledger.taken = texts P setup.lines ∧
      (answererRole P setup).mayRead (fs .answerer).ledger :=
    reader_at_end ids hsmooth.answerer hsmooth.server hserver.toReads (fun text hx => (htexts text hx).short)
      (hordered.asked_handled htexts) (not_refused (hordered.asked_handled htexts))
      ((hwaits .answerer).imp id (fun ⟨o, ho, hnone⟩ =>
        ⟨o, ho, fun c hc => Option.map_eq_none_iff.mp (hnone c hc)⟩))
  obtain ⟨htaken, hhanded, hrest, answers, hbegun, hserved⟩ := hanswerer
  have hanswered : s.world.answered setup = framed setup.magicNumber answers := by
    have hstream := hordered.server.writer.stream
    rw [hrest, List.append_nil, hbegun] at hstream
    exact hstream
  -- and so does the client's
  have hclient : Reader P setup.magicNumber setup.socket (fs .listener)
      (framed setup.magicNumber answers) s.world.client := by
    rw [← hanswered, ← hdown]
    exact hordered.client.reader
  have hshort : ∀ answer ∈ answers, answer.length < 2 ^ 32 := by
    intro answer hanswer
    obtain ⟨m, r, hr, rfl⟩ := text_of_answered (.inl hserved) hanswer
    exact (hreplies m r hr).short
  have hlistener : (fs .listener).ledger.taken = answers ∧
      (listenerRole P).mayRead (fs .listener).ledger :=
    reader_at_end ids hsmooth.listener hsmooth.client hclient.toReads hshort (hordered.answers_handled hreplies)
      (not_refused (hordered.answers_handled hreplies))
      ((hwaits .listener).imp id (fun ⟨o, ho, hnone⟩ =>
        ⟨o, ho, fun c hc => Option.map_eq_none_iff.mp (hnone c hc)⟩))
  obtain ⟨hheard, hall⟩ := hlistener
  have hreceived : handedOf s.world.server = (texts P setup.lines).filter (parses P) := by
    rw [hordered.server.reader.handed, hhanded, htaken]
  refine ⟨⟨(texts P setup.lines).filter (parses P), handedOf s.world.server, answers,
    handedOf s.world.client⟩, ⟨⟨_, rfl, ?_⟩, rfl, ?_, rfl⟩, rfl, hreceived, ?_, ?_⟩
  · rw [hasked]
    exact written_framed _ _
  · rw [hanswered]
    exact written_framed _ _
  · show Served _ (handedOf s.world.server) answers
    rw [hordered.server.reader.handed]
    exact hserved
  · show handedOf s.world.client = answers.filter (parses P)
    rw [hordered.client.reader.handed, ← hheard]
    exact hall

/-- No call into a socket fails. -/
def succeeding (_ : (system P ids setup).State) (_ : Party) (c : Choice) : Prop := Quietly c = true

/-- **The conversation completes.** Where no call fails and nobody stops, and every text is one
that a session can go on from, a state in which no thread can move is one in which everything has
been asked, received, answered and heard. -/
theorem conversation_completes {t : Talk} (hfresh : Fresh setup t) (hclient : Up setup.socket t.client)
    (hserver : Up setup.ptr.addr t.server) (hstops : setup.stops = false)
    (htexts : ∀ text ∈ texts P setup.lines, Handled P text)
    (hreplies : ∀ m r, Answer m r → Handled P (textOf P r)) {s : (system P ids setup).State}
    (hrun : System.Steps succeeding (connected P ids setup t) s) (hquiet : Quiescent P ids setup s) :
    ∃ e, Shows P setup s.world e ∧ Complete (protocol P setup.lines) e := by
  have huntroubled : Untroubled .nothing := ⟨rfl, nofun, rfl, rfl⟩
  have hstart : (smoothly ids hstops htexts hreplies).Holds (connected P ids setup t)
      (fun _ => .nothing) :=
    ⟨⟨(holds_connected hfresh).inv, hclient, hserver, huntroubled, huntroubled, huntroubled⟩,
      (holds_connected hfresh).keeps⟩
  obtain ⟨fs, hfs⟩ := Disciplined.run_rule (K := smoothly ids hstops htexts hreplies)
    (fun s party c hc o k _ => ⟨cuts_of_quietly hc, hc⟩) hrun ⟨_, hstart⟩
  exact Ordered.complete ⟨hfs.inv.1, hfs.keeps⟩ hfs.inv.2 hstops htexts hreplies hquiet

/-! ## A request for information -/

/-- What decodes, or is no JSON, can be gone on from. -/
theorem handled_of_taken {payload : List UInt8} (h : Taken P payload) : Handled P payload where
  short := h.1
  kept := by
    intro hrefused
    rcases h.2 with ⟨type, transaction, hdecodes⟩ | hnojson
    · rw [Refused, check_error_of_not_failed hdecodes.1] at hrefused
      cases hrefused
    · rw [Refused, hnojson] at hrefused
      cases hrefused
  decodes := by
    rintro ⟨hparses, e, hthrows⟩
    rcases h.2 with ⟨type, transaction, hdecodes⟩ | hnojson
    · rw [decode_of_decodes hdecodes] at hthrows
      cases hthrows
    · rw [hnojson] at hparses
      cases hparses

/-- The read that a thread is about to perform. -/
def nextRead : NetProg (Option TalkLabel) → Option (Nat × Nat)
  | .op (.read a n) _ => some (a, n)
  | _ => none

/-- The thread is done. -/
def isDone : NetProg (Option TalkLabel) → Bool
  | .pure none => true
  | _ => false

/-- The thread is about to bring bytes. -/
def brings : NetProg (Option TalkLabel) → Bool
  | .op .network _ => true
  | _ => false

/-- No thread of this state can move: the programs are done or read from an empty stream, and the
network has brought everything. -/
def isOver (s : (system P ids setup).State) : Bool :=
  isDone (s.threads .caller) && isDone (s.threads .clientControl) &&
  isDone (s.threads .serverControl) && brings (s.threads .uplink) && brings (s.threads .downlink) &&
  (nextRead (s.threads .listener) == some (setup.socket, 8)) &&
  (nextRead (s.threads .answerer) == some (setup.ptr.addr, 8)) &&
  ((s.world.client.sessions setup.socket).rx == []) &&
  ((s.world.server.sessions setup.ptr.addr).rx == []) &&
  (s.world.up == (s.world.asked setup).length) && (s.world.down == (s.world.answered setup).length)

theorem step_of_isDone {s : (system P ids setup).State} {party : Party} (c : Choice)
    (h : isDone (s.threads party) = true) : System.step s party c = none := by
  unfold isDone at h
  split at h
  · next hp => simp only [System.step, hp]
  · cases h

/-- A read of a stream that is empty waits. -/
theorem sem_read_none (hc : Quietly c = true) (hrx : (w.sessions a).rx = []) :
    sem ids (.read a 8) c w = none := by
  cases c with
  | ok n =>
    refine if_neg ?_
    rw [hrx]
    rintro (h | ⟨-, h⟩)
    · cases h
    · cases h
  | fail ec n => cases hc
  | _ => rfl

/-- A network that has brought everything waits. -/
theorem carry_none {sent : List UInt8} {brought : Nat} (hc : Quietly c = true)
    (h : brought = sent.length) : carry sent brought a c w = none := by
  cases c with
  | delivered b bytes =>
    refine if_neg ?_
    rintro ⟨hne, hbytes⟩
    rw [h, List.drop_length, List.prefix_nil] at hbytes
    exact hne hbytes
  | _ => rfl

theorem step_none_of_sem {s : (system P ids setup).State} {party : Party} {o : Op}
    {k : o.Res → NetProg (Option TalkLabel)} (hp : s.threads party = .op o k)
    (h : talkSem ids setup party o c s.world = none) : System.step s party c = none := by
  simp only [System.step, hp, h]

theorem quiescent_of_isOver {s : (system P ids setup).State} (h : isOver s = true) :
    Quiescent P ids setup s := by
  simp only [isOver, Bool.and_eq_true, beq_iff_eq] at h
  obtain ⟨⟨⟨⟨⟨⟨⟨⟨⟨⟨hcaller, hclient⟩, hserver⟩, huplink⟩, hdownlink⟩, hlistener⟩, hanswerer⟩, hcrx⟩,
    hsrx⟩, hup⟩, hdown⟩ := h
  have hread : ∀ {p : NetProg (Option TalkLabel)} {a n : Nat}, nextRead p = some (a, n) →
      ∃ k, p = .op (.read a n) k := by
    intro p a n hp
    unfold nextRead at hp
    split at hp
    · next a' n' k =>
      obtain ⟨rfl, rfl⟩ := Prod.mk.inj (Option.some.inj hp)
      exact ⟨k, rfl⟩
    · cases hp
  have hbring : ∀ {p : NetProg (Option TalkLabel)}, brings p = true → ∃ k, p = .op .network k := by
    intro p hp
    unfold brings at hp
    split at hp
    · next k => exact ⟨k, rfl⟩
    · cases hp
  intro party c hc
  cases party with
  | caller => exact step_of_isDone c hcaller
  | clientControl => exact step_of_isDone c hclient
  | serverControl => exact step_of_isDone c hserver
  | listener =>
    obtain ⟨k, hp⟩ := hread hlistener
    refine step_none_of_sem hp ?_
    simp only [talkSem, sem_read_none hc hcrx, Option.map_none]
  | answerer =>
    obtain ⟨k, hp⟩ := hread hanswerer
    refine step_none_of_sem hp ?_
    simp only [talkSem, sem_read_none hc hsrx, Option.map_none]
  | uplink =>
    obtain ⟨k, hp⟩ := hbring huplink
    refine step_none_of_sem hp ?_
    simp only [talkSem, carry_none hc hup, Option.map_none]
  | downlink =>
    obtain ⟨k, hp⟩ := hbring hdownlink
    refine step_none_of_sem hp ?_
    simp only [talkSem, carry_none hc hdown, Option.map_none]

/-- The rest of the exchange: every thread comes to where it waits. -/
def oneEnding : List (Party × Choice) :=
  [(.uplink, .go), (.downlink, .go), (.answerer, .go), (.answerer, .go), (.answerer, .go),
    (.answerer, .go), (.listener, .go), (.listener, .go), (.listener, .go), (.listener, .go)]

/-- Of a request for information nothing is left to do when no thread can move. -/
theorem information_completes :
    ∃ (s : (system jsonPlatform (fun _ => 0) oneSetup).State)
      (e : Exchange.State (List UInt8) (List UInt8)),
      Quiescent jsonPlatform (fun _ => 0) oneSetup s ∧ handedOf s.world.client ≠ [] ∧
        Shows jsonPlatform oneSetup s.world e ∧
        Complete (protocol jsonPlatform oneSetup.lines) e := by
  let start := connected jsonPlatform (fun _ => 0) oneSetup bothOpen
  have hended : (System.exec start (oneExchange ++ oneEnding)).map
      (fun s => (isOver s, decide (handedOf s.world.client ≠ []))) = some (true, true) := by
    decide +kernel
  obtain ⟨s, hexec, hs⟩ := Option.map_eq_some_iff.mp hended
  obtain ⟨hisOver, hheard⟩ := Prod.mk.inj hs
  have hquietly : ∀ step ∈ oneExchange ++ oneEnding, Quietly step.2 = true := by decide
  have hrun : System.Steps succeeding start s :=
    System.steps_of_exec hexec (fun _ step hstep => hquietly step hstep)
  have hquiet := quiescent_of_isOver hisOver
  have htexts : ∀ text ∈ texts jsonPlatform oneSetup.lines, Handled jsonPlatform text := by
    intro text htext
    obtain rfl : text = question := List.mem_singleton.mp htext
    exact handled_of_taken ⟨by decide, .inl ⟨"information", 0, decodes_question⟩⟩
  have hreplies : ∀ m r, Answer m r → Handled jsonPlatform (textOf jsonPlatform r) := by
    intro m r hr
    obtain ⟨hshort, hdecodes | hnojson⟩ := repliesDecode_jsonPlatform m r hr
    · exact handled_of_taken ⟨hshort, .inl ⟨_, _, hdecodes⟩⟩
    · exact handled_of_taken ⟨hshort, .inr hnojson⟩
  obtain ⟨e, hshows, hcomplete⟩ := conversation_completes ⟨rfl, rfl, rfl, rfl, rfl, rfl, rfl, rfl⟩
    ⟨rfl, rfl, rfl⟩ ⟨rfl, rfl, rfl⟩ rfl htexts hreplies hrun hquiet
  exact ⟨s, e, hquiet, of_decide_eq_true hheard, hshows, hcomplete⟩

end NetworkApplication.Conversation
