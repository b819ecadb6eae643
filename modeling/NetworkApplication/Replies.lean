/-
What a session worker answers.

The peer's frames are in front of the session's socket and every call into the socket
succeeds. Each round of the loop in `sessionWork` takes one frame and sends what that frame
asks for: one reply to a message of the types `signal` and `information`, nothing to a raw
message and nothing to a frame that is no message of the factory. The rounds do not look
at each other's frames, so a list of frames is answered frame by frame, in its order.

All of it is total (`twp`): whatever the random draws are and however the writes are cut
into pieces, the rounds return, with the replies on the stream.
-/
import NetworkApplication.Hoare
import NetworkApplication.BadPayload
import NetworkApplication.SegmentServer

set_option autoImplicit false

namespace NetworkApplication.Replies

open NetworkApplication.Program
open SyncRead Delivery BadPayload SegmentServer RequestResponseHandler JsonText

variable {P : Platform} {ids : Nat → UInt64} {a : Nat} {rx tx rest : List UInt8} {w w' : World}

/-! ## The calls -/

/-- Every call into a socket succeeds. -/
def succeeding (ids : Nat → UInt64) : (o : Op) → Choice → World → Option (o.Res × World)
  | _, .fail _ _, _ => none
  | o, c, w => sem ids o c w

/-- The session at `a` is served: it is open and has no error, and the server runs; `rx` is
in front of it, and it has sent `tx`. -/
structure At (a : Nat) (rx tx : List UInt8) (w : World) : Prop where
  isOpen : w.isOpen a = true
  hasError : w.hasError a = false
  isWork : w.isWork = true
  rx : (w.sessions a).rx = rx
  tx : (w.sessions a).tx = tx

/-- An operation whose result the shared state decides. -/
theorem twp_call {α : Type} {o : Op} {k : o.Res → NetProg α} {post : α → World → Prop}
    (hgo : ∃ c r w₁, succeeding ids o c w = some (r, w₁))
    (h : ∀ c r w₁, succeeding ids o c w = some (r, w₁) →
      Prog.twp (succeeding ids) post (k r) w₁) :
    Prog.twp (succeeding ids) post (call o >>= k) w :=
  ⟨hgo, h⟩

/-- What succeeds is one of the things that can happen. -/
theorem sem_of_succeeding {o : Op} {c : Choice} {r : o.Res}
    (h : succeeding ids o c w = some (r, w')) :
    sem ids o c w = some (r, w') ∧ ∀ ec n, c ≠ .fail ec n := by
  unfold succeeding at h
  split at h
  · cases h
  · next hc => exact ⟨h, fun ec n hfail => hc ec n hfail⟩

/-- An operation that only asks has one answer. -/
theorem twp_ask {α : Type} {o : Op} {k : o.Res → NetProg α} {post : α → World → Prop} {r₀ : o.Res}
    (hsem : ∀ c, sem ids o c w = some (r₀, w)) (hk : Prog.twp (succeeding ids) post (k r₀) w) :
    Prog.twp (succeeding ids) post (call o >>= k) w := by
  refine twp_call ⟨.go, r₀, w, hsem .go⟩ (fun c r w₁ h => ?_)
  obtain ⟨h, -⟩ := sem_of_succeeding h
  rw [hsem c, Option.some.injEq, Prod.mk.injEq] at h
  obtain ⟨rfl, rfl⟩ := h
  exact hk

theorem At.modify {g : SessionObject → SessionObject} (h : At a rx tx w)
    (hopen : ∀ s, (g s).isOpen = s.isOpen) (herror : ∀ s, (g s).criticalError = s.criticalError) :
    At a (g (w.sessions a)).rx (g (w.sessions a)).tx (w.modify a g) where
  isOpen := by
    rw [World.isOpen, World.modify_sessions_self, hopen]
    exact h.isOpen
  hasError := by
    rw [World.hasError, World.modify_sessions_self, herror]
    exact h.hasError
  isWork := h.isWork
  rx := by rw [World.modify_sessions_self]
  tx := by rw [World.modify_sessions_self]

/-- A read gets the bytes it asks for. -/
theorem twp_read {α : Type} {bytes : List UInt8} {k : Except ErrorCode (List UInt8) → NetProg α}
    {post : α → World → Prop} {n : Nat} (hn : bytes.length = n) (h : At a (bytes ++ rest) tx w)
    (hk : ∀ w', At a rest tx w' → Prog.twp (succeeding ids) post (k (.ok bytes)) w') :
    Prog.twp (succeeding ids) post (call (.read a n) >>= k) w := by
  have hle : n ≤ (w.sessions a).rx.length := by
    rw [h.rx, List.length_append]
    omega
  have htake : (w.sessions a).rx.take n = bytes := by rw [h.rx, ← hn, List.take_left]
  have hdrop : (w.sessions a).rx.drop n = rest := by rw [h.rx, ← hn, List.drop_left]
  refine twp_call ⟨.ok 0, .ok bytes, w.modify a (fun s => { s with rx := s.rx.drop n }), ?_⟩
    (fun c r w₁ hsem => ?_)
  · simp only [succeeding, sem, readSem, h.isOpen, hle, and_self, or_true, if_true, htake]
  · obtain ⟨hsem, hc⟩ := sem_of_succeeding hsem
    cases c with
    | ok m =>
      simp only [sem, readSem, h.isOpen, hle, and_self, or_true, if_true, htake, Option.some.injEq,
        Prod.mk.injEq] at hsem
      obtain ⟨rfl, rfl⟩ := hsem
      refine hk _ ?_
      have hat := h.modify (g := fun s => { s with rx := s.rx.drop n }) (fun _ => rfl) (fun _ => rfl)
      rwa [hdrop, h.tx] at hat
    | fail ec m => exact absurd rfl (hc ec m)
    | _ => cases hsem

/-- The composed write sends everything, in pieces of any size. -/
theorem twp_asio_write (bound sent : Nat) (bytes : List UInt8) (hbound : bytes.length ≤ bound)
    (hopen : w.isOpen a = true) :
    Prog.twp (succeeding ids)
      (fun ec w' => ec = .success ∧ w' = w.modify a (fun s => { s with tx := s.tx ++ bytes }))
      (asio_write a bound sent bytes) w := by
  have hnothing : w.modify a (fun s => { s with tx := s.tx ++ [] }) = w := by
    simp only [List.append_nil, World.modify, Function.update_eq_self]
  induction bound generalizing sent bytes w with
  | zero =>
    obtain rfl : bytes = [] := List.length_eq_zero_iff.mp (by omega)
    exact ⟨rfl, hnothing.symm⟩
  | succ bound ih =>
    unfold asio_write
    by_cases hbytes : bytes = []
    · subst hbytes
      exact ⟨rfl, hnothing.symm⟩
    · rw [if_neg (by simpa using hbytes)]
      have hlength := List.length_pos_iff.mpr hbytes
      refine twp_call ⟨.ok 1, .ok 1, w.modify a (fun s => { s with tx := s.tx ++ bytes.take 1 }), ?_⟩
        (fun c r w₁ hsem => ?_)
      · have hone : (0 : Nat) < 1 ∧ 1 ≤ bytes.length ∧ 1 ≤ 65536 := ⟨by decide, hlength, by decide⟩
        simp only [succeeding, sem, writeSem, hopen, hone, and_self, if_true]
      · obtain ⟨hsem, hc⟩ := sem_of_succeeding hsem
        cases c with
        | ok n =>
          simp only [sem, writeSem, Option.ite_none_right_eq_some, Option.some.injEq,
            Prod.mk.injEq] at hsem
          obtain ⟨⟨-, hpos, hle, -⟩, rfl, rfl⟩ := hsem
          have hopen₁ : (w.modify a (fun s => { s with tx := s.tx ++ bytes.take n })).isOpen a
              = true := by
            rw [World.isOpen, World.modify_sessions_self]
            exact hopen
          have hdrop : (bytes.drop n).length ≤ bound := by
            rw [List.length_drop]
            omega
          refine Prog.twp_mono (ih (sent + n) (bytes.drop n) hdrop hopen₁ ?_) ?_
          · simp only [List.append_nil, World.modify, Function.update_eq_self]
          · rintro ec w' ⟨rfl, rfl⟩
            -- The piece and what is sent after it are the bytes.
            simp only [World.modify_modify, List.append_assoc, List.take_append_drop, and_self]
        | fail ec m => exact absurd rfl (hc ec m)
        | _ => cases hsem

/-- A draw lies between its bounds. -/
theorem twp_uniform_int {α : Type} {lo hi : Int32} {k : Int32 → NetProg α} {post : α → World → Prop}
    (hlohi : lo ≤ hi)
    (hk : ∀ n, lo ≤ n → n ≤ hi → Prog.twp (succeeding ids) post (k n) w) :
    Prog.twp (succeeding ids) post (call (.uniform_int lo hi) >>= k) w := by
  refine twp_call ⟨.int lo, lo, w, ?_⟩ (fun c r w₁ hsem => ?_)
  · simp only [succeeding, sem, hlohi, Int32.le_refl, and_self, if_true]
  · obtain ⟨hsem, -⟩ := sem_of_succeeding hsem
    cases c with
    | int n =>
      simp only [sem, Option.ite_none_right_eq_some, Option.some.injEq, Prod.mk.injEq] at hsem
      obtain ⟨⟨hlo, hhi⟩, rfl, rfl⟩ := hsem
      exact hk n hlo hhi
    | _ => cases hsem

theorem twp_drawSamples (n : Nat) :
    Prog.twp (succeeding ids) (fun samples w' => samples.length = n ∧ w' = w) (drawSamples n) w := by
  have hdraw : ∀ {α : Type} {k : FloatBits → NetProg α} {post : α → World → Prop},
      (∀ u, Prog.twp (succeeding ids) post (k u) w) →
      Prog.twp (succeeding ids) post (call .uniform_real >>= k) w := by
    intro α k post hk
    refine twp_call ⟨.bits 0, 0, w, rfl⟩ (fun c r w₁ hsem => ?_)
    obtain ⟨hsem, -⟩ := sem_of_succeeding hsem
    cases c with
    | bits u =>
      simp only [sem, Option.some.injEq, Prod.mk.injEq] at hsem
      obtain ⟨rfl, rfl⟩ := hsem
      exact hk u
    | _ => cases hsem
  induction n with
  | zero => exact ⟨rfl, rfl⟩
  | succ n ih =>
    refine hdraw (fun re => hdraw (fun im => Prog.twp_bind (Prog.twp_mono ih ?_)))
    rintro samples w' ⟨hlength, rfl⟩
    exact ⟨by rw [List.length_cons, hlength], rfl⟩

/-! ## One reply -/

/-- What a message is answered with. -/
def Answer (m r : Message) : Prop :=
  if m.transaction = .Response then r = unknownReply
  else if m.type = "signal" then ∃ freq samples, 3000 ≤ freq ∧ freq ≤ 10000 ∧
    5 ≤ samples.length ∧ samples.length ≤ 20 ∧
      r = .SignalMessage "signal" .Response (some freq) samples
  else if m.type = "information" then ∃ n, 5 ≤ n ∧ n ≤ 20 ∧
    r = .InformationMessage "information" .Response (some n)
  else r = unknownReply

theorem twp_createResponse (m : Message) :
    Prog.twp (succeeding ids) (fun r w' => Answer m r ∧ w' = w) (createResponse (some m)) w := by
  unfold createResponse Answer
  simp only
  split
  · exact ⟨rfl, rfl⟩
  split
  · refine twp_uniform_int (by decide) (fun n hlo hhi => ?_)
    refine Prog.twp_bind (Prog.twp_mono (twp_drawSamples _) ?_)
    rintro samples w' ⟨hlength, rfl⟩
    refine twp_uniform_int (by decide) (fun freq hfreq hfreq' => ⟨⟨freq, samples, hfreq, hfreq', ?_, ?_, rfl⟩, rfl⟩)
    · have hn : (5 : Int) ≤ Int32.toInt n := Int32.le_iff_toInt_le.mp hlo
      omega
    · have hn : Int32.toInt n ≤ 20 := Int32.le_iff_toInt_le.mp hhi
      omega
  split
  · exact twp_uniform_int (by decide) (fun n hlo hhi => ⟨⟨n, hlo, hhi, rfl⟩, rfl⟩)
  · exact ⟨rfl, rfl⟩

variable {server : SegmentServer} {ptr : SessionPtr}

/-- `Session::write` sends the message's frame. -/
theorem twp_write (m : Message) (h : At ptr.addr rx tx w) :
    Prog.twp (succeeding ids)
      (fun _ w' => At ptr.addr rx (tx ++ frameOf P server.magicNumber m) w')
      ((server.session ptr).write P (some m)) w := by
  refine Prog.twp_tryCatch (Prog.twp_bind ?_)
  refine Prog.twp_mono (twp_asio_write _ 0 _ (Nat.le_refl _) h.isOpen) ?_
  rintro ec w' ⟨rfl, rfl⟩
  have hat := h.modify (g := fun s => { s with tx := s.tx ++ frameOf P server.magicNumber m })
    (fun _ => rfl) (fun _ => rfl)
  rwa [h.rx, h.tx] at hat

/-- What is sent in answer to a frame. -/
def sentFor (P : Platform) (magicNumber : UInt32) : Option Message → List UInt8
  | none => []
  | some r => frameOf P magicNumber r

/-- What a payload is answered with: what is parsed from it decides. -/
def ReplyTo (P : Platform) (payload : List UInt8) (reply : Option Message) : Prop :=
  match parsedMessage P payload with
  | none => reply = none
  | some m => if m.type = "raw" then reply = none else ∃ r, reply = some r ∧ Answer m r

/-- The callback of `sessionWork` sends the reply. -/
theorem twp_onAllRead (ec : ErrorCode) (payload : List UInt8) (h : At ptr.addr rx tx w) :
    Prog.twp (succeeding ids) (fun _ w' => ∃ reply, ReplyTo P payload reply ∧
        At ptr.addr rx (tx ++ sentFor P server.magicNumber reply) w')
      (server.onAllRead P ptr (ec, parsedMessage P payload)) w := by
  have hnothing : At ptr.addr rx (tx ++ sentFor P server.magicNumber none) w := by
    rw [sentFor, List.append_nil]
    exact h
  unfold onAllRead ReplyTo
  cases parsedMessage P payload with
  | none => exact ⟨none, rfl, hnothing⟩
  | some m =>
    simp only
    split
    · exact ⟨none, rfl, hnothing⟩
    · refine Prog.twp_bind (Prog.twp_mono (twp_createResponse m) ?_)
      rintro r w' ⟨hanswer, rfl⟩
      exact Prog.twp_mono (twp_write r h) (fun _ w'' hat => ⟨some r, ⟨r, rfl, hanswer⟩, hat⟩)

/-! ## One frame -/

/-- A payload that is a message: its length fits, and it is a JSON object with a string
`type` and an `int64` `transaction`. -/
def WellFormed (P : Platform) (payload : List UInt8) : Prop :=
  payload.length < 2 ^ 32 ∧ ∃ type transaction, Decodes P payload type transaction

theorem twp_onReadHandler (x : Nat × List UInt8 × Nat) (h : At a rx tx w) :
    Prog.twp (succeeding ids) (fun _ w' => At a rx tx w')
      (invoke server.sessionManager.readHandlerForSession x) w := by
  show Prog.twp _ _ (invoke (if server.readHandler then _ else none) x) w
  split
  · refine twp_call ⟨.go, (), { w with events := w.events ++ [_] }, rfl⟩ (fun c r w₁ hsem => ?_)
    obtain ⟨hsem, -⟩ := sem_of_succeeding hsem
    simp only [sem, Option.some.injEq, Prod.mk.injEq] at hsem
    obtain ⟨-, rfl⟩ := hsem
    exact ⟨h.isOpen, h.hasError, h.isWork, h.rx, h.tx⟩
  · exact h

/-- The payload of a well-formed frame reaches the callback as what it is parsed to. -/
theorem twp_read_json {payload : List UInt8} (hpayload : WellFormed P payload)
    (h : At ptr.addr rx tx w) :
    Prog.twp (succeeding ids) (fun _ w' => ∃ reply, ReplyTo P payload reply ∧
        At ptr.addr rx (tx ++ sentFor P server.magicNumber reply) w')
      (((server.readerSession P ptr).transport_handler P).read_json P payload) w := by
  obtain ⟨-, type, transaction, hdecodes⟩ := hpayload
  have hdecode := decode_of_decodes hdecodes
  rw [read_json_of_decode hdecodes.1 hdecode]
  refine Prog.twp_bind (Prog.twp_mono (twp_onReadHandler _ h) (fun _ w₁ hat => ?_))
  have hmessage : parsedMessage P payload
      = MessageHandler.parse P ⟨type, setTypeTransaction transaction.toInt32, payload⟩ := by
    rw [parsedMessage, if_neg (by simp [hdecodes.1]), hdecode]
  have hinvoke : ∀ x, invoke ((server.readerSession P ptr).transport_handler P).onAllRead x
      = (server.readerSession P ptr).onAllRead P x := fun _ => rfl
  rw [hinvoke, Session.onAllRead_of_not_critical P _ (check_error_of_not_failed hdecodes.1), ← hmessage]
  exact twp_onAllRead (P.parse payload).error payload hat

/-- The header and the payload come off the stream. -/
theorem twp_read_sync {payload : List UInt8} (hpayload : WellFormed P payload)
    (h : At ptr.addr (frame server.magicNumber payload ++ rest) tx w) :
    Prog.twp (succeeding ids) (fun _ w' => ∃ reply, ReplyTo P payload reply ∧
        At ptr.addr rest (tx ++ sentFor P server.magicNumber reply) w')
      (((server.readerSession P ptr).transport_handler P).read_sync P) w := by
  have hheader : At ptr.addr ((bytes32 server.magicNumber ++ bytes32 (UInt32.ofNat payload.length))
      ++ (payload ++ rest)) tx w := by
    rwa [frame, List.append_assoc] at h
  unfold TransportHandler.read_sync
  refine twp_read rfl hheader (fun w₁ h₁ => ?_)
  have hmagic : magicOf (bytes32 server.magicNumber ++ bytes32 (UInt32.ofNat payload.length))
      = server.magicNumber := by
    rw [magicOf, take_append_four _ _ rfl, uint32_of_bytes32]
  have hlength : lengthOf (bytes32 server.magicNumber ++ bytes32 (UInt32.ofNat payload.length))
      = payload.length := by
    have hlt := hpayload.1
    rw [lengthOf, drop_append_four _ _ rfl, List.take_of_length_le (by rfl), uint32_of_bytes32,
      UInt32.toNat_ofNat']
    omega
  simp only [TransportHandler.readError, errorHandler_of_not_failed ErrorCode.failed_success,
    Prog.pure_bind', Bool.false_eq_true, if_false, Except.toOption, Option.getD_some, hmagic, hlength]
  rw [if_neg (show ¬ server.magicNumber
    ≠ ((server.readerSession P ptr).transport_handler P).magicNumber from not_not.mpr rfl)]
  unfold TransportHandler.read_payload
  refine twp_read rfl h₁ (fun w₂ h₂ => ?_)
  simp only [TransportHandler.readError, errorHandler_of_not_failed ErrorCode.failed_success,
    Prog.pure_bind', Bool.false_eq_true, if_false, Except.toOption, Option.getD_some]
  exact twp_read_json hpayload h₂

/-! ## The loop -/

/-- One round of the loop takes one frame. -/
theorem twp_sessionWork (n : Nat) {payload : List UInt8} (hpayload : WellFormed P payload)
    (h : At ptr.addr (frame server.magicNumber payload ++ rest) tx w) :
    Prog.twp (succeeding ids) (fun next w' => next = some (.sessionWork n ptr) ∧
        ∃ reply, ReplyTo P payload reply ∧
          At ptr.addr rest (tx ++ sentFor P server.magicNumber reply) w')
      (server.sessionWork P n ptr) w := by
  refine Prog.twp_tryCatch ?_
  unfold Session.readRound
  refine twp_ask (fun c => by rw [sem, h.isWork]) ?_
  refine twp_ask (fun c => congrArg some (Prod.ext h.hasError rfl)) ?_
  refine Prog.twp_bind (twp_ask (fun c => congrArg some (Prod.ext h.isOpen rfl)) ?_)
  exact Prog.twp_mono (twp_read_sync hpayload h) (fun _ w' hreply => ⟨rfl, hreply⟩)

/-- A number of rounds, as long as the loop goes on. -/
def rounds (P : Platform) (server : SegmentServer) (n : Nat) (ptr : SessionPtr) :
    Nat → NetProg (Option ServerLabel)
  | 0 => pure (some (.sessionWork n ptr))
  | k + 1 => do
    let next ← server.sessionWork P n ptr
    if next = some (.sessionWork n ptr) then rounds P server n ptr k else return next

/-- The replies to a list of payloads. -/
def RepliesTo (P : Platform) : List (List UInt8) → List (Option Message) → Prop :=
  List.Forall₂ (ReplyTo P)

/-- The rounds take frame by frame. The induction is on the list of frames. -/
theorem twp_rounds (n : Nat) (payloads : List (List UInt8))
    (hpayloads : ∀ payload ∈ payloads, WellFormed P payload)
    (h : At ptr.addr (framed server.magicNumber payloads ++ rest) tx w) :
    Prog.twp (succeeding ids) (fun next w' => next = some (.sessionWork n ptr) ∧
        ∃ replies, RepliesTo P payloads replies ∧
          At ptr.addr rest (tx ++ (replies.map (sentFor P server.magicNumber)).flatten) w')
      (rounds P server n ptr payloads.length) w := by
  induction payloads generalizing tx w with
  | nil =>
    refine ⟨rfl, [], .nil, ?_⟩
    rw [List.map_nil, List.flatten_nil, List.append_nil]
    exact h
  | cons payload payloads ih =>
    rw [framed_cons, List.append_assoc] at h
    refine Prog.twp_bind (Prog.twp_mono
      (twp_sessionWork n (hpayloads payload (List.mem_cons_self ..)) h) ?_)
    rintro next w₁ ⟨rfl, reply, hreply, h₁⟩
    rw [if_pos rfl]
    refine Prog.twp_mono (ih (fun p hp => hpayloads p (List.mem_cons_of_mem _ hp)) h₁) ?_
    rintro next w₂ ⟨rfl, replies, hreplies, h₂⟩
    refine ⟨rfl, reply :: replies, .cons hreply hreplies, ?_⟩
    rwa [List.map_cons, List.flatten_cons, ← List.append_assoc]

/-! ## The replies -/

/-- The message's text, read again, is parsed to a message of its type. -/
def ParsesBack (P : Platform) (r : Message) : Prop :=
  P.RoundTrips (r.serialize P) →
    ∃ r', MessageHandler.parse P (MessageHandler.serialize P (some r)) = some r' ∧ r'.type = r.type

/-- What is asked of the reply to a frame: one to a `signal` or an `information` that is
parsed, a response of its type, or the unknown error if it is a response itself; none to a
raw message; and to every frame one of those that the frame alone can get. -/
structure Answered (P : Platform) (payload : List UInt8) (reply : Option Message) : Prop where
  one : ∀ type transaction m, Decodes P payload type transaction →
    type = "signal" ∨ type = "information" →
    MessageHandler.parse P ⟨type, setTypeTransaction transaction.toInt32, payload⟩ = some m →
    ∃ r, reply = some r ∧
      if setTypeTransaction transaction.toInt32 = .Response then r = unknownReply
      else r.type = type ∧ r.transaction = .Response ∧ ParsesBack P r
  raw : ∀ transaction, Decodes P payload "raw" transaction → reply = none
  alone : ReplyTo P payload reply

/-- What comes of a payload that decodes. -/
theorem parsedMessage_of_decodes {payload : List UInt8} {type : String} {transaction : Int64}
    (h : Decodes P payload type transaction) : parsedMessage P payload
      = MessageHandler.parse P ⟨type, setTypeTransaction transaction.toInt32, payload⟩ := by
  rw [parsedMessage, if_neg (by simp [h.1]), decode_of_decodes h]

/-- Samples are read back as samples, whatever the floats become on the way. -/
theorem readSignal_written (samples : List (FloatBits × FloatBits)) :
    ∃ samples', Message.readSignal P ((samples.map (Message.sampleJson P)).map Json.reparsed)
      = .ok samples' := by
  induction samples with
  | nil => exact ⟨[], rfl⟩
  | cons c samples ih =>
    obtain ⟨samples', hsamples⟩ := ih
    have hc : (Message.sampleJson P c).reparsed = Message.sampleJson P c := rfl
    rw [List.map_cons, List.map_cons, hc, Message.sampleJson, Message.readSignal, hsamples]
    exact ⟨_, rfl⟩

theorem parsesBack_signal (freq : Int32) (samples : List (FloatBits × FloatBits)) :
    ParsesBack P (.SignalMessage "signal" .Response (some freq) samples) := by
  intro hrt
  set r : Message := .SignalMessage "signal" .Response (some freq) samples
  have hparse : P.parse (MessageHandler.serialize P (some r)).payload
      = ⟨.success, (r.serialize P).reparsed⟩ := hrt
  have hfreq : (r.serialize P).at_ "central_Freq" = .ok (.int64 freq.toInt64) := rfl
  have hsignal : (r.serialize P).at_ "signal"
      = .ok (.array (samples.map (Message.sampleJson P))) := rfl
  obtain ⟨samples', hread⟩ := readSignal_written (P := P) samples
  refine ⟨.SignalMessage "signal" .Response (some freq) samples', ?_, rfl⟩
  unfold MessageHandler.parse
  simp only [hparse, ErrorCode.failed_success, Bool.false_eq_true, if_false,
    MessageHandler.createMessage_eq]
  simp [r, MessageHandler.serialize, Message.type, Message.transaction, Message.signal_of_json,
    Json.at_reparsed hfreq, Json.at_reparsed hsignal, Json.reparsed, Json.as_int64,
    Json.as_array, hread, bind, Except.bind, pure, Except.pure, Except.toOption,
    -List.map_map]

theorem parsesBack_information (cores : Int32) :
    ParsesBack P (.InformationMessage "information" .Response (some cores)) := by
  intro hrt
  refine ⟨.InformationMessage "information" .Response (some cores), ?_, rfl⟩
  exact MessageHandler.parse_serialize P (.information cores) hrt (fun _ _ _ _ h => nomatch h)

/-- A message that is parsed carries the type and the transaction of its frame. -/
theorem parse_carries {tm : TransportMessage} {m : Message}
    (h : MessageHandler.parse P tm = some m) : m.type = tm.type ∧ m.transaction = tm.transaction := by
  rcases MessageHandler.parse_class P h with ⟨-, _, rfl⟩ | ⟨-, _, rfl⟩ | ⟨-, _, _, rfl⟩
  · exact ⟨rfl, rfl⟩
  · exact ⟨rfl, rfl⟩
  · exact ⟨rfl, rfl⟩

/-- The answer to a message of one of the two types. -/
theorem answer_of_type {m r : Message} (h : Answer m r)
    (htype : m.type = "signal" ∨ m.type = "information") :
    if m.transaction = .Response then r = unknownReply
    else r.type = m.type ∧ r.transaction = .Response ∧ ParsesBack P r := by
  unfold Answer at h
  split at h
  · next htr => rwa [if_pos htr]
  · next htr =>
    rw [if_neg htr]
    rcases htype with htype | htype
    · rw [if_pos htype] at h
      obtain ⟨freq, samples, -, -, -, -, rfl⟩ := h
      exact ⟨htype.symm, rfl, parsesBack_signal freq samples⟩
    · rw [if_neg (by rw [htype]; decide), if_pos htype] at h
      obtain ⟨n, -, -, rfl⟩ := h
      exact ⟨htype.symm, rfl, parsesBack_information n⟩

theorem answered_of_replyTo {payload : List UInt8} {reply : Option Message}
    (h : ReplyTo P payload reply) : Answered P payload reply where
  one := by
    intro type transaction m hdecodes htype hparse
    obtain ⟨hmtype, hmtransaction⟩ := parse_carries hparse
    have hraw : m.type ≠ "raw" := by
      rw [hmtype]
      rcases htype with rfl | rfl
      · exact (by decide : ("signal" : String) ≠ "raw")
      · exact (by decide : ("information" : String) ≠ "raw")
    rw [ReplyTo, parsedMessage_of_decodes hdecodes, hparse] at h
    simp only [if_neg hraw] at h
    obtain ⟨r, rfl, hanswer⟩ := h
    have hr := answer_of_type (P := P) hanswer (by rwa [hmtype])
    rw [hmtype, hmtransaction] at hr
    exact ⟨r, rfl, hr⟩
  raw := by
    intro transaction hdecodes
    rw [ReplyTo, parsedMessage_of_decodes hdecodes] at h
    cases hparse : MessageHandler.parse P ⟨"raw", setTypeTransaction transaction.toInt32, payload⟩ with
    | none =>
      rw [hparse] at h
      exact h
    | some m =>
      rw [hparse] at h
      simp only [if_pos (parse_carries hparse).1] at h
      exact h
  alone := h

/-- **The replies of a session worker**: for every list of well-formed frames in front of the
socket, the worker's rounds come to an end, and however they go, what has been sent is the
frames of the replies, one after the other in the order of the frames. -/
theorem sessionWork_replies (server : SegmentServer) (n : Nat) (ptr : SessionPtr)
    (payloads : List (List UInt8)) (hpayloads : ∀ payload ∈ payloads, WellFormed P payload)
    (h : At ptr.addr (framed server.magicNumber payloads ++ rest) tx w) :
    (∃ out w', Prog.Runs (succeeding ids) (rounds P server n ptr payloads.length) w out w') ∧
      ∀ out w', Prog.Runs (succeeding ids) (rounds P server n ptr payloads.length) w out w' →
        out = .ok (some (.sessionWork n ptr)) ∧ ∃ replies,
          List.Forall₂ (Answered P) payloads replies ∧
          At ptr.addr rest (tx ++ (replies.map (sentFor P server.magicNumber)).flatten) w' := by
  refine ⟨(Prog.runs_of_twp (twp_rounds n payloads hpayloads h)).1, fun out w' hrun => ?_⟩
  obtain ⟨next, rfl, rfl, replies, hreplies, hat⟩ :=
    (Prog.runs_of_twp (twp_rounds n payloads hpayloads h)).2 out w' hrun
  exact ⟨rfl, replies, hreplies.imp (fun _ _ => answered_of_replyTo), hat⟩

/-- A response of a type, whose text is read back as a message of that type. -/
def ReadAsResponse (type : String) (r : Message) : Prop :=
  r.type = type ∧ r.transaction = .Response ∧ ∃ r',
    MessageHandler.parse jsonPlatform (MessageHandler.serialize jsonPlatform (some r)) = some r' ∧
      r'.type = type

theorem readAsResponse_of_answered {type : String} {m : Message} {reply : Option Message}
    (htype : type = "signal" ∨ type = "information")
    (hparse : MessageHandler.parse jsonPlatform
      ⟨type, setTypeTransaction (Int64.toInt32 0), headerText type 0⟩ = some m)
    (h : Answered jsonPlatform (headerText type 0) reply) :
    ∃ r, reply = some r ∧ ReadAsResponse type r := by
  have hplain : PlainString type := by
    rcases htype with rfl | rfl
    · exact plainString_signal
    · exact plainString_information
  obtain ⟨r, rfl, hr⟩ := h.one type 0 m (decodes_headerText hplain 0) htype hparse
  rw [if_neg (by decide)] at hr
  obtain ⟨hrtype, htransaction, hback⟩ := hr
  have hround := roundTrips_plain (plain_serialize (m := r) (by rw [hrtype]; exact hplain))
  obtain ⟨r', hparse', htype'⟩ := hback hround
  exact ⟨r, rfl, hrtype, htransaction, r', hparse', htype'.trans hrtype⟩

/-- Two requests, one for a signal and one for information: the worker replies to both, in that
order, and each reply is read back as a response of its type. -/
theorem sessionWork_replies_to_two_requests :
    let payloads : List (List UInt8) := [headerText "signal" 0, headerText "information" 0]
    let w : World := { World.init with isWork := true, sessions := fun _ =>
      { SessionObject.new with isOpen := true, rx := framed 7 payloads } }
    let server : SegmentServer := ⟨false, 7, false⟩
    (∃ out w', Prog.Runs (succeeding (fun _ => 0))
      (rounds jsonPlatform server 0 ⟨0, 0⟩ payloads.length) w out w') ∧
      ∀ out w', Prog.Runs (succeeding (fun _ => 0))
        (rounds jsonPlatform server 0 ⟨0, 0⟩ payloads.length) w out w' →
        ∃ signal information, ReadAsResponse "signal" signal ∧
          ReadAsResponse "information" information ∧
          At 0 [] (frameOf jsonPlatform 7 signal ++ frameOf jsonPlatform 7 information) w' := by
  intro payloads w server
  have hpayloads : ∀ payload ∈ payloads, WellFormed jsonPlatform payload := by
    intro payload hpayload
    rcases List.mem_pair.mp hpayload with rfl | rfl
    · exact ⟨by decide, "signal", 0, decodes_headerText (by decide) 0⟩
    · exact ⟨by decide, "information", 0, decodes_headerText (by decide) 0⟩
  have hat : At (SessionPtr.addr ⟨0, 0⟩) (framed server.magicNumber payloads ++ []) [] w := by
    rw [List.append_nil]
    exact ⟨rfl, rfl, rfl, rfl, rfl⟩
  obtain ⟨hruns, hall⟩ := sessionWork_replies server 0 ⟨0, 0⟩ payloads hpayloads hat
  refine ⟨hruns, fun out w' hrun => ?_⟩
  obtain ⟨-, replies, hreplies, hat'⟩ := hall out w' hrun
  obtain ⟨reply, rest, hsignal, hrest, rfl⟩ := List.forall₂_cons_left_iff.mp hreplies
  obtain ⟨reply', rest', hinformation, hnil, rfl⟩ := List.forall₂_cons_left_iff.mp hrest
  obtain rfl := List.forall₂_nil_left_iff.mp hnil
  obtain ⟨signal, rfl, hback⟩ := readAsResponse_of_answered (.inl rfl)
    (MessageHandler.parse_serialize jsonPlatform .signalRequest
      (roundTrips_plain (plain_serialize (by decide))) nofun) hsignal
  obtain ⟨information, rfl, hback'⟩ := readAsResponse_of_answered (.inr rfl)
    (MessageHandler.parse_serialize jsonPlatform .informationRequest
      (roundTrips_plain (plain_serialize (by decide))) nofun) hinformation
  refine ⟨signal, information, hback, hback', ?_⟩
  simpa [sentFor] using hat'

end NetworkApplication.Replies
