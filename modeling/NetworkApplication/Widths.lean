/-
Two numbers that are narrower on one side than on the other.

The transaction is 64 bits wide in the JSON value and an `int` in `setTypeTransaction`; the
conversion is implicit, at both of its call sites. The length of a payload is a `size_t` in
memory and 32 bits wide in the header; that conversion is implicit too. Nobody checks either
range. A number that is out of it is not refused: it is taken for the number that has the same
low 32 bits.
-/
import NetworkApplication.Accepts
import NetworkApplication.AsyncWrite

set_option autoImplicit false

namespace NetworkApplication

open NetworkApplication.Program

/-- `TransportHandler::read`. -/
def TransportHandler.read (P : Platform) (th : TransportHandler) : Accepts.IOMode → NetProg Unit
  | .Sync => th.read_sync P
  | .Async => th.read_async P

namespace Widths

open TransportHandler SyncRead AsyncRead JsonText

variable {P : Platform} {ids : Nat → UInt64} {env : Op → World → Choice} {cut : ErrorCode}
  {th : TransportHandler} {w : World}

/-! ## The transaction -/

/-- The transaction is the one that the number stands for. -/
structure Classified (t : Int64) (tr : Transaction) : Prop where
  request : tr = .Request ↔ t = 0
  response : tr = .Response ↔ t = 1
  tests : tr = .Tests ↔ t = 2
  error : tr = .Error ↔ t ≠ 0 ∧ t ≠ 1 ∧ t ≠ 2

/-- The number is not one of those that only look like `0`, `1` or `2` when 32 bits of them are
left. -/
def Unmistakable (t : Int64) : Prop :=
  ∀ k : Int64, k = 0 ∨ k = 1 ∨ k = 2 → t.toInt32 = k.toInt32 → t = k

theorem classified_iff (t : Int64) :
    Classified t (setTypeTransaction t.toInt32) ↔ Unmistakable t := by
  have hzero : (0 : Int64).toInt32 = 0 := rfl
  have hone : (1 : Int64).toInt32 = 1 := rfl
  have htwo : (2 : Int64).toInt32 = 2 := rfl
  simp only [Unmistakable, forall_eq_or_imp, forall_eq, hzero, hone, htwo]
  unfold setTypeTransaction
  constructor
  · intro h
    refine ⟨fun h0 => ?_, fun h1 => ?_, fun h2 => ?_⟩
    · exact h.request.mp (by rw [if_pos h0])
    · exact h.response.mp (by rw [h1]; rfl)
    · exact h.tests.mp (by rw [h2]; rfl)
  · rintro ⟨h0, h1, h2⟩
    by_cases hz : t.toInt32 = 0
    · obtain rfl := h0 hz
      exact ⟨by decide, by decide, by decide, by decide⟩
    by_cases ho : t.toInt32 = 1
    · obtain rfl := h1 ho
      exact ⟨by decide, by decide, by decide, by decide⟩
    by_cases ht : t.toInt32 = 2
    · obtain rfl := h2 ht
      exact ⟨by decide, by decide, by decide, by decide⟩
    · have hne0 : t ≠ 0 := fun h => hz (by rw [h]; rfl)
      have hne1 : t ≠ 1 := fun h => ho (by rw [h]; rfl)
      have hne2 : t ≠ 2 := fun h => ht (by rw [h]; rfl)
      rw [if_neg hz, if_neg ho, if_neg ht]
      exact ⟨by simp [hne0], by simp [hne1], by simp [hne2], by simp [hne0, hne1, hne2]⟩

/-- One call of `read` delivers one message, whose transaction is what `t` stands for. -/
def DeliversClassified (P : Platform) (ids : Nat → UInt64) (env : Op → World → Choice)
    (th : TransportHandler) (mode : Accepts.IOMode) (w : World) (t : Int64) : Prop :=
  ∃ out w' before ec message,
    Prog.run (sem ids) env ((observed th).read P mode) w = some (out, w') ∧
    readEvents w' = readEvents w ++ (before ++ [.onAllRead ec message]) ∧
    (∀ ec' message', .onAllRead ec' message' ∉ before) ∧ Classified t message.transaction

/-- What a read of a well-formed frame calls, in either mode. -/
theorem run_read (mode : Accepts.IOMode) (henv : ReadsStream env cut) (hcut : cut.failed = true)
    (hth : Returning ids env th) (hset : th.onAllRead ≠ none) (hopen : w.isOpen th.socket = true)
    {payload : List UInt8} {type : String} {t : Int64}
    (hframed : Framed th.magicNumber (w.sessions th.socket).rx payload)
    (hdecodes : Decodes P payload type t) :
    ∃ out w' size, Prog.run (sem ids) env ((observed th).read P mode) w = some (out, w') ∧
      readEvents w' = readEvents w ++
        (callOf readHandlerEvent th.onReadHandler (0, payload, size) ++
          [.onAllRead (P.parse payload).error ⟨type, setTypeTransaction t.toInt32, payload⟩]) := by
  obtain ⟨rest, htake⟩ := (framed_iff ..).mp hframed
  have hdelivered : ∀ x, callOf allReadEvent th.onAllRead x = [allReadEvent x] := fun x => by
    rw [callOf, if_pos (Option.isSome_iff_ne_none.mpr hset)]
  have hcalls : ∀ size, streamCalls P th cut size (w.sessions th.socket).rx
      = callOf readHandlerEvent th.onReadHandler (0, payload, size payload) ++
        [.onAllRead (P.parse payload).error ⟨type, setTypeTransaction t.toInt32, payload⟩] := by
    intro size
    simp only [streamCalls, htake, payloadCalls, hdecodes.1, Bool.false_eq_true, if_false,
      decode_of_decodes hdecodes, hdelivered]
    rfl
  cases mode with
  | Sync =>
    obtain ⟨out, w', hrun, hevents⟩ := run_readSized (P := P) (fun payload => payload.length + 1)
      henv hcut hth hopen
    rw [← read_sync_eq] at hrun
    rw [hcalls] at hevents
    exact ⟨out, w', _, hrun, hevents⟩
  | Async =>
    obtain ⟨out, w', hrun, hevents⟩ := run_readSized (P := P) List.length henv hcut hth hopen
    rw [← read_async_eq] at hrun
    rw [hcalls] at hevents
    exact ⟨out, w', _, hrun, hevents⟩

/-- No other callback of a read delivers a message. -/
theorem not_delivered (x : Nat × List UInt8 × Nat) (ec : ErrorCode) (message : TransportMessage) :
    .onAllRead ec message ∉ callOf readHandlerEvent th.onReadHandler x := by
  unfold callOf
  split
  · simp [readHandlerEvent]
  · simp

/-- What `read` delivers is classified by 32 bits of the number. -/
theorem delivers_iff_classified (mode : Accepts.IOMode) (henv : ReadsStream env cut)
    (hcut : cut.failed = true) (hth : Returning ids env th) (hset : th.onAllRead ≠ none)
    (hopen : w.isOpen th.socket = true) {payload : List UInt8} {type : String} {t : Int64}
    (hframed : Framed th.magicNumber (w.sessions th.socket).rx payload)
    (hdecodes : Decodes P payload type t) :
    DeliversClassified P ids env th mode w t ↔ Classified t (setTypeTransaction t.toInt32) := by
  obtain ⟨out, w', size, hrun, hevents⟩ :=
    run_read (P := P) mode henv hcut hth hset hopen hframed hdecodes
  constructor
  · rintro ⟨out', w'', before, ec, message, hrun', hevents', -, hclassified⟩
    rw [hrun, Option.some.injEq, Prod.mk.injEq] at hrun'
    obtain ⟨-, rfl⟩ := hrun'
    -- Both lists of calls end with the delivery.
    have hlast := congrArg List.getLast? (List.append_cancel_left (hevents.symm.trans hevents'))
    rw [List.getLast?_concat, List.getLast?_concat, Option.some.injEq, Event.onAllRead.injEq] at hlast
    rw [← hlast.2] at hclassified
    exact hclassified
  · intro hclassified
    exact ⟨out, w', _, _, _, hrun, hevents, fun ec' message' => not_delivered _ ec' message', hclassified⟩

/-- **When a transaction is read at its full width**: in either mode, for every number, exactly
if its low 32 bits do not make it a `0`, a `1` or a `2` that it is not. -/
theorem transaction_read_whole_iff (mode : Accepts.IOMode) (henv : ReadsStream env cut)
    (hcut : cut.failed = true) (hth : Returning ids env th) (hset : th.onAllRead ≠ none)
    (hopen : w.isOpen th.socket = true) {payload : List UInt8} {type : String} {t : Int64}
    (hframed : Framed th.magicNumber (w.sessions th.socket).rx payload)
    (hdecodes : Decodes P payload type t) :
    DeliversClassified P ids env th mode w t ↔ Unmistakable t :=
  (delivers_iff_classified mode henv hcut hth hset hopen hframed hdecodes).trans (classified_iff t)

/-- A message with the transaction `t`. -/
def numberText (t : Int64) : List UInt8 := headerText "signal" t

theorem decodes_numberText (t : Int64) : Decodes jsonPlatform (numberText t) "signal" t :=
  decodes_headerText (by decide) t

theorem framed_numberText {t : Int64} (h : (numberText t).length < 2 ^ 32) :
    Framed listener.magicNumber ((receiving (frame 7 (numberText t))).sessions listener.socket).rx
      (numberText t) :=
  framed_frame 7 h

/-- Of `-1` the asynchronous read makes an error, as it should. -/
theorem error_number_read_whole : DeliversClassified jsonPlatform UInt64.ofNat streamEnv
    listener .Async (receiving (frame 7 (numberText (-1)))) (-1) := by
  have henv : ReadsStream streamEnv .eof := fun _ _ _ => rfl
  have hnot : Unmistakable (-1) := by
    rintro k (rfl | rfl | rfl) h
    · exact absurd h (by decide)
    · exact absurd h (by decide)
    · exact absurd h (by decide)
  exact (transaction_read_whole_iff .Async henv rfl returning_listener (by simp [listener]) rfl
    (framed_numberText (by decide)) (decodes_numberText (-1))).mpr hnot

/-- **2 ^ 32 is read as a request.** -/
theorem wide_number_read_as_request :
    setTypeTransaction (Int64.toInt32 4294967296) = .Request ∧
      Decodes jsonPlatform (numberText 4294967296) "signal" 4294967296 ∧
      ∀ mode, ¬ DeliversClassified jsonPlatform UInt64.ofNat streamEnv listener mode
        (receiving (frame 7 (numberText 4294967296))) 4294967296 := by
  have henv : ReadsStream streamEnv .eof := fun _ _ _ => rfl
  refine ⟨rfl, decodes_numberText _, fun mode hdelivers => ?_⟩
  have hclassified := (delivers_iff_classified mode henv rfl returning_listener (by simp [listener])
    rfl (framed_numberText (by decide)) (decodes_numberText 4294967296)).mp hdelivers
  exact absurd (hclassified.request.mp rfl) (by decide)

/-! ## The length -/

/-- The length counts the bytes that follow it, and the frame behind it is found. -/
structure LengthTrue (magicNumber : UInt32) (sent : List UInt8) : Prop where
  counts : lengthOf sent = (sent.drop 8).length
  next : ∀ rest, takeFrame magicNumber (sent ++ rest) = some (sent.drop 8, rest)

/-- How a frame is sent. -/
inductive Sending where
  | sync
  | async (steps : List AsyncWrite.Step)

/-- The asynchronous write of a message. -/
def writing (th : TransportHandler) (message : TransportMessage) (w : World) : AsyncWrite.Writing :=
  AsyncWrite.start th.magicNumber message.payload (w.sessions th.socket).tx

/-- A write that goes through puts `sent` on the stream. -/
def Puts (ids : Nat → UInt64) (th : TransportHandler) (message : TransportMessage) (w : World) :
    Sending → List UInt8 → Prop
  | .sync, sent => ∃ out w', Prog.Runs (Replies.succeeding ids) (th.write message) w out w' ∧
    (w'.sessions th.socket).tx = (w.sessions th.socket).tx ++ sent
  | .async steps, sent => ∃ s, AsyncWrite.run (writing th message w) steps = some s ∧
    s.completed = some .success ∧ s.tx = (w.sessions th.socket).tx ++ sent

/-- The length is sent while it is still what `write` stored. -/
def LengthStands (th : TransportHandler) (message : TransportMessage) (w : World) : Sending → Prop
  | .sync => True
  | .async steps => AsyncWrite.LengthKept (writing th message w) steps

variable {magicNumber : UInt32} {payload tx four : List UInt8} {message : TransportMessage}

/-- Behind a magic number and four bytes of length. -/
theorem lengthTrue_iff (hfour : four.length = 4) :
    LengthTrue magicNumber (bytes32 magicNumber ++ (four ++ payload))
      ↔ (uint32_of_bytes four).toNat = payload.length := by
  have hdrop4 := drop_append_four (bytes32 magicNumber) (four ++ payload) rfl
  have hdrop8 : (bytes32 magicNumber ++ (four ++ payload)).drop 8 = payload := by
    rw [show 8 = 4 + 4 from rfl, ← List.drop_drop, hdrop4, drop_append_four _ _ hfour]
  have hlength : lengthOf (bytes32 magicNumber ++ (four ++ payload)) = (uint32_of_bytes four).toNat := by
    rw [lengthOf, hdrop4, take_append_four _ _ hfour]
  constructor
  · intro h
    rw [← hlength, h.counts, hdrop8]
  · intro h
    refine ⟨by rw [hlength, hdrop8, h], fun rest => ?_⟩
    rw [hdrop8, takeFrame_eq_some_iff]
    refine ⟨uint32_of_bytes four, h.symm, ?_⟩
    rw [bytes32_of_bytes four hfour, List.append_assoc, List.append_assoc]

/-- Only a length below `2 ^ 32` can be said, and there is one way to say it. -/
theorem says_length_iff (hfour : four.length = 4) (n : Nat) :
    (uint32_of_bytes four).toNat = n ↔ n < 2 ^ 32 ∧ four = bytes32 (UInt32.ofNat n) := by
  have hlt := (uint32_of_bytes four).toNat_lt
  constructor
  · rintro rfl
    rw [UInt32.ofNat_toNat, bytes32_of_bytes four hfour]
    exact ⟨hlt, rfl⟩
  · rintro ⟨hn, rfl⟩
    rw [uint32_of_bytes32, UInt32.toNat_ofNat']
    omega

section Async

open AsyncWrite

variable {s s₁ : Writing} {steps : List Step}

/-- The buffers hold the frame, except perhaps for its length. -/
theorem gather_apart (h : Of magicNumber payload tx s) {k : Nat} (hk : k < 4 ∨ 8 ≤ k) :
    (s.memory.gather (buffers s.memory.payload))[k]? = (frame magicNumber payload)[k]? := by
  rw [gather_buffers, frame, h.magic, h.message, List.append_assoc]
  rcases hk with hmagic | hpayload
  · rw [List.getElem?_append_left hmagic, List.getElem?_append_left hmagic]
  · obtain ⟨i, rfl⟩ : ∃ i, k = 4 + (4 + i) := ⟨k - 8, by omega⟩
    rw [behind_magic, behind_magic, behind_magic, behind_magic]

/-- So does what has been sent. -/
def SentApart (magicNumber : UInt32) (payload tx : List UInt8) (s : Writing) : Prop :=
  ∃ sent, s.tx = tx ++ sent ∧ ∀ k, k < 4 ∨ 8 ≤ k → k < s.total_transferred →
    sent[k]? = (frame magicNumber payload)[k]?

theorem sentApart_step {a : Step} (hof : Of magicNumber payload tx s)
    (h : SentApart magicNumber payload tx s) (hstep : step s a = some s₁) :
    SentApart magicNumber payload tx s₁ := by
  cases a with
  | send n =>
    simp only [step, Option.ite_none_right_eq_some, Option.some.injEq] at hstep
    obtain ⟨-, rfl⟩ := hstep
    obtain ⟨sent, htx, hsent⟩ := h
    have hlength : sent.length = s.total_transferred := by
      have := hof.sent
      rw [htx, List.length_append] at this
      omega
    refine ⟨sent ++ ((s.memory.gather (buffers s.memory.payload)).drop s.total_transferred).take n,
      by rw [htx, List.append_assoc], fun k hk hlt => ?_⟩
    -- what was sent before stays, and what comes behind it is gathered from the buffers now
    by_cases hold : k < s.total_transferred
    · rw [List.getElem?_append_left (by omega)]
      exact hsent k hk hold
    · have hlt : k < s.total_transferred + n := hlt
      rw [List.getElem?_append_right (by omega), hlength, List.getElem?_take, if_pos (by omega),
        List.getElem?_drop, Nat.add_sub_cancel' (by omega), gather_apart hof hk]
  | fail ec =>
    simp only [step, Option.ite_none_right_eq_some, Option.some.injEq] at hstep
    obtain ⟨-, rfl⟩ := hstep
    exact h
  | returns =>
    simp only [step, Option.ite_none_left_eq_some, Option.some.injEq] at hstep
    obtain ⟨-, rfl⟩ := hstep
    exact h
  | reuse value =>
    simp only [step, Option.ite_none_right_eq_some, Option.some.injEq] at hstep
    obtain ⟨-, rfl⟩ := hstep
    exact h

theorem sentApart_run (hof : Of magicNumber payload tx s) (h : SentApart magicNumber payload tx s)
    (hrun : run s steps = some s₁) : SentApart magicNumber payload tx s₁ := by
  induction steps generalizing s with
  | nil =>
    obtain rfl := Option.some.inj hrun
    exact h
  | cons a steps ih =>
    obtain ⟨s', hstep, hrun⟩ := run_cons hrun
    exact ih (hof.step hstep) (sentApart_step hof h hstep) hrun

/-- A write that completes has sent the magic number, four bytes and the payload. -/
theorem sent_of_run (hrun : run (start magicNumber payload tx) steps = some s)
    (hdone : s.completed = some .success) :
    ∃ four : List UInt8, four.length = 4 ∧ s.tx = tx ++ (bytes32 magicNumber ++ (four ++ payload)) := by
  have hof := of_start.run hrun
  obtain ⟨sent, htx, hsent⟩ := sentApart_run of_start
    (⟨[], (List.append_nil _).symm, by simp [start]⟩ : SentApart magicNumber payload tx _) hrun
  have hsize : s.total_transferred = 8 + payload.length := by
    rw [hof.completed hdone, Writing.size, hof.message]
  have hlength : sent.length = 8 + payload.length := by
    have := hof.sent
    rw [htx, List.length_append] at this
    omega
  -- all but the length field is that of the frame
  have hmagic : sent.take 4 = bytes32 magicNumber := by
    refine List.ext_getElem? (fun k => ?_)
    rw [List.getElem?_take]
    split
    · next hk =>
      rw [hsent k (.inl hk) (by omega), frame, List.append_assoc, List.getElem?_append_left hk]
    · next hk => rw [List.getElem?_eq_none (by rw [length_bytes32]; omega)]
  have hpayload : sent.drop 8 = payload := by
    refine List.ext_getElem? (fun i => ?_)
    rw [List.getElem?_drop]
    by_cases hi : i < payload.length
    · rw [hsent (8 + i) (.inr (by omega)) (by omega), frame, List.append_assoc,
        show 8 + i = 4 + (4 + i) by omega, behind_magic, behind_magic]
    · rw [List.getElem?_eq_none (by omega), List.getElem?_eq_none (by omega)]
  refine ⟨(sent.drop 4).take 4, by rw [List.length_take, List.length_drop]; omega, ?_⟩
  have hrest : (sent.drop 4).take 4 ++ payload = sent.drop 4 := by
    have := List.take_append_drop 4 (sent.drop 4)
    rwa [List.drop_drop, hpayload] at this
  rw [htx, hrest, ← hmagic, List.take_append_drop]

end Async

variable {how : Sending} {sent : List UInt8}

/-- Whatever way it is sent, a frame is a magic number, four bytes of length and the payload. -/
theorem puts_parts (hth : AsyncWrite.CallbacksAside ids th) (hopen : w.isOpen th.socket = true)
    (hputs : Puts ids th message w how sent) :
    ∃ four : List UInt8, four.length = 4 ∧ sent = bytes32 th.magicNumber ++ (four ++ message.payload) ∧
      (LengthStands th message w how ↔ four = bytes32 (UInt32.ofNat message.payload.length)) := by
  -- in the `Sync` mode the length is on the stack of the write, in the `Async` mode it is not
  cases how with
  | sync =>
    obtain ⟨out, w', hrun, htx⟩ := hputs
    obtain ⟨-, hall⟩ := Prog.runs_of_twp (AsyncWrite.twp_write hth message hopen)
    obtain ⟨-, -, htx'⟩ := hall out w' hrun
    refine ⟨bytes32 (UInt32.ofNat message.payload.length), rfl, ?_, iff_of_true trivial rfl⟩
    rw [List.append_cancel_left (htx.symm.trans htx'), frame, List.append_assoc]
  | async steps =>
    obtain ⟨s, hrun, hdone, htx⟩ := hputs
    obtain ⟨four, hfour, htx'⟩ := sent_of_run hrun hdone
    refine ⟨four, hfour, List.append_cancel_left (htx.symm.trans htx'), ?_⟩
    show AsyncWrite.LengthKept _ _ ↔ _
    rw [writing, ← AsyncWrite.sends_frame_iff hrun hdone, htx', frame, List.append_assoc,
      List.append_cancel_left_eq, List.append_cancel_left_eq, List.append_cancel_right_eq]

/-- **When the length field does not lie**: for every message, in either mode and however it is
sent, exactly if the payload is shorter than `2 ^ 32` bytes and its length is sent while it is
still what `write` stored. -/
theorem length_true_iff (hth : AsyncWrite.CallbacksAside ids th) (hopen : w.isOpen th.socket = true)
    (hputs : Puts ids th message w how sent) :
    LengthTrue th.magicNumber sent
      ↔ message.payload.length < 2 ^ 32 ∧ LengthStands th message w how := by
  obtain ⟨four, hfour, rfl, hstands⟩ := puts_parts hth hopen hputs
  rw [lengthTrue_iff hfour, says_length_iff hfour, hstands]

/-- One byte, in the `Sync` mode. -/
theorem one_byte_length_true : ∃ sent, Puts (fun _ => 0) AsyncWrite.plainHandler AsyncWrite.oneByte
    AsyncWrite.openSocket .sync sent ∧ LengthTrue 7 sent := by
  have hopen : AsyncWrite.openSocket.isOpen AsyncWrite.plainHandler.socket = true := rfl
  obtain ⟨⟨out, w', hrun⟩, hall⟩ := Prog.runs_of_twp
    (AsyncWrite.twp_write AsyncWrite.plainHandler_aside AsyncWrite.oneByte hopen)
  obtain ⟨-, -, htx⟩ := hall out w' hrun
  have hputs : Puts (fun _ => 0) AsyncWrite.plainHandler AsyncWrite.oneByte AsyncWrite.openSocket
      .sync (frame 7 [0x6d]) := ⟨out, w', hrun, htx⟩
  exact ⟨_, hputs, (length_true_iff AsyncWrite.plainHandler_aside hopen hputs).mpr ⟨by decide, trivial⟩⟩

/-- A payload of `n` zeros. -/
def longMessage (n : Nat) : TransportMessage := ⟨"raw", .Request, List.replicate n 0⟩

/-- The header of `2 ^ 32` bytes announces none. -/
theorem lengthOf_frame_wraps (hlong : payload.length = 2 ^ 32) : lengthOf (frame 7 payload) = 0 := by
  rw [frame, List.append_assoc, lengthOf, drop_append_four _ _ rfl, take_append_four _ _ rfl,
    uint32_of_bytes32, hlong]
  decide

/-- It is sent for any such payload, whatever the bytes are. -/
theorem puts_frame_wraps (hlong : message.payload.length = 2 ^ 32) :
    ∃ sent, Puts (fun _ => 0) AsyncWrite.plainHandler message AsyncWrite.openSocket .sync sent ∧
      lengthOf sent = 0 ∧ (sent.drop 8).length = 2 ^ 32 ∧ ¬ LengthTrue 7 sent := by
  have hopen : AsyncWrite.openSocket.isOpen AsyncWrite.plainHandler.socket = true := rfl
  obtain ⟨⟨out, w', hrun⟩, hall⟩ := Prog.runs_of_twp
    (AsyncWrite.twp_write AsyncWrite.plainHandler_aside message hopen)
  obtain ⟨-, -, htx⟩ := hall out w' hrun
  have hdrop : ((frame 7 message.payload).drop 8).length = 2 ^ 32 := by
    rw [List.length_drop, length_frame, hlong, Nat.add_sub_cancel_left]
  have hlength := lengthOf_frame_wraps hlong
  refine ⟨frame 7 message.payload, ⟨out, w', hrun, htx⟩, hlength, hdrop, fun htrue => ?_⟩
  -- what follows is `2 ^ 32` bytes, and what is said is nothing
  have hcounts := htrue.counts
  rw [hlength, hdrop] at hcounts
  exact absurd hcounts (by decide)

/-- **A frame that announces nothing** is sent, and `2 ^ 32` bytes follow it. -/
theorem long_payload_announced_empty :
    ∃ sent, Puts (fun _ => 0) AsyncWrite.plainHandler (longMessage (2 ^ 32)) AsyncWrite.openSocket
        .sync sent ∧
      lengthOf sent = 0 ∧ (sent.drop 8).length = 2 ^ 32 ∧ ¬ LengthTrue 7 sent := by
  refine puts_frame_wraps ?_
  rw [longMessage, List.length_replicate]

end Widths

end NetworkApplication
