/-
A peer that sends back what it gets.

The worker of a session answers what it can decode and what is not raw, requests or not. So it
answers its own replies too, if the peer returns them, and its answer to these.

What ends the exchange is that the replies get poorer. The reply to a request may be a
response, the reply to a response is the message `unknown`, and that is of no type of the
factory: it is not parsed, and what is not parsed is not answered. `Settles` counts how many
replies may still come.
-/
import NetworkApplication.Reencoding
import NetworkApplication.Requests

set_option autoImplicit false

namespace NetworkApplication.Echo

open NetworkApplication.Program
open TransportHandler SyncRead Delivery BadPayload SegmentServer RequestResponseHandler Replies Requests
  JsonText

variable {P : Platform} {ids : Nat → UInt64} {mode : Accepts.IOMode} {server : SegmentServer}
  {ptr : SessionPtr} {payload rest tx four : List UInt8} {w w' : World} {replies : List Message}

/-! ## The echo -/

/-- The text of a message. -/
def textOf (P : Platform) (r : Message) : List UInt8 := (MessageHandler.serialize P (some r)).payload

/-- What `write` stores in `json_len` for a message. -/
def lengthBytes (P : Platform) (r : Message) : List UInt8 :=
  bytes32 (UInt32.ofNat (textOf P r).length)

/-- The peer's bytes arrive behind what is in front of the session. -/
def echoed (a : Nat) (sent : List UInt8) (w : World) : World :=
  w.modify a (fun s => { s with rx := s.rx ++ sent })

/-- The server reads, sends the frame of a reply, gets it back, and so on: the replies that it
has sent, and the state in which the last of them is in front of it. -/
inductive Chain (P : Platform) (ids : Nat → UInt64) (server : SegmentServer) (mode : Accepts.IOMode)
    (ptr : SessionPtr) : World → List Message → World → Prop where
  | start (w : World) : Chain P ids server mode ptr w [] w
  | reply {w w₁ w' : World} {out : Outcome Exception Unit} {r : Message} {replies : List Message}
      (hread : Prog.Runs (succeeding ids) (server.sessionRead P mode (lengthBytes P r) ptr) w out w₁)
      (hsent : (w₁.sessions ptr.addr).tx
        = (w.sessions ptr.addr).tx ++ frame server.magicNumber (textOf P r))
      (hrest : Chain P ids server mode ptr
        (echoed ptr.addr (frame server.magicNumber (textOf P r)) w₁) replies w') :
      Chain P ids server mode ptr w (r :: replies) w'

/-- What boost makes of the text of a reply: it reads the type and the transaction back, or,
if some sample is not a number, refuses it. -/
def RepliesDecode (P : Platform) : Prop :=
  ∀ m r, Answer m r → (textOf P r).length < 2 ^ 32 ∧
    (Decodes P (textOf P r) r.type r.writtenTransaction ∨
      (P.parse (textOf P r)).error = ErrorCode.syntax_)

/-! ## One read -/

/-- A payload that decodes, or that is no JSON. -/
def Taken (P : Platform) (payload : List UInt8) : Prop :=
  payload.length < 2 ^ 32 ∧ ((∃ type transaction, Decodes P payload type transaction) ∨
    (P.parse payload).error = ErrorCode.syntax_)

/-- A payload that is no JSON is not answered. -/
theorem parsedMessage_of_unread (h : (P.parse payload).error = ErrorCode.syntax_) :
    parsedMessage P payload = none := by
  rw [parsedMessage, h]
  rfl

/-- The read of such a frame ends behind it. -/
theorem twp_sessionRead_unread (hlength : payload.length < 2 ^ 32)
    (hunread : (P.parse payload).error = ErrorCode.syntax_)
    (h : At ptr.addr (frame server.magicNumber payload ++ rest) tx w) :
    Prog.twp (succeeding ids) (fun _ w' => At ptr.addr rest tx w')
      (server.sessionRead P mode four ptr) w := by
  refine twp_ask (fun c => congrArg some (Prod.ext h.isOpen rfl)) ?_
  refine twp_readMode ((server.readerSessionIn P mode four ptr).transport_handler P) hlength h
    (fun size w₀ h₀ => ?_)
  -- the report carries no message, so the callback has nothing to do
  have hreport : errorHandler ((server.readerSessionIn P mode four ptr).transport_handler P)
      ErrorCode.syntax_ = pure true := by
    show ((server.readerSessionIn P mode four ptr).onAllRead P (ErrorCode.syntax_, setErrorMessage)
      >>= fun _ => pure true) = _
    rw [Session.onAllRead_of_not_critical P _ (show check_error ErrorCode.syntax_ = false from rfl),
      parse_errorMessage]
    rfl
  unfold readJsonSized
  simp only [hunread, hreport]
  exact h₀

/-- One read of the loop takes one frame and sends what the frame is answered with. -/
theorem twp_sessionRead_taken (htaken : Taken P payload)
    (h : At ptr.addr (frame server.magicNumber payload ++ rest) tx w) :
    Prog.twp (succeeding ids) (fun _ w' => ∃ reply, ReplyTo P payload reply ∧
        At ptr.addr rest (tx ++ sentIn P mode four server.magicNumber reply) w')
      (server.sessionRead P mode four ptr) w := by
  obtain ⟨hlength, hdecodes | hunread⟩ := htaken
  · exact twp_sessionRead ⟨hlength, hdecodes⟩ h
  · refine Prog.twp_mono (twp_sessionRead_unread hlength hunread h) (fun _ w' hat => ⟨none, ?_, ?_⟩)
    · rw [ReplyTo, parsedMessage_of_unread hunread]
    · rw [sentIn, List.append_nil]
      exact hat

/-! ## How many replies may still come -/

/-- The frame is answered with at most `n` replies, the first and those to its echoes. -/
def Settles (P : Platform) : Nat → List UInt8 → Prop
  | 0, payload => Taken P payload ∧ ∀ r, ¬ ReplyTo P payload (some r)
  | n + 1, payload => Taken P payload ∧ ∀ r, ReplyTo P payload (some r) → Settles P n (textOf P r)

theorem Settles.taken {n : Nat} (h : Settles P n payload) : Taken P payload := by
  cases n with
  | zero => exact h.1
  | succ n => exact h.1

theorem Settles.succ {n : Nat} (h : Settles P n payload) : Settles P (n + 1) payload := by
  induction n generalizing payload with
  | zero => exact ⟨h.1, fun r hr => absurd hr (h.2 r)⟩
  | succ n ih => exact ⟨h.1, fun r hr => ih (h.2 r hr)⟩

/-- An answered payload was parsed. -/
theorem answer_of_replyTo {r : Message} (h : ReplyTo P payload (some r)) :
    ∃ m, parsedMessage P payload = some m ∧ Answer m r := by
  unfold ReplyTo at h
  cases hm : parsedMessage P payload with
  | none =>
    rw [hm] at h
    cases h
  | some m =>
    rw [hm] at h
    simp only at h
    split at h
    · cases h
    · obtain ⟨r', hr', hanswer⟩ := h
      obtain rfl := Option.some.inj hr'
      exact ⟨m, rfl, hanswer⟩

/-- A reply is a response or the message `unknown`. -/
theorem answer_cases {m r : Message} (h : Answer m r) : r = unknownReply ∨ r.transaction = .Response := by
  unfold Answer at h
  split at h
  · exact .inl h
  split at h
  · obtain ⟨freq, samples, -, -, -, -, rfl⟩ := h
    exact .inr rfl
  split at h
  · obtain ⟨n, -, -, rfl⟩ := h
    exact .inr rfl
  · exact .inl h

theorem answer_response_unknown : Answer (.base "unknown" .Response) unknownReply := rfl

/-- What the echo of a reply is parsed to carries the reply's type, and is a response if the
reply is one. -/
theorem parsedMessage_echo (hdecode : RepliesDecode P) {m r m' : Message} (hr : Answer m r)
    (hm' : parsedMessage P (textOf P r) = some m') :
    MessageHandler.parse P ⟨r.type, Encoding.transactionBack r, textOf P r⟩ = some m' := by
  rcases (hdecode m r hr).2 with hdecodes | hunread
  · rwa [parsedMessage_of_decodes hdecodes] at hm'
  · rw [parsedMessage_of_unread hunread] at hm'
    cases hm'

theorem taken_echo (hdecode : RepliesDecode P) {m r : Message} (hr : Answer m r) :
    Taken P (textOf P r) :=
  ⟨(hdecode m r hr).1, (hdecode m r hr).2.imp (fun h => ⟨_, _, h⟩) id⟩

/-- The factory does not know the type `unknown`. -/
theorem settles_unknown (hdecode : RepliesDecode P) : Settles P 0 (textOf P unknownReply) := by
  refine ⟨taken_echo hdecode answer_response_unknown, fun r hr => ?_⟩
  obtain ⟨m, hm, -⟩ := answer_of_replyTo hr
  have hparse := parsedMessage_echo hdecode answer_response_unknown hm
  rcases MessageHandler.parse_class P hparse with ⟨ht, -⟩ | ⟨ht, -⟩ | ⟨ht, -⟩
  · exact absurd (show ("unknown" : String) = "raw" from ht) (by decide)
  · exact absurd (show ("unknown" : String) = "information" from ht) (by decide)
  · exact absurd (show ("unknown" : String) = "signal" from ht) (by decide)

/-- A response is answered with it. -/
theorem settles_reply (hdecode : RepliesDecode P) {m r : Message} (hr : Answer m r) :
    Settles P 1 (textOf P r) := by
  rcases answer_cases hr with rfl | hresponse
  · exact (settles_unknown hdecode).succ
  · refine ⟨taken_echo hdecode hr, fun r' hr' => ?_⟩
    obtain ⟨m', hm', hanswer⟩ := answer_of_replyTo hr'
    have htransaction : m'.transaction = .Response := by
      rw [(parse_carries (parsedMessage_echo hdecode hr hm')).2]
      exact (Encoding.transactionBack_eq_response r).mpr hresponse
    rw [Answer, if_pos htransaction] at hanswer
    rw [hanswer]
    exact settles_unknown hdecode

/-- And any frame, if at all, with one of the two. -/
theorem settles_taken (hdecode : RepliesDecode P) (htaken : Taken P payload) : Settles P 2 payload := by
  refine ⟨htaken, fun r hr => ?_⟩
  obtain ⟨m, -, hanswer⟩ := answer_of_replyTo hr
  exact settles_reply hdecode hanswer

/-! ## The exchange -/

/-- What is sent is the frame of the reply, if its length stands in `json_len`. -/
theorem textOf_of_sent {magicNumber : UInt32} {r : Message} {reply : Option Message}
    (h : sentIn P mode (lengthBytes P r) magicNumber reply = frame magicNumber (textOf P r)) :
    ∃ r', reply = some r' ∧ textOf P r' = textOf P r := by
  cases reply with
  | none => cases mode <;> cases h
  | some r' =>
    refine ⟨r', rfl, ?_⟩
    cases mode with
    | Sync => exact congrArg (List.drop 8) h
    | Async => exact congrArg (List.drop 8) h

/-- A frame that was sent is in front of the session again. -/
theorem at_echoed (sent : List UInt8) {a : Nat} (h : At a rest tx w) :
    At a (rest ++ sent) tx (echoed a sent w) := by
  have hat := h.modify (g := fun s => { s with rx := s.rx ++ sent }) (fun _ => rfl) (fun _ => rfl)
  rwa [h.rx, h.tx] at hat

/-- **Every reply takes one off the count.** The induction is on the exchange. -/
theorem chain_settles (hchain : Chain P ids server mode ptr w replies w') :
    ∀ {n : Nat} {payload tx : List UInt8}, Settles P n payload →
      At ptr.addr (frame server.magicNumber payload) tx w →
      ∃ k payload' tx', replies.length + k = n ∧ Settles P k payload' ∧
        At ptr.addr (frame server.magicNumber payload') tx' w' := by
  induction hchain with
  | start w => exact fun hsettles hat => ⟨_, _, _, Nat.zero_add _, hsettles, hat⟩
  | @reply w w₁ w' out r replies hread hsent hrest ih =>
    intro n payload tx hsettles hat
    have hround : Prog.twp (succeeding ids) _ (server.sessionRead P mode (lengthBytes P r) ptr) w :=
      twp_sessionRead_taken hsettles.taken (by rwa [List.append_nil])
    obtain ⟨-, -, reply, hreply, hat₁⟩ := (Prog.runs_of_twp hround).2 out w₁ hread
    -- the reply of this round is the one that comes back
    have hsentIn : sentIn P mode (lengthBytes P r) server.magicNumber reply
        = frame server.magicNumber (textOf P r) := by
      rw [hat₁.tx, hat.tx, List.append_cancel_left_eq] at hsent
      exact hsent
    obtain ⟨r', rfl, htext⟩ := textOf_of_sent hsentIn
    cases n with
    | zero => exact absurd hreply (hsettles.2 r')
    | succ n =>
      have hnext : Settles P n (textOf P r) := htext ▸ hsettles.2 r' hreply
      have hback := at_echoed (frame server.magicNumber (textOf P r)) hat₁
      rw [List.nil_append] at hback
      obtain ⟨k, payload', tx', hk, hsettles', hat'⟩ := ih hnext hback
      exact ⟨k, payload', tx', by rw [List.length_cons]; omega, hsettles', hat'⟩

/-- **An echo ends after two replies.** In either mode, for every message and every random
content of the replies: the server has sent at most two, and it always reads on and sends one
more only while there have been fewer. -/
theorem echoes_settle (hdecode : RepliesDecode P) (hpayload : WellFormed P payload)
    (h : At ptr.addr (frame server.magicNumber payload) tx w)
    (hchain : Chain P ids server mode ptr w replies w') :
    replies.length ≤ 2 ∧ ∀ four,
      (∃ out w₁, Prog.Runs (succeeding ids) (server.sessionRead P mode four ptr) w' out w₁) ∧
      ∀ out w₁, Prog.Runs (succeeding ids) (server.sessionRead P mode four ptr) w' out w₁ →
        out = .ok () ∧ ((w₁.sessions ptr.addr).tx = (w'.sessions ptr.addr).tx ∨
          replies.length < 2 ∧ ∃ r, (w₁.sessions ptr.addr).tx
            = (w'.sessions ptr.addr).tx ++ sentIn P mode four server.magicNumber (some r)) := by
  have htaken : Taken P payload := ⟨hpayload.1, .inl hpayload.2⟩
  obtain ⟨k, payload', tx', hk, hsettles, hat⟩ := chain_settles hchain (settles_taken hdecode htaken) h
  refine ⟨by omega, fun four => ?_⟩
  have hround : Prog.twp (succeeding ids) _ (server.sessionRead P mode four ptr) w' :=
    twp_sessionRead_taken hsettles.taken (by rwa [List.append_nil])
  refine ⟨(Prog.runs_of_twp hround).1, fun out w₁ hrun => ?_⟩
  obtain ⟨-, rfl, reply, hreply, hat₁⟩ := (Prog.runs_of_twp hround).2 out w₁ hrun
  refine ⟨rfl, ?_⟩
  rw [hat₁.tx, hat.tx]
  cases reply with
  | none => exact .inl (List.append_nil _)
  | some r =>
    cases k with
    | zero => exact absurd hreply (hsettles.2 r)
    | succ k => exact .inr ⟨by omega, r, rfl⟩

/-- A frame that has to be answered is. -/
theorem chain_extends (ids : Nat → UInt64) (htaken : Taken P payload)
    (h : At ptr.addr (frame server.magicNumber payload) tx w)
    (hanswered : ¬ ReplyTo P payload none) :
    ∃ r tx' w₁, ReplyTo P payload (some r) ∧
      At ptr.addr (frame server.magicNumber (textOf P r)) tx' w₁ ∧
      ∀ replies w', Chain P ids server .Sync ptr w₁ replies w' →
        Chain P ids server .Sync ptr w (r :: replies) w' := by
  have hround : Prog.twp (succeeding ids) _ (server.sessionRead P .Sync [] ptr) w :=
    twp_sessionRead_taken htaken (by rwa [List.append_nil])
  obtain ⟨out, w₁, hrun⟩ := (Prog.runs_of_twp hround).1
  obtain ⟨-, -, reply, hreply, hat₁⟩ := (Prog.runs_of_twp hround).2 out w₁ hrun
  cases reply with
  | none => exact absurd hreply hanswered
  | some r =>
    have hback := at_echoed (frame server.magicNumber (textOf P r)) hat₁
    rw [List.nil_append] at hback
    refine ⟨r, _, _, hreply, hback, fun replies w' hrest => .reply hrun ?_ hrest⟩
    rw [hat₁.tx, h.tx]
    rfl

/-- The header of a message comes back with its text. -/
theorem decodes_textOf {r : Message} (h : PlainString r.type) :
    Decodes jsonPlatform (textOf jsonPlatform r) r.type r.writtenTransaction := by
  have hparse : jsonPlatform.parse (textOf jsonPlatform r) = ⟨.success, (r.serialize jsonPlatform).reparsed⟩ :=
    roundTrips_plain (plain_serialize h)
  unfold Decodes
  rw [hparse]
  cases r with
  | base t tr => exact ⟨rfl, _, rfl, rfl, rfl⟩
  | SignalMessage t tr freq signal => exact ⟨rfl, _, rfl, rfl, rfl⟩
  | InformationMessage t tr cores => exact ⟨rfl, _, rfl, rfl, rfl⟩
  | RawMessage t tr data => exact ⟨rfl, _, rfl, rfl, rfl⟩

theorem length_int32_le (n : Int32) : (text (.int64 n.toInt64)).length ≤ 11 := by
  rw [text, Int32.toInt_toInt64]
  have hlo := n.le_toInt
  have hhi := n.toInt_lt
  exact Numerals.length_numeral_le (by decide) (by omega)

/-- Every sample is as long as every other. -/
theorem length_samples_le (first : Bool) (samples : List (FloatBits × FloatBits)) :
    (elements first (samples.map (Message.sampleJson jsonPlatform))).length ≤ 10 * samples.length + 1 := by
  induction samples generalizing first with
  | nil => rw [List.map_nil, elements]; decide
  | cons c samples ih =>
    have hrest := ih false
    have hsample : (text (Message.sampleJson jsonPlatform c)).length = 9 := rfl
    rw [List.map_cons, elements, List.length_append, List.length_append, hsample, List.length_cons]
    cases first with
    | true =>
      simp only [if_true, List.length_nil]
      omega
    | false =>
      simp only [Bool.false_eq_true, if_false, List.length_singleton]
      omega

/-- The text of a response with a number. -/
theorem textOf_information (n : Int32) :
    textOf jsonPlatform (.InformationMessage "information" .Response (some n))
      = ascii "\x7b\"type\":\"information\",\"transaction\":1,\"numberCore\":"
        ++ (text (.int64 n.toInt64) ++ ascii "\x7d") :=
  rfl

/-- The text of a response with samples. -/
theorem textOf_signal (freq : Int32) (samples : List (FloatBits × FloatBits)) :
    textOf jsonPlatform (.SignalMessage "signal" .Response (some freq) samples)
      = ascii "\x7b\"type\":\"signal\",\"transaction\":1,\"central_Freq\":"
        ++ (text (.int64 freq.toInt64) ++ (ascii ",\"signal\":["
          ++ (elements true (samples.map (Message.sampleJson jsonPlatform)) ++ ascii "\x7d"))) :=
  rfl

/-- The texts of the replies are short, and their headers come back. -/
theorem repliesDecode_jsonPlatform : RepliesDecode jsonPlatform := by
  have hunknown : (textOf jsonPlatform unknownReply).length < 2 ^ 32 ∧
      Decodes jsonPlatform (textOf jsonPlatform unknownReply) "unknown" (-1) :=
    ⟨by decide, decodes_textOf (r := unknownReply) plainString_unknown⟩
  have hlength : ∀ {a b : Nat}, a < 100 → b < 1000 → a + b < 2 ^ 32 := by omega
  intro m r hr
  unfold Answer at hr
  split at hr
  · rw [hr]
    exact ⟨hunknown.1, .inl hunknown.2⟩
  split at hr
  · obtain ⟨freq, samples, -, -, -, hsamples, rfl⟩ := hr
    refine ⟨?_, .inl (decodes_textOf plainString_signal)⟩
    have hfreq := length_int32_le freq
    have htexts := length_samples_le true samples
    rw [textOf_signal, List.length_append]
    refine hlength (by decide) ?_
    rw [List.length_append, List.length_append, List.length_append]
    have hkey : (ascii ",\"signal\":[").length = 11 := rfl
    have hend : (ascii "\x7d").length = 1 := rfl
    omega
  split at hr
  · obtain ⟨n, -, -, rfl⟩ := hr
    refine ⟨?_, .inl (decodes_textOf plainString_information)⟩
    have hn := length_int32_le n
    rw [textOf_information, List.length_append]
    refine hlength (by decide) ?_
    rw [List.length_append]
    have hend : (ascii "\x7d").length = 1 := rfl
    omega
  · rw [hr]
    exact ⟨hunknown.1, .inl hunknown.2⟩

/-- A request for information, and a response to it. -/
def question : List UInt8 := headerText "information" 0

def answer (n : Int32) : List UInt8 :=
  textOf jsonPlatform (.InformationMessage "information" .Response (some n))

theorem decodes_question : Decodes jsonPlatform question "information" 0 :=
  decodes_headerText plainString_information 0

theorem parsedMessage_question : parsedMessage jsonPlatform question
    = some (.InformationMessage "information" .Request none) :=
  (parsedMessage_of_decodes decodes_question).trans
    (MessageHandler.parse_serialize jsonPlatform .informationRequest
      (roundTrips_plain (plain_serialize plainString_information)) nofun)

theorem parsedMessage_answer (n : Int32) : parsedMessage jsonPlatform (answer n)
    = some (.InformationMessage "information" .Response (some n)) :=
  (parsedMessage_of_decodes (decodes_textOf
    (r := .InformationMessage "information" .Response (some n)) plainString_information)).trans
    (MessageHandler.parse_serialize jsonPlatform (.information n)
      (roundTrips_plain (plain_serialize plainString_information)) nofun)

/-- A session with a request for information in front of it. -/
def requested : World :=
  { World.init with isWork := true, sessions := fun _ =>
    { SessionObject.new with isOpen := true, rx := frame 7 question } }

/-- A request for information is followed by two replies, and by no third. -/
theorem information_echo_settles : ∃ replies w',
    Chain jsonPlatform (fun _ => 0) plainServer .Sync ⟨0, 0⟩ requested replies w' ∧
      replies.length = 2 ∧
      ∀ out w₁, Prog.Runs (succeeding (fun _ => 0)) (plainServer.sessionRead jsonPlatform .Sync [] ⟨0, 0⟩)
        w' out w₁ → (w₁.sessions 0).tx = (w'.sessions 0).tx := by
  have hpayload : WellFormed jsonPlatform question := ⟨by decide, "information", 0, decodes_question⟩
  have hat : At (SessionPtr.mk 0 0).addr (frame plainServer.magicNumber question) [] requested :=
    ⟨rfl, rfl, rfl, rfl, rfl⟩
  -- what is parsed and not raw gets an answer
  have hanswer : ∀ {payload : List UInt8} {m : Message} {reply : Option Message},
      parsedMessage jsonPlatform payload = some m → m.type = "information" →
      ReplyTo jsonPlatform payload reply → ∃ r, reply = some r ∧ Answer m r := by
    intro payload m reply hparsed htype hreply
    rw [ReplyTo, hparsed] at hreply
    simp only [htype] at hreply
    rwa [if_neg (by decide)] at hreply
  -- the response
  obtain ⟨r, tx₁, w₁, hreply, hat₁, hchain₁⟩ := chain_extends (fun _ => 0)
    ⟨hpayload.1, .inl hpayload.2⟩ hat (fun h => by
      obtain ⟨r, hr, -⟩ := hanswer parsedMessage_question rfl h
      cases hr)
  obtain ⟨r', hr', hr⟩ := hanswer parsedMessage_question rfl hreply
  obtain rfl := Option.some.inj hr'
  obtain ⟨n, hlo, hhi, rfl⟩ : ∃ n, 5 ≤ n ∧ n ≤ 20 ∧
    r = .InformationMessage "information" .Response (some n) := hr
  -- and the message that a response is answered with
  have htaken := taken_echo repliesDecode_jsonPlatform (m := .base "information" .Request)
    ⟨n, hlo, hhi, rfl⟩
  obtain ⟨r', tx₂, w₂, -, hat₂, hchain₂⟩ := chain_extends (fun _ => 0) htaken hat₁
    (fun h => by
      obtain ⟨r, hr, -⟩ := hanswer (parsedMessage_answer n) rfl h
      cases hr)
  have hchain := hchain₁ _ _ (hchain₂ _ _ (.start w₂))
  refine ⟨_, _, hchain, rfl, fun out w₃ hrun => ?_⟩
  obtain ⟨-, hsilent⟩ := ((echoes_settle repliesDecode_jsonPlatform hpayload hat hchain).2 []).2 out w₃ hrun
  rcases hsilent with h | ⟨h, -⟩
  · exact h
  · exact absurd h (Nat.lt_irrefl 2)

end NetworkApplication.Echo
