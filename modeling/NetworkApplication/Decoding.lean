/-
What `MessageHandler::parse` accepts, and what it makes of it.

Acceptance is spread over the JSON parser, the factory's map and three constructors. Two of
these throw where a field is missing or has the wrong kind, and `createMessage` turns what
they throw into a null message; the third catches on its own and gives up in the middle of
its loop. So `parse` returns normally whatever it is given, and its language can be written
down (`Rejected`).

What it accepts it does not always keep. A number is narrowed to the member's width without a
look at its range, an element of `signal` that is not a pair is skipped, and of `data` that is
cut off at its first wrong element the bytes before it stay.
-/
import NetworkApplication.JsonText
import NetworkApplication.MessageHandler
import Mathlib.Algebra.Group.Int.Defs
import Mathlib.Data.List.Forall2
import Mathlib.Tactic.ByContra

set_option autoImplicit false

namespace NetworkApplication

namespace Json

/-- `jv` is an object with the value `v` under `key`. -/
def Field (jv : Json) (key : String) (v : Json) : Prop :=
  ∃ fields, jv = .object fields ∧ fields.lookup key = some v

theorem at_eq_ok_iff_field {jv v : Json} {key : String} : jv.at_ key = .ok v ↔ jv.Field key v :=
  at_eq_ok_iff

/-- A key has one value. -/
theorem Field.unique {jv v v' : Json} {key : String} (h : jv.Field key v) (h' : jv.Field key v') :
    v = v' := by
  rw [← at_eq_ok_iff_field] at h h'
  exact Except.ok.inj (h.symm.trans h')

theorem as_array_eq_ok_iff {jv : Json} {l : List Json} : jv.as_array = .ok l ↔ jv = .array l := by
  cases jv <;> simp [as_array]

theorem as_double_eq_ok_iff {jv : Json} {d : DoubleBits} : jv.as_double = .ok d ↔ jv = .double d := by
  cases jv <;> simp [as_double]

end Json

namespace Decoding

open MessageHandler

variable {P : Platform}

/-! ## The exceptions -/

/-- `createMessage`, with the exception that a constructor may throw and the handler that
catches it. -/
def createMessage (creator : CreatorMessage) (t : String) (tr : Transaction) (jv : Json) :
    Except Exception (Option Message) :=
  let it := creator.factory.lookup t
  tryCatch (do
    match it with
    | some function =>
      let message ← function t tr jv
      return some message
    | none => return none) (fun _ => return none)

/-- `MessageHandler::parse` over it. -/
def parse (P : Platform) (transport_message : TransportMessage) :
    Except Exception (Option Message) := do
  let parsed := P.parse transport_message.payload
  if parsed.error.failed then
    return none
  createMessage (creator_message P) transport_message.type transport_message.transaction parsed.value

theorem createMessage_returns (creator : CreatorMessage) (t : String) (tr : Transaction) (jv : Json) :
    createMessage creator t tr jv = .ok (creator.createMessage t tr jv) := by
  unfold createMessage CreatorMessage.createMessage
  cases creator.factory.lookup t with
  | none => rfl
  | some function =>
    simp only
    cases function t tr jv with
    | error e => rfl
    | ok message => rfl

/-- Nothing is thrown out of `parse`. -/
theorem parse_returns (tm : TransportMessage) : parse P tm = .ok (MessageHandler.parse P tm) := by
  unfold parse MessageHandler.parse
  simp only
  split
  · rfl
  · exact createMessage_returns ..

/-! ## The language -/

/-- A two-element array with a component that is no `double`. -/
def BadPair (v : Json) : Prop :=
  ∃ re im, v = .array [re, im] ∧ ((∀ d, re ≠ .double d) ∨ ∀ d, im ≠ .double d)

/-- What `parse` returns a null message for. -/
inductive Rejected (P : Platform) (tm : TransportMessage) : Prop where
  | invalid (h : (P.parse tm.payload).error.failed = true)
  | unknown (hsignal : tm.type ≠ "signal") (hinformation : tm.type ≠ "information")
      (hraw : tm.type ≠ "raw")
  | information (htr : tm.transaction = .Response) (ht : tm.type = "information")
      (h : ¬ ∃ n, (P.parse tm.payload).value.Field "numberCore" (.int64 n))
  | signal (htr : tm.transaction = .Response) (ht : tm.type = "signal")
      (h : ¬ ∃ n l, (P.parse tm.payload).value.Field "central_Freq" (.int64 n) ∧
        (P.parse tm.payload).value.Field "signal" (.array l))
  | pair (htr : tm.transaction = .Response) (ht : tm.type = "signal") (l : List Json) (v : Json)
      (hl : (P.parse tm.payload).value.Field "signal" (.array l)) (hv : v ∈ l) (h : BadPair v)

/-- The class that a type names. -/
def OfClass : String → Message → Prop
  | t, .SignalMessage _ _ _ _ => t = "signal"
  | t, .InformationMessage _ _ _ => t = "information"
  | t, .RawMessage _ _ _ => t = "raw"
  | _, .base _ _ => False

/-! ## The constructors -/

/-- One element of the loop: a pair is read, anything else is passed over. -/
theorem readSignal_cons (v : Json) (l : List Json) :
    (∃ re im, v = .array [re, im] ∧ Message.readSignal P (v :: l) = (do
        let real ← re.as_double
        let imag ← im.as_double
        let signal ← Message.readSignal P l
        return (P.toFloat real, P.toFloat imag) :: signal)) ∨
      (∀ re im, v ≠ .array [re, im]) ∧ Message.readSignal P (v :: l) = Message.readSignal P l := by
  match v with
  | .array [re, im] => exact .inl ⟨re, im, rfl, rfl⟩
  | .array [] | .array [_] | .array (_ :: _ :: _ :: _) | .null | .bool _ | .int64 _ | .uint64 _
  | .double _ | .string _ | .object _ => exact .inr ⟨by simp, rfl⟩

/-- The loop ends unless it comes to a bad pair. The induction is on the array; a bad pair may
be anywhere in it. -/
theorem readSignal_throws_iff (l : List Json) :
    (∃ e, Message.readSignal P l = .error e) ↔ ∃ v ∈ l, BadPair v := by
  induction l with
  | nil => simp [Message.readSignal]
  | cons v l ih =>
    simp only [List.mem_cons, exists_eq_or_imp]
    rcases readSignal_cons (P := P) v l with ⟨re, im, rfl, hread⟩ | ⟨hnot, hread⟩
    · rw [hread, ← ih]
      -- the first of the two is looked at first, and the rest only behind a good pair
      by_cases hre : ∃ d, re = .double d
      · obtain ⟨d, rfl⟩ := hre
        by_cases him : ∃ d, im = .double d
        · obtain ⟨d', rfl⟩ := him
          have hgood : ¬ BadPair (.array [.double d, .double d']) := by
            rintro ⟨_, _, heq, hbad⟩
            cases heq
            exact hbad.elim (fun h => h d rfl) (fun h => h d' rfl)
          rw [or_iff_right hgood]
          cases Message.readSignal P l with
          | error e => simp [Json.as_double, bind, Except.bind]
          | ok samples => simp [Json.as_double, bind, Except.bind, pure, Except.pure]
        · have hbad : BadPair (.array [.double d, im]) :=
            ⟨_, _, rfl, .inr (fun d' h => him ⟨d', h⟩)⟩
          have hthrows : im.as_double = .error .not_double := by
            cases im with
            | double d' => exact absurd ⟨d', rfl⟩ him
            | _ => rfl
          rw [hthrows]
          exact iff_of_true ⟨.not_double, rfl⟩ (.inl hbad)
      · have hbad : BadPair (.array [re, im]) := ⟨_, _, rfl, .inl (fun d h => hre ⟨d, h⟩)⟩
        have hthrows : re.as_double = .error .not_double := by
          cases re with
          | double d => exact absurd ⟨d, rfl⟩ hre
          | _ => rfl
        rw [hthrows]
        exact iff_of_true ⟨.not_double, rfl⟩ (.inl hbad)
    · have hgood : ¬ BadPair v := by
        rintro ⟨re, im, heq, -⟩
        exact hnot re im heq
      -- what is passed over does not end the loop
      rw [hread, ih, or_iff_right hgood]

/-- An `InformationMessage` out of a response. -/
theorem information_eq_ok_iff {t : String} {jv : Json} {m : Message} :
    Message.information_of_json t .Response jv = .ok m
      ↔ ∃ n, jv.Field "numberCore" (.int64 n) ∧
        m = .InformationMessage t .Response (some n.toInt32) := by
  unfold Message.information_of_json
  rw [if_pos rfl]
  constructor
  · intro h
    obtain ⟨v, hv, h₁⟩ := except_bind_eq_ok.mp h
    obtain ⟨n, hn, h₂⟩ := except_bind_eq_ok.mp h₁
    obtain rfl := Json.as_int64_eq_ok_iff.mp hn
    exact ⟨n, Json.at_eq_ok_iff_field.mp hv, (Except.ok.inj h₂).symm⟩
  · rintro ⟨n, hn, rfl⟩
    rw [Json.at_eq_ok_iff_field.mpr hn]
    rfl

/-- A `SignalMessage` out of a response. -/
theorem signal_eq_ok_iff {t : String} {jv : Json} {m : Message} :
    Message.signal_of_json P t .Response jv = .ok m
      ↔ ∃ n l samples, jv.Field "central_Freq" (.int64 n) ∧ jv.Field "signal" (.array l) ∧
        Message.readSignal P l = .ok samples ∧
        m = .SignalMessage t .Response (some n.toInt32) samples := by
  unfold Message.signal_of_json
  rw [if_pos rfl]
  constructor
  · intro h
    obtain ⟨v, hv, h₁⟩ := except_bind_eq_ok.mp h
    obtain ⟨n, hn, h₂⟩ := except_bind_eq_ok.mp h₁
    obtain ⟨a, ha, h₃⟩ := except_bind_eq_ok.mp h₂
    obtain ⟨l, hl, h₄⟩ := except_bind_eq_ok.mp h₃
    obtain ⟨samples, hsamples, h₅⟩ := except_bind_eq_ok.mp h₄
    obtain rfl := Json.as_int64_eq_ok_iff.mp hn
    obtain rfl := Json.as_array_eq_ok_iff.mp hl
    exact ⟨n, l, samples, Json.at_eq_ok_iff_field.mp hv, Json.at_eq_ok_iff_field.mp ha, hsamples,
      (Except.ok.inj h₅).symm⟩
  · rintro ⟨n, l, samples, hn, hl, hsamples, rfl⟩
    rw [Json.at_eq_ok_iff_field.mpr hn, Json.at_eq_ok_iff_field.mpr hl]
    simp only [Json.as_int64, Json.as_array, hsamples, bind, Except.bind, pure, Except.pure]

/-- A `RawMessage` out of a response: it has the integers up to the first element that is none. -/
theorem raw_of_field {t : String} {jv : Json} {l : List Json} (h : jv.Field "data" (.array l)) :
    Message.raw_of_json t .Response jv = .RawMessage t .Response (Message.readData l) := by
  unfold Message.raw_of_json
  rw [if_pos rfl, Json.at_eq_ok_iff_field.mpr h]
  rfl

/-! ## Acceptance -/

theorem except_toOption_eq_none {ε α : Type} {x : Except ε α} :
    x.toOption = none ↔ ∀ a, x ≠ .ok a := by
  cases x <;> simp [Except.toOption]

/-- What the factory is asked for when the payload is JSON. -/
theorem parse_of_valid {tm : TransportMessage} (h : (P.parse tm.payload).error.failed = false) :
    MessageHandler.parse P tm
      = (creator_message P).createMessage tm.type tm.transaction (P.parse tm.payload).value := by
  unfold MessageHandler.parse
  simp only [h, Bool.false_eq_true, if_false]

/-- Only a response is looked at. -/
theorem information_null_iff {t : String} {tr : Transaction} {jv : Json} :
    (Message.information_of_json t tr jv).toOption = none
      ↔ tr = .Response ∧ ¬ ∃ n, jv.Field "numberCore" (.int64 n) := by
  by_cases htr : tr = .Response
  · subst htr
    rw [except_toOption_eq_none, and_iff_right rfl]
    constructor
    · rintro h ⟨n, hn⟩
      exact h _ (information_eq_ok_iff.mpr ⟨n, hn, rfl⟩)
    · intro h m hm
      obtain ⟨n, hn, -⟩ := information_eq_ok_iff.mp hm
      exact h ⟨n, hn⟩
  · simp [Message.information_of_json, htr, Except.toOption]

theorem signal_null_iff {t : String} {tr : Transaction} {jv : Json} :
    (Message.signal_of_json P t tr jv).toOption = none
      ↔ tr = .Response ∧ ((¬ ∃ n l, jv.Field "central_Freq" (.int64 n) ∧ jv.Field "signal" (.array l)) ∨
        ∃ l, jv.Field "signal" (.array l) ∧ ∃ v ∈ l, BadPair v) := by
  by_cases htr : tr = .Response
  · subst htr
    rw [except_toOption_eq_none, and_iff_right rfl]
    constructor
    · intro h
      by_contra hnot
      obtain ⟨hfields, hpairs⟩ := not_or.mp hnot
      obtain ⟨n, l, hn, hl⟩ := not_not.mp hfields
      cases hread : Message.readSignal P l with
      | error e => exact hpairs ⟨l, hl, (readSignal_throws_iff l).mp ⟨e, hread⟩⟩
      | ok samples => exact h _ (signal_eq_ok_iff.mpr ⟨n, l, samples, hn, hl, hread, rfl⟩)
    · intro h m hm
      obtain ⟨n, l, samples, hn, hl, hread, -⟩ := signal_eq_ok_iff.mp hm
      rcases h with hfields | ⟨l', hl', hbad⟩
      · exact hfields ⟨n, l, hn, hl⟩
      · obtain rfl := Json.array.inj (hl.unique hl')
        obtain ⟨e, hthrows⟩ := (readSignal_throws_iff (P := P) l).mpr hbad
        exact absurd (hthrows.symm.trans hread) (by simp)
  · simp [Message.signal_of_json, htr, Except.toOption]

/-- A null message comes of what is rejected. -/
theorem parse_null_iff (tm : TransportMessage) :
    MessageHandler.parse P tm = none ↔ Rejected P tm := by
  cases hvalid : (P.parse tm.payload).error.failed with
  | true => exact iff_of_true (parse_of_failed P hvalid) (.invalid hvalid)
  | false =>
    have hnot : ¬ (P.parse tm.payload).error.failed = true := by simp [hvalid]
    rw [parse_of_valid hvalid, createMessage_eq]
    -- the type decides, in the order of the factory
    by_cases hraw : tm.type = "raw"
    · rw [if_pos hraw]
      refine iff_of_false (by simp) (fun h => ?_)
      cases h with
      | invalid h => exact hnot h
      | unknown _ _ h => exact h hraw
      | information _ ht _ => exact absurd (ht.symm.trans hraw) (by decide)
      | signal _ ht _ => exact absurd (ht.symm.trans hraw) (by decide)
      | pair _ ht _ _ _ _ _ => exact absurd (ht.symm.trans hraw) (by decide)
    rw [if_neg hraw]
    by_cases hinformation : tm.type = "information"
    · rw [if_pos hinformation, information_null_iff]
      constructor
      · exact fun h => .information h.1 hinformation h.2
      · intro h
        cases h with
        | invalid h => exact absurd h hnot
        | unknown _ h _ => exact absurd hinformation h
        | information htr _ h => exact ⟨htr, h⟩
        | signal _ ht _ => exact absurd (ht.symm.trans hinformation) (by decide)
        | pair _ ht _ _ _ _ _ => exact absurd (ht.symm.trans hinformation) (by decide)
    rw [if_neg hinformation]
    by_cases hsignal : tm.type = "signal"
    · rw [if_pos hsignal, signal_null_iff]
      constructor
      · rintro ⟨htr, h | ⟨l, hl, v, hv, hbad⟩⟩
        · exact .signal htr hsignal h
        · exact .pair htr hsignal l v hl hv hbad
      · intro h
        cases h with
        | invalid h => exact absurd h hnot
        | unknown h _ _ => exact absurd hsignal h
        | information _ ht _ => exact absurd ht hinformation
        | signal htr _ h => exact ⟨htr, .inl h⟩
        | pair htr _ l v hl hv hbad => exact ⟨htr, .inr ⟨l, hl, v, hv, hbad⟩⟩
    · rw [if_neg hsignal]
      exact iff_of_true rfl (.unknown hsignal hinformation hraw)

/-- **The language of `parse`**: it returns, with a null message for what is rejected and for
nothing else, and otherwise with a message of the class its type names that carries the type
and the transaction. -/
theorem parse_language (P : Platform) (tm : TransportMessage) :
    ∃ message, parse P tm = .ok message ∧ (message = none ↔ Rejected P tm) ∧
      ∀ m, message = some m → OfClass tm.type m ∧ m.type = tm.type ∧
        m.transaction = tm.transaction := by
  refine ⟨MessageHandler.parse P tm, parse_returns tm, parse_null_iff tm, fun m hm => ?_⟩
  rcases parse_class P hm with ⟨ht, _, rfl⟩ | ⟨ht, _, rfl⟩ | ⟨ht, _, _, rfl⟩
  · exact ⟨ht, rfl, rfl⟩
  · exact ⟨ht, rfl, rfl⟩
  · exact ⟨ht, rfl, rfl⟩

/-! ## What is kept

A decoder is asked for what the payload says: the bytes and the integers with their values, and
of the samples the floats nearest to their numbers. What an integer is as a float (`ofInt`) is
left open; no integer gets that far. -/

/-- The value of an integer. -/
def integer : Json → Option Int
  | .int64 n => some n.toInt
  | .uint64 n => some n.toNat
  | _ => none

/-- A number as a float. -/
def asFloat (P : Platform) (ofInt : Int → FloatBits) : Json → Option FloatBits
  | .double d => some (P.toFloat d)
  | v => (integer v).map ofInt

/-- A pair of numbers, with their values as a sample. -/
def IsSample (P : Platform) (ofInt : Int → FloatBits) (v : Json) (c : FloatBits × FloatBits) : Prop :=
  ∃ re im, v = .array [re, im] ∧ asFloat P ofInt re = some c.1 ∧ asFloat P ofInt im = some c.2

/-- The message says what the payload does. -/
def Faithful (P : Platform) (ofInt : Int → FloatBits) (jv : Json) : Option Message → Prop
  | some (.RawMessage _ _ data) => ∃ l, jv.Field "data" (.array l) ∧
    l.map integer = data.map (fun b => some (b.toNat : Int))
  | some (.SignalMessage _ _ freq samples) =>
    (∃ l, jv.Field "signal" (.array l) ∧ List.Forall₂ (IsSample P ofInt) l samples) ∧
      ∃ n v, freq = some n ∧ jv.Field "central_Freq" v ∧ integer v = some n.toInt
  | some (.InformationMessage _ _ cores) =>
    ∃ n v, cores = some n ∧ jv.Field "numberCore" v ∧ integer v = some n.toInt
  | some (.base _ _) => False
  | none => True

/-- The integer has a value that a member of type `int` can have. -/
def Fits (n : Int64) : Prop := -2 ^ 31 ≤ n.toInt ∧ n.toInt < 2 ^ 31

/-- The payload has nothing that is narrowed, skipped or cut off. -/
structure Clean (type : String) (jv : Json) : Prop where
  raw : type = "raw" → ∃ l, jv.Field "data" (.array l) ∧
    ∀ v ∈ l, ∃ n, v = .int64 n ∧ 0 ≤ n.toInt ∧ n.toInt ≤ 255
  signal : type = "signal" → ∀ l, jv.Field "signal" (.array l) → ∀ v ∈ l, ∃ re im, v = .array [re, im]
  central_Freq : type = "signal" → ∀ n, jv.Field "central_Freq" (.int64 n) → Fits n
  numberCore : type = "information" → ∀ n, jv.Field "numberCore" (.int64 n) → Fits n

/-- Narrowing keeps what fits. -/
theorem toInt32_eq_iff (n : Int64) : n.toInt32.toInt = n.toInt ↔ Fits n := by
  rw [Int64.toInt_toInt32, Int.bmod_def, Fits]
  omega

/-- Narrowing to a byte keeps what is one. -/
theorem toUInt8_eq_iff (n : Int64) :
    n.toInt = (n.toUInt64.toUInt8.toNat : Int) ↔ 0 ≤ n.toInt ∧ n.toInt ≤ 255 := by
  have hlt := n.toUInt64.toUInt8.toNat_lt
  constructor
  · intro h
    omega
  · rintro ⟨hpos, hle⟩
    have hn : 0 ≤ n := Int64.le_iff_toInt_le.mpr hpos
    have hnat : n.toUInt64.toNat = n.toInt.toNat := Int64.toNat_toUInt64_of_le hn
    rw [UInt64.toNat_toUInt8, hnat]
    omega

/-- What the loop of `RawMessage` makes of an array. -/
theorem readData_faithful_iff (l : List Json) :
    l.map integer = (Message.readData l).map (fun b => some (b.toNat : Int))
      ↔ ∀ v ∈ l, ∃ n, v = .int64 n ∧ 0 ≤ n.toInt ∧ n.toInt ≤ 255 := by
  induction l with
  | nil => simp [Message.readData]
  | cons v l ih =>
    rw [List.forall_mem_cons, ← ih]
    cases v with
    | int64 n =>
      have hn := toUInt8_eq_iff n
      simp only [Message.readData, List.map_cons, List.cons.injEq, integer, Option.some.injEq,
        Json.int64.injEq, exists_eq_left', hn]
    | _ => simp [Message.readData]

/-- The loop of `SignalMessage` keeps every element if they are all pairs. -/
theorem readSignal_faithful_iff (ofInt : Int → FloatBits) {l : List Json}
    {samples : List (FloatBits × FloatBits)} (h : Message.readSignal P l = .ok samples) :
    List.Forall₂ (IsSample P ofInt) l samples ↔ ∀ v ∈ l, ∃ re im, v = .array [re, im] := by
  induction l generalizing samples with
  | nil =>
    obtain rfl := Except.ok.inj h
    simp
  | cons v l ih =>
    rw [List.forall_mem_cons]
    rcases readSignal_cons (P := P) v l with ⟨re, im, rfl, hread⟩ | ⟨hnot, hread⟩
    · rw [hread] at h
      obtain ⟨real, hre, h₁⟩ := except_bind_eq_ok.mp h
      obtain ⟨imag, him, h₂⟩ := except_bind_eq_ok.mp h₁
      obtain ⟨rest, hrest, h₃⟩ := except_bind_eq_ok.mp h₂
      obtain rfl := Except.ok.inj h₃
      obtain rfl := Json.as_double_eq_ok_iff.mp hre
      obtain rfl := Json.as_double_eq_ok_iff.mp him
      rw [List.forall₂_cons, ih hrest]
      exact and_congr_left fun _ => iff_of_true ⟨_, _, rfl, rfl, rfl⟩ ⟨_, _, rfl⟩
    · refine iff_of_false (fun hall => ?_) (fun hall => ?_)
      · cases hall with
        | cons hv _ =>
          obtain ⟨re, im, heq, -⟩ := hv
          exact hnot re im heq
      · obtain ⟨⟨re, im, heq⟩, -⟩ := hall
        exact hnot re im heq

/-- What a response is decoded to, class by class. -/
theorem faithful_raw_iff (ofInt : Int → FloatBits) (t : String) (jv : Json) :
    Faithful P ofInt jv (some (Message.raw_of_json t .Response jv))
      ↔ ∃ l, jv.Field "data" (.array l) ∧ ∀ v ∈ l, ∃ n, v = .int64 n ∧ 0 ≤ n.toInt ∧ n.toInt ≤ 255 := by
  by_cases hfield : ∃ l, jv.Field "data" (.array l)
  · obtain ⟨l, hl⟩ := hfield
    rw [raw_of_field hl]
    constructor
    · rintro ⟨l', hl', hdata⟩
      obtain rfl := Json.array.inj (hl.unique hl')
      exact ⟨l, hl, (readData_faithful_iff l).mp hdata⟩
    · rintro ⟨l', hl', hdata⟩
      obtain rfl := Json.array.inj (hl.unique hl')
      exact ⟨l, hl, (readData_faithful_iff l).mpr hdata⟩
  · refine iff_of_false (fun h => hfield ?_) (fun ⟨l, hl, _⟩ => hfield ⟨l, hl⟩)
    obtain ⟨data, hdata⟩ := raw_of_json_class t .Response jv
    rw [hdata] at h
    obtain ⟨l, hl, -⟩ := h
    exact ⟨l, hl⟩

theorem faithful_information_iff (ofInt : Int → FloatBits) {t : String} {jv : Json} {n : Int64}
    (hn : jv.Field "numberCore" (.int64 n)) :
    Faithful P ofInt jv (some (.InformationMessage t .Response (some n.toInt32))) ↔ Fits n := by
  rw [← toInt32_eq_iff]
  constructor
  · rintro ⟨_, v, hsome, hv, hvalue⟩
    obtain rfl := Option.some.inj hsome
    obtain rfl := hn.unique hv
    exact (Option.some.inj hvalue).symm
  · exact fun h => ⟨_, _, rfl, hn, congrArg some h.symm⟩

theorem faithful_signal_iff (ofInt : Int → FloatBits) {t : String} {jv : Json} {n : Int64}
    {l : List Json} {samples : List (FloatBits × FloatBits)}
    (hn : jv.Field "central_Freq" (.int64 n)) (hl : jv.Field "signal" (.array l))
    (hread : Message.readSignal P l = .ok samples) :
    Faithful P ofInt jv (some (.SignalMessage t .Response (some n.toInt32) samples))
      ↔ (∀ v ∈ l, ∃ re im, v = .array [re, im]) ∧ Fits n := by
  rw [← toInt32_eq_iff, ← readSignal_faithful_iff ofInt hread]
  constructor
  · rintro ⟨⟨l', hl', hsamples⟩, _, v, hsome, hv, hvalue⟩
    obtain rfl := Json.array.inj (hl.unique hl')
    obtain rfl := Option.some.inj hsome
    obtain rfl := hn.unique hv
    exact ⟨hsamples, (Option.some.inj hvalue).symm⟩
  · exact fun h => ⟨⟨l, hl, h.1⟩, _, _, rfl, hn, congrArg some h.2.symm⟩

/-- **What is decoded is what the payload says** exactly for a payload that is rejected or has
nothing to narrow, to skip or to cut off. -/
theorem decodes_faithfully_iff (P : Platform) (ofInt : Int → FloatBits) (type : String)
    (payload : List UInt8) :
    Faithful P ofInt (P.parse payload).value (MessageHandler.parse P ⟨type, .Response, payload⟩)
      ↔ Rejected P ⟨type, .Response, payload⟩ ∨ Clean type (P.parse payload).value := by
  set tm : TransportMessage := ⟨type, .Response, payload⟩
  by_cases hrejected : Rejected P tm
  · rw [(parse_null_iff tm).mpr hrejected]
    exact iff_of_true trivial (.inl hrejected)
  rw [or_iff_right hrejected]
  -- what is not rejected has parsed
  have hvalid : (P.parse tm.payload).error.failed = false := by
    rw [← Bool.not_eq_true]
    exact fun h => hrejected (.invalid h)
  rw [parse_of_valid hvalid, createMessage_eq]
  by_cases hraw : type = "raw"
  · subst hraw
    rw [if_pos rfl, faithful_raw_iff]
    exact ⟨fun h => ⟨fun _ => h, by simp, by simp, by simp⟩, fun h => h.raw rfl⟩
  rw [if_neg hraw]
  by_cases hinformation : type = "information"
  · subst hinformation
    rw [if_pos rfl]
    -- what the factory refuses has been rejected
    cases hread : Message.information_of_json "information" .Response (P.parse payload).value with
    | error e =>
      refine absurd (.information rfl rfl (fun ⟨n, hn⟩ => ?_)) hrejected
      exact absurd (hread.symm.trans (information_eq_ok_iff.mpr ⟨n, hn, rfl⟩)) (by simp)
    | ok m =>
      obtain ⟨n, hn, rfl⟩ := information_eq_ok_iff.mp hread
      refine (faithful_information_iff ofInt hn).trans ⟨fun h => ⟨by simp, by simp, by simp, fun _ n' hn' => ?_⟩,
        fun h => h.numberCore rfl n hn⟩
      obtain rfl := Json.int64.inj (hn.unique hn')
      exact h
  rw [if_neg hinformation]
  by_cases hsignal : type = "signal"
  · subst hsignal
    rw [if_pos rfl]
    cases hread : Message.signal_of_json P "signal" .Response (P.parse payload).value with
    | error e =>
      have hnull : (Message.signal_of_json P "signal" .Response (P.parse payload).value).toOption
          = none := by rw [hread]; rfl
      obtain ⟨-, hfields | ⟨l, hl, v, hv, hbad⟩⟩ := signal_null_iff.mp hnull
      · exact absurd (.signal rfl rfl hfields) hrejected
      · exact absurd (.pair rfl rfl l v hl hv hbad) hrejected
    | ok m =>
      obtain ⟨n, l, samples, hn, hl, hsamples, rfl⟩ := signal_eq_ok_iff.mp hread
      refine (faithful_signal_iff ofInt hn hl hsamples).trans
        ⟨fun h => ⟨by simp, fun _ l' hl' => ?_, fun _ n' hn' => ?_, by simp⟩,
          fun h => ⟨h.signal rfl l hl, h.central_Freq rfl n hn⟩⟩
      · obtain rfl := Json.array.inj (hl.unique hl')
        exact h.1
      · obtain rfl := Json.int64.inj (hn.unique hn')
        exact h.2
  · exact absurd (.unknown hsignal hinformation hraw) hrejected

/-- A raw response whose one element is too large for a byte. -/
def wideText : List UInt8 := ascii "\x7b\"type\":\"raw\",\"transaction\":1,\"data\":[256]\x7d"

/-- What is parsed of it. -/
def wideValue : Json := .object
  [("type", .string "raw"), ("transaction", .int64 1), ("data", .array [.int64 256])]

/-- **256 comes out as 0**, and nobody is told. -/
theorem wide_byte_is_narrowed :
    MessageHandler.parse jsonPlatform ⟨"raw", .Response, wideText⟩
        = some (.RawMessage "raw" .Response [0]) ∧
      ∀ ofInt, ¬ Faithful jsonPlatform ofInt (jsonPlatform.parse wideText).value
        (MessageHandler.parse jsonPlatform ⟨"raw", .Response, wideText⟩) := by
  have htype : JsonText.PlainString "raw" := by decide
  have hvalue : jsonPlatform.parse wideText = ⟨.success, wideValue⟩ :=
    JsonText.parse_plain (v := wideValue) (by decide) ⟨by decide, htype, by decide, trivial,
      by decide, ⟨trivial, trivial⟩, trivial⟩
  have hparse : MessageHandler.parse jsonPlatform ⟨"raw", .Response, wideText⟩
      = some (.RawMessage "raw" .Response [0]) := by
    unfold MessageHandler.parse
    simp only [hvalue, createMessage_eq]
    rfl
  refine ⟨hparse, fun ofInt hfaithful => ?_⟩
  rw [hparse, hvalue] at hfaithful
  obtain ⟨l, ⟨fields, hfields, hl⟩, hdata⟩ := hfaithful
  obtain rfl := Json.object.inj hfields
  obtain rfl : [.int64 256] = l := Json.array.inj (Option.some.inj hl)
  exact absurd hdata (by decide)

end Decoding

end NetworkApplication
