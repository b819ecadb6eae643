/-
The text of JSON values.

`text` writes a value the way `boost::json` does, without white space, and `readText` reads it
back, by recursive descent. Together they are a platform for concrete runs, `jsonPlatform`. It
knows less than the library: the characters of strings have to stand for themselves, and the one
floating-point number it can write is zero. What is made of these it reads back
(`roundTrips_plain`), and what it cannot read is a syntax error.
-/
import NetworkApplication.Message
import NetworkApplication.Numerals

set_option autoImplicit false

namespace NetworkApplication

open Numerals

/-! ## Characters and bytes -/

/-- The bytes of an ASCII text. -/
def ascii (text : String) : List UInt8 := text.toList.map (fun c => UInt8.ofNat c.toNat)

/-- The text of bytes. -/
def ofAscii (bytes : List UInt8) : String :=
  String.ofList (bytes.map (fun b => Char.ofNat b.toNat))

namespace JsonText

/-- A byte that stands for itself in a string. -/
def plain (b : UInt8) : Bool := 32 ≤ b && b < 127 && b ≠ 34 && b ≠ 92

/-- A byte of a number. -/
def ofNumber (b : UInt8) : Bool := isdigit b || b == 45 || b == 43 || b == 46 || b == 69 || b == 101

/-! ## Writing -/

/-- A string in its quotes. -/
def quoted (s : String) : List UInt8 := 34 :: (ascii s ++ [34])

mutual

/-- The text of a value. -/
def text : Json → List UInt8
  | .null => ascii "null"
  | .bool b => ascii (if b then "true" else "false")
  | .int64 n => numeral n.toInt
  | .uint64 n => numeral n.toNat
  | .double _ => ascii "0E0"
  | .string s => quoted s
  | .array l => 91 :: elements true l
  | .object fields => 123 :: members true fields

/-- The rest of an array, with its bracket. -/
def elements (first : Bool) : List Json → List UInt8
  | [] => [93]
  | v :: l => (if first then [] else [44]) ++ (text v ++ elements false l)

/-- The rest of an object, with its brace. -/
def members (first : Bool) : List (String × Json) → List UInt8
  | [] => [125]
  | (key, v) :: fields =>
    (if first then [] else [44]) ++ (quoted key ++ 58 :: (text v ++ members false fields))

end

/-! ## Reading -/

/-- What stands in front of the closing quote, and what is behind it. -/
def readString (bytes : List UInt8) : Option (String × List UInt8) :=
  match bytes.dropWhile plain with
  | b :: rest => if b = 34 then some (ofAscii (bytes.takeWhile plain), rest) else none
  | [] => none

/-- The value of a numeral: an `int64` if it fits one. -/
def readNumeral (bytes : List UInt8) : Option Json :=
  match scanned bytes with
  | some n =>
    if numeral n ≠ bytes then none
    else if -2 ^ 63 ≤ n ∧ n < 2 ^ 63 then some (.int64 (Int64.ofInt n))
    else if 0 ≤ n ∧ n < 2 ^ 64 then some (.uint64 (UInt64.ofNat n.toNat))
    else none
  | none => none

/-- A value that is not made of others, and is no string. -/
def readToken (bytes : List UInt8) : Option (Json × List UInt8) :=
  if ascii "null" <+: bytes then some (.null, bytes.drop 4)
  else if ascii "true" <+: bytes then some (.bool true, bytes.drop 4)
  else if ascii "false" <+: bytes then some (.bool false, bytes.drop 5)
  else
    let number := bytes.takeWhile ofNumber
    if number = ascii "0E0" then some (.double 0, bytes.dropWhile ofNumber)
    else (readNumeral number).map (·, bytes.dropWhile ofNumber)

/-- The separator in front of an element that is not the first. -/
def readComma (first : Bool) (bytes : List UInt8) : Option (List UInt8) :=
  if first then some bytes
  else if bytes.head? = some 44 then some bytes.tail
  else none

mutual

/-- A value, and what is behind it. -/
def readValue : Nat → List UInt8 → Option (Json × List UInt8)
  | 0, _ => none
  | fuel + 1, bytes =>
    if bytes.head? = some 123 then
      (readMembers fuel true bytes.tail).map (fun r => (.object r.1, r.2))
    else if bytes.head? = some 91 then
      (readElements fuel true bytes.tail).map (fun r => (.array r.1, r.2))
    else if bytes.head? = some 34 then (readString bytes.tail).map (fun r => (.string r.1, r.2))
    else readToken bytes

/-- The rest of an array. -/
def readElements : Nat → Bool → List UInt8 → Option (List Json × List UInt8)
  | 0, _, _ => none
  | fuel + 1, first, bytes =>
    if bytes.head? = some 93 then some ([], bytes.tail)
    else do
      let (v, rest) ← readValue fuel (← readComma first bytes)
      let (l, rest) ← readElements fuel false rest
      return (v :: l, rest)

/-- The rest of an object. -/
def readMembers : Nat → Bool → List UInt8 → Option (List (String × Json) × List UInt8)
  | 0, _, _ => none
  | fuel + 1, first, bytes =>
    if bytes.head? = some 125 then some ([], bytes.tail)
    else do
      let bytes ← readComma first bytes
      guard (bytes.head? = some 34)
      let (key, rest) ← readString bytes.tail
      guard (rest.head? = some 58)
      let (v, rest) ← readValue fuel rest.tail
      let (fields, rest) ← readMembers fuel false rest
      return ((key, v) :: fields, rest)

end

/-- The value of a whole text. -/
def readText (bytes : List UInt8) : Option Json :=
  match readValue bytes.length bytes with
  | some (v, []) => some v
  | _ => none

end JsonText

/-- `boost::json` on these texts. -/
def jsonPlatform : Platform where
  parse := fun bytes => match JsonText.readText bytes with
    | some v => ⟨.success, v⟩
    | none => ⟨.syntax_, .null⟩
  serialize := JsonText.text
  toDouble := fun _ => 0
  toFloat := fun _ => 0
  uninitInt := 0
  uninitTransaction := .Request

namespace JsonText

/-! ## Strings and numbers are read back -/

/-- A string of characters that stand for themselves. -/
def PlainString (s : String) : Prop :=
  (ascii s).all plain = true ∧ ofAscii (ascii s) = s

instance (s : String) : Decidable (PlainString s) := inferInstanceAs (Decidable (_ ∧ _))

/-- No number goes on there. -/
def EndsNumber (rest : List UInt8) : Prop := ∀ b, rest.head? = some b → ofNumber b = false

/-- The characters of a kind, and what begins with another. -/
theorem span_append {p : UInt8 → Bool} {l rest : List UInt8} (hl : ∀ b ∈ l, p b = true)
    (hrest : ∀ b, rest.head? = some b → p b = false) :
    (l ++ rest).takeWhile p = l ∧ (l ++ rest).dropWhile p = rest := by
  rw [List.takeWhile_append_of_pos hl, List.dropWhile_append_of_pos hl]
  cases rest with
  | nil => exact ⟨List.append_nil l, rfl⟩
  | cons b rest =>
    have hb : p b = false := hrest b rfl
    simp [hb]

theorem readString_quoted {s : String} (hs : PlainString s) (rest : List UInt8) :
    readString (ascii s ++ 34 :: rest) = some (s, rest) := by
  have hend : ∀ b, (34 :: rest).head? = some b → plain b = false := by
    intro b hb
    obtain rfl := Option.some.inj hb
    rfl
  have hspan := span_append (List.all_eq_true.mp hs.1) hend
  simp only [readString, hspan.1, hspan.2, hs.2, if_true]

/-- A numeral is digits, and a minus. -/
theorem mem_numeral {n : Int} {b : UInt8} (hb : b ∈ numeral n) : isdigit b = true ∨ b = 45 := by
  unfold numeral at hb
  split at hb
  · rcases List.mem_cons.mp hb with rfl | hb
    · exact .inr rfl
    · exact .inl ((isDecimal_decimal _).isdigit hb)
  · exact .inl ((isDecimal_decimal _).isdigit hb)

theorem ofNumber_of_mem_numeral {n : Int} {b : UInt8} (hb : b ∈ numeral n) : ofNumber b = true := by
  rcases mem_numeral hb with h | rfl
  · simp only [ofNumber, h, Bool.true_or]
  · rfl

theorem head_numeral (n : Int) : ∃ b l, numeral n = b :: l ∧ ofNumber b = true := by
  cases h : numeral n with
  | nil =>
    have := scanned_numeral n
    rw [h] at this
    cases this
  | cons b l => exact ⟨b, l, rfl, ofNumber_of_mem_numeral (h ▸ List.mem_cons_self)⟩

theorem numeral_ne_zero (n : Int) : numeral n ≠ ascii "0E0" := by
  intro h
  have hE : (69 : UInt8) ∈ numeral n := by
    rw [h]
    decide
  rcases mem_numeral hE with h | h
  · cases h
  · cases h

/-- A token that starts like a number is none of the names. -/
theorem readToken_of_number {b : UInt8} {l : List UInt8} (hb : ofNumber b = true) :
    readToken (b :: l) =
      let number := (b :: l).takeWhile ofNumber
      if number = ascii "0E0" then some (.double 0, (b :: l).dropWhile ofNumber)
      else (readNumeral number).map (·, (b :: l).dropWhile ofNumber) := by
  have hname : ∀ c name, ofNumber c = false → ¬ c :: name <+: b :: l := by
    intro c name hc h
    rw [(List.cons_prefix_cons.mp h).1, hb] at hc
    cases hc
  have hnull : ¬ ascii "null" <+: b :: l := hname 110 (ascii "ull") (by decide)
  have htrue : ¬ ascii "true" <+: b :: l := hname 116 (ascii "rue") (by decide)
  have hfalse : ¬ ascii "false" <+: b :: l := hname 102 (ascii "alse") (by decide)
  rw [readToken, if_neg hnull, if_neg htrue, if_neg hfalse]

theorem readToken_numeral {n : Int} {rest : List UInt8} (hrest : EndsNumber rest) :
    readToken (numeral n ++ rest) = (readNumeral (numeral n)).map (·, rest) := by
  have hspan := span_append (fun b => ofNumber_of_mem_numeral (n := n) (b := b)) hrest
  obtain ⟨b, l, hbl, hb⟩ := head_numeral n
  rw [hbl, List.cons_append] at hspan ⊢
  rw [readToken_of_number hb]
  simp only [hspan.1, hspan.2]
  rw [if_neg (hbl ▸ numeral_ne_zero n)]

theorem readNumeral_numeral {n : Int} : readNumeral (numeral n)
    = if -2 ^ 63 ≤ n ∧ n < 2 ^ 63 then some (.int64 (Int64.ofInt n))
      else if 0 ≤ n ∧ n < 2 ^ 64 then some (.uint64 (UInt64.ofNat n.toNat)) else none := by
  simp only [readNumeral, scanned_numeral, ne_eq, not_true_eq_false, if_false]

theorem readNumeral_int64 (n : Int64) : readNumeral (numeral n.toInt) = some (.int64 n) := by
  have hn : -2 ^ 63 ≤ n.toInt ∧ n.toInt < 2 ^ 63 := ⟨n.le_toInt, n.toInt_lt⟩
  rw [readNumeral_numeral, if_pos hn, Int64.ofInt_toInt]

theorem readNumeral_uint64 (n : UInt64) :
    readNumeral (numeral n.toNat) = some (Json.uint64 n).reparsed := by
  have hn := n.toNat_lt
  rw [readNumeral_numeral, Json.reparsed]
  by_cases hlt : n.toNat < 2 ^ 63
  · have hfits : -2 ^ 63 ≤ (n.toNat : Int) ∧ (n.toNat : Int) < 2 ^ 63 := by omega
    have hsame : Int64.ofInt n.toNat = n.toInt64 := calc
      Int64.ofInt n.toNat = Int64.ofNat n.toNat := Int64.ofInt_eq_ofNat
      _ = (UInt64.ofNat n.toNat).toInt64 := UInt64.toInt64_ofNat'.symm
      _ = n.toInt64 := by rw [UInt64.ofNat_toNat]
    rw [if_pos hfits, if_pos hlt, hsame]
  · have hfits : ¬ (-2 ^ 63 ≤ (n.toNat : Int) ∧ (n.toNat : Int) < 2 ^ 63) := by omega
    have hpos : 0 ≤ (n.toNat : Int) ∧ (n.toNat : Int) < 2 ^ 64 := by omega
    rw [if_neg hfits, if_pos hpos, if_neg hlt, Int.toNat_natCast, UInt64.ofNat_toNat]

/-! ## Values are read back -/

mutual

/-- The values whose text is their own. -/
def Plain : Json → Prop
  | .double d => d = 0
  | .string s => PlainString s
  | .array l => PlainList l
  | .object fields => PlainFields fields
  | _ => True

def PlainList : List Json → Prop
  | [] => True
  | v :: l => Plain v ∧ PlainList l

def PlainFields : List (String × Json) → Prop
  | [] => True
  | (key, v) :: fields => PlainString key ∧ Plain v ∧ PlainFields fields

end

/-- No value starts like the end of an array. -/
theorem head_text (v : Json) : ∃ b l, text v = b :: l ∧ b ≠ 93 := by
  cases v with
  | int64 n =>
    obtain ⟨b, l, hbl, hb⟩ := head_numeral n.toInt
    exact ⟨b, l, by rw [text, hbl], by rintro rfl; cases hb⟩
  | uint64 n =>
    obtain ⟨b, l, hbl, hb⟩ := head_numeral n.toNat
    exact ⟨b, l, by rw [text, hbl], by rintro rfl; cases hb⟩
  | bool b =>
    cases b with
    | true => exact ⟨116, ascii "rue", by rw [text]; rfl, by decide⟩
    | false => exact ⟨102, ascii "alse", by rw [text]; rfl, by decide⟩
  | null => exact ⟨110, ascii "ull", by rw [text]; rfl, by decide⟩
  | double d => exact ⟨48, ascii "E0", by rw [text]; rfl, by decide⟩
  | string s => exact ⟨34, _, by rw [text, quoted], by decide⟩
  | array l => exact ⟨91, _, by rw [text], by decide⟩
  | object fields => exact ⟨123, _, by rw [text], by decide⟩

theorem elements_pos (first : Bool) (l : List Json) : 0 < (elements first l).length := by
  cases l with
  | nil => rw [elements]; decide
  | cons v l =>
    obtain ⟨b, t, hbt, -⟩ := head_text v
    rw [elements, hbt]
    simp

theorem members_pos (first : Bool) (fields : List (String × Json)) :
    0 < (members first fields).length := by
  cases fields with
  | nil => rw [members]; decide
  | cons field fields =>
    rw [members, quoted]
    simp

/-- What is behind a value in an array or an object ends a number. -/
theorem endsNumber_cons {b : UInt8} {rest : List UInt8} (hb : ofNumber b = false) :
    EndsNumber (b :: rest) := by
  intro c hc
  obtain rfl := Option.some.inj hc
  exact hb

theorem endsNumber_elements (l : List Json) (rest : List UInt8) :
    EndsNumber (elements false l ++ rest) := by
  cases l with
  | nil => rw [elements]; exact endsNumber_cons rfl
  | cons v l => rw [elements]; exact endsNumber_cons rfl

theorem endsNumber_members (fields : List (String × Json)) (rest : List UInt8) :
    EndsNumber (members false fields ++ rest) := by
  cases fields with
  | nil => rw [members]; exact endsNumber_cons rfl
  | cons field fields => rw [members]; exact endsNumber_cons rfl

/-- A token that is no bracket and no quote is read as such. -/
theorem readValue_token {fuel : Nat} {b : UInt8} {l : List UInt8} (hobject : b ≠ 123)
    (harray : b ≠ 91) (hstring : b ≠ 34) : readValue (fuel + 1) (b :: l) = readToken (b :: l) := by
  rw [readValue, List.head?_cons, if_neg (fun h => hobject (Option.some.inj h)),
    if_neg (fun h => harray (Option.some.inj h)), if_neg (fun h => hstring (Option.some.inj h))]

theorem readValue_numeral {fuel : Nat} {n : Int} {rest : List UInt8} (hrest : EndsNumber rest) :
    readValue (fuel + 1) (numeral n ++ rest) = (readNumeral (numeral n)).map (·, rest) := by
  rw [← readToken_numeral hrest]
  obtain ⟨b, l, hbl, hb⟩ := head_numeral n
  rw [hbl]
  exact readValue_token (by rintro rfl; cases hb) (by rintro rfl; cases hb) (by rintro rfl; cases hb)

theorem readToken_null (rest : List UInt8) :
    readToken (ascii "null" ++ rest) = some (.null, rest) := by
  rw [readToken, if_pos (List.prefix_append ..)]
  rfl

theorem readToken_true (rest : List UInt8) :
    readToken (ascii "true" ++ rest) = some (.bool true, rest) := by
  have hnull : ¬ ascii "null" <+: ascii "true" ++ rest := fun h =>
    absurd (List.cons_prefix_cons (a := 110) (b := 116).mp h).1 (by decide)
  rw [readToken, if_neg hnull, if_pos (List.prefix_append ..)]
  rfl

theorem readToken_false (rest : List UInt8) :
    readToken (ascii "false" ++ rest) = some (.bool false, rest) := by
  have hnull : ¬ ascii "null" <+: ascii "false" ++ rest := fun h =>
    absurd (List.cons_prefix_cons (a := 110) (b := 102).mp h).1 (by decide)
  have htrue : ¬ ascii "true" <+: ascii "false" ++ rest := fun h =>
    absurd (List.cons_prefix_cons (a := 116) (b := 102).mp h).1 (by decide)
  rw [readToken, if_neg hnull, if_neg htrue, if_pos (List.prefix_append ..)]
  rfl

theorem readToken_zero {rest : List UInt8} (hrest : EndsNumber rest) :
    readToken (ascii "0E0" ++ rest) = some (.double 0, rest) := by
  have hzero : ∀ b ∈ ascii "0E0", ofNumber b = true := List.all_eq_true.mp (by decide)
  have hspan := span_append hzero hrest
  have hread := readToken_of_number (b := 48) (l := ascii "E0" ++ rest) (by decide)
  refine hread.trans ?_
  show (if (ascii "0E0" ++ rest).takeWhile ofNumber = ascii "0E0" then
    some (Json.double 0, (ascii "0E0" ++ rest).dropWhile ofNumber) else _) = _
  rw [if_pos hspan.1, hspan.2]

/-- An element, and then the rest of the array. -/
theorem readElements_cons (v : Json) {first : Bool} {fuel : Nat} (rest : List UInt8) :
    readElements (fuel + 1) first ((if first then [] else [44]) ++ (text v ++ rest))
      = (readValue fuel (text v ++ rest)).bind fun r =>
          (readElements fuel false r.2).bind fun s => some (r.1 :: s.1, s.2) := by
  obtain ⟨b, l, hbl, hb⟩ := head_text v
  cases first with
  | true =>
    have hend : ¬ (text v ++ rest).head? = some 93 := by
      rw [hbl]
      exact fun h => hb (Option.some.inj h)
    rw [if_pos rfl, List.nil_append, readElements, if_neg hend]
    rfl
  | false =>
    have hend : ¬ (44 :: (text v ++ rest)).head? = some 93 :=
      fun h => absurd (Option.some.inj h) (by decide)
    rw [if_neg (by decide), List.singleton_append, readElements, if_neg hend]
    rfl

/-- A field, and then the rest of the object. -/
theorem readMembers_cons {key : String} (hkey : PlainString key) {first : Bool} {fuel : Nat}
    (rest : List UInt8) :
    readMembers (fuel + 1) first ((if first then [] else [44]) ++ (quoted key ++ 58 :: rest))
      = (readValue fuel rest).bind fun r =>
          (readMembers fuel false r.2).bind fun s => some ((key, r.1) :: s.1, s.2) := by
  have hread := readString_quoted hkey (58 :: rest)
  have hquoted : quoted key ++ 58 :: rest = 34 :: (ascii key ++ 34 :: 58 :: rest) := by
    rw [quoted, List.cons_append, List.append_assoc, List.singleton_append]
  have hcomma : readComma first ((if first then [] else [44]) ++ (quoted key ++ 58 :: rest))
      = some (34 :: (ascii key ++ 34 :: 58 :: rest)) := by
    rw [hquoted]
    cases first with
    | true => rfl
    | false => rfl
  have hend : ¬ ((if first then [] else [44]) ++ (quoted key ++ 58 :: rest)).head? = some 125 := by
    rw [hquoted]
    cases first with
    | true => exact fun h => absurd (Option.some.inj h) (by decide)
    | false => exact fun h => absurd (Option.some.inj h) (by decide)
  rw [readMembers, if_neg hend, hcomma]
  simp only [Option.bind_eq_bind, Option.bind_some, List.head?_cons, List.tail_cons, hread, guard,
    if_true]
  rfl

mutual

/-- A value is read back, whatever is behind it that ends a number. -/
theorem readValue_text : ∀ (v : Json), Plain v → ∀ (fuel : Nat) (rest : List UInt8),
    (text v).length ≤ fuel → EndsNumber rest →
    readValue fuel (text v ++ rest) = some (v.reparsed, rest)
  | v, hv, 0, rest, hfuel, _ => by
    obtain ⟨b, l, hbl, -⟩ := head_text v
    rw [hbl] at hfuel
    cases hfuel
  | .null, _, fuel + 1, rest, _, _ => by
    rw [text, Json.reparsed]
    exact (readValue_token (by decide) (by decide) (by decide)).trans (readToken_null rest)
  | .bool b, _, fuel + 1, rest, _, _ => by
    rw [text, Json.reparsed]
    cases b with
    | true => exact (readValue_token (by decide) (by decide) (by decide)).trans (readToken_true rest)
    | false => exact (readValue_token (by decide) (by decide) (by decide)).trans (readToken_false rest)
  | .int64 n, _, fuel + 1, rest, _, hrest => by
    rw [text, readValue_numeral hrest, readNumeral_int64, Json.reparsed]
    rfl
  | .uint64 n, _, fuel + 1, rest, _, hrest => by
    rw [text, readValue_numeral hrest, readNumeral_uint64]
    rfl
  | .double d, hd, fuel + 1, rest, _, hrest => by
    obtain rfl : d = 0 := hd
    rw [text, Json.reparsed]
    exact (readValue_token (by decide) (by decide) (by decide)).trans (readToken_zero hrest)
  | .string s, hs, fuel + 1, rest, _, _ => by
    have hread := readString_quoted hs rest
    rw [text, quoted, List.cons_append, List.append_assoc, List.singleton_append, readValue,
      List.head?_cons, if_neg (by decide), if_neg (by decide), if_pos rfl, List.tail_cons, hread,
      Json.reparsed]
    rfl
  | .array l, hl, fuel + 1, rest, hfuel, _ => by
    rw [text] at hfuel ⊢
    rw [List.cons_append, readValue, List.head?_cons, if_neg (by decide), if_pos rfl, List.tail_cons,
      readElements_elements l hl true fuel rest (by simpa using hfuel), Json.reparsed]
    rfl
  | .object fields, hfields, fuel + 1, rest, hfuel, _ => by
    rw [text] at hfuel ⊢
    rw [List.cons_append, readValue, List.head?_cons, if_pos rfl, List.tail_cons,
      readMembers_members fields hfields true fuel rest (by simpa using hfuel), Json.reparsed]
    rfl

theorem readElements_elements : ∀ (l : List Json), PlainList l → ∀ (first : Bool) (fuel : Nat)
    (rest : List UInt8), (elements first l).length ≤ fuel →
    readElements fuel first (elements first l ++ rest) = some (Json.reparsedList l, rest)
  | l, _, first, 0, rest, hfuel => absurd (elements_pos first l) (by omega)
  | [], _, first, fuel + 1, rest, _ => by
    rw [elements, readElements]
    rfl
  | v :: l, hl, first, fuel + 1, rest, hfuel => by
    have hpos := elements_pos false l
    have hv : 0 < (text v).length := by
      obtain ⟨b, t, hbt, -⟩ := head_text v
      rw [hbt]
      exact Nat.succ_pos _
    rw [elements, List.length_append, List.length_append] at hfuel
    rw [elements, List.append_assoc, List.append_assoc, readElements_cons v,
      readValue_text v hl.1 fuel _ (by omega) (endsNumber_elements l rest), Option.bind_some,
      readElements_elements l hl.2 false fuel rest (by omega), Json.reparsedList]
    rfl

theorem readMembers_members : ∀ (fields : List (String × Json)), PlainFields fields →
    ∀ (first : Bool) (fuel : Nat) (rest : List UInt8), (members first fields).length ≤ fuel →
    readMembers fuel first (members first fields ++ rest) = some (Json.reparsedFields fields, rest)
  | fields, _, first, 0, rest, hfuel => absurd (members_pos first fields) (by omega)
  | [], _, first, fuel + 1, rest, _ => by
    rw [members, readMembers]
    rfl
  | (key, v) :: fields, ⟨hkey, hv, hfields⟩, first, fuel + 1, rest, hfuel => by
    have hpos := members_pos false fields
    rw [members, List.length_append, List.length_append, List.length_cons, List.length_append] at hfuel
    rw [members, List.append_assoc, List.append_assoc, List.cons_append, List.append_assoc,
      readMembers_cons hkey,
      readValue_text v hv fuel _ (by omega) (endsNumber_members fields rest), Option.bind_some,
      readMembers_members fields hfields false fuel rest (by omega), Json.reparsedFields]
    rfl

end

theorem readText_text {v : Json} (hv : Plain v) : readText (text v) = some v.reparsed := by
  have hread := readValue_text v hv (text v).length [] le_rfl nofun
  rw [List.append_nil] at hread
  rw [readText, hread]

/-- **What is plain comes back.** -/
theorem roundTrips_plain {v : Json} (hv : Plain v) : jsonPlatform.RoundTrips v := by
  simp only [Platform.RoundTrips, jsonPlatform, readText_text hv]

/-- The same of a text that is given. -/
theorem parse_plain {bytes : List UInt8} {v : Json} (hbytes : bytes = text v) (hv : Plain v) :
    jsonPlatform.parse bytes = ⟨.success, v.reparsed⟩ := by
  rw [hbytes]
  exact roundTrips_plain hv

/-- What is no text. -/
theorem parse_of_isNone {bytes : List UInt8} (h : (readText bytes).isNone = true) :
    jsonPlatform.parse bytes = ⟨.syntax_, .null⟩ := by
  simp only [jsonPlatform, Option.isNone_iff_eq_none.mp h]

theorem parse_x : jsonPlatform.parse (ascii "x") = ⟨.syntax_, .null⟩ :=
  parse_of_isNone (by decide +kernel)

-- a text is read by the kernel, or by the theorem above
attribute [irreducible] readText

/-! ## Messages -/

theorem plainString_signal : PlainString "signal" := by decide

theorem plainString_information : PlainString "information" := by decide

theorem plainString_unknown : PlainString "unknown" := by decide

/-- The text of a message without content. -/
def headerText (type : String) (n : Int64) : List UInt8 := text (.object (Message.header type n))

theorem plainFields_append {fields fields' : List (String × Json)} (h : PlainFields fields)
    (h' : PlainFields fields') : PlainFields (fields ++ fields') := by
  induction fields with
  | nil => exact h'
  | cons field fields ih => exact ⟨h.1, h.2.1, ih h.2.2⟩

theorem plainFields_header {type : String} (htype : PlainString type) (n : Int64) :
    PlainFields (Message.header type n) :=
  ⟨by decide, htype, by decide, trivial, trivial⟩

theorem plainList_map {α : Type} {f : α → Json} (hf : ∀ x, Plain (f x)) (l : List α) :
    PlainList (l.map f) := by
  induction l with
  | nil => trivial
  | cons x l ih => exact ⟨hf x, ih⟩

/-- Every message of a plain type is written in plain values. -/
theorem plain_serialize {m : Message} (htype : PlainString m.type) :
    Plain (m.serialize jsonPlatform) := by
  cases m with
  | base t tr => exact plainFields_header htype _
  | SignalMessage t tr freq signal =>
    have hsample : ∀ c, Plain (Message.sampleJson jsonPlatform c) := fun _ => ⟨rfl, rfl, trivial⟩
    have hfreq : PlainFields [("central_Freq", .int64 (freq.getD jsonPlatform.uninitInt).toInt64)] :=
      ⟨by decide, trivial, trivial⟩
    refine plainFields_append (plainFields_append (plainFields_header htype _) hfreq) ?_
    split
    · exact ⟨by decide, plainList_map hsample signal, trivial⟩
    · trivial
  | InformationMessage t tr cores =>
    refine plainFields_append (plainFields_header htype _) ?_
    split
    · exact ⟨by decide, trivial, trivial⟩
    · trivial
  | RawMessage t tr data =>
    have hbyte : ∀ value : UInt8, Plain (.uint64 value.toUInt64) := fun _ => trivial
    exact plainFields_append (plainFields_header htype _)
      ⟨by decide, plainList_map hbyte data, trivial⟩

theorem parse_headerText {type : String} (htype : PlainString type) (n : Int64) :
    jsonPlatform.parse (headerText type n) = ⟨.success, .object (Message.header type n)⟩ :=
  roundTrips_plain (v := .object (Message.header type n)) (plainFields_header htype n)

example : text (.object [("type", .string "signal"), ("signal", .array [.double 0, .int64 (-1)])])
    = ascii "\x7b\"type\":\"signal\",\"signal\":[0E0,-1]\x7d" := by decide

end JsonText

end NetworkApplication
