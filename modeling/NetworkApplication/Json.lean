/-
boost::json values, and what the program takes from outside its own source.

A `json::value` is modelled with the kinds the code looks at; `int64` and
`uint64` are separate kinds, as in boost, because `as_int64` throws on a `uint64`
and the message constructors depend on that. Floating-point numbers are carried
as their IEEE bit patterns: the code only stores and converts them.

The parser and the serializer are boost's and are parameters of the model
(`Platform` in `Message.lean`). The one fact about them that results need is
`reparsed`, the value that comes back when the text of a value is parsed again.
-/
import NetworkApplication.ErrorHandler
import Mathlib.Algebra.Group.Nat.Defs

set_option autoImplicit false

namespace NetworkApplication


/-- A `float`, by its bit pattern. -/
abbrev FloatBits := UInt32

/-- A `double`, by its bit pattern. -/
abbrev DoubleBits := UInt64

/-- `boost::json::value`. -/
inductive Json where
  | null
  | bool (b : Bool)
  | int64 (n : Int64)
  | uint64 (n : UInt64)
  | double (d : DoubleBits)
  | string (s : String)
  | array (l : List Json)
  | object (fields : List (String × Json))

/-- The exceptions the accessors throw; every one is a `std::exception`. -/
inductive Exception where
  | not_object
  | out_of_range (key : String)
  | not_string
  | not_int64
  | not_double
  | not_array
  deriving DecidableEq

/-- A sequence of fallible steps succeeds exactly when each of them does. -/
theorem except_bind_eq_ok {ε α β : Type} {x : Except ε α} {f : α → Except ε β} {b : β} :
    x >>= f = .ok b ↔ ∃ a, x = .ok a ∧ f a = .ok b := by
  cases x with
  | error e => simp [bind, Except.bind]
  | ok a => simp [bind, Except.bind]

theorem except_toOption_eq_some {ε α : Type} {x : Except ε α} {a : α} :
    x.toOption = some a ↔ x = .ok a := by
  cases x <;> simp [Except.toOption]

namespace Json

/-- `jv.at(key)`: throws when `jv` is not an object or has no such key. -/
def at_ (jv : Json) (key : String) : Except Exception Json :=
  match jv with
  | .object fields =>
    match fields.lookup key with
    | some v => .ok v
    | none => .error (.out_of_range key)
  | _ => .error .not_object

/-- `as_string()`. -/
def as_string : Json → Except Exception String
  | .string s => .ok s
  | _ => .error .not_string

/-- `as_int64()`: a `uint64` is not an `int64`. -/
def as_int64 : Json → Except Exception Int64
  | .int64 n => .ok n
  | _ => .error .not_int64

/-- `as_double()`: an integer is not a `double`. -/
def as_double : Json → Except Exception DoubleBits
  | .double d => .ok d
  | _ => .error .not_double

/-- `as_array()`. -/
def as_array : Json → Except Exception (List Json)
  | .array l => .ok l
  | _ => .error .not_array

theorem at_eq_ok_iff {jv v : Json} {key : String} :
    jv.at_ key = .ok v ↔ ∃ fields, jv = .object fields ∧ fields.lookup key = some v := by
  cases jv with
  | object fields =>
    simp only [at_, object.injEq, exists_eq_left']
    cases fields.lookup key <;> simp
  | null => simp [at_]
  | bool b => simp [at_]
  | int64 n => simp [at_]
  | uint64 n => simp [at_]
  | double d => simp [at_]
  | string s => simp [at_]
  | array l => simp [at_]

theorem as_string_eq_ok_iff {jv : Json} {s : String} : jv.as_string = .ok s ↔ jv = .string s := by
  cases jv <;> simp [as_string]

theorem as_int64_eq_ok_iff {jv : Json} {n : Int64} : jv.as_int64 = .ok n ↔ jv = .int64 n := by
  cases jv <;> simp [as_int64]

/-! ## What parsing the text of a value gives back

The only thing text does not keep is the kind of an unsigned integer that fits an
`int64`: the parser makes it an `int64`. -/

mutual

/-- The value that `parse` reads from the text that `serialize` writes. -/
def reparsed : Json → Json
  | .null => .null
  | .bool b => .bool b
  | .int64 n => .int64 n
  | .uint64 n => if n.toNat < 2 ^ 63 then .int64 n.toInt64 else .uint64 n
  | .double d => .double d
  | .string s => .string s
  | .array l => .array (reparsedList l)
  | .object fields => .object (reparsedFields fields)

def reparsedList : List Json → List Json
  | [] => []
  | v :: l => reparsed v :: reparsedList l

def reparsedFields : List (String × Json) → List (String × Json)
  | [] => []
  | (key, v) :: l => (key, reparsed v) :: reparsedFields l

end

@[simp] theorem reparsedList_eq_map (l : List Json) : reparsedList l = l.map reparsed := by
  induction l with
  | nil => rfl
  | cons v l ih => simp only [reparsedList, ih, List.map_cons]

theorem lookup_reparsedFields (fields : List (String × Json)) (key : String) :
    (reparsedFields fields).lookup key = (fields.lookup key).map reparsed := by
  induction fields with
  | nil => rfl
  | cons field rest ih =>
    obtain ⟨k, v⟩ := field
    rw [reparsedFields, List.lookup_cons, List.lookup_cons, ih]
    cases key == k <;> simp

/-- A field of an object comes back under its own key. -/
theorem at_reparsed {jv v : Json} {key : String} (h : jv.at_ key = .ok v) :
    jv.reparsed.at_ key = .ok v.reparsed := by
  obtain ⟨fields, rfl, hlookup⟩ := at_eq_ok_iff.mp h
  refine at_eq_ok_iff.mpr ⟨reparsedFields fields, rfl, ?_⟩
  rw [lookup_reparsedFields, hlookup, Option.map_some]

/-- A byte comes back as an `int64`. -/
theorem reparsed_byte (b : UInt8) :
    reparsed (.uint64 b.toUInt64) = .int64 b.toUInt64.toInt64 := by
  have hb : b.toUInt64.toNat < 2 ^ 63 := by
    have := b.toNat_lt
    simp only [UInt8.toNat_toUInt64]
    omega
  simp only [reparsed, hb, if_true]

end Json

/-- What `json::parse(text, error)` leaves: the error code and the value. -/
structure ParseResult where
  error : ErrorCode
  value : Json

end NetworkApplication
