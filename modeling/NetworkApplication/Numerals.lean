/-
Decimal numerals, and `std::stoi`.

A numeral of a number is unique: no sign but a minus, no leading zero. `std::stoi` reads more
than these. It skips white space, takes either sign, stops at the first byte that is no digit
and does not say where it stopped. This file has both and what the one makes of the other:
it reads every numeral as its number, and of what it reads the numerals are told by their form
alone (`IsNumeral`).
-/
import Mathlib.Data.List.TakeWhile
import Mathlib.Data.Nat.Digits.Lemmas

set_option autoImplicit false

namespace NetworkApplication.Numerals

/-! ## Digits -/

/-- `std::isspace`. -/
def isspace (b : UInt8) : Bool := b == 32 || (9 ≤ b && b ≤ 13)

/-- `std::isdigit`. -/
def isdigit (b : UInt8) : Bool := 48 ≤ b && b ≤ 57

/-- The number that a digit stands for. -/
def digit (b : UInt8) : Nat := b.toNat - 48

/-- The digit of a number below ten. -/
def ofDigit (d : Nat) : UInt8 := UInt8.ofNat (48 + d)

theorem isdigit_iff (b : UInt8) : isdigit b = true ↔ 48 ≤ b.toNat ∧ b.toNat ≤ 57 := by
  simp only [isdigit, Bool.and_eq_true, decide_eq_true_eq, UInt8.le_iff_toNat_le]
  rfl

theorem toNat_ofDigit {d : Nat} (hd : d < 10) : (ofDigit d).toNat = 48 + d := by
  rw [ofDigit, UInt8.toNat_ofNat']
  omega

theorem isdigit_ofDigit {d : Nat} (hd : d < 10) : isdigit (ofDigit d) = true := by
  rw [isdigit_iff, toNat_ofDigit hd]
  omega

theorem digit_ofDigit {d : Nat} (hd : d < 10) : digit (ofDigit d) = d := by
  rw [digit, toNat_ofDigit hd]
  omega

theorem ofDigit_digit {b : UInt8} (hb : isdigit b = true) : ofDigit (digit b) = b := by
  obtain ⟨hlo, hhi⟩ := (isdigit_iff b).mp hb
  apply UInt8.toNat_inj.mp
  rw [toNat_ofDigit (by unfold digit; omega), digit]
  omega

/-- The number that a string of digits stands for. -/
def valueOf (digits : List UInt8) : Nat := digits.foldl (fun value b => 10 * value + digit b) 0

theorem valueOf_append (digits : List UInt8) (b : UInt8) :
    valueOf (digits ++ [b]) = 10 * valueOf digits + digit b := by
  rw [valueOf, List.foldl_append]
  rfl

/-- The first digit counts most. -/
theorem valueOf_eq_ofDigits (digits : List UInt8) :
    valueOf digits = Nat.ofDigits 10 (digits.reverse.map digit) := by
  induction digits using List.reverseRecOn with
  | nil => rfl
  | append_singleton digits b ih =>
    rw [valueOf_append, ih, List.reverse_append, List.reverse_singleton, List.singleton_append,
      List.map_cons, Nat.ofDigits_cons]
    omega

/-! ## Numerals -/

/-- The numeral of a natural number. -/
def decimal (n : Nat) : List UInt8 := if n = 0 then [48] else (Nat.digits 10 n).reverse.map ofDigit

/-- The numeral of an integer. -/
def numeral (n : Int) : List UInt8 := if n < 0 then 45 :: decimal n.natAbs else decimal n.natAbs

/-- A numeral is as long as its number is large. -/
theorem length_numeral_le {n : Int} {k : Nat} (hk : 0 < k) (h : n.natAbs < 10 ^ k) :
    (numeral n).length ≤ k + 1 := by
  have hdecimal : (decimal n.natAbs).length ≤ k := by
    unfold decimal
    split
    · exact hk
    · rw [List.length_map, List.length_reverse]
      exact (Nat.digits_length_le_iff (by decide) _).mpr h
  unfold numeral
  split
  · exact Nat.succ_le_succ hdecimal
  · exact Nat.le_succ_of_le hdecimal

/-- Digits, the first of which is not zero, or a zero alone. -/
def IsDecimal (l : List UInt8) : Prop :=
  l = [48] ∨ ∃ b rest, l = b :: rest ∧ b ≠ 48 ∧ ∀ b' ∈ l, isdigit b' = true

/-- Such a string, or a minus and such a string, but not a zero with a minus. -/
def IsNumeral (l : List UInt8) : Prop := IsDecimal l ∨ ∃ rest, l = 45 :: rest ∧ IsDecimal rest ∧ rest ≠ [48]

theorem IsDecimal.isdigit {l : List UInt8} (h : IsDecimal l) {b : UInt8} (hb : b ∈ l) :
    Numerals.isdigit b = true := by
  rcases h with rfl | ⟨_, _, -, -, hdigits⟩
  · rw [List.mem_singleton.mp hb]
    rfl
  · exact hdigits b hb

theorem IsDecimal.ne_nil {l : List UInt8} (h : IsDecimal l) : l ≠ [] := by
  rcases h with rfl | ⟨b, rest, rfl, -, -⟩
  · exact List.cons_ne_nil _ _
  · exact List.cons_ne_nil _ _

/-- Digits that are written out and read are the same digits. -/
theorem map_digit_decimal (n : Nat) :
    ((Nat.digits 10 n).reverse.map ofDigit).reverse.map digit = Nat.digits 10 n := by
  rw [← List.map_reverse, List.reverse_reverse, List.map_map]
  refine (List.map_congr_left (fun d hd => ?_)).trans (List.map_id _)
  exact digit_ofDigit (Nat.digits_lt_base (by decide) hd)

/-- A numeral stands for its number. -/
theorem valueOf_decimal (n : Nat) : valueOf (decimal n) = n := by
  by_cases hn : n = 0
  · subst hn
    rfl
  · rw [decimal, if_neg hn, valueOf_eq_ofDigits, map_digit_decimal n, Nat.ofDigits_digits]

theorem isDecimal_decimal (n : Nat) : IsDecimal (decimal n) := by
  by_cases hn : n = 0
  · subst hn
    exact .inl rfl
  · rw [decimal, if_neg hn]
    have hne : (Nat.digits 10 n).reverse ≠ [] :=
      List.reverse_ne_nil_iff.mpr (Nat.digits_ne_nil_iff_ne_zero.mpr hn)
    have hlt : ∀ d ∈ (Nat.digits 10 n).reverse, d < 10 := fun d hd =>
      Nat.digits_lt_base (by decide) (List.mem_reverse.mp hd)
    obtain ⟨d, ds, hds⟩ := List.exists_cons_of_ne_nil hne
    -- the last of the digits is not zero
    have hd : d ≠ 0 := by
      have hlast := Nat.getLast_digit_ne_zero 10 hn
      have hhead : (Nat.digits 10 n).getLast (Nat.digits_ne_nil_iff_ne_zero.mpr hn) = d := by
        rw [← List.head_reverse hne]
        simp only [hds, List.head_cons]
      rwa [hhead] at hlast
    refine .inr ⟨ofDigit d, ds.map ofDigit, by rw [hds, List.map_cons], ?_, fun b hb => ?_⟩
    · intro h
      have htoNat := congrArg UInt8.toNat h
      rw [toNat_ofDigit (hlt d (by rw [hds]; exact List.mem_cons_self ..))] at htoNat
      exact hd (by simpa using htoNat)
    · obtain ⟨d', hd', rfl⟩ := List.mem_map.mp hb
      exact isdigit_ofDigit (hlt d' hd')

/-- **A numeral is told by its form**: digits without a leading zero are the numeral of the
number that they stand for. -/
theorem decimal_valueOf {l : List UInt8} (h : IsDecimal l) : decimal (valueOf l) = l := by
  rcases h with rfl | ⟨b, rest, rfl, hb, hdigits⟩
  · rfl
  · have hdigit : ∀ b' ∈ b :: rest, digit b' < 10 := fun b' hb' => by
      obtain ⟨hlo, hhi⟩ := (isdigit_iff b').mp (hdigits b' hb')
      unfold digit
      omega
    have hdigits' : Nat.digits 10 (valueOf (b :: rest)) = (b :: rest).reverse.map digit := by
      rw [valueOf_eq_ofDigits]
      refine Nat.digits_ofDigits 10 (by decide) _ (fun d hd => ?_) (fun hne => ?_)
      · obtain ⟨b', hb', rfl⟩ := List.mem_map.mp hd
        exact hdigit b' (List.mem_reverse.mp hb')
      · obtain ⟨hlo, -⟩ := (isdigit_iff b).mp (hdigits b (List.mem_cons_self ..))
        have hne48 : b.toNat ≠ 48 := fun h => hb (UInt8.toNat_inj.mp h)
        simp only [List.reverse_cons, List.map_append, List.map_cons, List.map_nil,
          List.getLast_append_singleton]
        unfold digit
        omega
    have hpos : valueOf (b :: rest) ≠ 0 := by
      intro h
      rw [h, Nat.digits_zero] at hdigits'
      simp at hdigits'
    rw [decimal, if_neg hpos, hdigits', ← List.map_reverse, List.reverse_reverse, List.map_map]
    refine (List.map_congr_left (fun b' hb' => ?_)).trans (List.map_id _)
    exact ofDigit_digit (hdigits b' hb')

/-- So are the numerals of integers. -/
theorem isNumeral_numeral (n : Int) : IsNumeral (numeral n) := by
  unfold numeral
  split
  · next hn =>
    refine .inr ⟨_, rfl, isDecimal_decimal _, fun h => ?_⟩
    have hvalue := valueOf_decimal n.natAbs
    rw [h] at hvalue
    have hzero : valueOf [48] = 0 := rfl
    omega
  · exact .inl (isDecimal_decimal _)

/-! ## `std::stoi` -/

/-- What `std::stoi` throws. -/
inductive StoiError where
  | invalid_argument
  | out_of_range
  deriving DecidableEq

/-- `e.what()`: the library gives the name of the function. -/
def StoiError.what : StoiError → String
  | _ => "stoi"

/-- The sign, if there is one, and what is behind it. -/
def readSign : List UInt8 → Bool × List UInt8
  | 45 :: rest => (true, rest)
  | 43 :: rest => (false, rest)
  | rest => (false, rest)

/-- The number that `std::stoi` finds, of any size. -/
def scanned (str : List UInt8) : Option Int :=
  let (negative, rest) := readSign (str.dropWhile isspace)
  let digits := rest.takeWhile isdigit
  if digits = [] then none
  else some (if negative then -(valueOf digits : Int) else valueOf digits)

/-- `std::stoi(str)`. -/
def stoi (str : List UInt8) : Except StoiError Int32 :=
  match scanned str with
  | none => .error .invalid_argument
  | some value =>
    if value < -2 ^ 31 ∨ 2 ^ 31 ≤ value then .error .out_of_range else .ok (Int32.ofInt value)

/-- Digits alone are read to their end. -/
theorem takeWhile_isDecimal {l : List UInt8} (h : IsDecimal l) : l.takeWhile isdigit = l :=
  List.takeWhile_eq_self_iff.mpr (fun _ hb => h.isdigit hb)

/-- A digit is neither white space nor a sign. -/
theorem isdigit_not_sign {b : UInt8} (h : isdigit b = true) : isspace b = false ∧ b ≠ 45 ∧ b ≠ 43 := by
  obtain ⟨hlo, hhi⟩ := (isdigit_iff b).mp h
  refine ⟨?_, ?_, ?_⟩
  · have h32 : (b == 32) = false := by
      rw [beq_eq_false_iff_ne]
      rintro rfl
      exact absurd hlo (by decide)
    have h13 : ¬ b ≤ 13 := fun hle => absurd (UInt8.le_iff_toNat_le.mp hle) (by
      have : (13 : UInt8).toNat = 13 := rfl
      omega)
    simp [isspace, h32, h13]
  · rintro rfl
    exact absurd hlo (by decide)
  · rintro rfl
    exact absurd hlo (by decide)

/-- What is found in a numeral. -/
theorem scanned_of_isDecimal {l : List UInt8} (h : IsDecimal l) : scanned l = some (↑(valueOf l)) := by
  obtain ⟨b, rest, rfl⟩ := List.exists_cons_of_ne_nil h.ne_nil
  obtain ⟨hspace, hminus, hplus⟩ := isdigit_not_sign (h.isdigit (List.mem_cons_self ..))
  have hsign : readSign ((b :: rest).dropWhile isspace) = (false, b :: rest) := by
    rw [List.dropWhile_cons_of_neg (by simp [hspace])]
    unfold readSign
    split
    · next heq => exact absurd (List.cons.inj heq).1 hminus
    · next heq => exact absurd (List.cons.inj heq).1 hplus
    · rfl
  unfold scanned
  simp only [hsign, takeWhile_isDecimal h]
  rw [if_neg (List.cons_ne_nil _ _)]
  rfl

theorem scanned_of_minus {l : List UInt8} (h : IsDecimal l) :
    scanned (45 :: l) = some (-(valueOf l : Int)) := by
  have hsign : readSign ((45 :: l).dropWhile isspace) = (true, l) := rfl
  unfold scanned
  simp only [hsign, takeWhile_isDecimal h]
  rw [if_neg h.ne_nil]
  rfl

/-- The numeral of a number is read as that number. -/
theorem scanned_numeral (n : Int) : scanned (numeral n) = some n := by
  unfold numeral
  split
  · rw [scanned_of_minus (isDecimal_decimal _), valueOf_decimal]
    congr 1
    omega
  · rw [scanned_of_isDecimal (isDecimal_decimal _), valueOf_decimal]
    congr 1
    omega

/-- What has the form of a numeral is the numeral of the number that is found in it. -/
theorem numeral_of_scanned {l : List UInt8} {n : Int} (h : IsNumeral l) (hn : scanned l = some n) :
    l = numeral n := by
  rcases h with h | ⟨rest, rfl, h, hzero⟩
  · rw [scanned_of_isDecimal h, Option.some.injEq] at hn
    rw [← hn, numeral, if_neg (by omega), Int.natAbs_natCast, decimal_valueOf h]
  · rw [scanned_of_minus h, Option.some.injEq] at hn
    -- only a zero stands for zero
    have hpos : valueOf rest ≠ 0 := by
      intro hvalue
      have hdecimal := decimal_valueOf h
      rw [hvalue] at hdecimal
      exact hzero hdecimal.symm
    rw [← hn, numeral, if_pos (by omega), Int.natAbs_neg, Int.natAbs_natCast, decimal_valueOf h]

/-- **`std::stoi` reads numerals**: every `int` out of its own. -/
theorem stoi_numeral (n : Int32) : stoi (numeral n.toInt) = .ok n := by
  have hlo := n.le_toInt
  have hhi := n.toInt_lt
  unfold stoi
  rw [scanned_numeral]
  simp only
  rw [if_neg (by omega), Int32.ofInt_toInt]

/-- And of what it reads the numerals are those with the form of one. -/
theorem eq_numeral_iff {l : List UInt8} {n : Int32} (hn : stoi l = .ok n) :
    l = numeral n.toInt ↔ IsNumeral l := by
  constructor
  · intro h
    rw [h]
    exact isNumeral_numeral _
  · intro h
    unfold stoi at hn
    cases hvalue : scanned l with
    | none =>
      rw [hvalue] at hn
      cases hn
    | some value =>
      rw [hvalue] at hn
      simp only at hn
      split at hn
      · cases hn
      · next hrange =>
        obtain rfl := Except.ok.inj hn
        rw [Int32.toInt_ofInt_of_le (by omega) (by omega)]
        exact numeral_of_scanned h hvalue

end NetworkApplication.Numerals
