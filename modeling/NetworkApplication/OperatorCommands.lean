/-
The operator's addresses.

A line of the console that is none of the four words is an address and a message,
`<SERVER_PORT>;<ID_SESSION>;<MESSAGE>`. The grammar has two numerals in front of the two first
separators. The parser has what `std::stoi` makes of the text there. It finds the separators
where they are and reads every numeral as its number, so it takes every line of the grammar for
what it says. But `std::stoi` is content with less than a numeral, and nobody asks it how much of
the text it has read: a line that is no address at all is sent on to some session, as if the
operator had meant it.
-/
import NetworkApplication.ServerConsole

set_option autoImplicit false

namespace NetworkApplication

open NetworkApplication.Program

/-! ## The separators -/

/-- A character is found where nothing before it is one. -/
theorem findIdx?_eq_some_iff_append {str : List UInt8} {c : UInt8} {i : Nat} :
    str.findIdx? (· == c) = some i ↔ ∃ before rest, str = before ++ c :: rest ∧ c ∉ before ∧ i = before.length := by
  induction str generalizing i with
  | nil => simp
  | cons b str ih =>
    rw [List.findIdx?_cons]
    by_cases hb : b = c
    · subst hb
      simp only [beq_self_eq_true, if_true, Option.some.injEq]
      constructor
      · rintro rfl
        exact ⟨[], str, rfl, List.not_mem_nil, rfl⟩
      · rintro ⟨before, rest, heq, hnot, rfl⟩
        cases before with
        | nil => rfl
        | cons b' before =>
          obtain rfl := (List.cons.inj heq).1
          exact absurd (List.mem_cons_self ..) hnot
    · have hbeq : (b == c) = false := by simpa using hb
      simp only [hbeq, Bool.false_eq_true, if_false, Option.map_eq_some_iff, ih]
      constructor
      · rintro ⟨j, ⟨before, rest, rfl, hnot, rfl⟩, rfl⟩
        exact ⟨b :: before, rest, rfl, List.not_mem_cons_of_ne_of_not_mem (Ne.symm hb) hnot, rfl⟩
      · rintro ⟨before, rest, heq, hnot, rfl⟩
        cases before with
        | nil => exact absurd (List.cons.inj heq).1 hb
        | cons b' before =>
          obtain ⟨rfl, rfl⟩ := List.cons.inj heq
          exact ⟨before.length, ⟨before, rest, rfl, fun h => hnot (List.mem_cons_of_mem _ h), rfl⟩, rfl⟩

theorem find_eq_some_iff {str : List UInt8} {c : UInt8} {pos i : Nat} :
    find str c pos = some i ↔ ∃ before rest, str.drop pos = before ++ c :: rest ∧ c ∉ before ∧
      i = pos + before.length := by
  simp only [find, Option.map_eq_some_iff, findIdx?_eq_some_iff_append]
  constructor
  · rintro ⟨j, ⟨before, rest, hdrop, hnot, rfl⟩, rfl⟩
    exact ⟨before, rest, hdrop, hnot, rfl⟩
  · rintro ⟨before, rest, hdrop, hnot, rfl⟩
    exact ⟨_, ⟨before, rest, hdrop, hnot, rfl⟩, rfl⟩

namespace ServerConsole

open Numerals

/-- What is in front of, between and behind the two first separators. -/
def splitLine (line : List UInt8) : Option (List UInt8 × List UInt8 × List UInt8) :=
  match find line 59 0 with
  | none => none
  | some pos1 =>
    match find line 59 (pos1 + 1) with
    | none => none
    | some pos2 => some (substr line 0 pos1, substr line (pos1 + 1) (pos2 - pos1 - 1),
        substr line (pos2 + 1) line.length)

/-- What is behind a separator. -/
theorem drop_behind (a rest : List UInt8) : (a ++ 59 :: rest).drop (a.length + 1) = rest := by
  rw [List.drop_append, List.drop_of_length_le (Nat.le_add_right _ _), Nat.add_sub_cancel_left]
  rfl

/-- The parts are where the separators are found. -/
theorem splitLine_append {a b : List UInt8} (m : List UInt8) (ha : 59 ∉ a) (hb : 59 ∉ b) :
    splitLine (a ++ 59 :: (b ++ 59 :: m)) = some (a, b, m) := by
  have hdrop := drop_behind a (b ++ 59 :: m)
  have h₁ : find (a ++ 59 :: (b ++ 59 :: m)) 59 0 = some a.length :=
    find_eq_some_iff.mpr ⟨a, _, rfl, ha, (Nat.zero_add _).symm⟩
  have h₂ : find (a ++ 59 :: (b ++ 59 :: m)) 59 (a.length + 1) = some (a.length + 1 + b.length) :=
    find_eq_some_iff.mpr ⟨b, m, hdrop, hb, rfl⟩
  have hmessage : (a ++ 59 :: (b ++ 59 :: m)).drop (a.length + 1 + b.length + 1) = m := by
    rw [Nat.add_assoc, ← List.drop_drop, hdrop, drop_behind]
  have hcount : a.length + 1 + b.length - a.length - 1 = b.length := by omega
  have hlength : m.length ≤ (a ++ 59 :: (b ++ 59 :: m)).length := by
    simp only [List.length_append, List.length_cons]
    omega
  unfold splitLine
  simp only [h₁, h₂, substr, hdrop, hmessage]
  rw [List.drop_zero, List.take_left, hcount, List.take_left, List.take_of_length_le hlength]

/-- Two separators that are found take the line apart. -/
theorem eq_append_of_find {line : List UInt8} {pos1 pos2 : Nat} (h₁ : find line 59 0 = some pos1)
    (h₂ : find line 59 (pos1 + 1) = some pos2) :
    ∃ a b m, line = a ++ 59 :: (b ++ 59 :: m) ∧ 59 ∉ a ∧ 59 ∉ b := by
  obtain ⟨a, rest, hline, ha, rfl⟩ := find_eq_some_iff.mp h₁
  obtain ⟨b, m, hrest, hb, rfl⟩ := find_eq_some_iff.mp h₂
  rw [List.drop_zero] at hline
  rw [hline, Nat.zero_add, drop_behind] at hrest
  exact ⟨a, b, m, by rw [hline, hrest], ha, hb⟩

/-- The parts are put together again, and the first two have no separator. -/
theorem splitLine_eq_some_iff {line a b m : List UInt8} :
    splitLine line = some (a, b, m) ↔ line = a ++ 59 :: (b ++ 59 :: m) ∧ 59 ∉ a ∧ 59 ∉ b := by
  constructor
  · intro h
    obtain ⟨a', b', m', hline, ha', hb'⟩ : ∃ a b m, line = a ++ 59 :: (b ++ 59 :: m) ∧ 59 ∉ a ∧ 59 ∉ b := by
      unfold splitLine at h
      split at h
      · cases h
      next h₁ =>
        split at h
        · cases h
        next h₂ => exact eq_append_of_find h₁ h₂
    rw [hline, splitLine_append m' ha' hb'] at h
    obtain ⟨rfl, hparts⟩ := Prod.mk.inj (Option.some.inj h)
    obtain ⟨rfl, rfl⟩ := Prod.mk.inj hparts
    exact ⟨hline, ha', hb'⟩
  · rintro ⟨rfl, ha, hb⟩
    exact splitLine_append m ha hb

/-! ## What is done for a line -/

/-- The call that a message to a session is, if the server is there. -/
def callOf (id_server id_session : Int32) (message : List UInt8) : Call :=
  if message = ascii "disconnect" then
    .disconnect id_server.toUInt32 id_session.toInt64.toUInt64
  else .write id_server.toUInt32 id_session.toInt64.toUInt64 message

/-- What the two conversions give, if both go through. -/
def idsOf (id_server_part id_session_part : List UInt8) : Option (Int32 × Int32) := do
  let id_server ← (Numerals.stoi id_server_part).toOption
  let id_session ← (Numerals.stoi id_session_part).toOption
  return (id_server, id_session)

/-- The call that is made for a line. -/
def addressed (ports : List UInt32) (line : List UInt8) : Option Call :=
  match splitLine line with
  | none => none
  | some (id_server_part, id_session_part, message) =>
    match idsOf id_server_part id_session_part with
    | none => none
    | some (id_server, id_session) =>
      if id_server.toUInt32 ∈ ports then some (callOf id_server id_session message) else none

variable {ports : List UInt32} {line : List UInt8} {s : State}

theorem twp_readIds (id_server_part id_session_part : List UInt8) :
    Prog.twp sem (fun ids s' => s' = s ∧ ids = idsOf id_server_part id_session_part)
      (readIds id_server_part id_session_part) s := by
  unfold readIds stoi idsOf
  cases Numerals.stoi id_server_part with
  | error e => exact Prog.twp_go (fun _ => rfl) ⟨rfl, rfl⟩
  | ok id_server =>
    cases Numerals.stoi id_session_part with
    | error e => exact Prog.twp_go (fun _ => rfl) ⟨rfl, rfl⟩
    | ok id_session => exact ⟨rfl, rfl⟩

theorem twp_deliver (id_server id_session : Int32) (message : List UInt8) :
    Prog.twp sem (fun _ s' => s' = { s with calls := s.calls ++
      (if id_server.toUInt32 ∈ ports then [callOf id_server id_session message] else []) })
      (deliver ports id_server id_session message) s := by
  unfold deliver callOf
  split
  · split
    · exact Prog.twp_go (k := Prog.pure) (fun _ => rfl) rfl
    · exact Prog.twp_go (k := Prog.pure) (fun _ => rfl) rfl
  · exact twp_log _ _ (by rw [List.append_nil])

/-- A line that is none of the words makes that call and no other. -/
theorem twp_handleAddress (line : List UInt8) :
    Prog.twp sem (fun _ s' => s' = { s with calls := s.calls ++ (addressed ports line).toList })
      (handleAddress ports line) s := by
  have hnothing : s = { s with calls := s.calls ++ [] } := by rw [List.append_nil]
  unfold handleAddress addressed splitLine
  cases find line 59 0 with
  | none => exact twp_log _ _ hnothing
  | some pos1 =>
    simp only
    cases find line 59 (pos1 + 1) with
    | none => exact twp_log _ _ hnothing
    | some pos2 =>
      simp only
      refine Prog.twp_bind (Prog.twp_mono (twp_readIds _ _) ?_)
      rintro ids s' ⟨rfl, rfl⟩
      cases idsOf (substr line 0 pos1) (substr line (pos1 + 1) (pos2 - pos1 - 1)) with
      | none => exact hnothing
      | some ids =>
        refine Prog.twp_mono (twp_deliver ids.1 ids.2 _) ?_
        rintro u s₁ rfl
        simp only
        split <;> rfl

/-- The four words. -/
def Word (line : List UInt8) : Prop :=
  line = ascii "help" ∨ line = ascii "stop" ∨ line = ascii "list" ∨ line = ascii "broadcast"

/-- The line is handled with these calls: the loop goes on, and nothing else is done. -/
def Handled (ports : List UInt32) (line : List UInt8) (done : List Call) : Prop :=
  ∀ s, (∃ out s', Prog.Runs sem (handleLine ports line) s out s') ∧
    ∀ out s', Prog.Runs sem (handleLine ports line) s out s' →
      out = .ok (some .inner) ∧ s' = { s with calls := s.calls ++ done }

/-- There is one way in which an address is handled. -/
theorem handled_iff (hword : ¬ Word line) {done : List Call} :
    Handled ports line done ↔ done = (addressed ports line).toList := by
  obtain ⟨hhelp, hstop, hlist, hbroadcast⟩ : line ≠ ascii "help" ∧ line ≠ ascii "stop" ∧
      line ≠ ascii "list" ∧ line ≠ ascii "broadcast" := by
    simpa only [Word, not_or] using hword
  have hline : ∀ s, Prog.twp sem (fun next s' => next = some Label.inner ∧
      s' = { s with calls := s.calls ++ (addressed ports line).toList }) (handleLine ports line) s := by
    intro s
    unfold handleLine
    rw [if_neg hhelp, if_neg hstop, if_neg hlist, if_neg hbroadcast]
    exact Prog.twp_bind (Prog.twp_mono (twp_handleAddress line) (fun _ _ h => ⟨rfl, h⟩))
  constructor
  · intro h
    obtain ⟨⟨out, s', hrun⟩, hall⟩ := h (.ofInput [])
    obtain ⟨-, -, -, hs'⟩ := (Prog.runs_of_twp (hline _)).2 out s' hrun
    have hcalls := congrArg State.calls ((hall out s' hrun).2.symm.trans hs')
    simpa using hcalls
  · rintro rfl s
    refine ⟨(Prog.runs_of_twp (hline s)).1, fun out s' hrun => ?_⟩
    obtain ⟨next, rfl, rfl, hs'⟩ := (Prog.runs_of_twp (hline s)).2 out s' hrun
    exact ⟨rfl, hs'⟩

/-! ## The grammar -/

/-- The line is an address of a server and a session, and a message. -/
def Addresses (ports : List UInt32) (line : List UInt8) (p s : Int32) (m : List UInt8) : Prop :=
  line = numeral p.toInt ++ 59 :: (numeral s.toInt ++ 59 :: m) ∧ p.toUInt32 ∈ ports

/-- The parser accepts the grammar: a message goes to a session if and only if the line says
so, and for every other line nothing is done. -/
def AcceptsGrammar (ports : List UInt32) (line : List UInt8) : Prop :=
  (∀ p s m, Handled ports line [callOf p s m] ↔ Addresses ports line p s m) ∧
    ((¬ ∃ p s m, Addresses ports line p s m) → Handled ports line [])

/-- What `std::stoi` accepts in front of the separators of a line with a configured server is in
both places a numeral: no white space, no plus, no leading zero, nothing behind the digits. -/
def NumeralsOnly (ports : List UInt32) (line : List UInt8) : Prop :=
  ∀ a b m p s, splitLine line = some (a, b, m) → Numerals.stoi a = .ok p → Numerals.stoi b = .ok s →
    p.toUInt32 ∈ ports → IsNumeral a ∧ IsNumeral b

/-- A numeral has no separator. -/
theorem separator_not_mem_numeral (n : Int) : 59 ∉ numeral n := by
  have hdecimal : ∀ k, 59 ∉ decimal k := fun k h => by
    have := (isDecimal_decimal k).isdigit h
    exact absurd this (by decide)
  unfold numeral
  split
  · rw [List.mem_cons, not_or]
    exact ⟨by decide, hdecimal _⟩
  · exact hdecimal _

/-- The call says which session it is for, and what the message is. -/
theorem callOf_inj {p p' s s' : Int32} {m m' : List UInt8} (h : callOf p s m = callOf p' s' m') :
    p = p' ∧ s = s' ∧ m = m' := by
  -- the conversions are of one width, or to a greater one
  have hserver : p.toUInt32 = p'.toUInt32 → p = p' := fun h => congrArg UInt32.toInt32 h
  have hsession : s.toInt64.toUInt64 = s'.toInt64.toUInt64 → s = s' := fun h => by
    have h64 : s.toInt64 = s'.toInt64 := congrArg UInt64.toInt64 h
    rw [← Int32.toInt32_toInt64 s, ← Int32.toInt32_toInt64 s', h64]
  unfold callOf at h
  split at h <;> split at h
  · next hm hm' =>
    obtain ⟨hp, hs⟩ := Call.disconnect.inj h
    exact ⟨hserver hp, hsession hs, hm.trans hm'.symm⟩
  · cases h
  · cases h
  · obtain ⟨hp, hs, hm⟩ := Call.write.inj h
    exact ⟨hserver hp, hsession hs, hm⟩

theorem except_toOption_eq_ok {l : List UInt8} {n : Int32} :
    (Numerals.stoi l).toOption = some n ↔ Numerals.stoi l = .ok n := by
  cases Numerals.stoi l <;> simp [Except.toOption]

theorem idsOf_eq_some_iff {a b : List UInt8} {p s : Int32} :
    idsOf a b = some (p, s) ↔ Numerals.stoi a = .ok p ∧ Numerals.stoi b = .ok s := by
  simp only [idsOf, bind, Option.bind_eq_some_iff, pure, Option.some.injEq, Prod.mk.injEq,
    except_toOption_eq_ok]
  constructor
  · rintro ⟨p', hp, s', hs, rfl, rfl⟩
    exact ⟨hp, hs⟩
  · rintro ⟨hp, hs⟩
    exact ⟨p, hp, s, hs, rfl, rfl⟩

/-- When a line is taken for an address. -/
theorem addressed_eq_some_iff {c : Call} :
    addressed ports line = some c ↔ ∃ a b m p s, splitLine line = some (a, b, m) ∧
      Numerals.stoi a = .ok p ∧ Numerals.stoi b = .ok s ∧ p.toUInt32 ∈ ports ∧ c = callOf p s m := by
  unfold addressed
  constructor
  · intro h
    split at h
    · cases h
    · next a b m hsplit =>
      split at h
      · cases h
      · next p s hids =>
        obtain ⟨hp, hs⟩ := idsOf_eq_some_iff.mp hids
        rw [Option.ite_none_right_eq_some] at h
        exact ⟨a, b, m, p, s, hsplit, hp, hs, h.1, (Option.some.inj h.2).symm⟩
  · rintro ⟨a, b, m, p, s, hsplit, hp, hs, hport, rfl⟩
    simp only [hsplit, idsOf_eq_some_iff.mpr ⟨hp, hs⟩, hport, if_true]

/-- The lines of the grammar are taken for what they say. -/
theorem addressed_of_addresses {p s : Int32} {m : List UInt8} (h : Addresses ports line p s m) :
    splitLine line = some (numeral p.toInt, numeral s.toInt, m) ∧
      addressed ports line = some (callOf p s m) := by
  have hsplit := splitLine_eq_some_iff.mpr
    ⟨h.1, separator_not_mem_numeral p.toInt, separator_not_mem_numeral s.toInt⟩
  exact ⟨hsplit, addressed_eq_some_iff.mpr
    ⟨_, _, _, _, _, hsplit, stoi_numeral p, stoi_numeral s, h.2, rfl⟩⟩

/-- **When the parser accepts its grammar.** It accepts every line of the grammar, and no other
if and only if what `std::stoi` is given is a numeral. -/
theorem accepts_grammar_iff (hword : ¬ Word line) : AcceptsGrammar ports line ↔ NumeralsOnly ports line := by
  have hone : ∀ c, Handled ports line [c] ↔ addressed ports line = some c := by
    intro c
    rw [handled_iff hword]
    cases addressed ports line <;> simp [eq_comm]
  constructor
  · rintro ⟨haccepts, -⟩ a b m p s hsplit hp hs hport
    have haddressed := addressed_eq_some_iff.mpr ⟨a, b, m, p, s, hsplit, hp, hs, hport, rfl⟩
    -- what is taken for an address has to be one, and then its parts are the numerals
    have haddresses := (haccepts p s m).mp ((hone _).mpr haddressed)
    have hparts := (addressed_of_addresses haddresses).1
    rw [hsplit, Option.some.injEq, Prod.mk.injEq, Prod.mk.injEq] at hparts
    obtain ⟨rfl, rfl, -⟩ := hparts
    exact ⟨isNumeral_numeral _, isNumeral_numeral _⟩
  · intro hnumerals
    have haddresses : ∀ a b m p s, splitLine line = some (a, b, m) → Numerals.stoi a = .ok p →
        Numerals.stoi b = .ok s → p.toUInt32 ∈ ports → Addresses ports line p s m := by
      intro a b m p s hsplit hp hs hport
      obtain ⟨ha, hb⟩ := hnumerals a b m p s hsplit hp hs hport
      obtain ⟨hline, -, -⟩ := splitLine_eq_some_iff.mp hsplit
      rw [(eq_numeral_iff hp).mpr ha, (eq_numeral_iff hs).mpr hb] at hline
      exact ⟨hline, hport⟩
    refine ⟨fun p s m => ?_, fun hnone => ?_⟩
    · rw [hone]
      constructor
      · intro h
        obtain ⟨a, b, m', p', s', hsplit, hp, hs, hport, hcall⟩ := addressed_eq_some_iff.mp h
        obtain ⟨rfl, rfl, rfl⟩ := callOf_inj hcall
        exact haddresses a b _ _ _ hsplit hp hs hport
      · exact fun h => (addressed_of_addresses h).2
    · rw [handled_iff hword]
      cases h : addressed ports line with
      | none => rfl
      | some c =>
        obtain ⟨a, b, m, p, s, hsplit, hp, hs, hport, -⟩ := addressed_eq_some_iff.mp h
        exact absurd ⟨p, s, m, haddresses a b m p s hsplit hp hs hport⟩ hnone

/-- A line with two mistyped numbers. -/
def mistyped : List UInt8 := ascii "8080abc;1x;hi"

theorem not_isNumeral_mistyped : ¬ IsNumeral (ascii "8080abc") := by
  rintro (h | ⟨rest, h, -, -⟩)
  · exact absurd (h.isdigit (show 97 ∈ ascii "8080abc" by decide)) (by decide)
  · exact absurd (List.cons.inj h).1 (by decide)

/-- **A mistyped line is sent on**, to the session 1 of the server 8080. -/
theorem mistyped_line_is_sent : ¬ Word mistyped ∧
    Handled [8080] mistyped [.write 8080 1 (ascii "hi")] ∧
    (¬ ∃ p s m, Addresses [8080] mistyped p s m) ∧ ¬ AcceptsGrammar [8080] mistyped := by
  have hword : ¬ Word mistyped := by
    unfold Word
    decide
  have hhandled : Handled [8080] mistyped [.write 8080 1 (ascii "hi")] := (handled_iff hword).mpr (by decide)
  have hnone : ¬ ∃ p s m, Addresses [8080] mistyped p s m := by
    rintro ⟨p, s, m, h⟩
    have hparts := (addressed_of_addresses h).1
    have hsplit : splitLine mistyped = some (ascii "8080abc", ascii "1x", ascii "hi") := by decide
    rw [hsplit, Option.some.injEq, Prod.mk.injEq] at hparts
    have hnumeral := isNumeral_numeral p.toInt
    rw [← hparts.1] at hnumeral
    exact not_isNumeral_mistyped hnumeral
  refine ⟨hword, hhandled, hnone, fun h => ?_⟩
  have hcalls := (handled_iff hword).mp hhandled
  rw [← (handled_iff hword).mp (h.2 hnone)] at hcalls
  cases hcalls

/-- A line of the grammar, to a session with a negative number and with a separator in its
message. -/
theorem typed_line_accepted : AcceptsGrammar [8080] (ascii "8080;-1;a;b") := by
  refine (accepts_grammar_iff (by unfold Word; decide)).mpr ?_
  intro a b m p s hsplit _ _ _
  have hparts : splitLine (ascii "8080;-1;a;b") = some (ascii "8080", ascii "-1", ascii "a;b") := by decide
  rw [hparts, Option.some.injEq, Prod.mk.injEq, Prod.mk.injEq] at hsplit
  obtain ⟨rfl, rfl, -⟩ := hsplit
  exact ⟨.inl (.inr ⟨56, _, rfl, by decide, List.all_eq_true.mp (by decide)⟩),
    .inr ⟨[49], rfl, .inr ⟨49, [], rfl, by decide, List.all_eq_true.mp (by decide)⟩, by decide⟩⟩

end ServerConsole

end NetworkApplication
