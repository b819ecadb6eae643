/-
`server/main.cpp`: from a configuration to servers.

`getData` looks at the kinds of three fields and at nothing in them. What is in them is taken out
here, by a loop over the indices of the first: a port, whether many clients may connect, and a
magic number, each out of its own array and each converted on the way. The loop is in one `try`,
so the first element that is missing or of the wrong kind ends it, and the program with it.

The counter is a `short`. What is done with a negative one does not matter, because as a `size_t`
it is larger than the size of any array: the loop visits `2 ^ 15` indices at most.
-/
import NetworkApplication.Configuration
import NetworkApplication.SegmentServer
import Mathlib.Algebra.Group.Int.Defs

set_option autoImplicit false

namespace NetworkApplication

/-- What the accessors of the set-up throw. -/
inductive SetUpError where
  | accessor (e : Exception)
  | out_of_range (pos : Nat)
  | not_bool
  | not_number
  | not_exact
  deriving DecidableEq

namespace Json

/-- `array::at(pos)`. -/
def element (l : List Json) (pos : Nat) : Except SetUpError Json :=
  match l[pos]? with
  | some v => .ok v
  | none => .error (.out_of_range pos)

/-- `as_bool()`. -/
def as_bool : Json → Except SetUpError Bool
  | .bool b => .ok b
  | _ => .error .not_bool

/-- The number of a `double` that is one of the numbers of a `uint32_t`. -/
def exactUInt32 (d : DoubleBits) : Option UInt32 :=
  let exponent := (d >>> 52 &&& 0x7ff).toNat
  let significand := 2 ^ 52 + (d &&& 0xfffffffffffff).toNat
  if d <<< 1 = 0 then some 0
  else if d >>> 63 = 1 ∨ exponent < 1023 ∨ 1023 + 32 ≤ exponent then none
  else if significand % 2 ^ (1075 - exponent) = 0 then
    some (UInt32.ofNat (significand / 2 ^ (1075 - exponent)))
  else none

/-- `to_number<uint32_t>()`. -/
def to_number : Json → Except SetUpError UInt32
  | .int64 n => if 0 ≤ n.toInt ∧ n.toInt < 2 ^ 32 then .ok n.toUInt64.toUInt32 else .error .not_exact
  | .uint64 n => if n.toNat < 2 ^ 32 then .ok n.toUInt32 else .error .not_exact
  | .double d =>
    match exactUInt32 d with
    | some n => .ok n
    | none => .error .not_exact
  | _ => .error .not_number

end Json

/-- `ServerCreatorParams`. -/
structure ServerCreatorParams where
  port : Int32
  multiConnect : Bool

/-- A server as the set-up leaves it: its port, as a `PortInt`, and its settings. -/
structure CreatedServer where
  port : UInt32
  settings : SegmentServer

namespace SetUp

open ConfigurationHandler

/-- `SegmentServerCreator::create`, and the number and the read handler set on what it creates. -/
def create (params : ServerCreatorParams) (magicNumber : UInt32) : CreatedServer where
  port := params.port.toUInt32
  settings := ⟨params.multiConnect, magicNumber, true⟩

/-- `std::map<uint32_t, std::shared_ptr<Network::Server>>`. -/
abbrev Servers := UInt32 → Option CreatedServer

/-- `i < portsArr.size()`. -/
def below (i : Int16) (size : Nat) : Bool := 0 ≤ i && i.toNatClampNeg < size

section

variable (portsArr multiArr magicArr : List Json)

/-- The body of the loop. -/
def addServer (i : Nat) (servers : Servers) : Except SetUpError Servers := do
  let port ← (← Json.element portsArr i).as_int64.mapError .accessor
  let multiConnect ← Json.as_bool (← Json.element multiArr i)
  let params : ServerCreatorParams := ⟨port.toInt32, multiConnect⟩
  let magicNumber ← Json.to_number (← Json.element magicArr i)
  let server := create params magicNumber
  return Function.update servers params.port.toUInt32 (some server)

/-- The loop; the bound on the rounds is never reached when it is more than there are `short`s
that are not negative. -/
def setUpFrom : Nat → Int16 → Servers → Except SetUpError Servers
  | 0, _, servers => .ok servers
  | bound + 1, i, servers =>
    if below i portsArr.length then do
      let servers ← addServer portsArr multiArr magicArr i.toNatClampNeg servers
      setUpFrom bound (i + 1) servers
    else .ok servers

end

/-- The set-up. -/
def setUp (serverConfig : List (String × Json)) : Except SetUpError Servers := do
  let portsArr ← ((Json.object serverConfig).at_ "ports" >>= Json.as_array).mapError .accessor
  let multiArr ← ((Json.object serverConfig).at_ "multiConnect" >>= Json.as_array).mapError .accessor
  let magicArr ← ((Json.object serverConfig).at_ "magic" >>= Json.as_array).mapError .accessor
  setUpFrom portsArr multiArr magicArr (2 ^ 15 + 1) 0 (fun _ => none)

/-- The elements of an array in the configuration. -/
def arrayOf (serverConfig : List (String × Json)) (key : String) : List Json :=
  match serverConfig.lookup key with
  | some (.array l) => l
  | _ => []

/-! ## One entry -/

/-- The key of a port. -/
def keyOf (port : Int64) : UInt32 := port.toInt32.toUInt32

/-- Index `i` has an entry in all three arrays. -/
def IsEntry (portsArr multiArr magicArr : List Json) (i : Nat) (port : Int64) (multiConnect : Bool)
    (magicNumber : UInt32) : Prop :=
  portsArr[i]? = some (.int64 port) ∧ multiArr[i]? = some (.bool multiConnect) ∧
    ∃ v, magicArr[i]? = some v ∧ v.to_number = .ok magicNumber

variable {portsArr multiArr magicArr : List Json} {servers servers' : Servers} {i j : Nat}
  {port port' : Int64} {multiConnect multiConnect' : Bool} {magicNumber magicNumber' : UInt32}

/-- The entry of an index. -/
theorem IsEntry.unique (h : IsEntry portsArr multiArr magicArr i port multiConnect magicNumber)
    (h' : IsEntry portsArr multiArr magicArr i port' multiConnect' magicNumber') :
    port = port' ∧ multiConnect = multiConnect' ∧ magicNumber = magicNumber' := by
  obtain ⟨hport, hmulti, v, hv, hmagic⟩ := h
  obtain ⟨hport', hmulti', v', hv', hmagic'⟩ := h'
  rw [hport, Option.some.injEq, Json.int64.injEq] at hport'
  rw [hmulti, Option.some.injEq, Json.bool.injEq] at hmulti'
  rw [hv, Option.some.injEq] at hv'
  subst hv'
  rw [hmagic, Except.ok.injEq] at hmagic'
  exact ⟨hport', hmulti', hmagic'⟩

theorem element_eq_ok_iff {l : List Json} {v : Json} : Json.element l i = .ok v ↔ l[i]? = some v := by
  unfold Json.element
  cases l[i]? with
  | none => simp
  | some v' => simp

theorem as_bool_eq_ok_iff {v : Json} {b : Bool} : v.as_bool = .ok b ↔ v = .bool b := by
  cases v with
  | bool b' => simp [Json.as_bool]
  | _ => simp [Json.as_bool]

theorem mapError_eq_ok_iff {ε ε' α : Type} {x : Except ε α} {f : ε → ε'} {a : α} :
    x.mapError f = .ok a ↔ x = .ok a := by
  cases x with
  | error e => simp [Except.mapError]
  | ok a' => simp [Except.mapError]

/-- The body goes through if the index has an entry, and it puts the entry's server under the key of
its port. -/
theorem addServer_eq_ok_iff : addServer portsArr multiArr magicArr i servers = .ok servers'
    ↔ ∃ port multiConnect magicNumber,
      IsEntry portsArr multiArr magicArr i port multiConnect magicNumber ∧
      servers' = Function.update servers (keyOf port)
        (some (create ⟨port.toInt32, multiConnect⟩ magicNumber)) := by
  unfold addServer
  simp only [except_bind_eq_ok, element_eq_ok_iff, mapError_eq_ok_iff, Json.as_int64_eq_ok_iff,
    as_bool_eq_ok_iff, pure, Except.pure, Except.ok.injEq]
  constructor
  · rintro ⟨_, hport, port, rfl, _, hmulti, multiConnect, rfl, v, hv, magicNumber, hmagic, rfl⟩
    exact ⟨port, multiConnect, magicNumber, ⟨hport, hmulti, v, hv, hmagic⟩, rfl⟩
  · rintro ⟨port, multiConnect, magicNumber, ⟨hport, hmulti, v, hv, hmagic⟩, rfl⟩
    exact ⟨_, hport, port, rfl, _, hmulti, multiConnect, rfl, v, hv, magicNumber, hmagic, rfl⟩

/-! ## The loop -/

/-- How many indices the loop visits. -/
def visited (size : Nat) : Nat := min size (2 ^ 15)

/-- Up to `2 ^ 15` the counter is the index, -/
theorem toInt_ofNat_of_lt {k : Nat} (hk : k < 2 ^ 15) : (Int16.ofNat k).toInt = k := by
  have hsize : Int16.size = 65536 := rfl
  rw [Int16.toInt_ofNat', hsize]
  exact Int.bmod_eq_of_le (by omega) (by omega)

theorem toNatClampNeg_ofNat {k : Nat} (hk : k < 2 ^ 15) : (Int16.ofNat k).toNatClampNeg = k := by
  rw [Int16.toNatClampNeg, toInt_ofNat_of_lt hk, Int.toNat_natCast]

/-- and `2 ^ 15` itself is negative. -/
theorem below_ofNat {k : Nat} (hk : k ≤ 2 ^ 15) (size : Nat) :
    below (Int16.ofNat k) size = true ↔ k < visited size := by
  unfold below visited
  by_cases hlt : k < 2 ^ 15
  · have hint := toInt_ofNat_of_lt hlt
    have hnonneg : (0 : Int16) ≤ Int16.ofNat k := by
      rw [Int16.le_iff_toInt_le, hint]
      exact Int.natCast_nonneg k
    rw [Bool.and_eq_true, decide_eq_true_iff, decide_eq_true_iff, toNatClampNeg_ofNat hlt]
    constructor
    · intro h
      have := h.2
      omega
    · intro h
      exact ⟨hnonneg, by omega⟩
  · obtain rfl : k = 2 ^ 15 := by omega
    have hnegative : ¬ (0 : Int16) ≤ Int16.ofNat (2 ^ 15) := by decide
    rw [Bool.and_eq_true, decide_eq_true_iff]
    constructor
    · intro h
      exact absurd h.1 hnegative
    · intro h
      omega

/-- Of the entries visited from `k` on, that of `i` is the last one under a key. -/
structure Last (portsArr multiArr magicArr : List Json) (k : Nat) (key : UInt32) (i : Nat)
    (port : Int64) (multiConnect : Bool) (magicNumber : UInt32) : Prop where
  from_ : k ≤ i
  visited : i < visited portsArr.length
  entry : IsEntry portsArr multiArr magicArr i port multiConnect magicNumber
  under : keyOf port = key
  last : ∀ j port' multiConnect' magicNumber', i < j → j < SetUp.visited portsArr.length →
    IsEntry portsArr multiArr magicArr j port' multiConnect' magicNumber' → keyOf port' ≠ key

/-- The indices from `k` on have been visited: each key that occurs has the server of the last entry
under it, and the others have what they had. -/
structure Filled (portsArr multiArr magicArr : List Json) (k : Nat) (servers servers' : Servers) :
    Prop where
  entries : ∀ i, k ≤ i → i < visited portsArr.length →
    ∃ port multiConnect magicNumber, IsEntry portsArr multiArr magicArr i port multiConnect magicNumber
  keys : ∀ key, (∃ i port multiConnect magicNumber,
      Last portsArr multiArr magicArr k key i port multiConnect magicNumber ∧
        servers' key = some (create ⟨port.toInt32, multiConnect⟩ magicNumber)) ∨
    ((∀ i port multiConnect magicNumber, k ≤ i → i < visited portsArr.length →
        IsEntry portsArr multiArr magicArr i port multiConnect magicNumber → keyOf port ≠ key) ∧
      servers' key = servers key)

/-- Nothing is left to visit. -/
theorem filled_of_le {k : Nat} (h : visited portsArr.length ≤ k) (servers : Servers) :
    Filled portsArr multiArr magicArr k servers servers where
  entries := by
    intro i hk hi
    omega
  keys := by
    intro key
    refine .inr ⟨?_, rfl⟩
    intro i port multiConnect magicNumber hk hi
    omega

/-- One round in front of the others. -/
theorem Filled.step {k : Nat} (hk : k < visited portsArr.length)
    (hentry : IsEntry portsArr multiArr magicArr k port multiConnect magicNumber)
    (h : Filled portsArr multiArr magicArr (k + 1) (Function.update servers (keyOf port)
      (some (create ⟨port.toInt32, multiConnect⟩ magicNumber))) servers') :
    Filled portsArr multiArr magicArr k servers servers' where
  entries := by
    intro i hi hlt
    by_cases hik : i = k
    · subst hik
      exact ⟨_, _, _, hentry⟩
    · exact h.entries i (by omega) hlt
  keys := by
    intro key
    rcases h.keys key with ⟨i, p, b, m, hlast, hserver⟩ | ⟨hnone, hserver⟩
    · refine .inl ⟨i, p, b, m, ⟨?_, hlast.visited, hlast.entry, hlast.under, hlast.last⟩, hserver⟩
      have := hlast.from_
      omega
    by_cases hkey : keyOf port = key
    · -- nobody came after the entry of this round
      refine .inl ⟨k, port, multiConnect, magicNumber, ⟨Nat.le_refl k, hk, hentry, hkey, ?_⟩, ?_⟩
      · intro j p b m hj hlt
        exact hnone j p b m (by omega) hlt
      · rw [hserver, ← hkey, Function.update_self]
    · refine .inr ⟨?_, ?_⟩
      · intro i p b m hi hlt hp
        by_cases hik : i = k
        · subst hik
          rw [(hp.unique hentry).1]
          exact hkey
        · exact hnone i p b m (by omega) hlt hp
      · rw [hserver, Function.update_of_ne (Ne.symm hkey)]

/-- The counter's next value. -/
theorem ofNat_succ (k : Nat) : Int16.ofNat k + 1 = Int16.ofNat (k + 1) := by
  rw [Int16.ofNat_add]
  rfl

/-- What the loop leaves when it ends. The induction is on the bound; the index is that of the
round. -/
theorem filled_of_setUpFrom {bound k : Nat} (hbound : 2 ^ 15 < bound + k) (hk : k ≤ 2 ^ 15)
    (h : setUpFrom portsArr multiArr magicArr bound (Int16.ofNat k) servers = .ok servers') :
    Filled portsArr multiArr magicArr k servers servers' := by
  induction bound generalizing k servers with
  | zero => omega
  | succ bound ih =>
    unfold setUpFrom at h
    by_cases hlt : k < visited portsArr.length
    · rw [if_pos ((below_ofNat hk _).mpr hlt)] at h
      obtain ⟨servers₁, hadd, hrest⟩ := except_bind_eq_ok.mp h
      have hk' : k < 2 ^ 15 := by
        unfold visited at hlt
        omega
      rw [toNatClampNeg_ofNat hk'] at hadd
      rw [ofNat_succ] at hrest
      obtain ⟨port, multiConnect, magicNumber, hentry, rfl⟩ := addServer_eq_ok_iff.mp hadd
      exact .step hlt hentry (ih (by omega) (by omega) hrest)
    · rw [if_neg (fun hbelow => hlt ((below_ofNat hk _).mp hbelow)), Except.ok.injEq] at h
      subst h
      exact filled_of_le (by omega) servers

/-- It ends if all the indices that it visits have entries. -/
theorem setUpFrom_ends {bound k : Nat} (hbound : 2 ^ 15 < bound + k) (hk : k ≤ 2 ^ 15)
    (hentries : ∀ i, k ≤ i → i < visited portsArr.length → ∃ port multiConnect magicNumber,
      IsEntry portsArr multiArr magicArr i port multiConnect magicNumber) (servers : Servers) :
    ∃ servers', setUpFrom portsArr multiArr magicArr bound (Int16.ofNat k) servers = .ok servers' := by
  induction bound generalizing k servers with
  | zero => omega
  | succ bound ih =>
    unfold setUpFrom
    by_cases hlt : k < visited portsArr.length
    · rw [if_pos ((below_ofNat hk _).mpr hlt)]
      have hk' : k < 2 ^ 15 := by
        unfold visited at hlt
        omega
      obtain ⟨port, multiConnect, magicNumber, hentry⟩ := hentries k (Nat.le_refl k) hlt
      have hadd : addServer portsArr multiArr magicArr k servers = .ok _ :=
        addServer_eq_ok_iff.mpr ⟨_, _, _, hentry, rfl⟩
      obtain ⟨servers', hrest⟩ := ih (k := k + 1) (by omega) (by omega)
        (fun i hi => hentries i (by omega)) (Function.update servers (keyOf port)
          (some (create ⟨port.toInt32, multiConnect⟩ magicNumber)))
      refine ⟨servers', ?_⟩
      rw [toNatClampNeg_ofNat hk', hadd, ofNat_succ]
      exact hrest
    · rw [if_neg (fun hbelow => hlt ((below_ofNat hk _).mp hbelow))]
      exact ⟨servers, rfl⟩

/-! ## The keys -/

/-- A key is 32 bits of its port. -/
theorem toNat_keyOf (port : Int64) : ((keyOf port).toNat : Int) = port.toInt % 2 ^ 32 := by
  have hbits : (keyOf port).toNat = port.toBitVec.toNat % 2 ^ 32 := by
    show (port.toBitVec.signExtend 32).toNat = _
    rw [BitVec.signExtend_eq_setWidth_of_le _ (by decide), BitVec.toNat_setWidth]
  have hint : port.toInt = if 2 * port.toBitVec.toNat < 2 ^ 64 then (port.toBitVec.toNat : Int)
      else (port.toBitVec.toNat : Int) - 2 ^ 64 := BitVec.toInt_eq_toNat_cond port.toBitVec
  rw [hbits, hint]
  split
  · omega
  · omega

/-- A port that fits is its own key, -/
theorem toNat_keyOf_of_fits (hport : 0 ≤ port.toInt ∧ port.toInt < 2 ^ 32) :
    ((keyOf port).toNat : Int) = port.toInt := by
  rw [toNat_keyOf]
  omega

/-- and of no other port that fits. -/
theorem eq_of_keyOf_eq (hport : 0 ≤ port.toInt ∧ port.toInt < 2 ^ 32)
    (hport' : 0 ≤ port'.toInt ∧ port'.toInt < 2 ^ 32) (h : keyOf port = keyOf port') :
    port = port' := by
  have hkey := toNat_keyOf_of_fits hport
  have hkey' := toNat_keyOf_of_fits hport'
  rw [h, hkey'] at hkey
  exact Int64.toInt_inj.mp hkey.symm

/-! ## The whole -/

/-- The configuration has the structure that `getData` checks. -/
theorem setUp_eq {obj : List (String × Json)} (hvalid : validStructure .Server obj = true) :
    setUp obj = setUpFrom (arrayOf obj "ports") (arrayOf obj "multiConnect") (arrayOf obj "magic")
      (2 ^ 15 + 1) (Int16.ofNat 0) (fun _ => none) := by
  have harray : ∀ key, has obj key Json.is_array = true →
      ((Json.object obj).at_ key >>= Json.as_array) = .ok (arrayOf obj key) := by
    intro key hkey
    unfold has at hkey
    cases hlookup : obj.lookup key with
    | none => simp [hlookup] at hkey
    | some v =>
      rw [hlookup] at hkey
      cases v with
      | array l =>
        have hat : (Json.object obj).at_ key = .ok (.array l) :=
          Json.at_eq_ok_iff.mpr ⟨obj, rfl, hlookup⟩
        rw [hat, arrayOf, hlookup]
        rfl
      | _ => cases hkey
  rw [validStructure, Bool.and_eq_true, Bool.and_eq_true] at hvalid
  unfold setUp
  rw [harray "ports" hvalid.1.1, harray "multiConnect" hvalid.1.2, harray "magic" hvalid.2]
  rfl

/-- The set-up ends, and every index of the ports has its server: under its port, and with the
values of its entry. -/
def ServesAll (obj : List (String × Json)) : Prop :=
  ∃ servers, setUp obj = .ok servers ∧ ∀ i, i < (arrayOf obj "ports").length →
    ∃ port multiConnect magicNumber,
      IsEntry (arrayOf obj "ports") (arrayOf obj "multiConnect") (arrayOf obj "magic") i port
        multiConnect magicNumber ∧
      ∃ key server, (UInt32.toNat key : Int) = port.toInt ∧ servers key = some server ∧
        server.port = key ∧ server.settings.multiConnect = multiConnect ∧
        server.settings.magicNumber = magicNumber

/-- Every index of the ports has an entry, its port is a number of 32 bits, and the last entry with
that port among those that are visited has the same values. -/
def Agrees (obj : List (String × Json)) : Prop :=
  ∀ i, i < (arrayOf obj "ports").length → ∃ port multiConnect magicNumber,
    IsEntry (arrayOf obj "ports") (arrayOf obj "multiConnect") (arrayOf obj "magic") i port
      multiConnect magicNumber ∧ (0 ≤ port.toInt ∧ port.toInt < 2 ^ 32) ∧
    ∃ j, j < visited (arrayOf obj "ports").length ∧
      IsEntry (arrayOf obj "ports") (arrayOf obj "multiConnect") (arrayOf obj "magic") j port
        multiConnect magicNumber ∧
      ∀ j' multiConnect' magicNumber', j < j' → j' < visited (arrayOf obj "ports").length →
        ¬ IsEntry (arrayOf obj "ports") (arrayOf obj "multiConnect") (arrayOf obj "magic") j' port
          multiConnect' magicNumber'

theorem lt_length_of_lt_visited {size : Nat} (h : i < visited size) : i < size := by
  unfold visited at h
  omega

/-- **When the validator and the loop agree**: for every object that passes the structure check,
exactly if each index of the ports has an entry with a port of 32 bits, and no entry that comes
later among the first `2 ^ 15` overwrites its server with another. -/
theorem serves_all_iff {obj : List (String × Json)} (hvalid : validStructure .Server obj = true) :
    ServesAll obj ↔ Agrees obj := by
  unfold ServesAll Agrees
  rw [setUp_eq hvalid]
  set portsArr := arrayOf obj "ports"
  set multiArr := arrayOf obj "multiConnect"
  set magicArr := arrayOf obj "magic"
  constructor
  · rintro ⟨servers, hrun, hserved⟩ i hi
    -- the loop has come to its end, so each entry it has looked at is one
    have hfilled := filled_of_setUpFrom (by omega) (by omega) hrun
    have hfits : ∀ i port multiConnect magicNumber, i < portsArr.length →
        IsEntry portsArr multiArr magicArr i port multiConnect magicNumber →
        0 ≤ port.toInt ∧ port.toInt < 2 ^ 32 := by
      intro i port multiConnect magicNumber hi hentry
      obtain ⟨port', _, _, hentry', key, _, hkey, -⟩ := hserved i hi
      obtain ⟨rfl, -, -⟩ := hentry.unique hentry'
      have hlt := key.toNat_lt
      omega
    obtain ⟨port, multiConnect, magicNumber, hentry, key, server, hkey, hserver, -, hmulti, hmagic⟩ :=
      hserved i hi
    have hport := hfits i _ _ _ hi hentry
    have hkeyOf : keyOf port = key := by
      rw [← UInt32.toNat_inj]
      have := toNat_keyOf_of_fits hport
      omega
    refine ⟨port, multiConnect, magicNumber, hentry, hport, ?_⟩
    rcases hfilled.keys key with ⟨j, p, b, m, hlast, hj⟩ | ⟨-, hnone⟩
    · -- the server that is there is that of the last entry
      have hp : p = port := eq_of_keyOf_eq
        (hfits j _ _ _ (lt_length_of_lt_visited hlast.visited) hlast.entry) hport
        (hlast.under.trans hkeyOf.symm)
      subst hp
      rw [hserver, Option.some.injEq] at hj
      subst hj
      rw [← hmulti, ← hmagic]
      exact ⟨j, hlast.visited, hlast.entry,
        fun j' b' m' hlt hvisited hentry' => hlast.last j' _ b' m' hlt hvisited hentry' hkeyOf⟩
    · rw [hserver] at hnone
      cases hnone
  · intro hagrees
    -- all that the loop looks at are entries, so it comes to its end
    have hentries : ∀ i, 0 ≤ i → i < visited portsArr.length → ∃ port multiConnect magicNumber,
        IsEntry portsArr multiArr magicArr i port multiConnect magicNumber := by
      intro i _ hi
      obtain ⟨port, b, m, hentry, -⟩ := hagrees i (lt_length_of_lt_visited hi)
      exact ⟨port, b, m, hentry⟩
    obtain ⟨servers, hrun⟩ : ∃ servers, setUpFrom portsArr multiArr magicArr (2 ^ 15 + 1)
        (Int16.ofNat 0) (fun _ => none) = .ok servers :=
      setUpFrom_ends (by omega) (by omega) hentries _
    have hfilled := filled_of_setUpFrom (by omega) (by omega) hrun
    refine ⟨servers, hrun, fun i hi => ?_⟩
    obtain ⟨port, b, m, hentry, hport, j, hj, hentryj, hlastj⟩ := hagrees i hi
    refine ⟨port, b, m, hentry, keyOf port, create ⟨port.toInt32, b⟩ m,
      toNat_keyOf_of_fits hport, ?_, rfl, rfl, rfl⟩
    rcases hfilled.keys (keyOf port) with ⟨j', p, b', m', hlast, hserver⟩ | ⟨hnone, -⟩
    · obtain ⟨p', _, _, hentry', hp', -⟩ := hagrees j' (lt_length_of_lt_visited hlast.visited)
      obtain ⟨rfl, -, -⟩ := hlast.entry.unique hentry'
      have hp : p = port := eq_of_keyOf_eq hp' hport hlast.under
      subst hp
      -- both are the last entry with the port
      have hjj' : j = j' := by
        rcases Nat.lt_trichotomy j j' with hlt | heq | hlt
        · exact absurd hlast.entry (hlastj j' b' m' hlt hlast.visited)
        · exact heq
        · exact absurd rfl (hlast.last j _ b m hlt hj hentryj)
      subst hjj'
      obtain ⟨-, rfl, rfl⟩ := hlast.entry.unique hentryj
      exact hserver
    · exact absurd rfl (hnone j port b m (Nat.zero_le j) hj hentryj)

/-- Two ports, and values for both. -/
def fullConfig : List (String × Json) :=
  [("ports", .array [.int64 10000, .int64 10001]), ("multiConnect", .array [.bool false, .bool true]),
    ("magic", .array [.int64 123456, .int64 654321])]

/-- The two are served. -/
theorem two_ports_served : ServesAll fullConfig := by
  refine (serves_all_iff rfl).mpr ?_
  have hfirst : IsEntry [.int64 10000, .int64 10001] [.bool false, .bool true]
      [.int64 123456, .int64 654321] 0 10000 false 123456 := ⟨rfl, rfl, _, rfl, by decide⟩
  have hsecond : IsEntry [.int64 10000, .int64 10001] [.bool false, .bool true]
      [.int64 123456, .int64 654321] 1 10001 true 654321 := ⟨rfl, rfl, _, rfl, by decide⟩
  intro i hi
  have hi : i < 2 := hi
  obtain rfl | rfl : i = 0 ∨ i = 1 := by omega
  · refine ⟨10000, false, 123456, hfirst, by decide, 0, by decide, hfirst, ?_⟩
    intro j' b' m' hlt hvisited hentry
    have hvisited : j' < 2 := hvisited
    -- the later one has another port
    obtain rfl : j' = 1 := by omega
    exact absurd (hentry.unique hsecond).1 (by decide)
  · refine ⟨10001, true, 654321, hsecond, by decide, 1, by decide, hsecond, ?_⟩
    intro j' b' m' hlt hvisited
    have hvisited : j' < 2 := hvisited
    omega

/-- Two ports, and values for one. -/
def shortConfig : List (String × Json) :=
  [("ports", .array [.int64 10000, .int64 10001]), ("multiConnect", .array [.bool false]),
    ("magic", .array [.int64 123456])]

/-- **An array that is too short** passes the check, and the set-up throws. -/
theorem short_array_throws : validStructure .Server shortConfig = true ∧
    setUp shortConfig = .error (.out_of_range 1) ∧ ¬ ServesAll shortConfig := by
  have hthrows : setUp shortConfig = .error (.out_of_range 1) := rfl
  refine ⟨rfl, hthrows, ?_⟩
  rintro ⟨servers, hrun, -⟩
  rw [hthrows] at hrun
  cases hrun

end SetUp

end NetworkApplication
