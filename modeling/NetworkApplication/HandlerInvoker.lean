/-
`core/handler_invoker`: dispatch by key, and what a copy of a `HandlerInvoker` does.

A `HandlerInvoker` has a table of handlers and, behind a `unique_ptr`, a default handler.
Objects lie in a memory with a heap, and every operation says what it does with the cells:
a default is registered in a new cell, and the one before it is freed. What the objects are
for is simpler, a table and perhaps a handler (`Dispatcher`), and the operations on the memory
do to these values what `Op.effect` says, as long as no two objects have the same cell
(`Owned`).

Copying is written twice. The copy constructor takes over the source's default or has none.
The assignment takes over the source's default if there is one, and otherwise leaves the
target with its own.
-/
import Mathlib.Data.Finset.Basic
import Mathlib.Logic.Function.Basic

set_option autoImplicit false

namespace NetworkApplication

/-! ## The object -/

/-- `std::unordered_map<Key, Handler, Hash>`: every key at most once. -/
structure HandlerTable (Key Handler : Type) where
  entries : List (Key × Handler)
  distinct : (entries.map Prod.fst).Nodup

namespace HandlerTable

variable {Key Handler : Type} [DecidableEq Key]

def empty : HandlerTable Key Handler := ⟨[], List.nodup_nil⟩

/-- `find`. -/
def find (table : HandlerTable Key Handler) (k : Key) : Option Handler := table.entries.lookup k

/-- `insert`: a key that is there keeps its handler. -/
def insert (table : HandlerTable Key Handler) (k : Key) (h : Handler) : HandlerTable Key Handler :=
  if hk : k ∈ table.entries.map Prod.fst then table
  else ⟨(k, h) :: table.entries, List.nodup_cons.mpr ⟨hk, table.distinct⟩⟩

/-- `getRegisteredKeys`. -/
def getRegisteredKeys (table : HandlerTable Key Handler) : Finset Key :=
  ⟨table.entries.map Prod.fst, table.distinct⟩

@[simp] theorem find_empty (k : Key) : (empty : HandlerTable Key Handler).find k = none := rfl

theorem mem_getRegisteredKeys (table : HandlerTable Key Handler) (k : Key) :
    k ∈ table.getRegisteredKeys ↔ table.find k ≠ none := by
  show k ∈ table.entries.map Prod.fst ↔ table.entries.lookup k ≠ none
  induction table.entries with
  | nil => simp
  | cons entry entries ih =>
    rw [List.map_cons, List.mem_cons, ih, List.lookup_cons]
    by_cases hk : k = entry.1
    · simp [hk]
    · have hbeq : (k == entry.1) = false := by simpa using hk
      simp [hk, hbeq]

/-- What was found before is found after. -/
theorem find_insert (table : HandlerTable Key Handler) (k k' : Key) (h : Handler) :
    (table.insert k h).find k' = (table.find k').or (if k' = k then some h else none) := by
  unfold insert
  split
  · next hk =>
    have hfound := (table.mem_getRegisteredKeys k).mp hk
    by_cases hkk : k' = k
    · subst hkk
      obtain ⟨h', hh'⟩ := Option.ne_none_iff_exists'.mp hfound
      rw [hh', Option.some_or]
    · rw [if_neg hkk, Option.or_none]
  · next hk =>
    have hnot : table.find k = none := by
      by_contra hfound
      exact hk ((table.mem_getRegisteredKeys k).mpr hfound)
    by_cases hkk : k' = k
    · subst hkk
      rw [hnot, if_pos rfl]
      simp [find]
    · have hbeq : (k' == k) = false := by simpa using hkk
      simp [find, List.lookup_cons, hbeq, hkk]

end HandlerTable

/-- `HandlerInvoker<Key, Handler, Ret_T, Hash>`. The default handler is behind a `unique_ptr`;
`none` is the null pointer. -/
structure HandlerInvoker (Key Handler : Type) where
  handlerTable : HandlerTable Key Handler
  defaultHandler : Option Nat

/-- What `invokeHandler` calls: a registered handler, the default one, or `createRet`. -/
inductive Selection (Handler : Type) where
  | registered (h : Handler)
  | default_ (h : Handler)
  | createRet
  deriving DecidableEq

namespace HandlerInvoker

/-! ## The memory -/

/-- The objects, by name, and the cells that `make_unique` has allocated. -/
structure Memory (Key Handler : Type) where
  object : Nat → Option (HandlerInvoker Key Handler)
  heap : Nat → Option Handler
  fresh : Nat

variable {Key Handler : Type} [DecidableEq Key]

namespace Memory

def empty : Memory Key Handler := ⟨fun _ => none, fun _ => none, 0⟩

/-- `std::make_unique<Handler>(h)`: the new cell and the memory with it. -/
def make_unique (m : Memory Key Handler) (h : Handler) : Nat × Memory Key Handler :=
  (m.fresh, { m with heap := Function.update m.heap m.fresh (some h), fresh := m.fresh + 1 })

/-- What `unique_ptr` does with a cell that it gives up. -/
def delete (m : Memory Key Handler) : Option Nat → Memory Key Handler
  | some p => { m with heap := Function.update m.heap p none }
  | none => m

def store (m : Memory Key Handler) (a : Nat) (x : Option (HandlerInvoker Key Handler)) :
    Memory Key Handler :=
  { m with object := Function.update m.object a x }

omit [DecidableEq Key]

@[simp] theorem make_unique_object (m : Memory Key Handler) (h : Handler) :
    (m.make_unique h).2.object = m.object := rfl

@[simp] theorem make_unique_heap (m : Memory Key Handler) (h : Handler) (p : Nat) :
    (m.make_unique h).2.heap p = if p = m.fresh then some h else m.heap p :=
  Function.update_apply ..

@[simp] theorem make_unique_fresh (m : Memory Key Handler) (h : Handler) :
    (m.make_unique h).2.fresh = m.fresh + 1 := rfl

@[simp] theorem delete_object (m : Memory Key Handler) (old : Option Nat) :
    (m.delete old).object = m.object := by
  cases old <;> rfl

@[simp] theorem delete_heap (m : Memory Key Handler) (old : Option Nat) (p : Nat) :
    (m.delete old).heap p = if old = some p then none else m.heap p := by
  cases old with
  | none => rfl
  | some q => simp [delete, Function.update_apply, eq_comm]

@[simp] theorem delete_fresh (m : Memory Key Handler) (old : Option Nat) :
    (m.delete old).fresh = m.fresh := by
  cases old <;> rfl

@[simp] theorem store_object (m : Memory Key Handler) (a : Nat) (x : Option (HandlerInvoker Key Handler))
    (c : Nat) : (m.store a x).object c = if c = a then x else m.object c :=
  Function.update_apply ..

@[simp] theorem store_heap (m : Memory Key Handler) (a : Nat) (x : Option (HandlerInvoker Key Handler)) :
    (m.store a x).heap = m.heap := rfl

@[simp] theorem store_fresh (m : Memory Key Handler) (a : Nat) (x : Option (HandlerInvoker Key Handler)) :
    (m.store a x).fresh = m.fresh := rfl

end Memory

/-! ## The operations

An operation on an object that does not exist, or through a pointer whose cell is gone, has no
result. -/

open Memory

/-- `HandlerInvokerCommon()`. -/
def construct (m : Memory Key Handler) (a : Nat) : Option (Memory Key Handler) :=
  match m.object a with
  | some _ => none
  | none => some (m.store a (some ⟨.empty, none⟩))

/-- `~HandlerInvokerCommon()`. -/
def destroy (m : Memory Key Handler) (a : Nat) : Option (Memory Key Handler) := do
  let this ← m.object a
  some ((m.delete this.defaultHandler).store a none)

/-- `registerHandler`. -/
def registerHandler (m : Memory Key Handler) (a : Nat) (k : Key) (h : Handler) :
    Option (Memory Key Handler) := do
  let this ← m.object a
  some (m.store a (some { this with handlerTable := this.handlerTable.insert k h }))

/-- `registerDefaultHandler`. -/
def registerDefaultHandler (m : Memory Key Handler) (a : Nat) (h : Handler) :
    Option (Memory Key Handler) := do
  let this ← m.object a
  let (p, m) := m.make_unique h
  some ((m.delete this.defaultHandler).store a (some { this with defaultHandler := some p }))

/-- The copy constructor, of a new object `a`. -/
def copy (m : Memory Key Handler) (a cp : Nat) : Option (Memory Key Handler) := do
  match m.object a with
  | some _ => none
  | none =>
    let cp ← m.object cp
    match cp.defaultHandler with
    | some p =>
      let (q, m) := m.make_unique (← m.heap p)
      some (m.store a (some ⟨cp.handlerTable, some q⟩))
    | none => some (m.store a (some ⟨cp.handlerTable, none⟩))

/-- `operator=`, called on `a`. -/
def assign (m : Memory Key Handler) (a other : Nat) : Option (Memory Key Handler) := do
  let _ ← m.object a
  let source ← m.object other
  if a = other then some m
  else
    let m ← (match source.defaultHandler with
      | some p => (m.heap p).bind (registerDefaultHandler m a)
      | none => some m)
    let this ← m.object a
    let source ← m.object other
    some (m.store a (some { this with handlerTable := source.handlerTable }))

/-- Which handler `invokeHandler` calls, on the object `a`. -/
def select (m : Memory Key Handler) (a : Nat) (k : Key) : Option (Selection Handler) := do
  let this ← m.object a
  match this.handlerTable.find k with
  | some h => some (.registered h)
  | none =>
    match this.defaultHandler with
    | some p => some (.default_ (← m.heap p))
    | none => some .createRet

/-- `invokeHandler`: `call` is `invokeHandlerImpl`, `ret` the default-constructed result. -/
def invokeHandler {Args Ret : Type} (call : Handler → Key → Args → Ret) (ret : Ret)
    (m : Memory Key Handler) (a : Nat) (k : Key) (args : Args) : Option Ret := do
  match ← select m a k with
  | .registered h => some (call h k args)
  | .default_ h => some (call h k args)
  | .createRet => some ret

inductive Op (Key Handler : Type) where
  | construct (a : Nat)
  | destroy (a : Nat)
  | registerHandler (a : Nat) (k : Key) (h : Handler)
  | registerDefaultHandler (a : Nat) (h : Handler)
  | copy (a cp : Nat)
  | assign (a other : Nat)

/-- The object that an operation is called on. -/
def Op.target : Op Key Handler → Nat
  | construct a | destroy a | registerHandler a _ _ | registerDefaultHandler a _ | copy a _
  | assign a _ => a

def step (m : Memory Key Handler) : Op Key Handler → Option (Memory Key Handler)
  | .construct a => construct m a
  | .destroy a => destroy m a
  | .registerHandler a k h => HandlerInvoker.registerHandler m a k h
  | .registerDefaultHandler a h => HandlerInvoker.registerDefaultHandler m a h
  | .copy a cp => copy m a cp
  | .assign a other => assign m a other

/-- One operation after the other. -/
def run : Memory Key Handler → List (Op Key Handler) → Option (Memory Key Handler)
  | m, [] => some m
  | m, op :: ops => (step m op).bind (fun m' => run m' ops)

/-- What a program can make of its `HandlerInvoker`s. -/
def Reachable (m : Memory Key Handler) : Prop := ∃ ops, run .empty ops = some m

/-! ## What an object is for -/

/-- The value of a `HandlerInvoker`: which handler each key has, and the default. -/
structure Dispatcher (Key Handler : Type) where
  table : Key → Option Handler
  default_ : Option Handler

/-- The key's handler, the default, or none. -/
def Dispatcher.select (d : Dispatcher Key Handler) (k : Key) : Selection Handler :=
  match d.table k, d.default_ with
  | some h, _ => .registered h
  | none, some h => .default_ h
  | none, none => .createRet

/-- What an operation makes of the value of its target, from the values of all objects. -/
def Op.effect (op : Op Key Handler) (v : Nat → Option (Dispatcher Key Handler)) :
    Option (Dispatcher Key Handler) :=
  match op with
  | .construct _ => some ⟨fun _ => none, none⟩
  | .destroy _ => none
  | .registerHandler a k h => (v a).map fun d =>
      { d with table := fun k' => (d.table k').or (if k' = k then some h else none) }
  | .registerDefaultHandler a h => (v a).map fun d => { d with default_ := some h }
  | .copy _ cp => v cp
  | .assign a other => do
      let d ← v a
      let source ← v other
      some { source with default_ := source.default_.or d.default_ }

/-- The value of an object in a memory. -/
def value (m : Memory Key Handler) (x : HandlerInvoker Key Handler) :
    Dispatcher Key Handler :=
  ⟨x.handlerTable.find, x.defaultHandler.bind m.heap⟩

def values (m : Memory Key Handler) (a : Nat) : Option (Dispatcher Key Handler) :=
  (m.object a).map (value m)

theorem values_of_object {m : Memory Key Handler} {a : Nat} {x : HandlerInvoker Key Handler}
    (hx : m.object a = some x) : values m a = some (value m x) := by
  rw [values, hx, Option.map_some]

/-- Every default has a cell, and no two objects have the same. -/
structure Owned (m : Memory Key Handler) : Prop where
  live : ∀ a x p, m.object a = some x → x.defaultHandler = some p → (m.heap p).isSome
  unique : ∀ a b x y p, m.object a = some x → m.object b = some y → x.defaultHandler = some p →
    y.defaultHandler = some p → a = b
  allocated : ∀ p, (m.heap p).isSome → p < m.fresh

omit [DecidableEq Key] in
theorem owned_empty : Owned (Memory.empty : Memory Key Handler) where
  live _ _ _ h _ := by cases h
  unique _ _ _ _ _ h _ _ _ := by cases h
  allocated _ h := by cases h

/-! ## The operations on the values -/

/-- One object is replaced, and the cells of all others are left alone. -/
theorem Owned.replace {m : Memory Key Handler} (ho : Owned m) (m' : Memory Key Handler) (a : Nat)
    (x : Option (HandlerInvoker Key Handler))
    (hobject : ∀ c, m'.object c = if c = a then x else m.object c)
    (hheap : ∀ c y p, c ≠ a → m.object c = some y → y.defaultHandler = some p → m'.heap p = m.heap p)
    (hallocated : ∀ p, (m'.heap p).isSome → p < m'.fresh)
    (hnew : ∀ y p, x = some y → y.defaultHandler = some p → (m'.heap p).isSome ∧
      ∀ c z, c ≠ a → m.object c = some z → z.defaultHandler ≠ some p) :
    Owned m' ∧ ∀ c, values m' c = if c = a then x.map (value m') else values m c := by
  refine ⟨⟨?_, ?_, hallocated⟩, ?_⟩
  · intro c y p hy hp
    rw [hobject] at hy
    split at hy
    · exact (hnew y p hy hp).1
    · next hc =>
      rw [hheap c y p hc hy hp]
      exact ho.live c y p hy hp
  · intro b c y z p hy hz hp hp'
    rw [hobject] at hy hz
    split at hy <;> split at hz
    · next hb hc => exact hb.trans hc.symm
    · next hb hc => exact absurd hp' ((hnew y p hy hp).2 c z hc hz)
    · next hb hc => exact absurd hp ((hnew z p hz hp').2 b y hb hy)
    · exact ho.unique b c y z p hy hz hp hp'
  · intro c
    rw [values, hobject]
    split
    · rfl
    · next hc =>
      rw [values]
      cases hy : m.object c with
      | none => rfl
      | some y =>
        have hdefault : y.defaultHandler.bind m'.heap = y.defaultHandler.bind m.heap := by
          cases hp : y.defaultHandler with
          | none => rfl
          | some p => exact hheap c y p hc hy hp
        simp only [Option.map_some, value, hdefault]

omit [DecidableEq Key] in
/-- The cell that an operation on an object gives up. -/
theorem old_of_object {m : Memory Key Handler} {a : Nat} {x : HandlerInvoker Key Handler}
    (hx : m.object a = some x) : (m.object a).bind HandlerInvoker.defaultHandler = x.defaultHandler := by
  rw [hx, Option.bind_some]

omit [DecidableEq Key] in
theorem old_of_none {m : Memory Key Handler} {a : Nat} (ha : m.object a = none) :
    (m.object a).bind HandlerInvoker.defaultHandler = none := by
  rw [ha, Option.bind_none]

omit [DecidableEq Key] in
/-- It is nobody else's. -/
theorem Owned.ne_old {m : Memory Key Handler} (ho : Owned m) {a c p : Nat} {old : Option Nat}
    (hold : (m.object a).bind HandlerInvoker.defaultHandler = old) {y : HandlerInvoker Key Handler}
    (hc : c ≠ a) (hy : m.object c = some y) (hp : y.defaultHandler = some p) : old ≠ some p := by
  rintro rfl
  obtain ⟨x, hx, hxp⟩ := Option.bind_eq_some_iff.mp hold
  exact hc (ho.unique c a y x p hy hx hp hxp)

/-- The cell of an object is freed and nothing put in its place. -/
theorem Owned.replace_null {m : Memory Key Handler} (ho : Owned m) {a : Nat} {old : Option Nat}
    (hold : (m.object a).bind HandlerInvoker.defaultHandler = old)
    (t : Option (HandlerTable Key Handler)) :
    Owned ((m.delete old).store a (t.map (⟨·, none⟩))) ∧
      ∀ c, values ((m.delete old).store a (t.map (⟨·, none⟩))) c
        = if c = a then t.map (⟨·.find, none⟩) else values m c := by
  have hreplaced := ho.replace ((m.delete old).store a (t.map (⟨·, none⟩))) a
    (t.map (⟨·, none⟩)) (by simp) ?_ ?_ ?_
  · refine ⟨hreplaced.1, fun c => (hreplaced.2 c).trans ?_⟩
    cases t <;> rfl
  · intro c y p hc hy hp
    simp [ho.ne_old hold hc hy hp]
  · intro p hp
    rw [store_heap, delete_heap] at hp
    split at hp
    · cases hp
    · simpa using ho.allocated p hp
  · intro y p hy hp
    obtain ⟨t, -, rfl⟩ := Option.map_eq_some_iff.mp hy
    cases hp

/-- The cell of an object is freed, and a new one put in its place. -/
theorem Owned.replace_unique {m : Memory Key Handler} (ho : Owned m) {a : Nat} {old : Option Nat}
    (hold : (m.object a).bind HandlerInvoker.defaultHandler = old)
    (t : HandlerTable Key Handler) (h : Handler) :
    Owned (((m.make_unique h).2.delete old).store a (some ⟨t, some m.fresh⟩)) ∧
      ∀ c, values (((m.make_unique h).2.delete old).store a (some ⟨t, some m.fresh⟩)) c
        = if c = a then some ⟨t.find, some h⟩ else values m c := by
  have hlt : ∀ c y p, m.object c = some y → y.defaultHandler = some p → p < m.fresh :=
    fun c y p hy hp => ho.allocated p (ho.live c y p hy hp)
  have hnotOld : old ≠ some m.fresh := by
    rintro rfl
    obtain ⟨x, hx, hxp⟩ := Option.bind_eq_some_iff.mp hold
    exact absurd (hlt a x _ hx hxp) (Nat.lt_irrefl _)
  have hreplaced := ho.replace
    (((m.make_unique h).2.delete old).store a (some ⟨t, some m.fresh⟩)) a
    (some ⟨t, some m.fresh⟩) (by simp) ?_ ?_ ?_
  · refine ⟨hreplaced.1, fun c => (hreplaced.2 c).trans ?_⟩
    simp [value, hnotOld]
  · intro c y p hc hy hp
    simp [ho.ne_old hold hc hy hp, (hlt c y p hy hp).ne]
  · intro p hp
    simp only [store_heap, delete_heap, make_unique_heap, store_fresh, delete_fresh,
      make_unique_fresh] at hp ⊢
    split at hp
    · cases hp
    split at hp
    · omega
    · have := ho.allocated p hp
      omega
  · intro y p hy hp
    obtain rfl := Option.some.inj hy
    obtain rfl := Option.some.inj hp
    refine ⟨by simp [hnotOld], fun c z _ hz hzp => ?_⟩
    exact absurd (hlt c z _ hz hzp) (Nat.lt_irrefl _)

/-- An object gets another table and keeps its cell. -/
theorem Owned.store_table {m : Memory Key Handler} (ho : Owned m) {a : Nat}
    {x : HandlerInvoker Key Handler} (hx : m.object a = some x) (t : HandlerTable Key Handler) :
    Owned (m.store a (some { x with handlerTable := t })) ∧
      ∀ c, values (m.store a (some { x with handlerTable := t })) c
        = if c = a then some ⟨t.find, x.defaultHandler.bind m.heap⟩ else values m c := by
  refine ho.replace (m.store a (some { x with handlerTable := t })) a
    (some { x with handlerTable := t }) (by simp) (fun _ _ _ _ _ _ => rfl) ho.allocated ?_
  intro y p hy hp
  obtain rfl := Option.some.inj hy
  refine ⟨ho.live a x p hx hp, fun c z hc hz hzp => hc ?_⟩
  exact ho.unique c a z x p hz hx hzp hp

/-- The registration of a default on an object. -/
theorem registerDefaultHandler_spec {m m' : Memory Key Handler} {a : Nat} {h : Handler}
    (ho : Owned m) (hm' : registerDefaultHandler m a h = some m') :
    Owned m' ∧ ∀ c, values m' c
      = if c = a then (values m a).map (fun d => { d with default_ := some h }) else values m c := by
  obtain ⟨x, hx, hm'⟩ := Option.bind_eq_some_iff.mp hm'
  obtain rfl := Option.some.inj hm'
  obtain ⟨howned, hvalues⟩ := ho.replace_unique (old_of_object hx) x.handlerTable h
  refine ⟨howned, fun c => (hvalues c).trans ?_⟩
  rw [values_of_object hx]
  rfl

/-- The copy of an object. -/
theorem copy_spec {m m' : Memory Key Handler} {a cp : Nat} (ho : Owned m)
    (hm' : copy m a cp = some m') :
    Owned m' ∧ ∀ c, values m' c = if c = a then values m cp else values m c := by
  unfold copy at hm'
  cases ha : m.object a with
  | some x => simp [ha] at hm'
  | none =>
    simp only [ha] at hm'
    obtain ⟨y, hy, hm'⟩ := Option.bind_eq_some_iff.mp hm'
    cases hp : y.defaultHandler with
    | none =>
      simp only [hp] at hm'
      obtain rfl := Option.some.inj hm'
      obtain ⟨howned, hvalues⟩ := ho.replace_null (old_of_none ha) (some y.handlerTable)
      refine ⟨howned, fun c => (hvalues c).trans ?_⟩
      rw [values_of_object hy, value, hp]
      rfl
    | some p =>
      simp only [hp] at hm'
      obtain ⟨h, hh, hm'⟩ := Option.bind_eq_some_iff.mp hm'
      obtain rfl := Option.some.inj hm'
      obtain ⟨howned, hvalues⟩ := ho.replace_unique (old_of_none ha) y.handlerTable h
      refine ⟨howned, fun c => (hvalues c).trans ?_⟩
      rw [values_of_object hy, value, hp, Option.bind_some, hh]

/-- The assignment. -/
theorem assign_spec {m m' : Memory Key Handler} {a other : Nat} (ho : Owned m)
    (hm' : assign m a other = some m') :
    Owned m' ∧ ∀ c, values m' c
      = if c = a then Op.effect (.assign a other : Op Key Handler) (values m) else values m c := by
  obtain ⟨x, hx, hm'⟩ := Option.bind_eq_some_iff.mp hm'
  obtain ⟨y, hy, hm'⟩ := Option.bind_eq_some_iff.mp hm'
  have heffect : Op.effect (.assign a other : Op Key Handler) (values m)
      = some ⟨y.handlerTable.find, (y.defaultHandler.bind m.heap).or (x.defaultHandler.bind m.heap)⟩ := by
    simp [Op.effect, values_of_object hx, values_of_object hy, value]
  rw [heffect]
  by_cases ha : a = other
  · subst ha
    rw [if_pos rfl] at hm'
    obtain rfl := Option.some.inj hm'
    obtain rfl := Option.some.inj (hx.symm.trans hy)
    refine ⟨ho, fun c => ?_⟩
    split
    · next hc =>
      rw [hc, values_of_object hx, Option.or_self]
      rfl
    · rfl
  rw [if_neg ha] at hm'
  obtain ⟨m₁, hm₁, hm'⟩ := Option.bind_eq_some_iff.mp hm'
  obtain ⟨x₁, hx₁, hm'⟩ := Option.bind_eq_some_iff.mp hm'
  obtain ⟨y₁, hy₁, hm'⟩ := Option.bind_eq_some_iff.mp hm'
  obtain rfl := Option.some.inj hm'
  -- the default comes first, if the source has one
  have hdefault : Owned m₁ ∧ ∀ c, values m₁ c = if c = a then
      some ⟨x.handlerTable.find, (y.defaultHandler.bind m.heap).or (x.defaultHandler.bind m.heap)⟩
      else values m c := by
    cases hp : y.defaultHandler with
    | none =>
      simp only [hp] at hm₁
      obtain rfl := Option.some.inj hm₁
      refine ⟨ho, fun c => ?_⟩
      split
      · next hc =>
        rw [hc, values_of_object hx]
        rfl
      · rfl
    | some p =>
      simp only [hp] at hm₁
      obtain ⟨h, hh, hm₁⟩ := Option.bind_eq_some_iff.mp hm₁
      obtain ⟨howned, hvalues⟩ := registerDefaultHandler_spec ho hm₁
      refine ⟨howned, fun c => (hvalues c).trans ?_⟩
      rw [values_of_object hx, Option.bind_some, hh, Option.some_or]
      rfl
  obtain ⟨howned, hvalues⟩ := hdefault
  -- then the table, and the source is as it was
  have hsource : value m₁ y₁ = value m y := by
    have hother := hvalues other
    rw [if_neg (Ne.symm ha), values_of_object hy₁, values_of_object hy] at hother
    exact Option.some.inj hother
  have htarget := hvalues a
  rw [if_pos rfl, values_of_object hx₁, Option.some.injEq] at htarget
  obtain ⟨howned', hvalues'⟩ := howned.store_table hx₁ y₁.handlerTable
  refine ⟨howned', fun c => (hvalues' c).trans ?_⟩
  split
  · rw [show y₁.handlerTable.find = y.handlerTable.find from congrArg Dispatcher.table hsource,
      show x₁.defaultHandler.bind m₁.heap = _ from congrArg Dispatcher.default_ htarget]
  · next hc => rw [hvalues c, if_neg hc]

/-- **The memory refines the values**: an operation keeps every cell with one owner, and
changes the value of its target alone. -/
theorem step_spec {m m' : Memory Key Handler} {op : Op Key Handler} (ho : Owned m)
    (hm' : step m op = some m') :
    Owned m' ∧ ∀ c, values m' c = if c = op.target then op.effect (values m) else values m c := by
  cases op with
  | construct a =>
    rw [step, construct] at hm'
    cases ha : m.object a with
    | some x => simp [ha] at hm'
    | none =>
      simp only [ha] at hm'
      obtain rfl := Option.some.inj hm'
      exact ho.replace_null (old_of_none ha) (some .empty)
  | destroy a =>
    obtain ⟨x, hx, hm'⟩ := Option.bind_eq_some_iff.mp hm'
    obtain rfl := Option.some.inj hm'
    exact ho.replace_null (old_of_object hx) none
  | registerHandler a k h =>
    obtain ⟨x, hx, hm'⟩ := Option.bind_eq_some_iff.mp hm'
    obtain rfl := Option.some.inj hm'
    obtain ⟨howned, hvalues⟩ := ho.store_table hx (x.handlerTable.insert k h)
    refine ⟨howned, fun c => (hvalues c).trans ?_⟩
    have hfind : (x.handlerTable.insert k h).find
        = fun k' => (x.handlerTable.find k').or (if k' = k then some h else none) :=
      funext (fun k' => x.handlerTable.find_insert k k' h)
    rw [hfind, Op.effect, values_of_object hx]
    rfl
  | registerDefaultHandler a h => exact registerDefaultHandler_spec ho hm'
  | copy a cp => exact copy_spec ho hm'
  | assign a other => exact assign_spec ho hm'

/-- Over a run: what is not operated on keeps its value. -/
theorem run_spec {ops : List (Op Key Handler)} : ∀ {m m' : Memory Key Handler}, Owned m →
    run m ops = some m' → Owned m' ∧
      ∀ c, (∀ op ∈ ops, op.target ≠ c) → values m' c = values m c := by
  induction ops with
  | nil =>
    intro m m' ho hrun
    obtain rfl := Option.some.inj hrun
    exact ⟨ho, fun _ _ => rfl⟩
  | cons op ops ih =>
    intro m m' ho hrun
    obtain ⟨m₁, hstep, hrun⟩ := Option.bind_eq_some_iff.mp hrun
    obtain ⟨howned, hvalues⟩ := step_spec ho hstep
    obtain ⟨howned', hvalues'⟩ := ih howned hrun
    refine ⟨howned', fun c hc => (hvalues' c (fun op' hop' => hc op' (List.mem_cons_of_mem _ hop'))).trans ?_⟩
    rw [hvalues, if_neg (Ne.symm (hc op (List.mem_cons_self ..)))]

theorem owned_of_reachable {m : Memory Key Handler} (hm : Reachable m) : Owned m := by
  obtain ⟨ops, hrun⟩ := hm
  exact (run_spec owned_empty hrun).1

/-! ## Dispatch -/

omit [DecidableEq Key] in
/-- The cell of a default is there. -/
theorem Owned.heap_of_default {m : Memory Key Handler} (ho : Owned m) {a p : Nat}
    {x : HandlerInvoker Key Handler} (hx : m.object a = some x) (hp : x.defaultHandler = some p) :
    ∃ h, m.heap p = some h :=
  Option.isSome_iff_exists.mp (ho.live a x p hx hp)

/-- Dispatch depends on the value alone. -/
theorem select_eq {m : Memory Key Handler} (ho : Owned m) (a : Nat) (k : Key) :
    select m a k = (values m a).map (·.select k) := by
  cases hx : m.object a with
  | none => simp [select, values, hx]
  | some x =>
    rw [values_of_object hx]
    cases hk : x.handlerTable.find k with
    | some h => simp [select, hx, hk, value, Dispatcher.select]
    | none =>
      cases hp : x.defaultHandler with
      | none => simp [select, hx, hk, hp, value, Dispatcher.select]
      | some p =>
        obtain ⟨h, hh⟩ := ho.heap_of_default hx hp
        simp [select, hx, hk, hp, hh, value, Dispatcher.select]

omit [DecidableEq Key] in
/-- Objects that exist can be assigned. -/
theorem assign_defined {m : Memory Key Handler} (ho : Owned m) {a b : Nat}
    {x y : HandlerInvoker Key Handler} (hx : m.object a = some x) (hy : m.object b = some y) :
    ∃ m', assign m a b = some m' := by
  by_cases hab : a = b
  · exact ⟨m, by simp [assign, hy, hab]⟩
  · cases hp : y.defaultHandler with
    | none => simp [assign, hx, hy, hab, hp]
    | some p =>
      obtain ⟨h, hh⟩ := ho.heap_of_default hy hp
      simp [assign, hx, hy, hab, hp, hh, registerDefaultHandler, make_unique, Ne.symm hab]

omit [DecidableEq Key] in
/-- So can a new object be made of one. -/
theorem copy_defined {m : Memory Key Handler} (ho : Owned m) {a b : Nat}
    {y : HandlerInvoker Key Handler} (ha : m.object a = none) (hy : m.object b = some y) :
    ∃ m', copy m a b = some m' := by
  cases hp : y.defaultHandler with
  | none => simp [copy, ha, hy, hp]
  | some p =>
    obtain ⟨h, hh⟩ := ho.heap_of_default hy hp
    simp [copy, ha, hy, hp, hh]

/-! ## Copies -/

/-- No operation on other objects shows in what `a` selects. -/
def Undisturbed (m : Memory Key Handler) (a : Nat) : Prop :=
  ∀ ops m', run m ops = some m' → (∀ op ∈ ops, op.target ≠ a) → ∀ k, select m' a k = select m a k

/-- The two objects select the same for every key, and so return the same for all arguments;
and each is left alone by what is registered on the other. -/
structure SameBehaviour (m : Memory Key Handler) (a b : Nat) : Prop where
  selects : ∀ k, ∃ s, select m a k = some s ∧ select m b k = some s
  invokes : ∀ {Args Ret : Type} (call : Handler → Key → Args → Ret) (ret : Ret) (k : Key) (args : Args),
    invokeHandler call ret m a k args = invokeHandler call ret m b k args
  undisturbed : Undisturbed m a ∧ Undisturbed m b

/-- When the assignment takes over all that the source does. -/
def TakesOver (a b : Nat) (x y : HandlerInvoker Key Handler) : Prop :=
  a = b ∨ y.defaultHandler ≠ none ∨ x.defaultHandler = none ∨
    ∀ k, k ∈ y.handlerTable.getRegisteredKeys

theorem undisturbed_of_owned {m : Memory Key Handler} (ho : Owned m) (a : Nat) : Undisturbed m a := by
  intro ops m' hrun hops k
  obtain ⟨ho', hvalues⟩ := run_spec ho hrun
  rw [select_eq ho', select_eq ho, hvalues a hops]

/-- Two objects with values behave the same if and only if the values select the same. -/
theorem sameBehaviour_iff {m : Memory Key Handler} (ho : Owned m) {a b : Nat}
    {d e : Dispatcher Key Handler} (hd : values m a = some d) (he : values m b = some e) :
    SameBehaviour m a b ↔ ∀ k, d.select k = e.select k := by
  have hselects : ∀ k, select m a k = some (d.select k) ∧ select m b k = some (e.select k) := by
    intro k
    rw [select_eq ho, select_eq ho, hd, he]
    exact ⟨rfl, rfl⟩
  constructor
  · intro h k
    obtain ⟨s, ha, hb⟩ := h.selects k
    rw [(hselects k).1, Option.some.injEq] at ha
    rw [(hselects k).2, Option.some.injEq] at hb
    exact ha.trans hb.symm
  · intro h
    refine ⟨fun k => ⟨d.select k, (hselects k).1, ?_⟩, fun call ret k args => ?_,
      undisturbed_of_owned ho a, undisturbed_of_owned ho b⟩
    · rw [(hselects k).2, h k]
    · rw [invokeHandler, invokeHandler, (hselects k).1, (hselects k).2, h k]

omit [DecidableEq Key] in
/-- A default that is kept shows under a key that is not registered. -/
theorem select_or_iff (t : Key → Option Handler) (source target : Option Handler) :
    (∀ k, (⟨t, source.or target⟩ : Dispatcher Key Handler).select k
        = (⟨t, source⟩ : Dispatcher Key Handler).select k)
      ↔ source ≠ none ∨ target = none ∨ ∀ k, t k ≠ none := by
  cases source with
  | some h => simp
  | none =>
    cases target with
    | none => simp
    | some h =>
      simp only [Option.none_or, ne_eq, not_true_eq_false, reduceCtorEq, false_or]
      refine forall_congr' (fun k => ?_)
      cases hk : t k <;> simp [Dispatcher.select, hk]

omit [DecidableEq Key] in
/-- Only a null pointer has no handler behind it. -/
theorem Owned.default_eq_none_iff {m : Memory Key Handler} (ho : Owned m) {a : Nat}
    {x : HandlerInvoker Key Handler} (hx : m.object a = some x) :
    x.defaultHandler.bind m.heap = none ↔ x.defaultHandler = none := by
  cases hp : x.defaultHandler with
  | none => simp
  | some p =>
    obtain ⟨h, hh⟩ := ho.heap_of_default hx hp
    simp [hh]

/-- **When a copy behaves as its source**: an object that is constructed from another always
does; one that is assigned to does if the source has a default, or the target has none to
keep, or no key can come to it. -/
theorem copy_same_behaviour_iff {m : Memory Key Handler} (hm : Reachable m) {a b : Nat}
    {x y : HandlerInvoker Key Handler} (hx : m.object a = some x) (hy : m.object b = some y) :
    ((∃ m', step m (.assign a b) = some m' ∧ SameBehaviour m' a b) ↔ TakesOver a b x y) ∧
      ∀ c, m.object c = none → ∃ m', step m (.copy c b) = some m' ∧ SameBehaviour m' c b := by
  have ho := owned_of_reachable hm
  constructor
  · obtain ⟨m', hm'⟩ := assign_defined ho hx hy
    obtain ⟨ho', hvalues⟩ := assign_spec ho hm'
    have heffect : Op.effect (.assign a b : Op Key Handler) (values m)
        = some ⟨y.handlerTable.find, (y.defaultHandler.bind m.heap).or (x.defaultHandler.bind m.heap)⟩ := by
      simp [Op.effect, values_of_object hx, values_of_object hy, value]
    have hd := hvalues a
    rw [if_pos rfl, heffect] at hd
    have hiff : (∃ m', step m (.assign a b) = some m' ∧ SameBehaviour m' a b) ↔ SameBehaviour m' a b := by
      simp [step, hm']
    rw [hiff]
    by_cases hab : a = b
    · subst hab
      exact iff_of_true ((sameBehaviour_iff ho' hd hd).mpr (fun _ => rfl)) (.inl rfl)
    · have he := hvalues b
      rw [if_neg (Ne.symm hab), values_of_object hy] at he
      rw [sameBehaviour_iff ho' hd he, value, select_or_iff, ne_eq, ho.default_eq_none_iff hy,
        ho.default_eq_none_iff hx, TakesOver, or_iff_right hab]
      simp only [HandlerTable.mem_getRegisteredKeys, ne_eq]
  · intro c hc
    obtain ⟨m', hm'⟩ := copy_defined ho hc hy
    obtain ⟨ho', hvalues⟩ := copy_spec ho hm'
    have hcb : b ≠ c := by
      rintro rfl
      exact absurd (hc.symm.trans hy) (by simp)
    have hd := hvalues c
    have he := hvalues b
    rw [if_pos rfl, values_of_object hy] at hd
    rw [if_neg hcb, values_of_object hy] at he
    exact ⟨m', hm', (sameBehaviour_iff ho' hd he).mpr (fun _ => rfl)⟩

/-- An object with a default, 7, and one with a handler for the key 1 and no default. -/
def twoObjects : List (Op Nat Nat) :=
  [.construct 0, .registerDefaultHandler 0 7, .construct 1, .registerHandler 1 1 10]

/-- **The target's own default outlives the assignment.** -/
theorem default_outlives_assignment : ∃ m m' : Memory Nat Nat, run .empty twoObjects = some m ∧
    step m (.assign 0 1) = some m' ∧ select m' 0 2 = some (.default_ 7) ∧
    select m' 1 2 = some .createRet ∧ ¬ SameBehaviour m' 0 1 := by
  refine ⟨_, _, rfl, rfl, rfl, rfl, fun h => ?_⟩
  obtain ⟨s, h₀, h₁⟩ := h.selects 2
  cases h₀
  cases h₁

/-- The other way round the default comes along. -/
theorem default_comes_along : ∃ m m' : Memory Nat Nat, run .empty twoObjects = some m ∧
    step m (.assign 1 0) = some m' ∧ SameBehaviour m' 1 0 := by
  obtain ⟨m', hm', hsame⟩ := (copy_same_behaviour_iff (a := 1) (b := 0) ⟨twoObjects, rfl⟩ rfl rfl).1.mpr
    (.inr (.inl (by decide)))
  exact ⟨_, m', rfl, hm', hsame⟩

end HandlerInvoker

end NetworkApplication
