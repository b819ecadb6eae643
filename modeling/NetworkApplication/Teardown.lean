/-
Teardown on a transport error.

What one call of `Session::read` or `Session::write` does to a session that a
`SessionManager` has registered, when no other thread touches it: one callback of
the user, and then either nothing has changed or the session is torn down in three
places, the map, the socket and the error flag.

The three are changed by three classes. `TransportHandler` reports a critical error
through `onError`, which removes the session from the map; the `onAllRead` or
`onAllWrite` that `Session` has set asks `check_error` again, sets the flag and
disconnects; and `ConnectHandler::disconnect` may report a failed `shutdown` or
`close` through `onError` once more, when the entry is already gone. So the
specifications below keep the three apart: `Around` for the map while the entry may
be going, and the socket and the flag beside it.

Which error is reported is said of what the socket has returned (`readReport` and
`writeReport`), so it does not depend on a callback that may not be set.
-/
import NetworkApplication.Hoare
import NetworkApplication.Delivery

set_option autoImplicit false

namespace NetworkApplication.Teardown

open NetworkApplication.Program

variable {P : Platform} {ids : Nat → UInt64} {w : World} {exn : Exception → World → Prop}

/-! ## What a call leaves behind -/

/-- The calls of the user's `on_all_read` and `on_all_write`. -/
def userCalls (w : World) : List Event :=
  w.events.filter (fun
    | .on_all_read _ _ => true
    | .on_all_write _ => true
    | _ => false)

/-- A callback of the user: it returns, touches neither the sessions nor the map,
and adds `log x` to the calls. -/
def UserCallback {α : Type} (ids : Nat → UInt64) (callback : Option (α → NetProg Unit))
    (log : α → List Event) : Prop :=
  ∀ x w, Prog.wp (sem ids) (fun _ w' => w'.sessions = w.sessions ∧
    w'.sessionMap = w.sessionMap ∧ userCalls w' = userCalls w ++ log x) (fun _ _ => False)
    (invoke callback x) w

/-- Nothing has happened to the session, the map and the calls. -/
structure Kept (a : Nat) (w w' : World) : Prop where
  isOpen : w'.isOpen a = w.isOpen a
  hasError : w'.hasError a = w.hasError a
  sessionMap : w'.sessionMap = w.sessionMap
  userCalls : userCalls w' = userCalls w

theorem Kept.refl (a : Nat) (w : World) : Kept a w w := ⟨rfl, rfl, rfl, rfl⟩

theorem Kept.trans {a : Nat} {w₁ w₂ w₃ : World} (h : Kept a w₁ w₂) (h' : Kept a w₂ w₃) :
    Kept a w₁ w₃ :=
  ⟨h'.isOpen.trans h.isOpen, h'.hasError.trans h.hasError, h'.sessionMap.trans h.sessionMap,
    h'.userCalls.trans h.userCalls⟩

/-- Nothing has happened to the map but that the entry `id` may have gone, and the
user has not been called. -/
structure Around (id : UInt32) (w w' : World) : Prop where
  gone : w.getSession id = none → w'.getSession id = none
  others : ∀ id', id' ≠ id → w'.getSession id' = w.getSession id'
  userCalls : userCalls w' = userCalls w

theorem Around.refl (id : UInt32) (w : World) : Around id w w :=
  ⟨fun h => h, fun _ _ => rfl, rfl⟩

theorem Around.trans {id : UInt32} {w₁ w₂ w₃ : World} (h : Around id w₁ w₂)
    (h' : Around id w₂ w₃) : Around id w₁ w₃ where
  gone := fun hn => h'.gone (h.gone hn)
  others := fun id' hne => (h'.others id' hne).trans (h.others id' hne)
  userCalls := h'.userCalls.trans h.userCalls

/-- A step that leaves the map and the calls alone. -/
theorem Around.of_eq {id : UInt32} {w w' : World} (hmap : w'.sessionMap = w.sessionMap)
    (hcalls : Teardown.userCalls w' = Teardown.userCalls w) : Around id w w' where
  gone := fun hn => by rwa [World.getSession, hmap]
  others := fun id' _ => by rw [World.getSession, hmap, World.getSession]
  userCalls := hcalls

/-- **All or nothing**: after a call that has reported `ec` and made the calls
`calls`, either nothing has changed or the session is torn down, as `check_error`
says, and no other entry of the map has changed. -/
structure AllOrNothing (a : Nat) (id : UInt32) (ec : ErrorCode) (calls : List Event)
    (w w' : World) : Prop where
  called : userCalls w' = userCalls w ++ calls
  others : ∀ id', id' ≠ id → w'.getSession id' = w.getSession id'
  nothing : check_error ec = false →
    w'.getSession id = w.getSession id ∧ w'.isOpen a = w.isOpen a ∧ w'.hasError a = w.hasError a
  all : check_error ec = true →
    w'.getSession id = none ∧ w'.isOpen a = false ∧ w'.hasError a = true

/-! ## The map -/

theorem wp_call {α : Type} {post : α → World → Prop} {exn : Exception → World → Prop} {o : Op}
    {k : o.Res → NetProg α}
    (h : ∀ c r w₁, sem ids o c w = some (r, w₁) → Prog.wp (sem ids) post exn (k r) w₁) :
    Prog.wp (sem ids) post exn (call o >>= k) w := h

/-- **`removeSession` removes its entry and nothing else.** -/
theorem removeSession_spec (id : UInt32) :
    Prog.wp (sem ids) (fun _ w' => w'.sessions = w.sessions ∧ Around id w w' ∧
      w'.getSession id = none) exn (SessionManager.removeSession id) w := by
  unfold SessionManager.removeSession SessionManager.getSession
  apply wp_call
  intro c r w₁ hget
  simp only [sem, Option.some.injEq, Prod.mk.injEq] at hget
  obtain ⟨rfl, rfl⟩ := hget
  cases hlookup : w.getSession id with
  | none => exact ⟨rfl, Around.refl id w, hlookup⟩
  | some ptr =>
    intro c r w₁ herase
    simp only [sem, Option.some.injEq, Prod.mk.injEq] at herase
    obtain ⟨-, rfl⟩ := herase
    have hgone : (w.sessionMap.erase id).lookup id = none := AList.lookup_erase ..
    exact ⟨rfl, ⟨fun _ => hgone, fun id' hne => AList.lookup_erase_ne hne, rfl⟩, hgone⟩

/-- The callbacks of a session that a `SessionManager` has registered as `ptr`: its
`onError` is the manager's, the others are the user's. -/
structure Managed (ids : Nat → UInt64) (s : Session) (ptr : SessionPtr) : Prop where
  addr : s.addr = ptr.addr
  onError : s.onError = some (fun _ => SessionManager.removeSession ptr.sessionID)
  on_all_read : UserCallback ids s.on_all_read
    (fun x => if s.on_all_read.isSome then [.on_all_read x.1 x.2] else [])
  on_all_write : UserCallback ids s.on_all_write
    (fun ec => if s.on_all_write.isSome then [.on_all_write ec] else [])
  on_disconnect : UserCallback ids s.on_disconnect (fun _ => [])
  onReadHandler : UserCallback ids s.onReadHandler (fun _ => [])

variable {s : Session} {ptr : SessionPtr}

/-- A callback of the user under any exception postcondition: it does not throw. -/
theorem userCallback_spec {α : Type} {callback : Option (α → NetProg Unit)}
    {log : α → List Event} (h : UserCallback ids callback log) (x : α) :
    Prog.wp (sem ids) (fun _ w' => w'.sessions = w.sessions ∧ w'.sessionMap = w.sessionMap ∧
      userCalls w' = userCalls w ++ log x) exn (invoke callback x) w :=
  Prog.wp_mono (h x w) (fun _ _ hpost => hpost) (fun _ _ hfalse => hfalse.elim)

/-- `if(failed) onError(ec)`. -/
theorem when_onError_spec (hs : Managed ids s ptr) (b : Bool) (ec : ErrorCode) :
    Prog.wp (sem ids) (fun _ w' => w'.sessions = w.sessions ∧ Around ptr.sessionID w w' ∧
      (b = true → w'.getSession ptr.sessionID = none) ∧ (b = false → w' = w)) exn
      (Prog.when b (invoke s.onError ec)) w := by
  cases b with
  | true =>
    rw [Prog.when_true, hs.onError]
    refine Prog.wp_mono (removeSession_spec ptr.sessionID) (fun _ w' hpost => ?_)
      (fun _ _ h => h)
    exact ⟨hpost.1, hpost.2.1, fun _ => hpost.2.2, nofun⟩
  | false => exact ⟨rfl, Around.refl _ w, nofun, fun _ => rfl⟩

/-- **`Session::disconnect` closes the socket**, and at most removes the session's
own entry. -/
theorem disconnect_spec (hs : Managed ids s ptr) :
    Prog.wp (sem ids) (fun _ w' => w'.isOpen s.addr = false ∧
      w'.hasError s.addr = w.hasError s.addr ∧ Around ptr.sessionID w w') exn s.disconnect w := by
  unfold Session.disconnect ConnectHandler.disconnect
  apply wp_call
  intro c r w₁ hopen
  simp only [sem, Option.some.injEq, Prod.mk.injEq, Session.connection_handler] at hopen
  obtain ⟨rfl, rfl⟩ := hopen
  cases hopen : w.isOpen s.addr with
  | false => exact ⟨hopen, rfl, Around.refl _ w⟩
  | true =>
    rw [if_neg (by decide)]
    -- `shutdown` leaves the state alone; its error is reported
    apply wp_call
    intro c ec w₁ hshutdown
    obtain rfl := reported_eq_some hshutdown
    apply Prog.wp_bind
    refine Prog.wp_mono (when_onError_spec hs ec.failed ec) (fun _ w₂ h₂ => ?_) (fun _ _ h => h)
    obtain ⟨hsessions₂, haround₂, -, -⟩ := h₂
    -- `close` closes, whatever it reports
    apply wp_call
    intro c ec w₃ hclose
    obtain rfl := reported_eq_some hclose
    apply Prog.wp_bind
    refine Prog.wp_mono (when_onError_spec hs ec.failed ec) (fun _ w₄ h₄ => ?_) (fun _ _ h => h)
    obtain ⟨hsessions₄, haround₄, -, -⟩ := h₄
    refine Prog.wp_mono (userCallback_spec hs.on_disconnect ec) (fun _ w₅ h₅ => ?_)
      (fun _ _ h => h)
    obtain ⟨hsessions₅, hmap₅, hcalls₅⟩ := h₅
    have hsessions : w₅.sessions
        = (w₁.modify s.addr (fun x => { x with isOpen := false })).sessions := by
      rw [hsessions₅, hsessions₄]
      simp only [World.modify, Session.connection_handler, hsessions₂]
    refine ⟨?_, ?_, ?_⟩
    · rw [World.isOpen, hsessions, World.modify_sessions_self]
    · rw [World.hasError, hsessions, World.modify_sessions_self, World.hasError]
    · refine haround₂.trans (Around.trans ?_ (haround₄.trans ?_))
      · exact Around.of_eq rfl rfl
      · exact Around.of_eq hmap₅ (hcalls₅.trans (List.append_nil _))

/-! ## The two callbacks of `Session` -/

/-- The state in which an error is handed to `onAllRead` or `onAllWrite`: the user
has not been called, and if the error is critical the entry is already gone. -/
structure Reporting (a : Nat) (id : UInt32) (ec : ErrorCode) (w w' : World) : Prop where
  userCalls : userCalls w' = userCalls w
  others : ∀ id', id' ≠ id → w'.getSession id' = w.getSession id'
  nothing : check_error ec = false → Kept a w w'
  gone : check_error ec = true → w'.getSession id = none

/-- What a call reports, when it is not critical, leaves everything as it is. -/
theorem Kept.reporting {a : Nat} {id : UInt32} {ec : ErrorCode} {w w' : World}
    (h : Kept a w w') (hec : check_error ec = false) : Reporting a id ec w w' where
  userCalls := h.userCalls
  others := fun id' _ => by rw [World.getSession, h.sessionMap, World.getSession]
  nothing := fun _ => h
  gone := fun hc => by rw [hec] at hc; cases hc

/-- Reporting survives a callback of the user, and counts it. -/
theorem Reporting.called {a : Nat} {id : UInt32} {ec : ErrorCode} {calls : List Event}
    {w w' w'' : World} (h : Reporting a id ec w w') (hec : check_error ec = false)
    (hsessions : w''.sessions = w'.sessions) (hmap : w''.sessionMap = w'.sessionMap)
    (hcalls : Teardown.userCalls w'' = Teardown.userCalls w' ++ calls) :
    AllOrNothing a id ec calls w w'' where
  called := by rw [hcalls, h.userCalls]
  others := fun id' hne => by
    rw [← h.others id' hne, World.getSession, hmap, World.getSession]
  nothing := fun _ => by
    have hkept := h.nothing hec
    refine ⟨?_, ?_, ?_⟩
    · rw [World.getSession, hmap, hkept.sessionMap, World.getSession]
    · rw [World.isOpen, hsessions, ← hkept.isOpen, World.isOpen]
    · rw [World.hasError, hsessions, ← hkept.hasError, World.hasError]
  all := fun hc => by rw [hec] at hc; cases hc

/-- The end of both error branches, once the entry is gone. -/
theorem criticalError_spec (hs : Managed ids s ptr) :
    Prog.wp (sem ids) (fun _ w' => w'.isOpen s.addr = false ∧ w'.hasError s.addr = true ∧
      Around ptr.sessionID w w') exn s.criticalError w := by
  unfold Session.criticalError
  apply wp_call
  intro c r w₁ hflag
  simp only [sem, Option.some.injEq, Prod.mk.injEq] at hflag
  obtain ⟨-, rfl⟩ := hflag
  refine Prog.wp_mono (disconnect_spec hs) (fun _ w₂ h₂ => ?_) (fun _ _ h => h)
  obtain ⟨hclosed, herror, haround⟩ := h₂
  refine ⟨hclosed, ?_, Around.trans ?_ haround⟩
  · rw [herror, World.hasError, World.modify_sessions_self]
  · exact Around.of_eq rfl rfl

/-- A critical error tears the session down behind the callback. -/
theorem torn_down (hs : Managed ids s ptr) {ec : ErrorCode} {calls : List Event}
    {w₀ w₁ : World} (hec : check_error ec = true) (h : Reporting s.addr ptr.sessionID ec w₀ w)
    (hmap : w₁.sessionMap = w.sessionMap) (hcalls : userCalls w₁ = userCalls w ++ calls) :
    Prog.wp (sem ids) (fun _ w' => AllOrNothing s.addr ptr.sessionID ec calls w₀ w') exn
      s.criticalError w₁ := by
  refine Prog.wp_mono (criticalError_spec hs) (fun _ w' h' => ?_) (fun _ _ h => h)
  obtain ⟨hclosed, herror, haround⟩ := h'
  have hget : ∀ id, w₁.getSession id = w.getSession id := by
    intro id
    rw [World.getSession, hmap, World.getSession]
  refine ⟨?_, ?_, fun hc => ?_, fun _ => ⟨?_, hclosed, herror⟩⟩
  · rw [haround.userCalls, hcalls, h.userCalls]
  · intro id' hne
    rw [haround.others id' hne, hget, h.others id' hne]
  · rw [hec] at hc
    cases hc
  · apply haround.gone
    rw [hget]
    exact h.gone hec

/-- What a call of `read` that has reported `ec` leaves in the end. -/
def ReadDone (s : Session) (ptr : SessionPtr) (ec : ErrorCode) (w w' : World) : Prop :=
  ∃ message, AllOrNothing s.addr ptr.sessionID ec
    (if s.on_all_read.isSome then [.on_all_read ec message] else []) w w'

theorem onAllRead_spec (hs : Managed ids s ptr) {ec : ErrorCode} {w₀ : World}
    (tm : TransportMessage) (h : Reporting s.addr ptr.sessionID ec w₀ w) :
    Prog.wp (sem ids) (fun _ w' => ReadDone s ptr ec w₀ w') exn (s.onAllRead P (ec, tm)) w := by
  cases hec : check_error ec with
  | false =>
    rw [Session.onAllRead_of_not_critical P s hec]
    refine Prog.wp_mono (userCallback_spec hs.on_all_read (ec, MessageHandler.parse P tm))
      (fun _ w' h' => ?_) (fun _ _ h => h)
    exact ⟨_, h.called hec h'.1 h'.2.1 h'.2.2⟩
  | true =>
    rw [Session.onAllRead_of_critical P s hec]
    apply Prog.wp_bind
    refine Prog.wp_mono (userCallback_spec hs.on_all_read (ec, none)) (fun _ w₁ h₁ => ?_)
      (fun _ _ h => h)
    refine Prog.wp_mono (torn_down hs hec h h₁.2.1 h₁.2.2) (fun _ w' h' => ?_) (fun _ _ h => h)
    exact ⟨none, h'⟩

theorem onAllWrite_spec (hs : Managed ids s ptr) {ec : ErrorCode} {w₀ : World}
    (tm : TransportMessage) (h : Reporting s.addr ptr.sessionID ec w₀ w) :
    Prog.wp (sem ids) (fun _ w' => AllOrNothing s.addr ptr.sessionID ec
      (if s.on_all_write.isSome then [.on_all_write ec] else []) w₀ w') exn
      (s.onAllWrite (ec, tm)) w := by
  unfold Session.onAllWrite
  apply Prog.wp_bind
  refine Prog.wp_mono (userCallback_spec hs.on_all_write ec) (fun _ w₁ h₁ => ?_) (fun _ _ h => h)
  apply Prog.wp_when
  · exact fun hec => torn_down hs hec h h₁.2.1 h₁.2.2
  · exact fun hec => h.called hec h₁.1 h₁.2.1 h₁.2.2

/-! ## The transport layer under them -/

/-- `onError`, if the error is critical: the entry goes before the callback is
made. -/
theorem onError_spec (hs : Managed ids s ptr) {w₀ : World} (h : Kept s.addr w₀ w)
    (ec : ErrorCode) :
    Prog.wp (sem ids) (fun _ w' => Reporting s.addr ptr.sessionID ec w₀ w') exn
      (Prog.when (check_error ec) (invoke s.onError ec)) w := by
  refine Prog.wp_mono (when_onError_spec hs (check_error ec) ec) (fun _ w' h' => ?_)
    (fun _ _ h => h)
  obtain ⟨hsessions, haround, hgone, hsame⟩ := h'
  refine ⟨haround.userCalls.trans h.userCalls, fun id' hne => ?_, fun hec => ?_, hgone⟩
  · rw [haround.others id' hne, World.getSession, h.sessionMap, World.getSession]
  · rw [hsame hec]
    exact h

theorem errorHandler_spec (hs : Managed ids s ptr) {w₀ : World} (h : Kept s.addr w₀ w)
    (ec : ErrorCode) :
    Prog.wp (sem ids) (fun b w' => b = false ∧ ec.failed = false ∧ Kept s.addr w₀ w' ∨
      b = true ∧ ReadDone s ptr ec w₀ w') exn ((s.transport_handler P).errorHandler ec) w := by
  unfold TransportHandler.errorHandler
  apply Prog.wp_bind
  refine Prog.wp_mono (onError_spec hs h ec) (fun _ w₁ h₁ => ?_) (fun _ _ h => h)
  cases hec : ec.failed with
  | true =>
    rw [if_pos rfl]
    apply Prog.wp_bind
    refine Prog.wp_mono (onAllRead_spec hs _ h₁) (fun _ w₂ h₂ => ?_) (fun _ _ h => h)
    exact .inr ⟨rfl, h₂⟩
  | false =>
    rw [if_neg (by decide)]
    exact .inl ⟨rfl, rfl, h₁.nothing (check_error_of_not_failed hec)⟩

/-- Every exit of a read through `errorHandler`; `rest` is what runs without an
error. -/
theorem exit_spec (hs : Managed ids s ptr) {w₀ : World} (h : Kept s.addr w₀ w) (ec : ErrorCode)
    {rest : NetProg Unit}
    (hrest : ∀ w', ec.failed = false → Kept s.addr w₀ w' →
      Prog.wp (sem ids) (fun _ w'' => ReadDone s ptr ec w₀ w'') exn rest w') :
    Prog.wp (sem ids) (fun _ w' => ReadDone s ptr ec w₀ w') exn
      ((s.transport_handler P).errorHandler ec >>= fun b =>
        if b = true then Prog.pure () else rest) w := by
  apply Prog.wp_bind
  refine Prog.wp_mono (errorHandler_spec hs h ec) (fun b w₁ h₁ => ?_) (fun _ _ h => h)
  rcases h₁ with ⟨rfl, hec, hkept⟩ | ⟨rfl, hdone⟩
  · exact hrest w₁ hec hkept
  · exact hdone

/-- An error that is one ends the read. -/
theorem failed_spec (hs : Managed ids s ptr) {w₀ : World} (h : Kept s.addr w₀ w) {ec : ErrorCode}
    (hec : ec.failed = true) (rest : NetProg Unit) :
    Prog.wp (sem ids) (fun _ w' => ReadDone s ptr ec w₀ w') exn
      ((s.transport_handler P).errorHandler ec >>= fun b =>
        if b = true then Prog.pure () else rest) w :=
  exit_spec hs h ec (fun _ hnone => by rw [hec] at hnone; cases hnone)

/-- What reads and writes of bytes leave alone. -/
theorem kept_of_modify {a : Nat} {w w' : World} {f : SessionObject → SessionObject}
    (hw : w' = w.modify a f) (hopen : (f (w.sessions a)).isOpen = (w.sessions a).isOpen)
    (herror : (f (w.sessions a)).criticalError = (w.sessions a).criticalError) :
    Kept a w w' := by
  subst hw
  refine ⟨?_, ?_, rfl, rfl⟩
  · rw [World.isOpen, World.modify_sessions_self, hopen, World.isOpen]
  · rw [World.hasError, World.modify_sessions_self, herror, World.hasError]

theorem read_json_spec (hs : Managed ids s ptr) {w₀ : World} (h : Kept s.addr w₀ w)
    (payload : List UInt8) :
    Prog.wp (sem ids) (fun _ w' => ReadDone s ptr (P.parse payload).error w₀ w') (fun _ _ => True)
      ((s.transport_handler P).read_json P payload) w := by
  unfold TransportHandler.read_json
  apply exit_spec hs h
  intro w₁ hparse h₁
  apply Prog.wp_bind
  refine Prog.wp_mono (userCallback_spec hs.onReadHandler _) (fun _ w₂ h₂ => ?_) (fun _ _ h => h)
  obtain ⟨hsessions, hmap, hcalls⟩ := h₂
  have hkept : Kept s.addr w₀ w₂ := by
    refine h₁.trans ⟨?_, ?_, hmap, hcalls.trans (List.append_nil _)⟩
    · rw [World.isOpen, hsessions, World.isOpen]
    · rw [World.hasError, hsessions, World.hasError]
  split
  · -- the accessors of the JSON throw: such a call does not return
    trivial
  · exact onAllRead_spec hs _ (hkept.reporting (check_error_of_not_failed hparse))

/-! ## What is reported -/

/-- What the reads on the socket of the session at `a` have returned. -/
def readsOf (a : Nat) (log : Prog.Log Net) : List (Except ErrorCode (List UInt8)) :=
  log.filterMap (fun
    | ⟨.read b _, r⟩ => if b = a then some r else none
    | _ => none)

/-- What the writes on it have returned. -/
def writesOf (a : Nat) (log : Prog.Log Net) : List (Except ErrorCode Nat) :=
  log.filterMap (fun
    | ⟨.write_some b _ _, r⟩ => if b = a then some r else none
    | _ => none)

/-- The error that `read_sync` hands to `onAllRead`: that of the first read that fails, `eof`
for another magic number, or what the parser says of the payload. -/
def readReport (P : Platform) (magicNumber : UInt32) :
    List (Except ErrorCode (List UInt8)) → ErrorCode
  | .error ec :: _ => ec
  | .ok headers :: rest =>
    if magicOf headers ≠ magicNumber then .eof
    else match rest with
      | .error ec :: _ => ec
      | .ok payload :: _ => (P.parse payload).error
      | [] => .success
  | [] => .success

/-- The error that `write` hands to `onAllWrite`: that of the write that fails before
`length` bytes have gone out. -/
def writeReport : Nat → List (Except ErrorCode Nat) → ErrorCode
  | 0, _ => .success
  | _ + 1, [] => .success
  | _ + 1, .error ec :: _ => ec
  | length + 1, .ok n :: rest => writeReport (length + 1 - n) rest

/-- What the log begins with is not changed by what comes behind it. -/
theorem readsOf_of_prefix {a : Nat} {log log' : Prog.Log Net} (h : log <+: log') :
    ∃ more, readsOf a log' = readsOf a log ++ more := by
  obtain ⟨rest, rfl⟩ := h
  exact ⟨readsOf a rest, List.filterMap_append⟩

theorem writesOf_of_prefix {a : Nat} {log log' : Prog.Log Net} (h : log <+: log') :
    ∃ more, writesOf a log' = writesOf a log ++ more := by
  obtain ⟨rest, rfl⟩ := h
  exact ⟨writesOf a rest, List.filterMap_append⟩

theorem readsOf_read (a n : Nat) (r : (Op.read a n).Res) (log : Prog.Log Net) :
    readsOf a (log ++ [⟨.read a n, r⟩]) = readsOf a log ++ [r] := by
  simp [readsOf]

theorem writesOf_write_some (a sent : Nat) (rest : List UInt8) (r : (Op.write_some a sent rest).Res)
    (log : Prog.Log Net) : writesOf a (log ++ [⟨.write_some a sent rest, r⟩]) = writesOf a log ++ [r] := by
  simp [writesOf]

/-- One operation, and its place in the log. -/
theorem wp_call_logged {α : Type} {post : α → World × Prog.Log Net → Prop}
    {exn : Exception → World × Prog.Log Net → Prop} {log : Prog.Log Net} {o : Op}
    {k : o.Res → NetProg α}
    (h : ∀ c r w₁, sem ids o c w = some (r, w₁) →
      Prog.wp (Prog.logged (sem ids)) post exn (k r) (w₁, log ++ [⟨o, r⟩])) :
    Prog.wp (Prog.logged (sem ids)) post exn (call o >>= k) (w, log) := by
  intro c r x hlogged
  obtain ⟨hsem, hlog⟩ := Prog.logged_eq_some hlogged
  obtain ⟨w₁, log₁⟩ := x
  obtain rfl : log₁ = log ++ [⟨o, r⟩] := hlog
  exact h c r w₁ hsem

/-- Where the error is known already, the rest of the read reports it. -/
theorem reported_spec {w₀ : World} {ec : ErrorCode} {log : Prog.Log Net} {p : NetProg Unit}
    (h : Prog.wp (sem ids) (fun _ w' => ReadDone s ptr ec w₀ w') (fun _ _ => True) p w)
    (hec : ∀ more, readReport P s.magicNumber (readsOf s.addr log ++ more) = ec) :
    Prog.wp (Prog.logged (sem ids))
      (fun _ x => ReadDone s ptr (readReport P s.magicNumber (readsOf s.addr x.2)) w₀ x.1)
      (fun _ _ => True) p (w, log) := by
  refine Prog.wp_mono (Prog.wp_logged h log) (fun _ x hx => ?_) (fun _ _ _ => trivial)
  obtain ⟨more, hmore⟩ := readsOf_of_prefix (a := s.addr) hx.2
  rw [hmore, hec]
  exact hx.1

/-- A socket read, and what it leaves. -/
theorem read_op_spec {a n : Nat} {c : Choice} {r : (Op.read a n).Res} {w₁ : World}
    (hread : sem ids (.read a n) c w = some (r, w₁)) :
    Kept a w w₁ ∧ ∀ ec, r = .error ec → ec.failed = true := by
  obtain ⟨rx, hw₁⟩ := readSem_eq_some hread
  refine ⟨kept_of_modify hw₁ rfl rfl, ?_⟩
  rintro ec rfl
  have hread : readSem a n c w = some (.error ec, w₁) := hread
  cases c with
  | ok m =>
    simp only [readSem, Option.ite_none_right_eq_some, Option.some.injEq, Prod.mk.injEq] at hread
    cases hread.2.1
  | fail ec' m =>
    simp only [readSem, Option.ite_none_right_eq_some, Option.some.injEq, Prod.mk.injEq] at hread
    obtain ⟨⟨-, hec, -⟩, hsame, -⟩ := hread
    rwa [← Except.error.inj hsame]
  | _ => cases hread

theorem read_payload_spec (hs : Managed ids s ptr) {w₀ : World} (h : Kept s.addr w₀ w)
    {log : Prog.Log Net} {headers : List UInt8} (hlog : readsOf s.addr log = [.ok headers])
    (hmagic : magicOf headers = s.magicNumber) (json_len : Nat) :
    Prog.wp (Prog.logged (sem ids))
      (fun _ x => ReadDone s ptr (readReport P s.magicNumber (readsOf s.addr x.2)) w₀ x.1)
      (fun _ _ => True) ((s.transport_handler P).read_payload P json_len) (w, log) := by
  unfold TransportHandler.read_payload
  apply wp_call_logged
  intro c payload w₁ hread
  obtain ⟨hkept, hfailed⟩ := read_op_spec hread
  have hreads : readsOf s.addr (log ++ [⟨.read s.addr json_len, payload⟩]) = [.ok headers, payload] := by
    rw [readsOf_read, hlog]
    rfl
  cases payload with
  | error ec =>
    refine reported_spec (failed_spec hs (h.trans hkept) (hfailed ec rfl) _) (fun more => ?_)
    refine (congrArg (fun l => readReport P s.magicNumber (l ++ more)) hreads).trans ?_
    simp [readReport, hmagic]
  | ok bytes =>
    refine reported_spec (read_json_spec hs (h.trans hkept) bytes) (fun more => ?_)
    refine (congrArg (fun l => readReport P s.magicNumber (l ++ more)) hreads).trans ?_
    simp [readReport, hmagic]

/-- **`read_sync` hands on what `readReport` says**, and its callbacks settle the session. -/
theorem read_sync_spec (hs : Managed ids s ptr) {log : Prog.Log Net} (hlog : readsOf s.addr log = []) :
    Prog.wp (Prog.logged (sem ids))
      (fun _ x => ReadDone s ptr (readReport P s.magicNumber (readsOf s.addr x.2)) w x.1)
      (fun _ _ => True) ((s.transport_handler P).read_sync P) (w, log) := by
  unfold TransportHandler.read_sync
  apply wp_call_logged
  intro c headers w₁ hread
  obtain ⟨hkept, hfailed⟩ := read_op_spec hread
  have hreads : readsOf s.addr (log ++ [⟨.read s.addr 8, headers⟩]) = [headers] := by
    rw [readsOf_read, hlog]
    rfl
  cases headers with
  | error ec =>
    refine reported_spec (failed_spec hs hkept (hfailed ec rfl) _) (fun more => ?_)
    exact congrArg (fun l => readReport P s.magicNumber (l ++ more)) hreads
  | ok bytes =>
    show Prog.wp _ _ _ (if magicOf bytes ≠ s.magicNumber then
      (s.transport_handler P).errorHandler .eof >>= fun _ => Prog.pure ()
      else (s.transport_handler P).read_payload P (lengthOf bytes)) _
    split
    · next hmagic =>
      have heof : Prog.wp (sem ids) (fun _ w' => ReadDone s ptr .eof w w') (fun _ _ => True)
          ((s.transport_handler P).errorHandler .eof >>= fun _ => Prog.pure ()) w₁ := by
        apply Prog.wp_bind
        refine Prog.wp_mono (errorHandler_spec hs hkept .eof) (fun b w₂ h₂ => ?_) (fun _ _ h => h)
        rcases h₂ with ⟨-, heof, -⟩ | ⟨-, hdone⟩
        · cases heof
        · exact hdone
      refine reported_spec heof (fun more => ?_)
      refine (congrArg (fun l => readReport P s.magicNumber (l ++ more)) hreads).trans ?_
      simp [readReport, hmagic]
    · next hmagic => exact read_payload_spec hs hkept hreads (not_not.mp hmagic) _

/-- The composed write returns what `writeReport` says. The induction is on its bound. -/
theorem asio_write_spec {w₀ : World} {a bound : Nat} (sent : Nat) (rest : List UInt8)
    (hbound : rest.length ≤ bound) (log : Prog.Log Net) (h : Kept a w₀ w)
    {exn : Exception → World × Prog.Log Net → Prop} :
    Prog.wp (Prog.logged (sem ids)) (fun ec x => Kept a w₀ x.1 ∧ ∃ results,
      writesOf a x.2 = writesOf a log ++ results ∧
        ∀ more, writeReport rest.length (results ++ more) = ec) exn
      (asio_write a bound sent rest) (w, log) := by
  induction bound generalizing sent rest w log with
  | zero =>
    obtain rfl : rest = [] := List.length_eq_zero_iff.mp (Nat.le_zero.mp hbound)
    exact ⟨h, [], (List.append_nil _).symm, fun _ => by rw [List.length_nil, writeReport]⟩
  | succ bound ih =>
    unfold asio_write
    split
    · next hempty =>
      obtain rfl : rest = [] := List.isEmpty_iff.mp hempty
      exact ⟨h, [], (List.append_nil _).symm, fun _ => by rw [List.length_nil, writeReport]⟩
    · next hrest =>
      obtain ⟨k, hk⟩ : ∃ k, rest.length = k + 1 :=
        Nat.exists_eq_succ_of_ne_zero (fun hzero => hrest (List.isEmpty_iff_length_eq_zero.mpr hzero))
      apply wp_call_logged
      intro c r w₁ hwrite
      obtain ⟨tx, hw₁⟩ := writeSem_eq_some hwrite
      have h₁ : Kept a w₀ w₁ := h.trans (kept_of_modify hw₁ rfl rfl)
      have hwrites := writesOf_write_some a sent rest r log
      cases r with
      | ok n =>
        have hn : 0 < n := by
          have hwrite : writeSem a rest c w = some (.ok n, w₁) := hwrite
          cases c with
          | ok m =>
            simp only [writeSem, Option.ite_none_right_eq_some, Option.some.injEq, Prod.mk.injEq] at hwrite
            obtain ⟨⟨-, hm, -⟩, hsame, -⟩ := hwrite
            rwa [← Except.ok.inj hsame]
          | fail ec m =>
            simp only [writeSem, Option.ite_none_right_eq_some, Option.some.injEq, Prod.mk.injEq] at hwrite
            cases hwrite.2.1
          | _ => cases hwrite
        have hdrop : (rest.drop n).length ≤ bound := by
          rw [List.length_drop]
          omega
        refine Prog.wp_mono (ih (sent + n) (rest.drop n) hdrop _ h₁) (fun ec x hx => ?_) (fun _ _ h => h)
        obtain ⟨hkept, results, hresults, hreport⟩ := hx
        refine ⟨hkept, .ok n :: results, ?_, fun more => ?_⟩
        · rw [hresults, hwrites, List.append_assoc]
          rfl
        · rw [hk, List.cons_append, writeReport, ← hk, ← List.length_drop]
          exact hreport more
      | error ec =>
        refine ⟨h₁, [.error ec], hwrites, fun more => ?_⟩
        rw [hk]
        rfl

/-! ## The two calls -/

/-- A call on a session. -/
inductive SessionCall where
  | read
  | write (message : Option Message)

/-- The call itself. -/
def SessionCall.prog (P : Platform) (s : Session) : SessionCall → NetProg Unit
  | read => s.read P
  | write message => s.write P message

/-- The error that the call reports, when its operations have returned what the log says. -/
def SessionCall.reported (P : Platform) (s : Session) (log : Prog.Log Net) : SessionCall → ErrorCode
  | read => readReport P s.magicNumber (readsOf s.addr log)
  | write message =>
    writeReport (frame s.magicNumber (MessageHandler.serialize P message).payload).length
      (writesOf s.addr log)

/-- The calls of the user's callback that a call reporting `ec` makes: one, if the
callback is set. -/
def SessionCall.Reports (s : Session) (ec : ErrorCode) (calls : List Event) :
    SessionCall → Prop
  | read => ∃ message, calls = if s.on_all_read.isSome then [.on_all_read ec message] else []
  | write _ => calls = if s.on_all_write.isSome then [.on_all_write ec] else []

theorem read_spec (hs : Managed ids s ptr) (hopen : w.isOpen s.addr = true) :
    Prog.wp (Prog.logged (sem ids))
      (fun _ x => ReadDone s ptr (SessionCall.read.reported P s x.2) w x.1)
      (fun _ _ => True) (s.read P) (w, []) := by
  unfold Session.read
  apply wp_call_logged
  intro c r w₁ his
  simp only [sem, Option.some.injEq, Prod.mk.injEq] at his
  obtain ⟨rfl, rfl⟩ := his
  rw [hopen, Prog.when_true]
  exact read_sync_spec hs rfl

theorem write_spec (hs : Managed ids s ptr) (message : Option Message)
    {exn : Exception → World × Prog.Log Net → Prop} :
    Prog.wp (Prog.logged (sem ids)) (fun _ x =>
      AllOrNothing s.addr ptr.sessionID ((SessionCall.write message).reported P s x.2)
        (if s.on_all_write.isSome then
          [.on_all_write ((SessionCall.write message).reported P s x.2)] else []) w x.1) exn
      (s.write P message) (w, []) := by
  unfold Session.write TransportHandler.write
  apply Prog.wp_tryCatch
  apply Prog.wp_bind
  refine Prog.wp_mono (asio_write_spec 0 _ (Nat.le_refl _) [] (Kept.refl s.addr w))
    (fun ec x hx => ?_) (fun _ _ h => h)
  obtain ⟨w₁, log₁⟩ := x
  obtain ⟨h₁, results, hresults, hreport⟩ := hx
  have hrest : Prog.wp (sem ids) (fun _ w' => AllOrNothing s.addr ptr.sessionID ec
      (if s.on_all_write.isSome then [.on_all_write ec] else []) w w') (fun _ _ => False)
      (Prog.when (check_error ec) (invoke s.onError ec) >>= fun _ =>
        s.onAllWrite (ec, MessageHandler.serialize P message)) w₁ := by
    apply Prog.wp_bind
    refine Prog.wp_mono (onError_spec hs h₁ ec) (fun _ w₂ h₂ => ?_) (fun _ _ h => h)
    exact onAllWrite_spec hs (MessageHandler.serialize P message) h₂
  refine Prog.wp_mono (Prog.wp_logged hrest log₁) (fun _ x hx => ?_) (fun _ _ hx => hx.1.elim)
  obtain ⟨more, hmore⟩ := writesOf_of_prefix (a := s.addr) hx.2
  have hec : (SessionCall.write message).reported P s x.2 = ec := by
    rw [SessionCall.reported, hmore, hresults]
    exact hreport more
  rw [hec]
  exact hx.1

/-- After a call that has reported `ec`: nothing has changed, or all three have, as
`check_error` says. -/
def NothingOrAll (s : Session) (ptr : SessionPtr) (ec : ErrorCode) (w w' : World) : Prop :=
  check_error ec = false ∧ w'.getSession ptr.sessionID = some ptr ∧ w'.isOpen s.addr = true ∧
      w'.hasError s.addr = w.hasError s.addr ∨
    check_error ec = true ∧ w'.getSession ptr.sessionID = none ∧ w'.isOpen s.addr = false ∧
      w'.hasError s.addr = true

/-- **Teardown is all or nothing.** A `read` or `write` that starts on an open socket
of a registered session and returns makes exactly one call of the user's callback,
whatever the socket and the parser report, and with the error that they have reported.
Afterwards the entry, the socket and the error flag are as they were, or the entry is
erased, the socket closed and the flag set, the latter exactly when that error is
critical; no other entry of the map has changed. -/
theorem session_call_all_or_nothing (P : Platform) (ids : Nat → UInt64) (s : Session)
    (ptr : SessionPtr) (hs : Managed ids s ptr) (w w' : World) (sessionCall : SessionCall)
    (hreg : w.getSession ptr.sessionID = some ptr) (hopen : w.isOpen s.addr = true)
    (hrun : Prog.Runs (sem ids) (sessionCall.prog P s) w (.ok ()) w') :
    (∃ log, Prog.Runs (Prog.logged (sem ids)) (sessionCall.prog P s) (w, []) (.ok ()) (w', log)) ∧
    ∀ log, Prog.Runs (Prog.logged (sem ids)) (sessionCall.prog P s) (w, []) (.ok ()) (w', log) →
      (∃ calls, sessionCall.Reports s (sessionCall.reported P s log) calls ∧
        userCalls w' = userCalls w ++ calls) ∧
      NothingOrAll s ptr (sessionCall.reported P s log) w w' ∧
      ∀ id', id' ≠ ptr.sessionID → w'.getSession id' = w.getSession id' := by
  refine ⟨Prog.runs_logged hrun [], fun log hlogged => ?_⟩
  obtain ⟨calls, hreports, h⟩ : ∃ calls, sessionCall.Reports s (sessionCall.reported P s log) calls ∧
      AllOrNothing s.addr ptr.sessionID (sessionCall.reported P s log) calls w w' := by
    cases sessionCall with
    | read =>
      obtain ⟨message, h⟩ := Prog.post_of_runs (read_spec hs hopen) hlogged
      exact ⟨_, ⟨message, rfl⟩, h⟩
    | write message =>
      have hwrite : Prog.wp (Prog.logged (sem ids)) _ (fun _ _ => True) (s.write P message) (w, []) :=
        write_spec hs message
      have hdone := Prog.post_of_runs hwrite hlogged
      exact ⟨_, rfl, hdone⟩
  refine ⟨⟨calls, hreports, h.called⟩, ?_, h.others⟩
  cases hec : check_error (sessionCall.reported P s log) with
  | false =>
    obtain ⟨hget, his, herror⟩ := h.nothing hec
    exact .inl ⟨hec, hget.trans hreg, his.trans hopen, herror⟩
  | true =>
    exact .inr ⟨hec, h.all hec⟩

/-! ## The end of a stream -/

/-- A server's only session, with the user's callback that records. -/
def onlySession : Session :=
  (SessionManager.mk 7 none).session ⟨0, 1⟩ (some Delivery.recordMessage)

/-- It is registered, and its socket is open. -/
def onlyRegistered : World :=
  { World.init.modify 0 (fun s => { s with isOpen := true }) with
    sessionMap := (∅ : AList (fun _ : UInt32 => SessionPtr)).insert 1 ⟨0, 1⟩ }

theorem managed_onlySession (ids : Nat → UInt64) : Managed ids onlySession ⟨0, 1⟩ where
  addr := rfl
  onError := rfl
  on_all_read := fun x w => by
    intro c r w₁ h
    simp only [sem, Option.some.injEq, Prod.mk.injEq] at h
    obtain ⟨-, rfl⟩ := h
    refine ⟨rfl, rfl, ?_⟩
    simp only [userCalls, List.filter_append]
    rfl
  on_all_write := fun _ w => ⟨rfl, rfl, (List.append_nil _).symm⟩
  on_disconnect := fun _ w => ⟨rfl, rfl, (List.append_nil _).symm⟩
  onReadHandler := fun _ w => ⟨rfl, rfl, (List.append_nil _).symm⟩

/-- A read at the end of the peer's stream. -/
theorem read_at_end_of_stream_all_or_nothing : ∃ w' log,
    SessionCall.read.reported jsonPlatform onlySession log = .eof ∧
      (∃ calls, SessionCall.read.Reports onlySession .eof calls ∧
        userCalls w' = userCalls onlyRegistered ++ calls) ∧
      NothingOrAll onlySession ⟨0, 1⟩ .eof onlyRegistered w' ∧
      ∀ id', id' ≠ 1 → w'.getSession id' = onlyRegistered.getSession id' := by
  obtain ⟨w', log, hrun, hlogged, heof⟩ : ∃ w' log,
      Prog.run (sem UInt64.ofNat) SyncRead.streamEnv
        (SessionCall.read.prog jsonPlatform onlySession) onlyRegistered = some (.ok (), w') ∧
      Prog.run (Prog.logged (sem UInt64.ofNat)) (fun o x => SyncRead.streamEnv o x.1)
        (SessionCall.read.prog jsonPlatform onlySession) (onlyRegistered, [])
          = some (.ok (), (w', log)) ∧
      SessionCall.read.reported jsonPlatform onlySession log = .eof := ⟨_, _, rfl, rfl, rfl⟩
  obtain ⟨-, hsettled⟩ := session_call_all_or_nothing jsonPlatform UInt64.ofNat onlySession ⟨0, 1⟩
    (managed_onlySession _) onlyRegistered w' .read (by decide) rfl (Prog.runs_of_run hrun)
  have hread := hsettled log (Prog.runs_of_run hlogged)
  rw [heof] at hread
  exact ⟨w', log, heof, hread⟩

end NetworkApplication.Teardown
