/-
`server` and `core/connection`: from a configured port to the port that is listened on.

The number is an `int64` in the JSON value. It becomes an `int32_t` in the parameters of the
creator, an `int` in the constructor of the server, a `PortInt` of 32 bits in its member and in
the acceptor's handler, and the 16 bits of an endpoint at last; nobody on the way looks whether it
fits. Of the four calls that set up the acceptor three throw when they fail. The one that binds
the port does not: its error goes into the log, and `listen` is called on whatever there is, which
may be a socket that has no port yet, and then the kernel finds one.
-/
import NetworkApplication.SetUp

set_option autoImplicit false

namespace NetworkApplication

open NetworkApplication.Program

namespace Listening

/-! ## The acceptor -/

/-- The calls that set up an acceptor, and the store that the server's start ends with. -/
inductive TcpOp where
  | open_
  | set_option_
  | bind_ (port : UInt16)
  | listen
  | setIsWork (b : Bool)

/-- The result of each. -/
abbrev TcpOp.Res : TcpOp → Type
  | .setIsWork _ => Unit
  | _ => ErrorCode

abbrev Tcp : Signature := ⟨TcpOp, TcpOp.Res⟩

/-- A program over them; it throws the error codes of the calls that have no argument for them. -/
abbrev TcpProg := Prog Tcp ErrorCode

/-- How the calls of a start come out: the error code of each, for `bind` as the port has it, and
the port that is free if the kernel has to find one. -/
structure Kernel where
  open_ : ErrorCode
  set_option_ : ErrorCode
  bind_ : UInt16 → ErrorCode
  listen : ErrorCode
  free : UInt16
  free_ne : free ≠ 0

/-- The acceptor and the server's flag. -/
structure Acceptor where
  bound : Option UInt16
  listening : Option UInt16
  isWork : Bool

/-- What the calls do. Binding port zero and listening on a socket that is not bound take a port
that is free. -/
def tcpSem (kernel : Kernel) : (o : TcpOp) → Unit → Acceptor → Option (o.Res × Acceptor)
  | .open_, _, w => some (kernel.open_, w)
  | .set_option_, _, w => some (kernel.set_option_, w)
  | .bind_ port, _, w =>
    if (kernel.bind_ port).failed then some (kernel.bind_ port, w)
    else some (kernel.bind_ port, { w with bound := some (if port = 0 then kernel.free else port) })
  | .listen, _, w =>
    if kernel.listen.failed then some (kernel.listen, w)
    else some (kernel.listen, { w with bound := some (w.bound.getD kernel.free)
                                       listening := some (w.bound.getD kernel.free) })
  | .setIsWork b, _, w => some ((), { w with isWork := b })

/-- Perform one of the calls. -/
def call (o : TcpOp) : TcpProg o.Res := Prog.perform (E := Tcp) o

/-- A call without an argument for the error: it throws. -/
def throwing (ec : ErrorCode) : TcpProg Unit := if ec.failed then Prog.throw ec else pure ()

/-- `AcceptHandler::setOptionAcceptor`: the error of `bind` is only logged. -/
def setOptionAcceptor (port : UInt32) : TcpProg Unit := do
  throwing (← call .open_)
  throwing (← call .set_option_)
  let _ ← call (.bind_ port.toUInt16)
  throwing (← call .listen)

/-- `SegmentServer::start`, which makes the session manager and with it the acceptor. -/
def start (server : CreatedServer) : TcpProg Unit := do
  setOptionAcceptor server.port
  call (.setIsWork true)

/-- Nothing has been set up. -/
def Acceptor.init : Acceptor := ⟨none, none, false⟩

/-! ## What a start ends with -/

/-- The port of an endpoint: 16 bits of what was configured. -/
def endpointPort (p : Int64) : UInt16 := (SetUp.keyOf p).toUInt16

theorem toNat_endpointPort (p : Int64) : ((endpointPort p).toNat : Int) = p.toInt % 2 ^ 16 := by
  have hkey := SetUp.toNat_keyOf p
  rw [endpointPort, UInt32.toNat_toUInt16]
  omega

/-- The port that is listened on, if it comes to that. -/
def listenedPort (kernel : Kernel) (port : UInt16) : UInt16 :=
  if (kernel.bind_ port).failed ∨ port = 0 then kernel.free else port

variable {kernel : Kernel} {p : Int64} {multiConnect : Bool} {magicNumber : UInt32}

/-- Run a program over the calls. -/
def exec {α : Type} (kernel : Kernel) (p : TcpProg α) (w : Acceptor) :
    Option (Outcome ErrorCode α × Acceptor) :=
  Prog.run (tcpSem kernel) (fun _ _ => ()) p w

/-- One call. -/
theorem exec_call {α : Type} {o : TcpOp} {r : o.Res} {w w₁ : Acceptor}
    (h : tcpSem kernel o () w = some (r, w₁)) (k : o.Res → TcpProg α) :
    exec kernel (call o >>= k) w = exec kernel (k r) w₁ := by
  apply Prog.run_op
  exact h

theorem throwing_of_failed {ec : ErrorCode} (h : ec.failed = true) : throwing ec = Prog.throw ec := by
  rw [throwing, if_pos h]

theorem throwing_of_not_failed {ec : ErrorCode} (h : ¬ ec.failed = true) : throwing ec = pure () := by
  rw [throwing, if_neg h]

/-- One of the calls that throw fails. -/
def Kernel.throws (kernel : Kernel) : Prop :=
  kernel.open_.failed = true ∨ kernel.set_option_.failed = true ∨ kernel.listen.failed = true

/-- The acceptor that `listen` finds: with the port bound, or with none. -/
theorem exec_bind {α : Type} (port : UInt16) (k : TcpProg α) (w : Acceptor) (hw : w.bound = none) :
    ∃ w₁, exec kernel (call (.bind_ port) >>= fun _ => k) w = exec kernel k w₁ ∧
      w₁.bound.getD kernel.free = listenedPort kernel port ∧ w₁.listening = w.listening ∧
      w₁.isWork = w.isWork := by
  unfold listenedPort
  by_cases hbind : (kernel.bind_ port).failed = true
  · have hsem : tcpSem kernel (.bind_ port) () w = some (kernel.bind_ port, w) := by
      simp only [tcpSem, hbind, if_true]
    refine ⟨w, exec_call hsem _, ?_, rfl, rfl⟩
    rw [hw, if_pos (.inl hbind)]
    rfl
  · have hsem : tcpSem kernel (.bind_ port) () w = some (kernel.bind_ port,
        { w with bound := some (if port = 0 then kernel.free else port) }) := by
      simp only [tcpSem, hbind, if_false, Bool.false_eq_true]
    refine ⟨_, exec_call hsem _, ?_, rfl, rfl⟩
    -- port 0 asks for a free one
    by_cases hport : port = 0
    · have hfree : (kernel.bind_ port).failed = true ∨ port = 0 := .inr hport
      rw [if_pos hfree]
      simp [hport]
    · have hfree : ¬ ((kernel.bind_ port).failed = true ∨ port = 0) := not_or.mpr ⟨hbind, hport⟩
      rw [if_neg hfree]
      simp [hport]

/-- A start ends with an exception, or with a port that is listened on. -/
theorem exec_start (kernel : Kernel) (server : CreatedServer) :
    ∃ out w, exec kernel (start server) .init = some (out, w) ∧
      ((kernel.throws ∧ (∃ e, out = .thrown e) ∧ w.listening = none ∧ w.isWork = false) ∨
        (¬ kernel.throws ∧ out = .ok () ∧
          w.listening = some (listenedPort kernel server.port.toUInt16))) := by
  unfold start setOptionAcceptor Kernel.throws
  simp only [bind_assoc]
  rw [exec_call (o := .open_) rfl]
  by_cases hopen : kernel.open_.failed = true
  · rw [throwing_of_failed hopen]
    exact ⟨_, _, rfl, .inl ⟨.inl hopen, ⟨_, rfl⟩, rfl, rfl⟩⟩
  rw [throwing_of_not_failed hopen, pure_bind, exec_call (o := .set_option_) rfl]
  by_cases hoption : kernel.set_option_.failed = true
  · rw [throwing_of_failed hoption]
    exact ⟨_, _, rfl, .inl ⟨.inr (.inl hoption), ⟨_, rfl⟩, rfl, rfl⟩⟩
  rw [throwing_of_not_failed hoption, pure_bind]
  -- whatever `bind` reports, `listen` is called
  obtain ⟨w₁, hbind, hbound, hlistening, hwork⟩ := exec_bind (k := call .listen >>= fun ec =>
    throwing ec >>= fun _ => call (.setIsWork true)) server.port.toUInt16 .init rfl
  rw [hbind]
  -- a socket without a port gets one here
  by_cases hlisten : kernel.listen.failed = true
  · have hsem : tcpSem kernel .listen () w₁ = some (kernel.listen, w₁) := by
      simp only [tcpSem, hlisten, if_true]
    rw [exec_call hsem, throwing_of_failed hlisten]
    exact ⟨_, _, rfl, .inl ⟨.inr (.inr hlisten), ⟨_, rfl⟩, hlistening, hwork⟩⟩
  · have hsem : tcpSem kernel .listen () w₁ = some (kernel.listen, { w₁ with
        bound := some (w₁.bound.getD kernel.free)
        listening := some (w₁.bound.getD kernel.free) }) := by
      simp only [tcpSem, hlisten, if_false, Bool.false_eq_true]
    rw [exec_call hsem, throwing_of_not_failed hlisten]
    refine ⟨_, _, rfl, .inr ⟨?_, rfl, congrArg some hbound⟩⟩
    rw [not_or, not_or]
    exact ⟨hopen, hoption, hlisten⟩

/-- The server that main creates for a port, started: it listens on that port, or the start has
failed before the flag was set; and it listens on no other. -/
def PortServed (kernel : Kernel) (p : Int64) (multiConnect : Bool) (magicNumber : UInt32) : Prop :=
  ∃ out w, exec kernel (start (SetUp.create ⟨p.toInt32, multiConnect⟩ magicNumber)) .init
      = some (out, w) ∧
    ((∃ e, out = .thrown e) ∧ w.isWork = false ∨
      out = .ok () ∧ ∃ q, w.listening = some q ∧ (q.toNat : Int) = p.toInt) ∧
    ∀ q, w.listening = some q → (q.toNat : Int) = p.toInt

/-- A call that throws fails, or the number is a port and binding it succeeds, or the kernel has to
find a port and it happens to be that one. -/
def PortHeld (kernel : Kernel) (p : Int64) : Prop :=
  kernel.throws ∨
    (1 ≤ p.toInt ∧ p.toInt < 2 ^ 16 ∧ (kernel.bind_ (endpointPort p)).failed = false) ∨
    ((kernel.bind_ (endpointPort p)).failed = true ∨ endpointPort p = 0) ∧
      (kernel.free.toNat : Int) = p.toInt

/-- The port that is listened on is the one that was configured. -/
theorem listenedPort_eq_iff :
    ((listenedPort kernel (endpointPort p)).toNat : Int) = p.toInt
      ↔ (1 ≤ p.toInt ∧ p.toInt < 2 ^ 16 ∧ (kernel.bind_ (endpointPort p)).failed = false) ∨
        ((kernel.bind_ (endpointPort p)).failed = true ∨ endpointPort p = 0) ∧
          (kernel.free.toNat : Int) = p.toInt := by
  have hport := toNat_endpointPort p
  have hzero : endpointPort p = 0 ↔ (endpointPort p).toNat = 0 := by
    rw [← UInt16.toNat_inj]
    rfl
  unfold listenedPort
  by_cases hfree : (kernel.bind_ (endpointPort p)).failed = true ∨ endpointPort p = 0
  · rw [if_pos hfree]
    constructor
    · intro h
      exact .inr ⟨hfree, h⟩
    · rintro (⟨hpos, hlt, hbind⟩ | ⟨-, h⟩)
      -- a port between 1 and 2 ^ 16 is no multiple of 2 ^ 16
      · rcases hfree with hfailed | h0
        · rw [hbind] at hfailed
          cases hfailed
        · rw [hzero] at h0
          omega
      · exact h
  · rw [if_neg hfree]
    obtain ⟨hbind, hne⟩ := not_or.mp hfree
    rw [hzero] at hne
    constructor
    · intro h
      exact .inl ⟨by omega, by omega, by simpa using hbind⟩
    · rintro (⟨hpos, hlt, -⟩ | ⟨h, -⟩)
      · omega
      · exact absurd h hfree

/-- **When the configured port is the port served**: for every number and every outcome of the
calls, exactly if one of the three calls that throw fails, or the number is one of a port and
`bind` succeeds, or the kernel finds that port by itself. -/
theorem port_served_iff (kernel : Kernel) (p : Int64) (multiConnect : Bool) (magicNumber : UInt32) :
    PortServed kernel p multiConnect magicNumber ↔ PortHeld kernel p := by
  obtain ⟨out, w, hrun, hresult⟩ :=
    exec_start kernel (SetUp.create ⟨p.toInt32, multiConnect⟩ magicNumber)
  have hserved : PortServed kernel p multiConnect magicNumber ↔
      ((∃ e, out = .thrown e) ∧ w.isWork = false ∨
        out = .ok () ∧ ∃ q, w.listening = some q ∧ (q.toNat : Int) = p.toInt) ∧
      ∀ q, w.listening = some q → (q.toNat : Int) = p.toInt := by
    constructor
    · rintro ⟨out', w', hrun', h⟩
      rw [hrun, Option.some.injEq, Prod.mk.injEq] at hrun'
      obtain ⟨rfl, rfl⟩ := hrun'
      exact h
    · intro h
      exact ⟨out, w, hrun, h⟩
  rw [hserved, PortHeld]
  -- a start that throws listens on nothing
  rcases hresult with ⟨hthrows, ⟨e, rfl⟩, hnone, hwork⟩ | ⟨hnot, rfl, hlistening⟩
  · refine iff_of_true ⟨.inl ⟨⟨e, rfl⟩, hwork⟩, ?_⟩ (.inl hthrows)
    intro q hq
    rw [hnone] at hq
    cases hq
  · have hport : w.listening = some (listenedPort kernel (endpointPort p)) := hlistening
    rw [or_iff_right hnot, ← listenedPort_eq_iff]
    constructor
    · intro h
      exact h.2 _ hport
    · intro h
      refine ⟨.inr ⟨rfl, _, hport, h⟩, ?_⟩
      intro q hq
      rw [hport, Option.some.injEq] at hq
      subst hq
      exact h

/-- A kernel that lets all calls succeed but `bind` on the ports that are taken. -/
def plainKernel (taken : UInt16 → Bool) : Kernel where
  open_ := .success
  set_option_ := .success
  bind_ port := if taken port then .address_in_use else .success
  listen := .success
  free := 40000
  free_ne := by decide

/-- A server that listens on another port has not got the configured one. -/
theorem not_served {w : Acceptor} {q : UInt16}
    (hrun : exec kernel (start (SetUp.create ⟨p.toInt32, multiConnect⟩ magicNumber)) .init
      = some (.ok (), w))
    (hlistening : w.listening = some q) (hother : (q.toNat : Int) ≠ p.toInt) :
    ¬ PortServed kernel p multiConnect magicNumber := by
  rintro ⟨out, w', hrun', -, hall⟩
  rw [hrun, Option.some.injEq, Prod.mk.injEq] at hrun'
  obtain ⟨-, rfl⟩ := hrun'
  exact hother (hall q hlistening)

/-- **70000 is served on 4464**, and a port that is taken on whatever is free. -/
theorem other_port_served :
    ¬ PortServed (plainKernel fun _ => false) 70000 false 1 ∧
      ¬ PortServed (plainKernel fun port => port == 10000) 10000 false 1 :=
  ⟨not_served (q := 4464) rfl rfl (by decide), not_served (q := 40000) rfl rfl (by decide)⟩

end Listening

end NetworkApplication
