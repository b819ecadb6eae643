/-
`server/main.cpp`: the console.

After the servers have been started, `main` reads commands. Four are words; every other line is
an address and a message, `<SERVER_PORT>;<ID_SESSION>;<MESSAGE>`, and goes to one session of one
server. The two loops around the commands end with `stop`, or when one of the servers or the
program is no longer running.

What `main` does with the servers, the terminal and the flag of its signal handler are the
operations of an interface of its own. The operations go through as long as the servers stay up,
and what is written to the sessions and which of them are disconnected is kept in `calls`.
-/
import NetworkApplication.InputStream
import NetworkApplication.Loops
import NetworkApplication.Numerals
import NetworkApplication.SegmentServer

set_option autoImplicit false

namespace NetworkApplication

open NetworkApplication.Program

/-! ## Strings -/

/-- `str.find(c, pos)`; `none` is `npos`. -/
def find (str : List UInt8) (c : UInt8) (pos : Nat) : Option Nat :=
  ((str.drop pos).findIdx? (· == c)).map (pos + ·)

/-- `str.substr(pos, count)`. -/
def substr (str : List UInt8) (pos count : Nat) : List UInt8 := (str.drop pos).take count

namespace ServerConsole

/-! ## The interface -/

inductive Op where
  | running
  | getline (str : List UInt8)
  | log (place text : String)
  | getIsWork (port : UInt32)
  | getSessionVectorID (port : UInt32)
  | write (port : UInt32) (id : UInt64) (data : List UInt8)
  | disconnect (port : UInt32) (id : UInt64)
  | stop (port : UInt32)

abbrev Op.Res : Op → Type
  | .running => Bool
  | .getline _ => List UInt8
  | .log _ _ => Unit
  | .getIsWork _ => Bool
  | .getSessionVectorID _ => List UInt64
  | .write _ _ _ => Unit
  | .disconnect _ _ => Unit
  | .stop _ => Unit

abbrev Console : Signature := ⟨Op, Op.Res⟩

/-- What `main` does; `stoi` throws. -/
abbrev ConsoleProg (α : Type) := Prog Console Numerals.StoiError α

def call (o : Op) : ConsoleProg o.Res := Prog.perform (E := Console) o

/-! ## The program -/

section

-- the keys of `servers`, in the order of the map
variable (ports : List UInt32)

/-- `alIslWork`. -/
def alIslWork : List UInt32 → ConsoleProg Bool
  | [] => return true
  | port :: rest => do
    let isWork ← call (.getIsWork port)
    if isWork then alIslWork rest else return false

/-- `allStop`. -/
def allStop : List UInt32 → ConsoleProg Unit
  | [] => return
  | port :: rest => do
    call (.stop port)
    allStop rest

/-- The sessions of one server in the list. -/
def viewSessions : List UInt64 → String
  | [] => ""
  | i :: rest => toString i ++ " " ++ viewSessions rest

/-- The text of the list. -/
def viewServers : List UInt32 → String → ConsoleProg String
  | [], result => return result
  | port :: rest, result => do
    let ids ← call (.getSessionVectorID port)
    viewServers rest (result ++ "\t" ++ toString port ++ " = [ " ++ viewSessions ids ++ "]" ++ "\n")

/-- `viewListSession`. -/
def viewListSession : ConsoleProg Unit := do
  let result ← viewServers ports "\n"
  call (.log "ServerConfig" ("ServerInfo = \x7b " ++ result ++ " \x7d"))

/-- The inner loop of `broadcastWrite`. -/
def writeAll (port : UInt32) (message : List UInt8) : List UInt64 → ConsoleProg Unit
  | [] => return
  | i :: rest => do
    call (.write port i message)
    writeAll port message rest

/-- `broadcastWrite`. -/
def broadcastWrite (message : List UInt8) : List UInt32 → ConsoleProg Unit
  | [] => return
  | port :: rest => do
    let ids ← call (.getSessionVectorID port)
    writeAll port message ids
    broadcastWrite message rest

/-- The text of `help`. -/
def helpText : String :=
  "Command : \n\thelp - View list commands\n\tstop - Stopping server/client\n\tlist - View list session\n\tbroadcast - Write all session\n\tsignal/information - Write message with this type\n\t<SERVER_PORT>;<ID_SESSION>;<MESSAGE> - <MESSAGE>help Write  session on <SERVER_PORT> and with <ID_SESSION>\n\t<SERVER_PORT>;<ID_SESSION>;disconnect - Disconnect session"

/-- `std::stoi`, as a program that may throw. -/
def stoi (str : List UInt8) : ConsoleProg Int32 :=
  match Numerals.stoi str with
  | .ok n => pure n
  | .error e => Prog.throw e

/-- The two conversions; after an exception there is nothing to go on with. -/
def readIds (id_server_part id_session_part : List UInt8) : ConsoleProg (Option (Int32 × Int32)) :=
  Prog.tryCatch (do
    let id_server ← stoi id_server_part
    let id_session ← stoi id_session_part
    return some (id_server, id_session))
    (fun e => do
      call (.log "Server::write" ("Invalid integer conversion: " ++ e.what))
      return none)

/-- From the look-up of the server on. The key is a `uint32_t` and the session's number a
`size_t`; both are made of an `int`. -/
def deliver (id_server id_session : Int32) (message : List UInt8) : ConsoleProg Unit :=
  if id_server.toUInt32 ∈ ports then
    if message = ascii "disconnect" then
      call (.disconnect id_server.toUInt32 id_session.toInt64.toUInt64)
    else call (.write id_server.toUInt32 id_session.toInt64.toUInt64 message)
  else call (.log "Server::write" "Invalid port")

/-- A line that is none of the four words. -/
def handleAddress (line : List UInt8) : ConsoleProg Unit :=
  match find line 59 0 with
  | none => call (.log "Server::write" "Missing first ';' delimiter")
  | some pos1 =>
    match find line 59 (pos1 + 1) with
    | none => call (.log "Server::write" "Missing second ';' delimiter")
    | some pos2 => do
      let id_server_part := substr line 0 pos1
      let id_session_part := substr line (pos1 + 1) (pos2 - pos1 - 1)
      let message := substr line (pos2 + 1) line.length
      match ← readIds id_server_part id_session_part with
      | none => return
      | some (id_server, id_session) => deliver ports id_server id_session message

/-- The loops. -/
inductive Label where
  | outer
  | inner
  deriving DecidableEq

/-- `running && alIslWork()`. -/
def stillWorks : ConsoleProg Bool := do
  let running ← call .running
  if running then alIslWork ports else return false

/-- Behind the inner loop: `main` returns. -/
def leave : ConsoleProg (Option Label) := do
  allStop ports
  return none

/-- The body of the inner loop, from the line on. -/
def handleLine (line : List UInt8) : ConsoleProg (Option Label) :=
  if line = ascii "help" then do
    call (.log "Server::help" helpText)
    return some .inner
  else if line = ascii "stop" then leave ports
  else if line = ascii "list" then do
    viewListSession ports
    return some .inner
  else if line = ascii "broadcast" then do
    call (.log "Server::write\x7bbroadcast\x7d" "MESSAGE : ")
    let sup_line ← call (.getline [])
    broadcastWrite sup_line ports
    return some .inner
  else do
    handleAddress ports line
    return some .inner

/-- The inner loop. -/
def innerLoop : ConsoleProg (Option Label) := do
  if ← stillWorks ports then
    call (.log "Server::write" "Write Command")
    let line ← call (.getline [])
    handleLine ports line
  else leave ports

/-- The outer loop. -/
def outerLoop : ConsoleProg (Option Label) := do
  if ← stillWorks ports then return some .inner else return none

def block : Label → ConsoleProg (Option Label)
  | .outer => outerLoop ports
  | .inner => innerLoop ports

end

/-! ## The servers stay up -/

/-- What is done to a session. -/
inductive Call where
  | write (port : UInt32) (id : UInt64) (data : List UInt8)
  | disconnect (port : UInt32) (id : UInt64)
  deriving DecidableEq

/-- Standard input, the lines that were read from it, and what has been done. -/
structure State where
  stdin : InputStream
  read : List (List UInt8)
  calls : List Call
  deriving DecidableEq

/-- The state in front of an input. -/
def State.ofInput (input : List UInt8) : State := ⟨.ofInput input, [], []⟩

/-- Every operation goes through, and the flags stay set. Which sessions a server has is the
environment's choice. -/
def sem : (o : Op) → List UInt64 → State → Option (o.Res × State)
  | .running, _, s => some (true, s)
  | .getline str, _, s => some ((s.stdin.getline str).2,
    { s with stdin := (s.stdin.getline str).1, read := s.read ++ [(s.stdin.getline str).2] })
  | .log _ _, _, s => some ((), s)
  | .getIsWork _, _, s => some (true, s)
  | .getSessionVectorID _, ids, s => some (ids, s)
  | .write port id data, _, s => some ((), { s with calls := s.calls ++ [.write port id data] })
  | .disconnect port id, _, s => some ((), { s with calls := s.calls ++ [.disconnect port id] })
  | .stop _, _, s => some ((), s)

variable {ports : List UInt32} {s : State}

theorem twp_log {post : Unit → State → Prop} (place text : String) (hpost : post () s) :
    Prog.twp sem post (call (.log place text)) s :=
  Prog.twp_go (k := Prog.pure) (fun _ => rfl) hpost

theorem twp_alIslWork (ports : List UInt32) :
    Prog.twp sem (fun b s' => b = true ∧ s' = s) (alIslWork ports) s := by
  induction ports with
  | nil => exact ⟨rfl, rfl⟩
  | cons port rest ih => exact Prog.twp_go (fun _ => rfl) ih

theorem twp_stillWorks : Prog.twp sem (fun b s' => b = true ∧ s' = s) (stillWorks ports) s :=
  Prog.twp_go (fun _ => rfl) (twp_alIslWork ports)

theorem twp_allStop (ports : List UInt32) :
    Prog.twp sem (fun _ s' => s' = s) (allStop ports) s := by
  induction ports with
  | nil => rfl
  | cons port rest ih => exact Prog.twp_go (fun _ => rfl) ih

theorem twp_leave : Prog.twp sem (fun next s' => next = none ∧ s' = s) (leave ports) s :=
  Prog.twp_bind (Prog.twp_mono (twp_allStop ports) (fun _ _ h => ⟨rfl, h⟩))

theorem twp_viewServers (ports : List UInt32) (result : String) :
    Prog.twp sem (fun _ s' => s' = s) (viewServers ports result) s := by
  induction ports generalizing result with
  | nil => rfl
  | cons port rest ih =>
    refine ⟨⟨[], [], s, rfl⟩, fun ids r s' h => ?_⟩
    obtain ⟨rfl, rfl⟩ := Prod.mk.inj (Option.some.inj h)
    exact ih _

theorem twp_viewListSession : Prog.twp sem (fun _ s' => s' = s) (viewListSession ports) s := by
  refine Prog.twp_bind (Prog.twp_mono (twp_viewServers ports "\n") ?_)
  rintro result s' rfl
  exact twp_log _ _ rfl

/-- A broadcast writes the one message, to sessions of the servers. -/
theorem twp_writeAll (port : UInt32) (message : List UInt8) (ids : List UInt64) :
    Prog.twp sem (fun _ s' => s' = { s with calls := s.calls ++ ids.map (.write port · message) })
      (writeAll port message ids) s := by
  induction ids generalizing s with
  | nil =>
    show s = { s with calls := s.calls ++ [] }
    rw [List.append_nil]
  | cons i rest ih =>
    refine Prog.twp_go (fun _ => rfl) (Prog.twp_mono ih (fun _ s' hs' => ?_))
    simp [hs']

theorem twp_broadcastWrite (message : List UInt8) (ports : List UInt32) :
    Prog.twp sem (fun _ s' => ∃ more, s' = { s with calls := s.calls ++ more } ∧
      ∀ c ∈ more, ∃ port ∈ ports, ∃ id, c = .write port id message) (broadcastWrite message ports) s := by
  induction ports generalizing s with
  | nil => exact ⟨[], by simp, by simp⟩
  | cons port rest ih =>
    refine ⟨⟨[], [], s, rfl⟩, fun ids r s' h => ?_⟩
    obtain ⟨rfl, rfl⟩ := Prod.mk.inj (Option.some.inj h)
    show Prog.twp sem _ (writeAll port message ids >>= fun _ => broadcastWrite message rest) s
    refine Prog.twp_bind (Prog.twp_mono (twp_writeAll port message ids) ?_)
    rintro u s₁ rfl
    refine Prog.twp_mono ih ?_
    rintro u s₂ ⟨more, rfl, hmore⟩
    refine ⟨ids.map (.write port · message) ++ more, by simp, fun c hc => ?_⟩
    rcases List.mem_append.mp hc with hc | hc
    · obtain ⟨i, -, rfl⟩ := List.mem_map.mp hc
      exact ⟨port, List.mem_cons_self .., i, rfl⟩
    · obtain ⟨port', hport', hc⟩ := hmore c hc
      exact ⟨port', List.mem_cons_of_mem _ hport', hc⟩

end ServerConsole

end NetworkApplication
