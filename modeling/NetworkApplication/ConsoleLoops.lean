/-
The two consoles at the end of their input.

Both programs read lines from standard input in a loop, and neither looks at whether a line was
read. The loops are left on the line `stop`, and when the program or its connections are no longer
running; nothing in them is about an input that has come to its end. There the server reads an
empty line again and again, into a string of its own each time, and rejects it. The client reads
into one string for all, so it has an empty line there too, or the last one if that had no newline;
and in the client a line is a message, the empty one as well, and is sent.

So each loop handles its lines one by one, each once, and then ends if one of them is `stop`. The
server must also come to that line as a command: the line behind a `broadcast` is its text.
-/
import NetworkApplication.OperatorCommands

set_option autoImplicit false

namespace NetworkApplication

open NetworkApplication.Program

/-! ## `client/main.cpp` -/

namespace ClientConsole

/-- What `main` does with the client and the terminal. -/
inductive Op where
  | running
  | getIsWork
  | getline (str : List UInt8)
  | log (place text : String)
  | write (data : List UInt8)
  | stop

abbrev Op.Res : Op → Type
  | .running => Bool
  | .getIsWork => Bool
  | .getline _ => List UInt8
  | .log _ _ => Unit
  | .write _ => Unit
  | .stop => Unit

abbrev Console : Signature := ⟨Op, Op.Res⟩

abbrev ConsoleProg (α : Type) := Prog Console Empty α

def call (o : Op) : ConsoleProg o.Res := Prog.perform (E := Console) o

/-- `running && client->getIsWork()`. -/
def stillWorks : ConsoleProg Bool := do
  let running ← call .running
  if running then call .getIsWork else return false

/-- Behind the loop. -/
def leave : ConsoleProg (Option (List UInt8)) := do
  call .stop
  return none

/-- The input loop. The string lives outside of it, and is the label. -/
def inputLoop (msg : List UInt8) : ConsoleProg (Option (List UInt8)) := do
  if ← stillWorks then
    call (.log "Client::write" " : ")
    let msg ← call (.getline msg)
    if msg = ascii "stop" then leave
    else do
      call (.write msg)
      return some msg
  else leave

/-- Standard input, and what has been written. -/
structure State where
  stdin : InputStream
  written : List (List UInt8)
  deriving DecidableEq

/-- The connection stays up. -/
def sem : (o : Op) → Unit → State → Option (o.Res × State)
  | .running, _, s => some (true, s)
  | .getIsWork, _, s => some (true, s)
  | .getline str, _, s => some ((s.stdin.getline str).2, { s with stdin := (s.stdin.getline str).1 })
  | .log _ _, _, s => some ((), s)
  | .write data, _, s => some ((), { s with written := s.written ++ [data] })
  | .stop, _, s => some ((), s)

/-- The loop ends, and has written some of the lines, each at most once. -/
def Ends (input : List UInt8) : Prop :=
  Prog.LoopEnds sem inputLoop (fun s => s.written.Sublist (InputStream.lines input)) []
    ⟨.ofInput input, []⟩

/-- One round: what the string holds after the read is written, or ends the loop. -/
theorem twp_inputLoop {msg line : List UInt8} {s : State} (hline : (s.stdin.getline msg).2 = line) :
    Prog.twp sem (fun next s' => s'.stdin = (s.stdin.getline msg).1 ∧
      if line = ascii "stop" then next = none ∧ s'.written = s.written
      else next = some line ∧ s'.written = s.written ++ [line]) (inputLoop msg) s := by
  subst hline
  refine Prog.twp_go (fun _ => rfl) (Prog.twp_go (fun _ => rfl) (Prog.twp_go (fun _ => rfl) ?_))
  refine Prog.twp_go (fun _ => rfl) ?_
  split
  · exact Prog.twp_go (fun _ => rfl) ⟨rfl, rfl, rfl⟩
  · exact Prog.twp_go (fun _ => rfl) ⟨rfl, rfl, rfl⟩

/-- With a line `stop` to come the loop gets there. The number of lines that are left is the
variant. -/
theorem ends_of_stop {input : List UInt8} (h : ascii "stop" ∈ InputStream.lines input) : Ends input := by
  refine ⟨_, Prog.endsWithin_of_variant (I := fun n _ s => n = s.stdin.remaining.length ∧
    ascii "stop" ∈ s.stdin.remaining ∧ s.written ++ s.stdin.remaining = InputStream.lines input)
    (fun n msg s hI => ?_) ⟨rfl, h, rfl⟩⟩
  obtain ⟨rfl, hstop, hlines⟩ := hI
  cases hremaining : s.stdin.remaining with
  | nil =>
    rw [hremaining] at hstop
    cases hstop
  | cons line more =>
    rw [hremaining] at hstop hlines
    obtain ⟨hline, hmore⟩ := InputStream.getline_of_remaining hremaining msg
    refine Prog.twp_mono (twp_inputLoop hline) ?_
    rintro next s' ⟨hstdin, hnext⟩
    split at hnext
    · obtain ⟨rfl, hwritten⟩ := hnext
      show s'.written.Sublist _
      rw [hwritten, ← hlines]
      exact List.sublist_append_left _ _
    · next hne =>
      obtain ⟨rfl, hwritten⟩ := hnext
      refine ⟨more.length, Nat.lt_succ_self _, ?_, ?_, ?_⟩
      · rw [hstdin, hmore]
      · rw [hstdin, hmore]
        exact (List.mem_cons.mp hstop).resolve_left (Ne.symm hne)
      · rw [hstdin, hmore, hwritten, List.append_assoc, List.singleton_append, hlines]

/-- Without one it does not: what is read is a line that is left, or what was read before, or
nothing. -/
theorem not_ends {input : List UInt8} (h : ascii "stop" ∉ InputStream.lines input) : ¬ Ends input := by
  refine Prog.not_loopEnds (I := fun msg s => ascii "stop" ∉ s.stdin.remaining ∧ msg ≠ ascii "stop")
    (fun msg s hI => ?_) ⟨h, by decide⟩
  obtain ⟨hstop, hmsg⟩ := hI
  have hread : ascii "stop" ∉ (s.stdin.getline msg).1.remaining ∧ (s.stdin.getline msg).2 ≠ ascii "stop" := by
    cases hremaining : s.stdin.remaining with
    | nil =>
      obtain ⟨hline, hexhausted⟩ := InputStream.getline_of_no_remaining hremaining msg
      rw [hexhausted.remaining, hline]
      refine ⟨List.not_mem_nil, ?_⟩
      split
      · decide
      · exact hmsg
    | cons line more =>
      obtain ⟨hline, hmore⟩ := InputStream.getline_of_remaining hremaining msg
      rw [hremaining, List.mem_cons, not_or] at hstop
      rw [hline, hmore]
      exact ⟨hstop.2, Ne.symm hstop.1⟩
  obtain ⟨⟨out, s', hrun⟩, hall⟩ := Prog.runs_of_twp (twp_inputLoop (Eq.refl (s.stdin.getline msg).2))
  obtain ⟨next, rfl, hstdin, hnext⟩ := hall out s' hrun
  rw [if_neg hread.2] at hnext
  obtain ⟨rfl, -⟩ := hnext
  refine ⟨_, s', hrun, ?_⟩
  rw [hstdin]
  exact hread

end ClientConsole

/-! ## `server/main.cpp` -/

namespace ServerConsole

variable {ports : List UInt32} {s : State} {line : List UInt8} {input : List UInt8}

/-- The command loop ends, and has read some of the lines, each at most once. -/
def Ends (ports : List UInt32) (input : List UInt8) : Prop :=
  Prog.LoopEnds sem (block ports) (fun s => s.read.Sublist (InputStream.lines input)) .outer
    (.ofInput input)

/-- The lines come to a command `stop`; the line behind a `broadcast` is no command. -/
def Stops : List (List UInt8) → Prop
  | [] => False
  | [line] => line = ascii "stop"
  | line :: next :: more =>
    line = ascii "stop" ∨ if line = ascii "broadcast" then Stops more else Stops (next :: more)

/-- Nothing is read, nothing is read again. -/
def SameInput (s s' : State) : Prop := s'.stdin = s.stdin ∧ s'.read = s.read

/-- What is read of the input when a command has been read. -/
theorem twp_handleLine (line : List UInt8) :
    Prog.twp sem (fun next s' =>
      if line = ascii "stop" then next = none ∧ SameInput s s'
      else next = some .inner ∧ if line = ascii "broadcast" then
          s'.stdin = (s.stdin.getline []).1 ∧ s'.read = s.read ++ [(s.stdin.getline []).2]
        else SameInput s s') (handleLine ports line) s := by
  unfold handleLine
  by_cases hhelp : line = ascii "help"
  · subst hhelp
    exact Prog.twp_go (fun _ => rfl) ⟨rfl, rfl, rfl⟩
  rw [if_neg hhelp]
  by_cases hstop : line = ascii "stop"
  · simp only [hstop, if_true]
    exact Prog.twp_mono twp_leave (fun _ _ h => ⟨h.1, by rw [h.2], by rw [h.2]⟩)
  rw [if_neg hstop]
  simp only [hstop, if_false]
  by_cases hlist : line = ascii "list"
  · subst hlist
    refine Prog.twp_bind (Prog.twp_mono twp_viewListSession ?_)
    rintro u s' rfl
    exact ⟨rfl, rfl, rfl⟩
  rw [if_neg hlist]
  by_cases hbroadcast : line = ascii "broadcast"
  · simp only [hbroadcast, if_true]
    refine Prog.twp_go (fun _ => rfl) (Prog.twp_go (fun _ => rfl) ?_)
    refine Prog.twp_bind (Prog.twp_mono (twp_broadcastWrite _ ports) ?_)
    rintro u s' ⟨more, rfl, -⟩
    exact ⟨rfl, rfl, rfl⟩
  · simp only [hbroadcast, if_false]
    refine Prog.twp_bind (Prog.twp_mono (twp_handleAddress line) ?_)
    rintro u s' rfl
    exact ⟨rfl, rfl, rfl⟩

/-- The head of the inner loop reads a line into an empty string. -/
theorem twp_innerLoop {post : Option Label → State → Prop}
    (h : Prog.twp sem post (handleLine ports (s.stdin.getline []).2)
      { s with stdin := (s.stdin.getline []).1, read := s.read ++ [(s.stdin.getline []).2] }) :
    Prog.twp sem post (innerLoop ports) s := by
  refine Prog.twp_bind (Prog.twp_mono twp_stillWorks ?_)
  rintro b s' ⟨rfl, rfl⟩
  exact Prog.twp_go (fun _ => rfl) (Prog.twp_go (fun _ => rfl) h)

theorem twp_outerLoop :
    Prog.twp sem (fun next s' => next = some .inner ∧ s' = s) (outerLoop ports) s := by
  refine Prog.twp_bind (Prog.twp_mono twp_stillWorks ?_)
  rintro b s' ⟨rfl, rfl⟩
  exact ⟨rfl, rfl⟩

/-- With a command `stop` to come the loop gets there. A round takes one line, or two. -/
theorem ends_of_stops (h : Stops (InputStream.lines input)) : Ends ports input := by
  refine ⟨_, Prog.endsWithin_of_variant (I := fun n l s =>
    n = s.stdin.remaining.length + (if l = .outer then 1 else 0) ∧ Stops s.stdin.remaining ∧
      s.read ++ s.stdin.remaining = InputStream.lines input) (fun n l s hI => ?_) ⟨rfl, h, rfl⟩⟩
  obtain ⟨rfl, hstops, hlines⟩ := hI
  cases l with
  | outer =>
    refine Prog.twp_mono twp_outerLoop ?_
    rintro next s' ⟨rfl, rfl⟩
    exact ⟨_, by simp, rfl, hstops, hlines⟩
  | inner =>
    refine twp_innerLoop (Prog.twp_mono (twp_handleLine _) (fun next s' hnext => ?_))
    match hremaining : s.stdin.remaining with
    | [] =>
      rw [hremaining] at hstops
      exact hstops.elim
    | [line] =>
      obtain ⟨hline, -⟩ := InputStream.getline_of_remaining hremaining []
      rw [hremaining] at hstops hlines
      have hstop : line = ascii "stop" := hstops
      rw [hline, if_pos hstop] at hnext
      obtain ⟨rfl, -, hread⟩ := hnext
      show s'.read.Sublist _
      rw [hread, hlines]
    | line :: sup_line :: more =>
      obtain ⟨hline, hmore⟩ := InputStream.getline_of_remaining hremaining []
      obtain ⟨hsup, hmore'⟩ := InputStream.getline_of_remaining hmore []
      rw [hremaining] at hstops hlines
      rw [hline] at hnext
      split at hnext
      · obtain ⟨rfl, -, hread⟩ := hnext
        show s'.read.Sublist _
        rw [hread, ← hlines]
        exact List.Sublist.append_left (List.singleton_sublist.mpr (List.mem_cons_self ..)) _
      · next hstop =>
        have hrest := hstops.resolve_left hstop
        obtain ⟨rfl, hnext⟩ := hnext
        split at hnext
        -- the line behind it is taken along
        · next hbroadcast =>
          rw [if_pos hbroadcast] at hrest
          obtain ⟨hstdin, hread⟩ := hnext
          simp only [hsup] at hstdin hread
          refine ⟨_, ?_, rfl, ?_, ?_⟩
          · rw [hstdin, hmore']
            simp
          · rwa [hstdin, hmore']
          · rw [hstdin, hmore', hread, ← hlines]
            simp
        · next hbroadcast =>
          rw [if_neg hbroadcast] at hrest
          obtain ⟨hstdin, hread⟩ := hnext
          simp only at hstdin hread
          refine ⟨_, ?_, rfl, ?_, ?_⟩
          · rw [hstdin, hmore]
            simp
          · rwa [hstdin, hmore]
          · rw [hstdin, hmore, hread, ← hlines]
            simp

/-- A line that does not end the loop, and what is behind it. -/
theorem not_stops_cons {line : List UInt8} {more : List (List UInt8)} (h : ¬ Stops (line :: more)) :
    line ≠ ascii "stop" ∧ (line ≠ ascii "broadcast" → ¬ Stops more) ∧
      (line = ascii "broadcast" → ¬ Stops more.tail) := by
  cases more with
  | nil => exact ⟨h, fun _ => id, fun _ => id⟩
  | cons next more =>
    obtain ⟨hstop, hrest⟩ := not_or.mp h
    refine ⟨hstop, fun hne => ?_, fun heq => ?_⟩
    · rwa [if_neg hne] at hrest
    · rwa [if_pos heq] at hrest

/-- What a stream gives after a read is what is behind the first line. -/
theorem remaining_getline (is : InputStream) (str : List UInt8) :
    (is.getline str).1.remaining = is.remaining.tail := by
  cases hremaining : is.remaining with
  | nil => exact (InputStream.getline_of_no_remaining hremaining str).2.remaining
  | cons line more => exact (InputStream.getline_of_remaining hremaining str).2

/-- Without one it does not: at the end of the input the line is empty, and that is no command. -/
theorem not_ends (h : ¬ Stops (InputStream.lines input)) : ¬ Ends ports input := by
  refine Prog.not_loopEnds (I := fun _ s => ¬ Stops s.stdin.remaining) (fun l s hstops => ?_) h
  cases l with
  | outer =>
    have hround : Prog.twp sem _ (outerLoop ports) s := twp_outerLoop
    obtain ⟨⟨out, s', hrun⟩, hall⟩ := Prog.runs_of_twp hround
    obtain ⟨next, rfl, rfl, rfl⟩ := hall out s' hrun
    exact ⟨_, _, hrun, hstops⟩
  | inner =>
    have hround : Prog.twp sem _ (innerLoop ports) s := twp_innerLoop (twp_handleLine _)
    obtain ⟨⟨out, s', hrun⟩, hall⟩ := Prog.runs_of_twp hround
    obtain ⟨next, rfl, hnext⟩ := hall out s' hrun
    cases hremaining : s.stdin.remaining with
    | nil =>
      -- an empty line, and nothing left
      have hline : (s.stdin.getline []).2 = [] := by
        rw [(InputStream.getline_of_no_remaining hremaining []).1, ite_self]
      rw [hline, if_neg (by decide), if_neg (by decide)] at hnext
      obtain ⟨rfl, hstdin, -⟩ := hnext
      refine ⟨_, s', hrun, ?_⟩
      rw [hstdin, remaining_getline, hremaining]
      exact id
    | cons line more =>
      rw [hremaining] at hstops
      obtain ⟨hstop, hother, hbroadcast⟩ := not_stops_cons hstops
      rw [(InputStream.getline_of_remaining hremaining []).1, if_neg hstop] at hnext
      obtain ⟨rfl, hnext⟩ := hnext
      refine ⟨_, s', hrun, ?_⟩
      split at hnext
      · next heq =>
        rw [hnext.1, remaining_getline, remaining_getline, hremaining]
        exact hbroadcast heq
      · next hne =>
        rw [hnext.1, remaining_getline, hremaining]
        exact hother hne

end ServerConsole

/-- **When the console loops end with their input.** For every input: that of the client if one
of its lines is `stop`, that of the server if one of its commands is. -/
theorem console_loops_end_iff (ports : List UInt32) (input : List UInt8) :
    (ClientConsole.Ends input ↔ ascii "stop" ∈ InputStream.lines input) ∧
      (ServerConsole.Ends ports input ↔ ServerConsole.Stops (InputStream.lines input)) := by
  refine ⟨⟨fun h => ?_, ClientConsole.ends_of_stop⟩, ⟨fun h => ?_, ServerConsole.ends_of_stops⟩⟩
  · by_contra hstop
    exact ClientConsole.not_ends hstop h
  · by_contra hstops
    exact ServerConsole.not_ends hstops h

/-- **At the end of an empty input neither loop ends.** -/
theorem empty_input_never_ends : ¬ ClientConsole.Ends [] ∧ ¬ ServerConsole.Ends [8080] [] :=
  ⟨ClientConsole.not_ends List.not_mem_nil, ServerConsole.not_ends id⟩

end NetworkApplication
