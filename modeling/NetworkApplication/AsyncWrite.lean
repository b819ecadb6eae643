/-
`TransportHandler::write` in its `Async` mode.

Both modes build the same three buffers, and a buffer is an address and a size: the member
`magicNumber`, the local `json_len` and the payload of the message that the completion
handler keeps alive. What a buffer holds is read when a send takes it. In the `Sync` mode
all of that is before `write` returns. In the `Async` mode the first send may be inside the
call or not, and after the call `json_len` is four bytes of somebody else's stack.

So the operation is a state machine here, with the storage in its state: `write` returns at
some point of the sends, and from then on the storage of `json_len` may be written by anyone.
-/
import NetworkApplication.Replies

set_option autoImplicit false

namespace NetworkApplication

open NetworkApplication.Program

namespace TransportHandler

variable (th : TransportHandler)

/-- The completion handler of a write. -/
def written (transportMessage : TransportMessage) (error : ErrorCode) : NetProg Unit := do
  Prog.when (check_error error) (invoke th.onError error)
  invoke th.onAllWrite (error, transportMessage)

/-- `write(message, Sync)` ends with what is the completion handler of the other mode. -/
theorem write_eq (message : TransportMessage) :
    th.write message
      = invoke th.onWriteHandler (message.payload, message.payload.length) >>= fun _ =>
        Prog.tryCatch (asio_write th.socket (frame th.magicNumber message.payload).length 0
          (frame th.magicNumber message.payload) >>= th.written message) (fun _ => pure ()) := rfl

end TransportHandler

namespace AsyncWrite

open Replies

/-! ## The buffers -/

/-- What the buffers of `write` point to. -/
inductive Storage where
  | magicNumber
  | json_len
  | payload
  deriving DecidableEq

/-- A `const_buffer`. -/
structure Buffer where
  data : Storage
  size : Nat

/-- What is stored there. -/
structure Memory where
  magicNumber : UInt32
  json_len : UInt32
  payload : List UInt8

/-- The bytes at an address. -/
def Memory.bytes (memory : Memory) : Storage → List UInt8
  | .magicNumber => bytes32 memory.magicNumber
  | .json_len => bytes32 memory.json_len
  | .payload => memory.payload

/-- The buffers that `write` hands to asio. -/
def buffers (payload : List UInt8) : List Buffer :=
  [⟨.magicNumber, 4⟩, ⟨.json_len, 4⟩, ⟨.payload, payload.length⟩]

/-- The bytes that a list of buffers holds at the moment. -/
def Memory.gather (memory : Memory) (buffers : List Buffer) : List UInt8 :=
  (buffers.map (fun buffer => (memory.bytes buffer.data).take buffer.size)).flatten

theorem gather_buffers (memory : Memory) : memory.gather (buffers memory.payload)
    = bytes32 memory.magicNumber ++ (bytes32 memory.json_len ++ memory.payload) := by
  have hmagic : (bytes32 memory.magicNumber).take 4 = bytes32 memory.magicNumber := rfl
  have hlen : (bytes32 memory.json_len).take 4 = bytes32 memory.json_len := rfl
  simp only [Memory.gather, buffers, List.map_cons, List.map_nil, Memory.bytes, hmagic, hlen,
    List.take_length, List.flatten_cons, List.flatten_nil, List.append_nil]

/-! ## The operation -/

/-- An asynchronous write on a connected socket: the storage, whether `write` has returned,
how much has been transferred, what is on the stream, and what the completion handler is
called with once it is. -/
structure Writing where
  memory : Memory
  returned : Bool
  total_transferred : Nat
  tx : List UInt8
  completed : Option ErrorCode

/-- `write` has set up the buffers and calls `async_write`; `tx` is on the stream already. -/
def start (magicNumber : UInt32) (payload tx : List UInt8) : Writing where
  memory := ⟨magicNumber, UInt32.ofNat payload.length, payload⟩
  returned := false
  total_transferred := 0
  tx := tx
  completed := none

/-- What can happen next: a send takes some bytes or fails, `write` returns, and after that
the storage of `json_len` is used for something else. -/
inductive Step where
  | send (n : Nat)
  | fail (ec : ErrorCode)
  | returns
  | reuse (value : UInt32)

/-- How many bytes there are to send. -/
def Writing.size (s : Writing) : Nat := 8 + s.memory.payload.length

/-- One step. A send takes what the buffers hold now, from where the last one ended. -/
def step (s : Writing) : Step → Option Writing
  | .send n =>
    if s.completed = none ∧ 0 < n ∧ s.total_transferred + n ≤ s.size ∧ n ≤ 65536 then
      some { s with
        tx := s.tx ++
          ((s.memory.gather (buffers s.memory.payload)).drop s.total_transferred).take n
        total_transferred := s.total_transferred + n
        completed := if s.total_transferred + n = s.size then some .success else none }
    else none
  | .fail ec =>
    if s.completed = none ∧ ec.failed then some { s with completed := some ec } else none
  | .returns => if s.returned then none else some { s with returned := true }
  | .reuse value =>
    if s.returned then some { s with memory := { s.memory with json_len := value } } else none

/-- A schedule of the operation. -/
def run (s : Writing) (steps : List Step) : Option Writing := steps.foldlM step s

theorem run_cons {s s' : Writing} {a : Step} {steps : List Step}
    (h : run s (a :: steps) = some s') : ∃ s₁, step s a = some s₁ ∧ run s₁ steps = some s' := by
  rw [run, List.foldlM_cons] at h
  exact Option.bind_eq_some_iff.mp h

/-! ## One step -/

/-- The operation is one of `write`: its storage is the message's, except that `json_len` is
so for certain only until `write` returns. -/
structure Of (magicNumber : UInt32) (payload tx : List UInt8) (s : Writing) : Prop where
  magic : s.memory.magicNumber = magicNumber
  message : s.memory.payload = payload
  length : s.returned = false → s.memory.json_len = UInt32.ofNat payload.length
  sent : s.tx.length = tx.length + s.total_transferred
  within : s.total_transferred ≤ s.size
  completed : s.completed = some .success → s.total_transferred = s.size

variable {magicNumber : UInt32} {payload tx : List UInt8} {s s₁ s' : Writing} {a : Step}
  {steps : List Step}

theorem of_start : Of magicNumber payload tx (start magicNumber payload tx) where
  magic := rfl
  message := rfl
  length := fun _ => rfl
  sent := rfl
  within := Nat.zero_le _
  completed := nofun

theorem length_gather (memory : Memory) :
    (memory.gather (buffers memory.payload)).length = 8 + memory.payload.length := by
  rw [gather_buffers, List.length_append, List.length_append, length_bytes32, length_bytes32]
  omega

theorem Of.step (h : Of magicNumber payload tx s) (hstep : step s a = some s₁) :
    Of magicNumber payload tx s₁ := by
  cases a with
  | send n =>
    simp only [AsyncWrite.step, Option.ite_none_right_eq_some, Option.some.injEq] at hstep
    obtain ⟨⟨-, -, hle, -⟩, rfl⟩ := hstep
    refine ⟨h.magic, h.message, h.length, ?_, hle, fun hdone => ?_⟩
    · have hsent := h.sent
      have hsize : s.size = 8 + s.memory.payload.length := rfl
      simp only [List.length_append, List.length_take, List.length_drop, length_gather]
      omega
    · by_contra hne
      have hnone : (if s.total_transferred + n = s.size then some ErrorCode.success else none)
          = none := if_neg hne
      rw [hnone] at hdone
      cases hdone
  | fail ec =>
    simp only [AsyncWrite.step, Option.ite_none_right_eq_some, Option.some.injEq] at hstep
    obtain ⟨⟨-, hec⟩, rfl⟩ := hstep
    refine ⟨h.magic, h.message, h.length, h.sent, h.within, fun hdone => ?_⟩
    rw [Option.some.inj hdone] at hec
    cases hec
  | returns =>
    simp only [AsyncWrite.step, Option.ite_none_left_eq_some, Option.some.injEq] at hstep
    obtain ⟨-, rfl⟩ := hstep
    exact ⟨h.magic, h.message, nofun, h.sent, h.within, h.completed⟩
  | reuse value =>
    simp only [AsyncWrite.step, Option.ite_none_right_eq_some, Option.some.injEq] at hstep
    obtain ⟨hreturned, rfl⟩ := hstep
    refine ⟨h.magic, h.message, fun hlive => ?_, h.sent, h.within, h.completed⟩
    have hlive : s.returned = false := hlive
    rw [hreturned] at hlive
    cases hlive

/-- What has been sent is the frame so far. -/
def Sound (magicNumber : UInt32) (payload tx : List UInt8) (s : Writing) : Prop :=
  s.tx = tx ++ (frame magicNumber payload).take s.total_transferred

/-- The bytes of the length that the step takes are still the ones `write` stored: `write` has
not returned, or these bytes are there again. -/
def TakesLength (s : Writing) : Step → Prop
  | .send n => ∀ i < 4, s.total_transferred ≤ 4 + i → 4 + i < s.total_transferred + n →
      s.returned = false ∨
        (bytes32 s.memory.json_len)[i]? = (bytes32 (UInt32.ofNat s.memory.payload.length))[i]?
  | _ => True

/-- Two lists have the same piece when they have the same elements there. -/
theorem piece_eq_iff {α : Type} (l l' : List α) (from_ n : Nat) :
    (l.drop from_).take n = (l'.drop from_).take n
      ↔ ∀ k, from_ ≤ k → k < from_ + n → l[k]? = l'[k]? := by
  constructor
  · intro h k hfrom hk
    have hk' := congrArg (fun piece => piece[k - from_]?) h
    simp only [List.getElem?_take, List.getElem?_drop] at hk'
    rwa [if_pos (by omega), if_pos (by omega), Nat.add_sub_cancel' hfrom] at hk'
  · intro h
    refine List.ext_getElem? (fun k => ?_)
    rw [List.getElem?_take, List.getElem?_take, List.getElem?_drop, List.getElem?_drop]
    split
    · exact h (from_ + k) (by omega) (by omega)
    · rfl

theorem behind_magic (rest : List UInt8) (i : Nat) :
    (bytes32 magicNumber ++ rest)[4 + i]? = rest[i]? := by
  rw [List.getElem?_append_right (Nat.le_add_right 4 i), length_bytes32, Nat.add_sub_cancel_left]

/-- A piece of the buffers is the frame's when the bytes of the length in it are. -/
theorem piece_of_gather_iff (h : Of magicNumber payload tx s) (n : Nat) :
    ((s.memory.gather (buffers s.memory.payload)).drop s.total_transferred).take n
        = ((frame magicNumber payload).drop s.total_transferred).take n
      ↔ TakesLength s (.send n) := by
  rw [piece_eq_iff, gather_buffers, frame, h.magic, h.message, List.append_assoc]
  constructor
  · intro hpiece i hi hfrom hto
    right
    have hbyte := hpiece (4 + i) hfrom hto
    rw [behind_magic, behind_magic, List.getElem?_append_left hi,
      List.getElem?_append_left hi] at hbyte
    rwa [h.message]
  · intro htakes k hfrom hto
    by_cases hmagic : k < 4
    · rw [List.getElem?_append_left hmagic, List.getElem?_append_left hmagic]
    obtain ⟨i, rfl⟩ : ∃ i, k = 4 + i := ⟨k - 4, by omega⟩
    rw [behind_magic, behind_magic]
    by_cases hlen : i < 4
    · rw [List.getElem?_append_left hlen, List.getElem?_append_left hlen]
      rcases htakes i hlen hfrom hto with hlive | hbyte
      · rw [h.length hlive]
      · rwa [h.message] at hbyte
    · have hlen' : (bytes32 s.memory.json_len).length ≤ i := Nat.le_of_not_lt hlen
      have hlen'' : (bytes32 (UInt32.ofNat payload.length)).length ≤ i := Nat.le_of_not_lt hlen
      rw [List.getElem?_append_right hlen', List.getElem?_append_right hlen'', length_bytes32,
        length_bytes32]

/-- **One step** keeps what has been sent sound exactly when it takes the length that `write`
stored; nothing mends a stream that is not. -/
theorem sound_step_iff (h : Of magicNumber payload tx s) (hstep : step s a = some s₁) :
    Sound magicNumber payload tx s₁ ↔ Sound magicNumber payload tx s ∧ TakesLength s a := by
  cases a with
  | send n =>
    simp only [AsyncWrite.step, Option.ite_none_right_eq_some, Option.some.injEq] at hstep
    obtain ⟨⟨-, -, hle, -⟩, rfl⟩ := hstep
    have hsent : s.tx.length
        = (tx ++ (frame magicNumber payload).take s.total_transferred).length := by
      have hsize : s.size = 8 + payload.length := by rw [Writing.size, h.message]
      rw [List.length_append, List.length_take, length_frame, h.sent]
      omega
    rw [← piece_of_gather_iff h n]
    simp only [Sound, List.take_add, ← List.append_assoc]
    exact ⟨fun happend => List.append_inj happend hsent, fun hboth => congrArg₂ _ hboth.1 hboth.2⟩
  | fail ec =>
    simp only [AsyncWrite.step, Option.ite_none_right_eq_some, Option.some.injEq] at hstep
    obtain ⟨-, rfl⟩ := hstep
    exact (and_iff_left trivial).symm
  | returns =>
    simp only [AsyncWrite.step, Option.ite_none_left_eq_some, Option.some.injEq] at hstep
    obtain ⟨-, rfl⟩ := hstep
    exact (and_iff_left trivial).symm
  | reuse value =>
    simp only [AsyncWrite.step, Option.ite_none_right_eq_some, Option.some.injEq] at hstep
    obtain ⟨-, rfl⟩ := hstep
    exact (and_iff_left trivial).symm

/-! ## A whole write -/

/-- Every send of the schedule takes the length that `write` stored. -/
def LengthKept (s : Writing) : List Step → Prop
  | [] => True
  | a :: steps => TakesLength s a ∧ ∀ s₁, step s a = some s₁ → LengthKept s₁ steps

theorem Of.run (h : Of magicNumber payload tx s) (hrun : run s steps = some s') :
    Of magicNumber payload tx s' := by
  induction steps generalizing s with
  | nil =>
    obtain rfl := Option.some.inj hrun
    exact h
  | cons a steps ih =>
    obtain ⟨s₁, hstep, hrun⟩ := run_cons hrun
    exact ih (h.step hstep) hrun

theorem sound_run_iff (h : Of magicNumber payload tx s) (hrun : run s steps = some s') :
    Sound magicNumber payload tx s' ↔ Sound magicNumber payload tx s ∧ LengthKept s steps := by
  induction steps generalizing s with
  | nil =>
    obtain rfl := Option.some.inj hrun
    exact (and_iff_left trivial).symm
  | cons a steps ih =>
    obtain ⟨s₁, hstep, hrun⟩ := run_cons hrun
    have hrest : (∀ s₂, step s a = some s₂ → LengthKept s₂ steps) ↔ LengthKept s₁ steps := by
      refine ⟨fun hall => hall s₁ hstep, fun hkept s₂ hstep₂ => ?_⟩
      rw [hstep, Option.some.injEq] at hstep₂
      rwa [← hstep₂]
    rw [ih (h.step hstep) hrun, sound_step_iff h hstep, LengthKept, hrest, and_assoc]

/-- A write that completes without an error has put the frame on the stream exactly when its
sends took the length that `write` stored. -/
theorem sends_frame_iff (hrun : run (start magicNumber payload tx) steps = some s)
    (hdone : s.completed = some .success) :
    s.tx = tx ++ frame magicNumber payload
      ↔ LengthKept (start magicNumber payload tx) steps := by
  have hof := of_start.run hrun
  have hall : (frame magicNumber payload).take s.total_transferred
      = frame magicNumber payload := by
    rw [hof.completed hdone, Writing.size, hof.message, ← length_frame magicNumber,
      List.take_length]
  have hstart : Sound magicNumber payload tx (start magicNumber payload tx) := by
    rw [Sound, start, List.take_zero, List.append_nil]
  have hsound := sound_run_iff of_start hrun
  rw [Sound, hall, and_iff_right hstart] at hsound
  exact hsound

/-- If the magic number and the length are sent before `write` returns, the rest may be sent
at any time. -/
theorem lengthKept_of_header_sent (hheader : 8 ≤ s.total_transferred) (steps : List Step) :
    LengthKept s steps := by
  induction steps generalizing s with
  | nil => trivial
  | cons a steps ih =>
    refine ⟨?_, fun s₁ hstep => ih ?_⟩
    · cases a with
      | send n =>
        intro i hi hfrom
        omega
      | _ => trivial
    · cases a with
      | send n =>
        simp only [AsyncWrite.step, Option.ite_none_right_eq_some, Option.some.injEq] at hstep
        obtain ⟨-, rfl⟩ := hstep
        exact Nat.le_trans hheader (Nat.le_add_right ..)
      | fail ec =>
        simp only [AsyncWrite.step, Option.ite_none_right_eq_some, Option.some.injEq] at hstep
        obtain ⟨-, rfl⟩ := hstep
        exact hheader
      | returns =>
        simp only [AsyncWrite.step, Option.ite_none_left_eq_some, Option.some.injEq] at hstep
        obtain ⟨-, rfl⟩ := hstep
        exact hheader
      | reuse value =>
        simp only [AsyncWrite.step, Option.ite_none_right_eq_some, Option.some.injEq] at hstep
        obtain ⟨-, rfl⟩ := hstep
        exact hheader

/-! ## The other mode -/

/-- A program that returns and leaves the stream at `a` alone. -/
def Aside (ids : Nat → UInt64) (a : Nat) (p : NetProg Unit) : Prop :=
  ∀ w, Prog.twp (succeeding ids)
    (fun _ w' => w'.isOpen a = w.isOpen a ∧ (w'.sessions a).tx = (w.sessions a).tx) p w

/-- The handler's callbacks do. -/
structure CallbacksAside (ids : Nat → UInt64) (th : TransportHandler) : Prop where
  onWriteHandler : ∀ x, Aside ids th.socket (invoke th.onWriteHandler x)
  onAllWrite : ∀ x, Aside ids th.socket (invoke th.onAllWrite x)

variable {ids : Nat → UInt64} {th : TransportHandler} {w : World}

/-- `write(message, Sync)` puts the frame on the stream. -/
theorem twp_write (hth : CallbacksAside ids th) (message : TransportMessage)
    (hopen : w.isOpen th.socket = true) :
    Prog.twp (succeeding ids) (fun _ w' => (w'.sessions th.socket).tx
        = (w.sessions th.socket).tx ++ frame th.magicNumber message.payload)
      (th.write message) w := by
  rw [TransportHandler.write_eq]
  refine Prog.twp_bind (Prog.twp_mono (hth.onWriteHandler _ w) ?_)
  rintro _ w₁ ⟨hopen₁, htx₁⟩
  refine Prog.twp_tryCatch (Prog.twp_bind ?_)
  refine Prog.twp_mono (Replies.twp_asio_write _ 0 _ (Nat.le_refl _) (hopen₁.trans hopen)) ?_
  rintro ec w₂ ⟨rfl, rfl⟩
  refine Prog.twp_mono (hth.onAllWrite (.success, message) _) ?_
  rintro _ w₃ ⟨-, htx₃⟩
  rw [htx₃, World.modify_sessions_self, htx₁]

/-- **The two modes of `write`**: for every message, magic number and schedule of an
asynchronous write that completes, it puts on the stream what the synchronous one does,
exactly when every send that takes bytes of `json_len` finds there what `write` stored. -/
theorem writes_agree_iff (hth : CallbacksAside ids th) (message : TransportMessage)
    (hopen : w.isOpen th.socket = true)
    (hrun : run (start th.magicNumber message.payload (w.sessions th.socket).tx) steps = some s)
    (hdone : s.completed = some .success) :
    (∀ out w', Prog.Runs (succeeding ids) (th.write message) w out w' →
        s.tx = (w'.sessions th.socket).tx)
      ↔ LengthKept (start th.magicNumber message.payload (w.sessions th.socket).tx) steps := by
  rw [← sends_frame_iff hrun hdone]
  obtain ⟨⟨out, w', hsync⟩, hall⟩ := Prog.runs_of_twp (twp_write hth message hopen)
  constructor
  · intro hagree
    obtain ⟨-, -, htx⟩ := hall out w' hsync
    exact (hagree out w' hsync).trans htx
  · intro htx out w' hsync
    obtain ⟨-, -, htx'⟩ := hall out w' hsync
    exact htx.trans htx'.symm

/-- A handler without callbacks, a message of one byte, and the socket open. -/
def plainHandler : TransportHandler := ⟨0, 7, none, none, none, none, none⟩

def oneByte : TransportMessage := ⟨"raw", .Request, [0x6d]⟩

def openSocket : World := World.init.modify 0 (fun o => { o with isOpen := true })

theorem plainHandler_aside : CallbacksAside (fun _ => 0) plainHandler where
  onWriteHandler := fun _ _ => ⟨rfl, rfl⟩
  onAllWrite := fun _ _ => ⟨rfl, rfl⟩

/-- On an idle socket the whole frame is sent inside the call. -/
theorem writes_agree_on_idle_socket :
    ∃ s, run (start 7 [0x6d] []) [.send 9, .returns, .reuse 0xFFFFFFFF] = some s ∧
      ∀ out w', Prog.Runs (succeeding (fun _ => 0)) (plainHandler.write oneByte) openSocket out w' →
        s.tx = (w'.sessions 0).tx := by
  have hopen : openSocket.isOpen plainHandler.socket = true := rfl
  have hrun : run (start plainHandler.magicNumber oneByte.payload
      (openSocket.sessions plainHandler.socket).tx) [.send 9, .returns, .reuse 0xFFFFFFFF]
      = some ⟨⟨7, 0xFFFFFFFF, [0x6d]⟩, true, 9, frame 7 [0x6d], some .success⟩ := rfl
  refine ⟨_, hrun, (writes_agree_iff plainHandler_aside oneByte hopen hrun rfl).mpr ?_⟩
  refine ⟨fun i _ _ _ => .inl rfl, fun s₁ hstep => ?_⟩
  obtain rfl := Option.some.inj hstep
  exact lengthKept_of_header_sent (by decide) _

/-- **A stale length**: `write` returns before the first send, its stack is used again, and the
frame announces 2 ^ 32 - 1 bytes instead of one. -/
theorem writes_differ_after_return :
    ∃ s, run (start 7 [0x6d] []) [.returns, .reuse 0xFFFFFFFF, .send 9] = some s ∧
      s.completed = some .success ∧ s.tx = [7, 0, 0, 0, 255, 255, 255, 255, 0x6d] ∧
      (∃ out w', Prog.Runs (succeeding (fun _ => 0)) (plainHandler.write oneByte) openSocket
        out w') ∧
      ∀ out w', Prog.Runs (succeeding (fun _ => 0)) (plainHandler.write oneByte) openSocket out w' →
        s.tx ≠ (w'.sessions 0).tx := by
  have hopen : openSocket.isOpen plainHandler.socket = true := rfl
  obtain ⟨hsync, hall⟩ := Prog.runs_of_twp (twp_write plainHandler_aside oneByte hopen)
  refine ⟨_, rfl, rfl, rfl, hsync, fun out w' hrun hagree => ?_⟩
  obtain ⟨-, -, htx⟩ := hall out w' hrun
  have hframe : [7, 0, 0, 0, 255, 255, 255, 255, 0x6d] = [] ++ frame 7 [0x6d] := hagree.trans htx
  exact absurd hframe (by decide)

end AsyncWrite

end NetworkApplication
