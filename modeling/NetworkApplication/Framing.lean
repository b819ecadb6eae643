/-
The wire format: magic number, payload length, payload.

The two numbers are four bytes each, written as they lie in memory, which is
little-endian on the machines the build targets. The length member has 32 bits
whatever the payload is, so a longer payload does not say how long it is; every
round trip below asks for a payload shorter than `2 ^ 32` bytes.

`frame` is what the sender puts on the stream. `takeFrame` is the receiver's half
stated as a function of the stream: it is not a function of the source, it is what
`read_sync` is compared with in `SyncRead.lean`.
-/
import Mathlib.Algebra.Group.Nat.Defs

set_option autoImplicit false

namespace NetworkApplication

/-! ## The four bytes of a `uint32_t` -/

/-- The bytes of a `uint32_t` in memory. -/
def bytes32 (n : UInt32) : List UInt8 :=
  [UInt8.ofNat n.toNat, UInt8.ofNat (n.toNat / 2 ^ 8), UInt8.ofNat (n.toNat / 2 ^ 16),
   UInt8.ofNat (n.toNat / 2 ^ 24)]

/-- The `uint32_t` that four bytes in memory are. -/
def uint32_of_bytes : List UInt8 → UInt32
  | [b₀, b₁, b₂, b₃] =>
    UInt32.ofNat (b₀.toNat + 2 ^ 8 * b₁.toNat + 2 ^ 16 * b₂.toNat + 2 ^ 24 * b₃.toNat)
  | _ => 0

@[simp] theorem length_bytes32 (n : UInt32) : (bytes32 n).length = 4 := rfl

/-- The bytes of a number are read back as that number. -/
@[simp] theorem uint32_of_bytes32 (n : UInt32) : uint32_of_bytes (bytes32 n) = n := by
  have hn : n.toNat < 2 ^ 32 := n.toNat_lt
  apply UInt32.toNat_inj.mp
  simp only [bytes32, uint32_of_bytes, UInt8.toNat_ofNat', UInt32.toNat_ofNat']
  omega

/-- Any four bytes are the bytes of the number they are read as. -/
theorem bytes32_of_bytes (l : List UInt8) (hl : l.length = 4) :
    bytes32 (uint32_of_bytes l) = l := by
  match l, hl with
  | [b₀, b₁, b₂, b₃], _ =>
    have h₀ := b₀.toNat_lt
    have h₁ := b₁.toNat_lt
    have h₂ := b₂.toNat_lt
    have h₃ := b₃.toNat_lt
    simp only [uint32_of_bytes, bytes32, List.cons.injEq, and_true]
    refine ⟨?_, ?_, ?_, ?_⟩ <;>
      · apply UInt8.toNat_inj.mp
        simp only [UInt8.toNat_ofNat', UInt32.toNat_ofNat']
        omega

/-! ## One frame -/

/-- What `write` puts on the socket. -/
def frame (magicNumber : UInt32) (payload : List UInt8) : List UInt8 :=
  bytes32 magicNumber ++ bytes32 (UInt32.ofNat payload.length) ++ payload

@[simp] theorem length_frame (magicNumber : UInt32) (payload : List UInt8) :
    (frame magicNumber payload).length = 8 + payload.length := by
  simp only [frame, List.length_append, length_bytes32]

/-- The magic number a stream starts with. -/
def magicOf (stream : List UInt8) : UInt32 := uint32_of_bytes (stream.take 4)

/-- The payload length a stream announces. -/
def lengthOf (stream : List UInt8) : Nat := (uint32_of_bytes ((stream.drop 4).take 4)).toNat

/-- The first frame of a stream, if the stream starts with a complete one: its
payload, and the stream behind it. -/
def takeFrame (magicNumber : UInt32) (stream : List UInt8) :
    Option (List UInt8 × List UInt8) :=
  if 8 ≤ stream.length ∧ magicOf stream = magicNumber ∧
      lengthOf stream ≤ (stream.drop 8).length then
    some ((stream.drop 8).take (lengthOf stream), (stream.drop 8).drop (lengthOf stream))
  else none

theorem drop_append_four (a b : List UInt8) (ha : a.length = 4) : (a ++ b).drop 4 = b := by
  rw [← ha, List.drop_left]

theorem take_append_four (a b : List UInt8) (ha : a.length = 4) : (a ++ b).take 4 = a := by
  rw [← ha, List.take_left]

/-- A stream of at least eight bytes is two numbers and the rest. -/
theorem eq_header_append (stream : List UInt8) (h : 8 ≤ stream.length) :
    stream = bytes32 (magicOf stream)
      ++ (bytes32 (uint32_of_bytes ((stream.drop 4).take 4)) ++ stream.drop 8) := by
  have hmagic : (stream.take 4).length = 4 := by rw [List.length_take]; omega
  have hlen : ((stream.drop 4).take 4).length = 4 := by
    rw [List.length_take, List.length_drop]
    omega
  rw [magicOf, bytes32_of_bytes _ hmagic, bytes32_of_bytes _ hlen]
  have hrest : (stream.drop 4).take 4 ++ stream.drop 8 = stream.drop 4 := by
    have := List.take_append_drop 4 (stream.drop 4)
    rwa [List.drop_drop] at this
  rw [hrest, List.take_append_drop]

/-- **What a complete frame is**: the right magic, a length, that many bytes. -/
theorem takeFrame_eq_some_iff (magicNumber : UInt32) (stream payload rest : List UInt8) :
    takeFrame magicNumber stream = some (payload, rest)
      ↔ ∃ json_len : UInt32, payload.length = json_len.toNat ∧
          stream = bytes32 magicNumber ++ (bytes32 json_len ++ (payload ++ rest)) := by
  unfold takeFrame
  constructor
  · intro h
    split at h
    · next hc =>
      obtain ⟨h8, hmagic, hlen⟩ := hc
      simp only [Option.some.injEq, Prod.mk.injEq] at h
      refine ⟨uint32_of_bytes ((stream.drop 4).take 4), ?_, ?_⟩
      · rw [← h.1, List.length_take, ← lengthOf]
        omega
      · rw [← h.1, ← h.2, List.take_append_drop, ← hmagic]
        exact eq_header_append stream h8
    · cases h
  · rintro ⟨json_len, hlen, rfl⟩
    have hdrop4 := drop_append_four (bytes32 magicNumber) (bytes32 json_len ++ (payload ++ rest)) rfl
    have hdrop8 : (bytes32 magicNumber ++ (bytes32 json_len ++ (payload ++ rest))).drop 8
        = payload ++ rest := by
      rw [show 8 = 4 + 4 from rfl, ← List.drop_drop, hdrop4, drop_append_four _ _ rfl]
    have hmagic : magicOf (bytes32 magicNumber ++ (bytes32 json_len ++ (payload ++ rest)))
        = magicNumber := by
      rw [magicOf, take_append_four _ _ rfl, uint32_of_bytes32]
    have hlength : lengthOf (bytes32 magicNumber ++ (bytes32 json_len ++ (payload ++ rest)))
        = payload.length := by
      rw [lengthOf, hdrop4, take_append_four _ _ rfl, uint32_of_bytes32, hlen]
    rw [hdrop8, hmagic, hlength, List.take_left, List.drop_left, if_pos]
    refine ⟨?_, rfl, ?_⟩
    · simp only [List.length_append, length_bytes32]
      omega
    · rw [List.length_append]
      omega

/-- **A frame that is written is the frame that is read.** -/
theorem takeFrame_frame (magicNumber : UInt32) (payload rest : List UInt8)
    (h : payload.length < 2 ^ 32) :
    takeFrame magicNumber (frame magicNumber payload ++ rest) = some (payload, rest) := by
  rw [takeFrame_eq_some_iff]
  refine ⟨UInt32.ofNat payload.length, ?_, ?_⟩
  · rw [UInt32.toNat_ofNat']
    omega
  · simp only [frame, List.append_assoc]

/-! ## Several frames -/

/-- The payloads of the first `n` frames of a stream, and the stream behind them. -/
def takeFrames (magicNumber : UInt32) : Nat → List UInt8 →
    Option (List (List UInt8) × List UInt8)
  | 0, stream => some ([], stream)
  | n + 1, stream => do
    let (payload, rest) ← takeFrame magicNumber stream
    let (payloads, rest) ← takeFrames magicNumber n rest
    return (payload :: payloads, rest)

/-- A concatenation of frames is read back frame by frame. -/
theorem takeFrames_frames (magicNumber : UInt32) (payloads : List (List UInt8))
    (rest : List UInt8) (h : ∀ payload ∈ payloads, payload.length < 2 ^ 32) :
    takeFrames magicNumber payloads.length ((payloads.map (frame magicNumber)).flatten ++ rest)
      = some (payloads, rest) := by
  induction payloads with
  | nil => rfl
  | cons payload payloads ih =>
    have hfirst := takeFrame_frame magicNumber payload
      ((payloads.map (frame magicNumber)).flatten ++ rest) (h payload (List.mem_cons_self ..))
    have hrest := ih (fun p hp => h p (List.mem_cons_of_mem _ hp))
    simp only [List.length_cons, List.map_cons, List.flatten_cons, List.append_assoc, takeFrames,
      hfirst, hrest, bind, Option.bind, pure]

end NetworkApplication
