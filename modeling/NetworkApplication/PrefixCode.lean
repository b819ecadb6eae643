/-
Codes that are read back from the front.

A code gives every element of a type a word. Words are written one after the other, with nothing
between them, and a reader takes them off the front. It finds out where the first one ends if no
word is the beginning of another in whatever stands behind it (`ReadBack`); then a stream that is
the beginning of a concatenation of words consists of the same words, as far as it goes.
-/
import Mathlib.Data.List.Infix

set_option autoImplicit false

namespace NetworkApplication.PrefixCode

variable {α β : Type}

/-- The words of the elements of `dom` are not empty, and the first one of a stream is known. -/
structure ReadBack (code : α → List β) (dom : α → Prop) : Prop where
  ne_nil : ∀ x, dom x → code x ≠ []
  first : ∀ x y s t, dom x → dom y → code x ++ s = code y ++ t → x = y

/-- The words of a list of elements, one after the other. -/
def encode (code : α → List β) (xs : List α) : List β := (xs.map code).flatten

variable {code : α → List β} {dom : α → Prop} {xs ys : List α}

@[simp] theorem encode_nil : encode code [] = [] := rfl

@[simp] theorem encode_cons (x : α) (xs : List α) :
    encode code (x :: xs) = code x ++ encode code xs := rfl

theorem encode_append (xs ys : List α) :
    encode code (xs ++ ys) = encode code xs ++ encode code ys := by
  simp only [encode, List.map_append, List.flatten_append]

theorem encode_concat (xs : List α) (x : α) : encode code (xs ++ [x]) = encode code xs ++ code x := by
  rw [encode_append, encode_cons, encode_nil, List.append_nil]

/-- **Unique decoding.** If the words of one list are the beginning of the words of another, then
the one list is the beginning of the other. The induction is on the shorter one. -/
theorem prefix_of_encode (h : ReadBack code dom) (hxs : ∀ x ∈ xs, dom x) (hys : ∀ y ∈ ys, dom y)
    (hbegins : encode code xs <+: encode code ys) : xs <+: ys := by
  induction xs generalizing ys with
  | nil => exact List.nil_prefix
  | cons x xs ih =>
    obtain ⟨hx, hxs⟩ := List.forall_mem_cons.mp hxs
    obtain ⟨rest, hrest⟩ := hbegins
    rw [encode_cons, List.append_assoc] at hrest
    cases ys with
    | nil => exact absurd (List.append_eq_nil_iff.mp hrest).1 (h.ne_nil x hx)
    | cons y ys =>
      obtain ⟨hy, hys'⟩ := List.forall_mem_cons.mp hys
      obtain rfl := h.first x y _ _ hx hy hrest
      rw [encode_cons, List.append_cancel_left_eq] at hrest
      exact List.cons_prefix_cons.mpr ⟨rfl, ih hxs hys' ⟨rest, hrest⟩⟩

end NetworkApplication.PrefixCode
