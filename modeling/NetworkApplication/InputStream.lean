/-
`std::istream` and `std::getline`.

A stream is what it still has to give, and two flags. `std::getline` into a string takes
characters up to a newline, which it drops, or to the end of the file. At the end it sets
`eofbit`, and `failbit` if there was nothing left to take. A stream with a flag set gives nothing
any more, and then the string is not even cleared: it is what it was.

So the lines of an input come one after the other, and after the last of them the string is empty
or, if that line had no newline, the line itself for ever.
-/
import Mathlib.Data.List.TakeWhile

set_option autoImplicit false

namespace NetworkApplication

/-- `std::istream`. -/
structure InputStream where
  rest : List UInt8
  eofbit : Bool
  failbit : Bool
  deriving DecidableEq

namespace InputStream

/-- A stream in front of its input. -/
def ofInput (input : List UInt8) : InputStream := ⟨input, false, false⟩

/-- `good()`. -/
def good (is : InputStream) : Bool := !is.eofbit && !is.failbit

/-- `std::getline(is, str)`: the stream and the string that are left. -/
def getline (is : InputStream) (str : List UInt8) : InputStream × List UInt8 :=
  if is.good then
    match is.rest.dropWhile (· ≠ 10) with
    | _ :: rest => ({ is with rest := rest }, is.rest.takeWhile (· ≠ 10))
    | [] => (⟨[], true, is.rest.isEmpty⟩, is.rest.takeWhile (· ≠ 10))
  else ({ is with failbit := true }, str)

/-- The lines of an input; the last one need not end in a newline. -/
def lines : List UInt8 → List (List UInt8)
  | [] => []
  | b :: rest =>
    if b = 10 then [] :: lines rest
    else match lines rest with
      | [] => [[b]]
      | line :: more => (b :: line) :: more

/-- The lines that a stream still gives. -/
def remaining (is : InputStream) : List (List UInt8) := if is.good then lines is.rest else []

@[simp] theorem remaining_ofInput (input : List UInt8) : (ofInput input).remaining = lines input := rfl

/-- The first line goes to the first newline. -/
theorem lines_of_ne_nil {input : List UInt8} (h : input ≠ []) :
    lines input = input.takeWhile (· ≠ 10) :: lines (input.dropWhile (· ≠ 10)).tail := by
  induction input with
  | nil => exact absurd rfl h
  | cons b rest ih =>
    by_cases hb : b = 10
    · subst hb
      simp [lines]
    · rw [lines, if_neg hb, List.takeWhile_cons_of_pos (by simpa using hb),
        List.dropWhile_cons_of_pos (by simpa using hb)]
      cases rest with
      | nil => rfl
      | cons b' rest => rw [ih (List.cons_ne_nil _ _)]

/-- While there are lines the next one is read, whatever was in the string. -/
theorem getline_of_remaining {is : InputStream} {line : List UInt8} {more : List (List UInt8)}
    (h : is.remaining = line :: more) (str : List UInt8) :
    (is.getline str).2 = line ∧ (is.getline str).1.remaining = more := by
  unfold remaining at h
  split at h
  · next hgood =>
    have hne : is.rest ≠ [] := by
      intro hrest
      rw [hrest] at h
      cases h
    rw [lines_of_ne_nil hne, List.cons.injEq] at h
    obtain ⟨rfl, rfl⟩ := h
    unfold getline
    rw [if_pos hgood]
    cases hdrop : is.rest.dropWhile (· ≠ 10) with
    | nil => exact ⟨rfl, rfl⟩
    | cons b rest =>
      refine ⟨rfl, ?_⟩
      have hgood' : ({ is with rest := rest } : InputStream).good = true := hgood
      rw [remaining, if_pos hgood']
      rfl
  · cases h

/-- The stream has come to its end. -/
def Exhausted (is : InputStream) : Prop := is.good = false

/-- After the last line a read gives nothing, and leaves the string empty or alone. -/
theorem getline_of_no_remaining {is : InputStream} (h : is.remaining = []) (str : List UInt8) :
    (is.getline str).2 = (if is.good then [] else str) ∧ Exhausted (is.getline str).1 := by
  unfold remaining at h
  split at h
  · next hgood =>
    have hrest : is.rest = [] := by
      by_contra hne
      rw [lines_of_ne_nil hne] at h
      cases h
    unfold getline
    rw [if_pos hgood, hrest, if_pos hgood]
    exact ⟨rfl, rfl⟩
  · next hgood =>
    unfold getline
    rw [if_neg hgood, if_neg hgood]
    exact ⟨rfl, by simp [Exhausted, good]⟩

theorem Exhausted.remaining {is : InputStream} (h : Exhausted is) : is.remaining = [] := by
  rw [InputStream.remaining, h]
  rfl

end InputStream

end NetworkApplication
