/-
`core/utils`: error codes and `ErrorHandler::check_error`.

An `error_code` is a number in a category. The constants are the ones
`check_error` names: four of the system category (the `errno` values of Linux,
which is what the build targets), `eof` of asio's misc category and `syntax` of
boost::json. `operation_aborted` is what asio reports for an operation whose
socket was closed under it.

`check_error` logs and classifies. The log lines are left out; what the callers
branch on is the classification, and the order of the tests is the source's.
-/
import Mathlib.Logic.Basic

set_option autoImplicit false

namespace NetworkApplication

/-- The category an error code belongs to. -/
inductive Category where
  | system
  | misc
  | json
  | other (n : Nat)
  deriving DecidableEq

/-- `boost::system::error_code`. -/
structure ErrorCode where
  value : Int
  category : Category
  deriving DecidableEq

namespace ErrorCode

/-- A default-constructed `error_code`: no error. -/
def success : ErrorCode := ⟨0, .system⟩

/-- `boost::asio::error::address_in_use`. -/
def address_in_use : ErrorCode := ⟨98, .system⟩

/-- `boost::asio::error::bad_descriptor`. -/
def bad_descriptor : ErrorCode := ⟨9, .system⟩

/-- `boost::asio::error::connection_refused`. -/
def connection_refused : ErrorCode := ⟨111, .system⟩

/-- `boost::asio::error::operation_aborted`. -/
def operation_aborted : ErrorCode := ⟨125, .system⟩

/-- `boost::asio::error::eof`. -/
def eof : ErrorCode := ⟨2, .misc⟩

/-- `boost::json::error::syntax`. -/
def syntax_ : ErrorCode := ⟨1, .json⟩

/-- `static_cast<bool>(ec)`: the code reports an error. -/
def failed (ec : ErrorCode) : Bool := ec.value != 0

@[simp] theorem failed_success : success.failed = false := rfl

/-- What a read or a write on a socket that has been closed reports: the peer's
half was shut down first (`eof`), the operation was pending (`operation_aborted`),
or the descriptor is already gone (`bad_descriptor`). -/
def ofClosed (ec : ErrorCode) : Bool :=
  ec == eof || ec == operation_aborted || ec == bad_descriptor

end ErrorCode

open ErrorCode

/-- `ErrorHandler::check_error(const error_code&, ...)`: true for the errors that
end a connection. -/
def check_error (ec : ErrorCode) : Bool :=
  if !ec.failed then false
  else if ec = address_in_use then false
  else if ec = syntax_ then false
  else if ec = eof then true
  else if ec = bad_descriptor then true
  else if ec = connection_refused then false
  else true

@[simp] theorem check_error_success : check_error success = false := rfl

theorem check_error_of_not_failed {ec : ErrorCode} (h : ec.failed = false) :
    check_error ec = false := by
  simp [check_error, h]

/-- A critical error is an error. -/
theorem failed_of_check_error {ec : ErrorCode} (h : check_error ec = true) :
    ec.failed = true := by
  cases hf : ec.failed with
  | true => rfl
  | false =>
    rw [check_error_of_not_failed hf] at h
    cases h

/-- Every error a closed socket reports is critical. -/
theorem check_error_of_ofClosed {ec : ErrorCode} (h : ec.ofClosed = true) :
    check_error ec = true := by
  simp only [ofClosed, Bool.or_eq_true, beq_iff_eq] at h
  rcases h with (rfl | rfl) | rfl <;> rfl

/-- The errors that are reported and otherwise ignored, in full: an error code is
not critical exactly when it is one of these. -/
theorem check_error_eq_false_iff (ec : ErrorCode) :
    check_error ec = false
      ↔ ec.failed = false ∨ ec = address_in_use ∨ ec = syntax_ ∨ ec = connection_refused := by
  constructor
  · intro h
    unfold check_error at h
    split at h
    · next hf => exact .inl (by simpa using hf)
    · split at h
      · next ha => exact .inr (.inl ha)
      · split at h
        · next hs => exact .inr (.inr (.inl hs))
        · split at h
          · cases h
          · split at h
            · cases h
            · split at h
              · next hc => exact .inr (.inr (.inr hc))
              · cases h
  · rintro (hf | rfl | rfl | rfl)
    · exact check_error_of_not_failed hf
    · rfl
    · rfl
    · rfl

end NetworkApplication
