/-
`core/request_response_handler`: the reply to a message.

The data of a reply are random: the sizes and numbers are drawn between the bounds
the source names, and every draw is a choice of the environment. The logging is
left out, and with it `createRequest`, which does nothing else but construct a
`Message`.
-/
import NetworkApplication.Session

set_option autoImplicit false

namespace NetworkApplication

open NetworkApplication.Program

namespace RequestResponseHandler

/-- The reply to a message that cannot be answered. -/
def unknownReply : Message := .base "unknown" .Error

/-- The loop that fills `fake_data`. -/
def drawSamples : Nat → NetProg (List (FloatBits × FloatBits))
  | 0 => pure []
  | n + 1 => do
    let re ← call .uniform_real
    let im ← call .uniform_real
    let rest ← drawSamples n
    return (re, im) :: rest

/-- `createResponse`. -/
def createResponse (message : Option Message) : NetProg Message :=
  match message with
  | none => pure unknownReply
  | some m =>
    if m.transaction = .Response then pure unknownReply
    else if m.type = "signal" then do
      let N_number ← call (.uniform_int 5 20)
      let fake_data ← drawSamples (Int32.toInt N_number).toNat
      let freq ← call (.uniform_int 3000 10000)
      return .SignalMessage "signal" .Response (some freq) fake_data
    else if m.type = "information" then do
      let n ← call (.uniform_int 5 20)
      return .InformationMessage "information" .Response (some n)
    else pure unknownReply

end RequestResponseHandler

end NetworkApplication
