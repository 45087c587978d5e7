/-
Module: FastCgi.Spec.Teardown
Layer: Spec
Purpose: When a coroutine of cocgi is to close its connection, in terms of what
  the reads brought and of the response that was sent, and what it means that
  it closes the descriptor then, only then and as its last operation.
Trusted boundary: human-reviewed spec
Main exports: Cocgi.TearsDown, Cocgi.ExactTeardown, Cocgi.FreshEndOfFile
-/
import FastCgi.Library.History
import FastCgi.Spec.Handling
import FastCgi.Spec.KeepAlive

namespace FastCgi

namespace Cocgi

open Library (AtEach streak)

variable {doRequest : DoRequest Socket}

/-- The read found no data. -/
def Turn.wouldBlock (turn : Turn doRequest) : Bool := turn.result = .failed eagain

/-- The data completed a request that does not keep the connection, and its
response was written to the end. -/
def Turn.EndsResponse (turn : Turn doRequest) : Prop :=
  ∃ data, turn.result = .received data ∧
    (turn.codec.view.receive data).request.ends = true ∧
    written (eventsBetween turn.world turn.read.world) =
      built (eventsBetween turn.world turn.read.world)

/-- A turn after which the connection is to be closed: end of file, a read
error other than EAGAIN, the end of the last response, or the sixty-first
EAGAIN in a row. -/
def TearsDown (past : List (Turn doRequest)) (turn : Turn doRequest) : Prop :=
  turn.result = .endOfFile ∨ (∃ errno, errno ≠ eagain ∧ turn.result = .failed errno) ∨
    turn.EndsResponse ∨ 61 ≤ streak Turn.wouldBlock (past ++ [turn])

/-- The descriptor is closed after the first turn that asks for it, which is
the end of its operations, and never without such a turn. -/
def ExactTeardown (turns : List (Turn doRequest)) (operations : List Operation) : Prop :=
  AtEach (fun past turn => TearsDown past turn →
      operations = (past ++ [turn]).flatMap Turn.operations ++ [.close]) turns ∧
    (AtEach (fun past turn => ¬ TearsDown past turn) turns → .close ∉ operations)

/-- When the end of file is read, `errno` is not EAGAIN from an earlier call,
unless sixty reads in a row have just found no data. -/
def FreshEndOfFile (turns : List (Turn doRequest)) : Prop :=
  AtEach (fun past turn => turn.result = .endOfFile →
    turn.errno ≠ eagain ∨ 60 ≤ streak Turn.wouldBlock past) turns

end Cocgi

end FastCgi
