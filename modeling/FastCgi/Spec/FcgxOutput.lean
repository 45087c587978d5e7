/-
Module: FastCgi.Spec.FcgxOutput
Layer: Spec
Purpose: What the output of one request amounts to.  The calls of an
  application put bytes into two streams until it closes them; the answer on
  the wire is a sequence of records in which each stream is cut into non-empty
  pieces and ended, and the END_REQUEST record comes last.
Trusted boundary: human-reviewed spec
Main exports: Fcgx.streamRecord, Fcgx.endRecord, Fcgx.Sent, Fcgx.Sent.step,
  Fcgx.Sent.run, Fcgx.StreamFramed, Fcgx.Answers
-/
import FastCgi.Model.FcgxOutput
import FastCgi.Spec.WellFormed

namespace FastCgi

namespace Fcgx

theorem take_content_fits (content : Bytes) :
    (content.take fcgiMaxLength).length < 2 ^ 16 := by
  rw [List.length_take, fcgiMaxLength]
  omega

theorem zeros_padding_fits (content : Bytes) :
    (List.replicate ((8 - content.length % 8) % 8) (0 : UInt8)).length < 2 ^ 8 := by
  rw [List.length_replicate]
  omega

/-- A record of a stream, padded with zeros to a multiple of eight bytes.  A
content that does not fit is cut off. -/
def streamRecord (type : UInt8) (requestId : Nat) (content : Bytes) : Record where
  version := 1
  type := type
  requestIdB1 := UInt8.ofNat (requestId / 2 ^ 8)
  requestIdB0 := UInt8.ofNat requestId
  reserved := 0
  contentData := content.take fcgiMaxLength
  paddingData := List.replicate ((8 - content.length % 8) % 8) 0
  content_fits := take_content_fits content
  padding_fits := zeros_padding_fits content

/-- The body of an END_REQUEST record: the status, big-endian, and five zero
bytes. -/
def endBody (appStatus : UInt32) : Bytes :=
  [UInt8.ofNat (appStatus.toNat / 2 ^ 24), UInt8.ofNat (appStatus.toNat / 2 ^ 16),
    UInt8.ofNat (appStatus.toNat / 2 ^ 8), UInt8.ofNat appStatus.toNat, 0, 0, 0, 0]

theorem endBody_fits (appStatus : UInt32) : (endBody appStatus).length < 2 ^ 16 :=
  show 8 < 2 ^ 16 by decide

/-- The END_REQUEST record of a complete request. -/
def endRecord (requestId : Nat) (appStatus : UInt32) : Record where
  version := 1
  type := FcgiType.kFcgiEndRequest.code
  requestIdB1 := UInt8.ofNat (requestId / 2 ^ 8)
  requestIdB0 := UInt8.ofNat requestId
  reserved := 0
  contentData := endBody appStatus
  paddingData := []
  content_fits := endBody_fits appStatus
  padding_fits := nil_padding_fits

/-- Every write is taken, in one piece or in several. -/
def Ipc.Accepting (ipc : Ipc) : Prop := ∀ k, ∃ more, ipc.answer k = .ok more

/-- What the calls of an application amount to: the bytes put into each stream
before it was closed, and the exit status that was set last before the second
close. -/
structure Sent where
  content : StreamName → Bytes
  closed : StreamName → Bool
  appStatus : UInt32

namespace Sent

/-- Nothing put yet. -/
def start (appStatus : UInt32) : Sent where
  content := fun _ => []
  closed := fun _ => false
  appStatus := appStatus

/-- Both streams are closed. -/
def finished (sent : Sent) : Bool := sent.closed .out && sent.closed .err

/-- Put bytes into a stream; a closed one takes none. -/
def put (sent : Sent) (name : StreamName) (str : Bytes) : Sent :=
  if sent.closed name then sent
  else { sent with content := Function.update sent.content name (sent.content name ++ str) }

/-- The effect of one call. -/
def step (sent : Sent) : OutputOp → Sent
  | .putStr name str => sent.put name str
  | .putChar name c => sent.put name [c]
  | .fFlush _ => sent
  | .fClose name => { sent with closed := Function.update sent.closed name true }
  | .setExitStatus status => if sent.finished then sent else { sent with appStatus := status }

/-- Whether a call succeeds: a closed stream takes no byte. -/
def succeeds (sent : Sent) : OutputOp → Bool
  | .putStr name str => !sent.closed name || str.isEmpty
  | .putChar name _ => !sent.closed name
  | .fFlush _ => true
  | .fClose _ => true
  | .setExitStatus _ => true

/-- The effect of a sequence of calls. -/
def run (sent : Sent) (ops : List OutputOp) : Sent := ops.foldl step sent

/-- Whether each call of a sequence succeeds. -/
def results : Sent → List OutputOp → List Bool
  | _, [] => []
  | sent, op :: ops => sent.succeeds op :: results (sent.step op) ops

end Sent

/-- The contents of a stream's records: pieces that are not empty and carry
the content, then an empty one if the stream was ended. -/
structure StreamFramed (contents : List Bytes) (content : Bytes) (ended : Bool)
    (pieces : List Bytes) : Prop where
  shape : contents = pieces ++ if ended then [[]] else []
  nonempty : ∀ piece ∈ pieces, piece ≠ []
  carried : pieces.flatten = content

/-- The records of a complete answer to a request. -/
structure Answers (requestId : Nat) (sent : Sent) (records : List Record) : Prop where
  /-- Every record has the id of the request. -/
  addressed : ∀ r ∈ records, r.version = 1 ∧ r.requestId = requestId
  /-- There are records of three types only. -/
  types : ∀ r ∈ records, r.isOf .kFcgiStdout = true ∨ r.isOf .kFcgiStderr = true ∨
    r.isOf .kFcgiEndRequest = true
  /-- Standard output is cut into pieces and ended. -/
  out : ∃ pieces, StreamFramed (contentsOf .kFcgiStdout records) (sent.content .out) true pieces
  /-- So is the error stream, unless nothing was put into it. -/
  err : ∃ pieces, StreamFramed (contentsOf .kFcgiStderr records) (sent.content .err)
    (decide (sent.content .err ≠ [])) pieces
  /-- The last record, and no other, ends the request. -/
  ending : ∃ earlier, records = earlier ++ [endRecord requestId sent.appStatus] ∧
    ∀ r ∈ earlier, r.isOf .kFcgiEndRequest = false
  /-- Every record takes a multiple of eight bytes. -/
  aligned : ∀ r ∈ records, 8 ∣ r.encode.length

end Fcgx

end FastCgi
