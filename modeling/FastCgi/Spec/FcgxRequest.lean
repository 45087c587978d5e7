/-
Module: FastCgi.Spec.FcgxRequest
Layer: Spec
Purpose: What the client of an input stream of libfcgi gets of a sequence of
  records, record by record: the content that reaches it, the replies that go
  back, and how the stream ends.  Two habits of `FillBuffProc` are visible here:
  the content of a management record reaches the client, and an empty record of
  another request makes it lose the content of the next record.
Trusted boundary: human-reviewed spec
Main exports: Fcgx.deliver, Fcgx.envEntry
-/
import FastCgi.Spec.FcgxInput
import FastCgi.Spec.Wire

namespace FastCgi

namespace Fcgx

theorem eight_fits : 8 < 2 ^ 16 := by decide

/-- The reply to a management record that is not known. -/
def unknownTypeRecord (type : UInt8) : Record where
  version := 1
  type := fcgiUnknownType
  requestIdB1 := 0
  requestIdB0 := 0
  reserved := 0
  contentData := [type, 0, 0, 0, 0, 0, 0, 0]
  paddingData := []
  content_fits := eight_fits
  padding_fits := nil_padding_fits

/-- The reply to a second request on a connection. -/
def cantMpxRecord (requestId : Nat) : Record where
  version := 1
  type := FcgiType.kFcgiEndRequest.code
  requestIdB1 := UInt8.ofNat (requestId / 2 ^ 8)
  requestIdB0 := UInt8.ofNat requestId
  reserved := 0
  contentData := [0, 0, 0, 0, fcgiCantMpxConn, 0, 0, 0]
  paddingData := []
  content_fits := eight_fits
  padding_fits := nil_padding_fits

/-- What one record does to a stream. -/
inductive Delivered where
  /-- Content for the client, a reply, and whether content is to be skipped from
  now on. -/
  | passes (content : Bytes) (replies : List Record) (skip : Bool)
  | ends (errno : Int)
deriving DecidableEq

/-- The delivery of a record to a stream of this type of a request that has
begun.  GET_VALUES records are not described. -/
def deliverRecord (type : UInt8) (requestId : Nat) (skip : Bool) (r : Record) : Delivered :=
  if r.version ≠ 1 then .ends fcgxUnsupportedVersion
  else if r.type = FcgiType.kFcgiBeginRequest.code then
    if r.requestId = 0 ∨ r.contentData.length ≠ 8 then .ends fcgxProtocolError
    else .passes [] [cantMpxRecord r.requestId] false
  else if r.requestId = 0 then
    .passes (if skip then [] else r.contentData) [unknownTypeRecord r.type]
      (skip && r.contentData.isEmpty)
  else if r.requestId ≠ requestId then .passes [] [] r.contentData.isEmpty
  else if r.type ≠ type then .ends fcgxProtocolError
  else if r.contentData = [] then .ends 0
  else .passes (if skip then [] else r.contentData) [] false

/-- What records that all pass do to a stream. -/
structure Delivery where
  content : Bytes
  replies : List Record
  skip : Bool
deriving DecidableEq

/-- None of the records may end the stream. -/
def deliver (type : UInt8) (requestId : Nat) : Bool → List Record → Option Delivery
  | skip, [] => some ⟨[], [], skip⟩
  | skip, r :: later =>
      match deliverRecord type requestId skip r with
      | .ends _ => none
      | .passes content replies skip =>
          (deliver type requestId skip later).map fun rest =>
            ⟨content ++ rest.content, replies ++ rest.replies, rest.skip⟩

/-- The management records that `deliver` describes. -/
def Described (r : Record) : Prop :=
  r.type = FcgiType.kFcgiGetValues.code → r.requestId ≠ 0

/-- The first eight bytes of a record. -/
def recordHeader (r : Record) : Bytes := r.encode.take headerLen

/-- A stream as a whole: its content, the replies that went out meanwhile, the
error it ended with, and what was left to read. -/
structure WholeStream where
  content : Bytes
  replies : List Record
  errno : Int
  rest : Bytes
deriving DecidableEq

/-- The stream that these bytes carry before the connection ends with an
error. -/
inductive Carries (type : UInt8) (requestId : Nat) (endError : Int) : Bytes → WholeStream → Prop
  /-- A record ends it as soon as its header is there. -/
  | ended {records : List Record} {passed : Delivery} {r : Record} {errno : Int} {rest : Bytes}
      (described : ∀ r ∈ records, Described r)
      (delivers : deliver type requestId false records = some passed)
      (ends : deliverRecord type requestId passed.skip r = .ends errno) :
      Carries type requestId endError
        (records.flatMap Record.encode ++ (recordHeader r ++ rest))
        { content := passed.content
          replies := passed.replies
          errno := errno
          rest := rest }
  /-- The connection ends inside a record, whose header was answered and whose
  content reaches the client as far as it came. -/
  | torn {records : List Record} {passed : Delivery} {r : Record} {content piece : Bytes}
      {replies : List Record} {skip : Bool}
      (described : ∀ r ∈ records, Described r) (described_torn : Described r)
      (delivers : deliver type requestId false records = some passed)
      (passes : deliverRecord type requestId passed.skip r = .passes content replies skip)
      (short : piece.length < r.contentData.length + r.paddingData.length) :
      Carries type requestId endError
        (records.flatMap Record.encode ++ (recordHeader r ++ piece))
        { content := passed.content ++ piece.take content.length
          replies := passed.replies ++ replies
          errno := endError
          rest := [] }
  /-- The connection ends behind a record or inside a header. -/
  | cut {records : List Record} {passed : Delivery} {piece : Bytes}
      (described : ∀ r ∈ records, Described r)
      (delivers : deliver type requestId false records = some passed)
      (short : piece.length < headerLen) :
      Carries type requestId endError (records.flatMap Record.encode ++ piece)
        { content := passed.content
          replies := passed.replies
          errno := endError
          rest := [] }

/-- The BEGIN record of a request. -/
structure Begins (r : Record) (role : Nat) (keepConnection : Bool) : Prop where
  version : r.version = 1
  type : r.type = FcgiType.kFcgiBeginRequest.code
  requestId : r.requestId ≠ 0
  body : beginBody r.contentData = some (role, keepConnection)

/-- Complete pairs and what is left behind them, none of them so long that their
lengths overflow. -/
structure Pairs (content : Bytes) (pairs : List WirePair) (tail : Bytes) : Prop where
  content : content = pairs.flatMap WirePair.encode ++ tail
  incomplete : nextPair tail = none
  modest : ∀ pair ∈ pairs, pair.name.length + pair.value.length + 2 < 2 ^ 31
  tail_modest : ∀ nameForm nameLen valueForm valueLen rest rest',
    nextLength tail = some ((nameForm, nameLen), rest) →
      nextLength rest = some ((valueForm, valueLen), rest') → nameLen + valueLen + 2 < 2 ^ 31

/-- A pair as an entry of the environment. -/
def envEntry (pair : WirePair) : Bytes := pair.name ++ 61 :: pair.value

end Fcgx

end FastCgi
