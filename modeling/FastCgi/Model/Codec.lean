/-
Module: FastCgi.Model.Codec
Layer: Model
Purpose: The receiving half of `FastCgiCodec`, which mucgi/fastcgi.cpp and
  cocgi/cocgi_lib/fastcgi.cpp share line for line: the record loop, its three
  handlers and the name-value parser.  mucgi's loop reads the connection's
  input buffer and cocgi's its own `m_buf`; both are the field `buf` here.
Trusted boundary: none
Main exports: FcgiType, RecordHeader, FastCgiCodec, Invocation, Observation,
  readLen, parseAllParams, FastCgiCodec.parseRecords
-/
import FastCgi.Library.Loop
import FastCgi.Model.Buffer

namespace FastCgi

open Library (Turn runLoop)

/-- `std::map<string, string>`: ordered by key, extensional. -/
abbrev ParamMap := Std.ExtTreeMap Bytes Bytes

instance : DecidableEq ParamMap := inferInstance

/-- `enum FcgiType`. -/
inductive FcgiType where
  | kFcgiInvalid
  | kFcgiBeginRequest
  | kFcgiAbortRequest
  | kFcgiEndRequest
  | kFcgiParams
  | kFcgiStdin
  | kFcgiStdout
  | kFcgiStderr
  | kFcgiData
  | kFcgiGetValues
  | kFcgiGetValuesResult
deriving Repr, DecidableEq

/-- The enumerator's value, as it stands in the header's type byte. -/
def FcgiType.code : FcgiType → UInt8
  | .kFcgiInvalid => 0
  | .kFcgiBeginRequest => 1
  | .kFcgiAbortRequest => 2
  | .kFcgiEndRequest => 3
  | .kFcgiParams => 4
  | .kFcgiStdin => 5
  | .kFcgiStdout => 6
  | .kFcgiStderr => 7
  | .kFcgiData => 8
  | .kFcgiGetValues => 9
  | .kFcgiGetValuesResult => 10

/-- The enumerator a type byte stands for; a byte above ten stands for none. -/
def FcgiType.ofCode (code : UInt8) : Option FcgiType :=
  if code = 0 then some .kFcgiInvalid
  else if code = 1 then some .kFcgiBeginRequest
  else if code = 2 then some .kFcgiAbortRequest
  else if code = 3 then some .kFcgiEndRequest
  else if code = 4 then some .kFcgiParams
  else if code = 5 then some .kFcgiStdin
  else if code = 6 then some .kFcgiStdout
  else if code = 7 then some .kFcgiStderr
  else if code = 8 then some .kFcgiData
  else if code = 9 then some .kFcgiGetValues
  else if code = 10 then some .kFcgiGetValuesResult
  else none

/-- `enum FcgiRole`. -/
inductive FcgiRole where
  | kFcgiResponder
  | kFcgiAuthorizer
deriving Repr, DecidableEq

def FcgiRole.code : FcgiRole → UInt16
  | .kFcgiResponder => 1
  | .kFcgiAuthorizer => 2

def kFcgiKeepConn : UInt8 := 1

/-- `struct RecordHeader` (`FcgiRecordHeader` in cocgi), with `id` and
`length` in host order. -/
structure RecordHeader where
  version : UInt8
  type : UInt8
  id : UInt16
  length : UInt16
  padding : UInt8
  unused : UInt8
deriving Repr, DecidableEq

/-- `sizeof(RecordHeader)`. -/
def kRecordHeader : Nat := 8

/-- What the switch of the record loop made of one record: whether a PARAMS or
STDIN record was empty, and what its handler returned.  The source drops the
returned Booleans; they are kept here so that a run can be observed. -/
inductive RecordEvent where
  | beginRequest (accepted : Bool)
  | params (empty accepted : Bool)
  | stdin (empty : Bool)
  | ignored
deriving Repr, DecidableEq

/-- What a request handler is called with: the parameters and the body. -/
structure Invocation where
  params : ParamMap
  stdin : Bytes
deriving DecidableEq

/-- What can be seen of a connection: what the switch made of each record, and
each call of the request handler. -/
inductive Observation where
  | record (event : RecordEvent)
  | invoked (invocation : Invocation)
deriving DecidableEq

/-- The handler calls of a trace, in order. -/
def invocations (trace : List Observation) : List Invocation :=
  trace.filterMap fun
    | .record _ => none
    | .invoked invocation => some invocation

/-- `FastCgiCodec`, with the buffer the record loop reads. -/
structure FastCgiCodec where
  gotRequest : Bool
  keepConn : Bool
  buf : Buffer
  stdin : Buffer
  paramsStream : Buffer
  params : ParamMap
deriving DecidableEq

/-- The constructor. -/
def FastCgiCodec.fresh : FastCgiCodec where
  gotRequest := false
  keepConn := false
  buf := .empty
  stdin := .empty
  paramsStream := .empty
  params := ∅

/-- `static_cast<uint32_t>(-1)`, the error value of `readLen`. -/
def lenError : UInt32 := 0xffffffff

/-- One length of the name-value stream. -/
def readLen (paramsStream : Buffer) : Except Fault (UInt32 × Buffer) := do
  if 1 ≤ paramsStream.readableBytes then
    let byte ← paramsStream.peekInt8
    if byte &&& 0x80 ≠ 0 then
      if 4 ≤ paramsStream.readableBytes then
        let (value, paramsStream) ← paramsStream.readInt32
        return (value &&& 0x7fffffff, paramsStream)
      else
        return (lenError, paramsStream)
    else
      -- an `int8_t` converted to `uint32_t` is sign-extended
      let (value, paramsStream) ← paramsStream.readInt8
      return (value.toInt8.toInt32.toUInt32, paramsStream)
  else
    return (lenError, paramsStream)

/-- One turn of the loop in `parseAllParams`. -/
def parseAllParamsTurn (state : Buffer × ParamMap) :
    Except Fault (Turn (Buffer × ParamMap) (Bool × Buffer × ParamMap)) := do
  let (paramsStream, params) := state
  if 0 < paramsStream.readableBytes then
    let (nameLen, paramsStream) ← readLen paramsStream
    if nameLen = lenError then
      return .leave (false, paramsStream, params)
    else
      let (valueLen, paramsStream) ← readLen paramsStream
      if valueLen = lenError then
        return .leave (false, paramsStream, params)
      -- the sum is taken in 32 bits
      else if (nameLen + valueLen).toNat ≤ paramsStream.readableBytes then
        let (name, paramsStream) ← paramsStream.retrieveAsString nameLen.toNat
        let (value, paramsStream) ← paramsStream.retrieveAsString valueLen.toNat
        return .again (paramsStream, params.insert name value)
      else
        return .leave (false, paramsStream, params)
  else
    return .leave (true, paramsStream, params)

/-- `parseAllParams`: whether the stream was accepted, and what is left of it
and of the map. -/
def parseAllParams (paramsStream : Buffer) (params : ParamMap) :
    Except Fault (Bool × Buffer × ParamMap) :=
  runLoop .diverged parseAllParamsTurn (paramsStream.readableBytes + 1) (paramsStream, params)

/-- `memcpy(&header, buf->peek(), kRecordHeader)` and the two conversions. -/
def readHeader (buf : Buffer) : Except Fault RecordHeader := do
  match ← buf.bytesAt 0 kRecordHeader with
  | [version, type, id0, id1, length0, length1, padding, unused] =>
      return {
        version := version
        type := type
        id := ntoh16 (loadUInt16 id0 id1)
        length := ntoh16 (loadUInt16 length0 length1)
        padding := padding
        unused := unused }
  | _ => throw .outOfBounds

/-- `readInt16(buf->peek() + offset)`. -/
def readInt16 (buf : Buffer) (offset : Nat) : Except Fault UInt16 := do
  match ← buf.bytesAt offset 2 with
  | [b0, b1] => return ntoh16 (loadUInt16 b0 b1)
  | _ => throw .outOfBounds

/-- `buf->peek()[offset]`. -/
def byteAt (buf : Buffer) (offset : Nat) : Except Fault UInt8 := do
  match ← buf.bytesAt offset 1 with
  | [byte] => return byte
  | _ => throw .outOfBounds

namespace FastCgiCodec

/-- A flags byte other than exactly `kFcgiKeepConn` clears `keepConn`. -/
def onBeginRequest (header : RecordHeader) (c : FastCgiCodec) :
    Except Fault (Bool × FastCgiCodec) := do
  check (header.length.toNat ≤ c.buf.readableBytes) "buf->readableBytes() >= header.length"
  check (header.type = FcgiType.kFcgiBeginRequest.code) "header.type == kFcgiBeginRequest"
  if kRecordHeader ≤ header.length.toNat then
    let role ← readInt16 c.buf kRecordHeader
    let flags ← byteAt c.buf (kRecordHeader + 2)
    if role = FcgiRole.kFcgiResponder.code then
      return (true, { c with keepConn := flags = kFcgiKeepConn })
    else
      return (false, c)
  else
    return (false, c)

/-- The content starts at `buf->peek() + kRecordHeader`. -/
def onParams (length : UInt16) (c : FastCgiCodec) : Except Fault (Bool × FastCgiCodec) := do
  if 0 < length then
    let content ← c.buf.bytesAt kRecordHeader length.toNat
    let paramsStream ← c.paramsStream.append content
    return (true, { c with paramsStream := paramsStream })
  else
    let (accepted, paramsStream, params) ← parseAllParams c.paramsStream c.params
    return (accepted, { c with paramsStream := paramsStream, params := params })

/-- The content starts at `buf->peek() + kRecordHeader`. -/
def onStdin (length : UInt16) (c : FastCgiCodec) : Except Fault FastCgiCodec := do
  if 0 < length then
    let content ← c.buf.bytesAt kRecordHeader length.toNat
    let stdin ← c.stdin.append content
    return { c with stdin := stdin }
  else
    return { c with gotRequest := true }

/-- The switch over the record type. -/
def handleRecord (header : RecordHeader) (c : FastCgiCodec) :
    Except Fault (RecordEvent × FastCgiCodec) := do
  match FcgiType.ofCode header.type with
  | some .kFcgiBeginRequest =>
      let (accepted, c) ← c.onBeginRequest header
      return (.beginRequest accepted, c)
  | some .kFcgiParams =>
      let (accepted, c) ← c.onParams header.length
      return (.params (header.length = 0) accepted, c)
  | some .kFcgiStdin =>
      let c ← c.onStdin header.length
      return (.stdin (header.length = 0), c)
  | some .kFcgiData => return (.ignored, c)
  | some .kFcgiGetValues => return (.ignored, c)
  | _ => return (.ignored, c)

/-- One turn of the record loop. -/
def recordTurn (state : FastCgiCodec × List RecordEvent) :
    Except Fault (Turn (FastCgiCodec × List RecordEvent) (FastCgiCodec × List RecordEvent)) := do
  let (c, events) := state
  if kRecordHeader ≤ c.buf.readableBytes then
    let header ← readHeader c.buf
    let total := kRecordHeader + header.length.toNat + header.padding.toNat
    if total ≤ c.buf.readableBytes then
      let (event, c) ← c.handleRecord header
      let buf ← c.buf.retrieve total
      return .again ({ c with buf := buf }, events ++ [event])
    else
      return .leave (c, events)
  else
    return .leave (c, events)

/-- The record loop: `parseRequest` in mucgi, `parseFcgiPackage` in cocgi. -/
def parseRecords (c : FastCgiCodec) : Except Fault (FastCgiCodec × List RecordEvent) :=
  runLoop .diverged recordTurn (c.buf.readableBytes + 1) (c, [])

/-- The four assignments after a request was handed to its handler. -/
def clearRequest (c : FastCgiCodec) : FastCgiCodec :=
  { c with
    stdin := c.stdin.retrieveAll
    paramsStream := c.paramsStream.retrieveAll
    params := ∅
    gotRequest := false }

end FastCgiCodec

end FastCgi
