/-
Module: FastCgi.Spec.FcgxInput
Layer: Spec
Purpose: What an input stream of libfcgi is for, whatever pieces `OS_Read`
  delivers: a place in the bytes that the web server sends.  The buffer and its
  pointers are gone; the record at that place is described by what is left of
  its content and padding.
Trusted boundary: human-reviewed spec
Main exports: Fcgx.Cursor, Fcgx.Cursor.fill, Fcgx.Cursor.getChar,
  Fcgx.Cursor.getStr, Fcgx.Cursor.readRequest, Fcgx.Reading.cursor
-/
import FastCgi.Model.FcgxInput

namespace FastCgi

namespace Fcgx

open Library (Turn runLoop)

/-- The connection but for what it delivers. -/
def Ipc.link (ipc : Ipc) : Ipc := { ipc with incoming := [], pieces := fun _ => 0, reads := 0 }

/-- A place in the bytes that the web server sends, and what the stream knows
about the record there. -/
structure Cursor where
  /-- All that is still to be read. -/
  rest : Bytes
  /-- The content of the record that the client has not got. -/
  content : Nat
  padding : Nat
  /-- The content is not for the client. -/
  skip : Bool
  /-- The record is read for `ProcessHeader`. -/
  eorStop : Bool
  isClosed : Bool
  fcgiErrno : Int
  type : UInt8
  request : Request
  link : Ipc

/-- A stream seen as a cursor, for what it has left to read and of the record. -/
def Reading.view (r : Reading) (rest : Bytes) (content : Nat) : Cursor where
  rest := rest
  content := content
  padding := r.stream.paddingLen
  skip := r.stream.skip
  eorStop := r.stream.eorStop
  isClosed := r.stream.isClosed
  fcgiErrno := r.stream.fcgiErrno
  type := r.stream.type
  request := r.request
  link := r.ipc.link

/-- The place of a stream between two calls: what was delivered and not got is
content still. -/
def Reading.cursor (r : Reading) : Cursor :=
  r.view r.unread
    (r.stream.contentLen + if r.stream.isClosed then 0 else r.stream.stop - r.stream.rdNext)

namespace Cursor

def setError (c : Cursor) (fcgiErrno : Int) : Cursor :=
  { c with
    fcgiErrno := if c.fcgiErrno = 0 then fcgiErrno else c.fcgiErrno
    isClosed := true }

def setReaderType (c : Cursor) (streamType : UInt8) : Cursor :=
  { c with
    type := streamType
    eorStop := false
    skip := false
    content := 0
    padding := 0
    isClosed := false }

/-- Nothing more comes. -/
def exhausted (c : Cursor) : Cursor := c.setError c.link.endError

/-! ### The way to the next header -/

/-- Where the way to the next header ends. -/
inductive Approach where
  /-- The call has its result. -/
  | done (c : Cursor)
  | header (header : Bytes) (c : Cursor)

/-- Behind the record. -/
def atHeader (c : Cursor) : Approach :=
  if c.eorStop then .done { c with isClosed := true }
  else if c.rest.length < headerLen then .done { c with rest := [] }.exhausted
  else .header (c.rest.take headerLen) { c with rest := c.rest.drop headerLen }

def passPadding (c : Cursor) : Cursor :=
  { c with rest := c.rest.drop c.padding, padding := c.padding - c.rest.length }

/-- Behind the content. -/
def atPadding (c : Cursor) : Approach :=
  if 0 < c.passPadding.padding then .done c.passPadding.exhausted else c.passPadding.atHeader

/-- Only an end of content that is skipped ends the skipping. -/
def passContent (c : Cursor) : Cursor :=
  if 0 < c.content then
    { c with
      rest := c.rest.drop c.content
      content := c.content - c.rest.length
      skip := if c.content ≤ c.rest.length then false else c.skip }
  else c

def atContent (c : Cursor) : Approach :=
  if 0 < c.content ∧ c.skip = false then .done c
  else if 0 < c.passContent.content then .done c.passContent.exhausted
  else c.passContent.atPadding

/-- From any place.  The connection is asked first, even for nothing. -/
def approach (c : Cursor) : Approach :=
  if c.rest = [] then .done c.exhausted else c.atContent

/-! ### `FillBuffProc` -/

def onStatus (status : Status) (c : Cursor) : Turn Cursor Cursor :=
  match status with
  | .streamRecord => if c.content = 0 then .leave { c with isClosed := true } else .again c
  | .skip => .again { c with skip := true }
  | .beginRecord => .leave c
  | .mgmtRecord => .again c
  | .error code => .leave (c.setError code)

section Fill

variable (processHeader : Bytes → Cursor → Except Fault (Status × Cursor))

/-- To the next header, and what it says. -/
def fillTurn (c : Cursor) : Except Fault (Turn Cursor Cursor) :=
  match c.approach with
  | .done c => .ok (.leave c)
  | .header header c => do
      let (status, c) ← processHeader header { c with eorStop := true }
      return onStatus status { c with eorStop := false, isClosed := false }

def fillWith (c : Cursor) : Except Fault Cursor :=
  runLoop .diverged (fillTurn processHeader) (c.rest.length + 1) c

end Fill

def fillRecord : Cursor → Except Fault Cursor := fillWith fun _ _ => .error .diverged

/-! ### Reading -/

section Reading

variable (fill : Cursor → Except Fault Cursor)

/-- Get the byte at this place. -/
def pop (c : Cursor) : Except Fault (Option UInt8 × Cursor) :=
  match c.rest with
  | byte :: rest =>
      if 0 < c.content then .ok (some byte, { c with rest := rest, content := c.content - 1 })
      else .error (.assertion "stream->isClosed")
  | [] => .error (.assertion "stream->isClosed")

/-- Between the bytes of a record `fill` changes nothing. -/
def getChar (c : Cursor) : Except Fault (Option UInt8 × Cursor) := do
  if c.isClosed then
    return (none, c)
  else
    let c ← fill c
    if c.isClosed then return (none, c) else pop c

/-- Byte by byte. -/
def getStr : Nat → Cursor → Except Fault (Bytes × Cursor)
  | 0, c => .ok ([], c)
  | n + 1, c => do
      let (byte, c) ← getChar fill c
      match byte with
      | none => return ([], c)
      | some byte =>
          let (bytes, c) ← getStr n c
          return (byte :: bytes, c)

def source : Source Cursor where
  getChar := getChar fill
  getStr := getStr fill
  setError := setError
  size := fun c => c.rest.length

end Reading

/-! ### `ProcessHeader` -/

def reply (bytes : Bytes) (status : Status) (c : Cursor) : Status × Cursor :=
  match writeItAll c.link bytes with
  | (.error errno, link) => (.error (-1), { c with link := link }.setError errno)
  | (.ok (), link) => (status, { c with link := link })

def processBeginRecord (requestId : Nat) (c : Cursor) : Except Fault (Status × Cursor) := do
  if requestId = 0 ∨ c.content ≠ 8 then
    return (.error fcgxProtocolError, c)
  else if c.request.isBeginProcessed then
    let header ← makeHeader FcgiType.kFcgiEndRequest.code requestId 8 0
    return reply (header ++ makeEndRequestBody 0 fcgiCantMpxConn) .skip c
  else
    let (body, c) ← getStr fillRecord 8
      { c with request := { c.request with requestId := requestId } }
    match beginBody body with
    | some (role, keepConnection) =>
        return (.beginRecord, { c with request := { c.request with
          keepConnection := keepConnection
          role := role
          isBeginProcessed := true } })
    | none => return (.error fcgxProtocolError, c)

def processManagementRecord (type : UInt8) (c : Cursor) : Except Fault (Status × Cursor) := do
  if type = FcgiType.kFcgiGetValues.code then
    let (_, params, c) ← readParams (source fillRecord) (newParams 3) c
    if c.fcgiErrno ≠ 0 ∨ c.content ≠ 0 then
      return (.error fcgxProtocolError, c)
    else
      let body ← params.vec.foldlM putValue []
      let padding := alignInt8 body.length - body.length
      let header ← makeHeader FcgiType.kFcgiGetValuesResult.code 0 body.length padding
      inside responseSize (headerLen + alignInt8 body.length)
      return reply (header ++ body ++ List.replicate padding 0) .mgmtRecord c
  else
    let header ← makeHeader fcgiUnknownType 0 8 0
    return reply (header ++ [type, 0, 0, 0, 0, 0, 0, 0]) .mgmtRecord c

def processRecord (header : HeaderFields) (c : Cursor) : Except Fault (Status × Cursor) :=
  if header.type = FcgiType.kFcgiBeginRequest.code then processBeginRecord header.requestId c
  else if header.requestId = 0 then processManagementRecord header.type c
  else if header.requestId ≠ c.request.requestId then .ok (.skip, c)
  else if header.type ≠ c.type then .ok (.error fcgxProtocolError, c)
  else .ok (.streamRecord, c)

def processFields (header : HeaderFields) (c : Cursor) : Except Fault (Status × Cursor) :=
  if header.version ≠ 1 then .ok (.error fcgxUnsupportedVersion, c)
  else
    processRecord header
      { c with content := header.contentLength, padding := header.paddingLength }

def processHeader (header : Bytes) (c : Cursor) : Except Fault (Status × Cursor) :=
  match headerFields header with
  | some header => processFields header c
  | none => .error .outOfBounds

def fill : Cursor → Except Fault Cursor := fillWith processHeader

/-! ### `FCGX_Accept_r` -/

/-- The place before anything was read. -/
def start (request : Request) (ipc : Ipc) : Cursor where
  rest := ipc.incoming
  content := 0
  padding := 0
  skip := false
  eorStop := false
  isClosed := false
  fcgiErrno := 0
  type := 0
  request := { request with isBeginProcessed := false }
  link := ipc.link

def readRequest (request : Request) (ipc : Ipc) : Except Fault (Option Params × Cursor) := do
  let c ← fill (start request ipc)
  if c.request.isBeginProcessed = false then
    return (none, c)
  else
    match roleStr c.request.role with
    | none => return (none, c)
    | some role =>
        let params ← putParam (newParams 30) role
        let (done, params, c) ← readParams (source fill) params
          (c.setReaderType FcgiType.kFcgiParams.code)
        if done then
          return (some params, c.setReaderType FcgiType.kFcgiStdin.code)
        else
          return (none, c)

end Cursor

end Fcgx

end FastCgi
