/-
Module: FastCgi.Model.FcgxInput
Layer: Model
Purpose: The input streams of libfcgi (fastcgi/fastcgi_lib/fcgiapp.cpp), from
  which the fastcgi server gets its requests: `FillBuffProc` with
  `ProcessHeader`, `ProcessBeginRecord` and `ProcessManagementRecord`,
  `FCGX_GetChar`, `FCGX_GetStr`, `ReadParams` and `FCGX_Accept_r`.
Trusted boundary: `int` arithmetic wraps; `malloc` succeeds unless it is asked
  for 2^63 bytes or more; the padding of a GET_VALUES reply, which the source
  leaves as it finds it on the stack, is zero here; `OS_Accept` delivers the
  connections of a list and then fails
Main exports: Fcgx.InputStream, Fcgx.Reading, Fcgx.fillBuffProc, Fcgx.getStr,
  Fcgx.getChar, Fcgx.Params, Fcgx.readParams, Fcgx.readRequest, Fcgx.acceptR
-/
import FastCgi.Model.FcgxOutput

namespace FastCgi

namespace Fcgx

open Library (Turn runLoop)

def fcgxUnsupportedVersion : Int := -2

def fcgxProtocolError : Int := -3

def fcgxParamsError : Int := -4

/-- The error that `FillBuffProc` makes of the last `OS_Read`. -/
def Ipc.endError (ipc : Ipc) : Int :=
  match ipc.ending with
  | none => fcgxProtocolError
  | some errno => errno

/-- `OS_Read`: the bytes it delivered, or the error that `FillBuffProc` makes of
its result. -/
def osRead (ipc : Ipc) (bufflen : Nat) : Except Int Bytes × Ipc :=
  if ipc.incoming = [] then
    (.error ipc.endError, { ipc with reads := ipc.reads + 1 })
  else
    let count := min (ipc.pieces ipc.reads + 1) bufflen
    (.ok (ipc.incoming.take count),
      { ipc with reads := ipc.reads + 1, incoming := ipc.incoming.drop count })

/-! ### Input streams -/

/-- An `FCGX_Stream` with `isReader` TRUE and its `FCGX_Stream_Data`.  The
pointers are offsets into `buff`, which is kept up to `buffStop`; `wrNext`,
which equals `stop`, and `stopUnget`, which only `FCGX_UnGetChar` uses, are
left out. -/
structure InputStream where
  buff : Bytes
  bufflen : Nat
  rdNext : Nat
  stop : Nat
  isClosed : Bool
  fcgiErrno : Int
  type : UInt8
  eorStop : Bool
  skip : Bool
  contentLen : Nat
  paddingLen : Nat
deriving Repr, DecidableEq

/-- `NewReader`. -/
def newReader (bufflen : Nat) (misaligned : Bool) (streamType : UInt8) : InputStream :=
  let bufflen := alignInt8 (min (max bufflen 32) (fcgiMaxLength + 1))
  { buff := []
    bufflen := if misaligned then bufflen - 8 else bufflen
    rdNext := 0
    stop := 0
    isClosed := false
    fcgiErrno := 0
    type := streamType
    eorStop := false
    skip := false
    contentLen := 0
    paddingLen := 0 }

/-- An input stream with the request and the connection it belongs to. -/
structure Reading where
  stream : InputStream
  request : Request
  ipc : Ipc

namespace Reading

/-- The bytes that no caller has got yet, in the buffer or on the way. -/
def unread (r : Reading) : Bytes := r.stream.buff.drop r.stream.rdNext ++ r.ipc.incoming

/-- Pass over bytes of the buffer. -/
def advance (r : Reading) (count : Nat) : Reading :=
  { r with stream := { r.stream with rdNext := r.stream.rdNext + count } }

def setError (r : Reading) (fcgiErrno : Int) : Reading :=
  { r with stream := { r.stream with
      fcgiErrno := if r.stream.fcgiErrno = 0 then fcgiErrno else r.stream.fcgiErrno
      isClosed := true } }

/-- `SetReaderType`. -/
def setReaderType (r : Reading) (streamType : UInt8) : Reading :=
  { r with stream := { r.stream with
      type := streamType
      eorStop := false
      skip := false
      contentLen := 0
      paddingLen := 0
      stop := r.stream.rdNext
      isClosed := false } }

end Reading

/-- What `ProcessHeader` returns. -/
inductive Status where
  | streamRecord
  | skip
  | beginRecord
  | mgmtRecord
  | error (code : Int)
deriving Repr, DecidableEq

/-! ### `FillBuffProc` -/

/-- Read if the buffer is empty.  The result is false if that failed. -/
def refill (r : Reading) : Bool × Reading :=
  if r.stream.rdNext = r.stream.buff.length then
    match osRead r.ipc r.stream.bufflen with
    | (.error errno, ipc) => (false, { r with ipc := ipc }.setError errno)
    | (.ok data, ipc) =>
        (true, { r with stream := { r.stream with buff := data, rdNext := 0 }, ipc := ipc })
  else
    (true, r)

namespace Reading

/-- The client has got all that was delivered, and gets no more. -/
def close (r : Reading) : Reading :=
  { r with stream := { r.stream with stop := r.stream.rdNext, isClosed := true } }

/-- Before and after `ProcessHeader`, which must not read past the record. -/
def enterRecord (r : Reading) : Reading :=
  { r with stream := { r.stream with eorStop := true, stop := r.stream.rdNext } }

def leaveRecord (r : Reading) : Reading :=
  { r with stream := { r.stream with eorStop := false, isClosed := false } }

/-- Deliver the content that is in the buffer. -/
def deliver (r : Reading) : Reading :=
  let count := min r.stream.contentLen (r.stream.buff.length - r.stream.rdNext)
  { r with stream := { r.stream with
      contentLen := r.stream.contentLen - count
      stop := r.stream.rdNext + count } }

/-- Pass over the content that is in the buffer. -/
def skipContent (r : Reading) : Reading :=
  let count := min r.stream.contentLen (r.stream.buff.length - r.stream.rdNext)
  { r with stream := { r.stream with
      contentLen := r.stream.contentLen - count
      rdNext := r.stream.rdNext + count
      skip := if 0 < r.stream.contentLen - count then r.stream.skip else false } }

/-- Pass over the padding that is in the buffer. -/
def skipPadding (r : Reading) : Reading :=
  let count := min r.stream.paddingLen (r.stream.buff.length - r.stream.rdNext)
  { r with stream := { r.stream with
      paddingLen := r.stream.paddingLen - count
      rdNext := r.stream.rdNext + count } }

end Reading

/-- What `FillBuffProc` does with the status of a header. -/
def onStatus (status : Status) (r : Reading) : Turn (Reading × Bytes) Reading :=
  match status with
  | .streamRecord =>
      if r.stream.contentLen = 0 then .leave r.close else .again (r, [])
  | .skip => .again ({ r with stream := { r.stream with skip := true } }, [])
  | .beginRecord => .leave r
  | .mgmtRecord => .again (r, [])
  | .error code => .leave (r.setError code)

/-- The last part of a turn: fill the header from the buffer and interpret it
once it is complete. -/
def headerTurn (processHeader : Bytes → Reading → Except Fault (Status × Reading))
    (r : Reading) (header : Bytes) : Except Fault (Turn (Reading × Bytes) Reading) := do
  let count := min (headerLen - header.length) (r.stream.buff.length - r.stream.rdNext)
  let header := header ++ (r.stream.buff.drop r.stream.rdNext).take count
  if header.length < headerLen then
    return .again (r.advance count, header)
  else
    let (status, r) ← processHeader header (r.advance count).enterRecord
    return onStatus status r.leaveRecord

/-- The part behind the content of the record. -/
def paddingTurn (processHeader : Bytes → Reading → Except Fault (Status × Reading))
    (r : Reading) (header : Bytes) : Except Fault (Turn (Reading × Bytes) Reading) :=
  let r := r.skipPadding
  if 0 < r.stream.paddingLen then .ok (.again (r, header))
  else if r.stream.eorStop then .ok (.leave r.close)
  else headerTurn processHeader r header

/-- The part behind the read. -/
def contentTurn (processHeader : Bytes → Reading → Except Fault (Status × Reading))
    (r : Reading) (header : Bytes) : Except Fault (Turn (Reading × Bytes) Reading) :=
  if 0 < r.stream.contentLen then
    if r.stream.skip = false then .ok (.leave r.deliver)
    else
      let r := r.skipContent
      if 0 < r.stream.contentLen then .ok (.again (r, header))
      else paddingTurn processHeader r header
  else
    paddingTurn processHeader r header

/-- One turn of the loop of `FillBuffProc`, with the part of the header that was
read so far. -/
def fillTurn (processHeader : Bytes → Reading → Except Fault (Status × Reading))
    (state : Reading × Bytes) : Except Fault (Turn (Reading × Bytes) Reading) :=
  match refill state.1 with
  | (false, r) => .ok (.leave r)
  | (true, r) => contentTurn processHeader r state.2

/-- `FillBuffProc`, for a given `ProcessHeader`. -/
def fillWith (processHeader : Bytes → Reading → Except Fault (Status × Reading)) (r : Reading) :
    Except Fault Reading :=
  runLoop .diverged (fillTurn processHeader) (r.unread.length + 1) (r, [])

/-- `FillBuffProc` when it is called from `ProcessHeader`: `eorStop` is set, so
that it never comes to another header. -/
def fillRecord : Reading → Except Fault Reading :=
  fillWith fun _ _ => .error .diverged

/-! ### Reading -/

section Stream

variable (fill : Reading → Except Fault Reading)

/-- `*stream->rdNext++`. -/
def Reading.next (r : Reading) : Except Fault (Option UInt8 × Reading) :=
  match r.stream.buff[r.stream.rdNext]? with
  | some c => .ok (some c, r.advance 1)
  | none => .error .outOfBounds

/-- `FCGX_GetChar`; `none` is EOF. -/
def getChar (r : Reading) : Except Fault (Option UInt8 × Reading) := do
  if r.stream.isClosed then
    return (none, r)
  else if r.stream.rdNext ≠ r.stream.stop then
    r.next
  else
    let r ← fill r
    if r.stream.isClosed then
      return (none, r)
    else if r.stream.rdNext ≠ r.stream.stop then
      r.next
    else
      .error (.assertion "stream->isClosed")

/-- Copy `m` bytes from the buffer. -/
def copyOut (r : Reading) (m : Nat) : Bytes × Reading :=
  ((r.stream.buff.drop r.stream.rdNext).take m, r.advance m)

/-- One turn of the loop of `FCGX_GetStr`, with the bytes moved so far. -/
def getStrTurn (n : Nat) (state : Bytes × Reading) :
    Except Fault (Turn (Bytes × Reading) (Bytes × Reading)) := do
  let (moved, r) := state
  let (copied, r) := copyOut r (min (n - moved.length) (r.stream.stop - r.stream.rdNext))
  let moved := moved ++ copied
  if moved.length = n then
    return .leave (moved, r)
  else if r.stream.isClosed then
    return .leave (moved, r)
  else
    let r ← fill r
    if r.stream.isClosed then
      return .leave (moved, r)
    else
      return .again (moved, r)

/-- `FCGX_GetStr`; the number it returns is the length of the bytes. -/
def getStr (n : Nat) (r : Reading) : Except Fault (Bytes × Reading) :=
  if r.stream.isClosed ∨ n = 0 then
    .ok ([], r)
  else if n ≤ r.stream.stop - r.stream.rdNext then
    .ok (copyOut r n)
  else
    runLoop .diverged (getStrTurn fill n) (r.unread.length + 2) ([], r)

end Stream

/-! ### Parameters -/

/-- What `ReadParams` uses of a stream. -/
structure Source (σ : Type) where
  getChar : σ → Except Fault (Option UInt8 × σ)
  getStr : Nat → σ → Except Fault (Bytes × σ)
  setError : σ → Int → σ
  /-- A bound on what is still to be read. -/
  size : σ → Nat

/-- An `FCGX_Stream` as a source. -/
def readingSource (fill : Reading → Except Fault Reading) : Source Reading where
  getChar := getChar fill
  getStr := getStr fill
  setError := Reading.setError
  size := fun r => r.unread.length

/-- `Params`: the strings, without their terminating zeros, and how many the
vector can hold. -/
structure Params where
  vec : List Bytes
  length : Nat
deriving Repr, DecidableEq

def newParams (length : Nat) : Params where
  vec := []
  length := length

/-- `PutParam`, which leaves room for the terminating null pointer. -/
def putParam (params : Params) (nameValue : Bytes) : Except Fault Params :=
  if params.vec.length < params.length then
    let size := params.vec.length + 1
    let length := if params.length ≤ size then params.length * 2 else params.length
    if size < length then .ok ⟨params.vec ++ [nameValue], length⟩ else .error .outOfBounds
  else
    .error .outOfBounds

/-- `Malloc` of an `int`, which becomes a `size_t`: a negative one asks for more
than there can be. -/
def mallocInt (n : Nat) : Except Fault Nat :=
  if n % 2 ^ 32 < 2 ^ 31 then .ok (n % 2 ^ 32)
  else .error (.assertion "size == 0 || result != NULL")

/-- Write up to this offset of an allocation. -/
def inside (size offset : Nat) : Except Fault Unit :=
  if offset ≤ size then .ok () else .error .outOfBounds

section Source

variable {σ : Type} (source : Source σ)

/-- A length in one or four bytes, of which the first was read; `none` if the
rest is missing. -/
def readLength (first : UInt8) (r : σ) : Except Fault (Option Nat × σ) :=
  if first &&& 0x80 ≠ 0 then do
    let (lenBuff, r) ← source.getStr 3 r
    match lenBuff with
    | [b0, b1, b2] =>
        return (some ((first &&& 0x7f).toNat * 2 ^ 24 + b0.toNat * 2 ^ 16 + b1.toNat * 2 ^ 8 +
          b2.toNat), r)
    | _ => return (none, r)
  else
    .ok (some first.toNat, r)

/-- The name and the value of a pair whose lengths were read, in the format of
the environment; `none` if a part of them is missing. -/
def readNameValue (nameLen valueLen : Nat) (r : σ) : Except Fault (Option Bytes × σ) := do
  let size ← mallocInt (nameLen + valueLen + 2)
  let (name, r) ← source.getStr nameLen r
  inside size name.length
  if name.length ≠ nameLen then
    return (none, r)
  else
    inside size (nameLen + 1)
    let (value, r) ← source.getStr valueLen r
    inside size (nameLen + 1 + value.length)
    if value.length ≠ valueLen then
      return (none, r)
    else
      inside size (nameLen + valueLen + 2)
      return (some (name ++ 61 :: value), r)

/-- One name-value pair behind the first byte of its name's length; `none` if a
part of it is missing. -/
def readPair (first : UInt8) (r : σ) : Except Fault (Option Bytes × σ) := do
  let (nameLen, r) ← readLength source first r
  match nameLen with
  | none => return (none, r)
  | some nameLen =>
      let (second, r) ← source.getChar r
      match second with
      | none => return (none, r)
      | some second =>
          let (valueLen, r) ← readLength source second r
          match valueLen with
          | none => return (none, r)
          | some valueLen => readNameValue source nameLen valueLen r

/-- One turn of the loop of `ReadParams`. -/
def readParamsTurn (state : Params × σ) :
    Except Fault (Turn (Params × σ) (Bool × Params × σ)) := do
  let (params, r) := state
  let (first, r) ← source.getChar r
  match first with
  | none => return .leave (true, params, r)
  | some first =>
      let (nameValue, r) ← readPair source first r
      match nameValue with
      | none => return .leave (false, params, source.setError r fcgxParamsError)
      | some nameValue =>
          let params ← putParam params nameValue
          return .again (params, r)

/-- `ReadParams`, and whether it returned zero or -1. -/
def readParams (params : Params) (r : σ) : Except Fault (Bool × Params × σ) :=
  runLoop .diverged (readParamsTurn source) (source.size r + 1) (params, r)

end Source

/-! ### `ProcessHeader` -/

/-- `FCGI_CANT_MPX_CONN`. -/
def fcgiCantMpxConn : UInt8 := 1

/-- `FCGI_UNKNOWN_TYPE`. -/
def fcgiUnknownType : UInt8 := 11

/-- Send a reply; a failure is the status -1. -/
def reply (bytes : Bytes) (status : Status) (r : Reading) : Status × Reading :=
  match writeItAll r.ipc bytes with
  | (.error errno, ipc) => (.error (-1), { r with ipc := ipc }.setError errno)
  | (.ok (), ipc) => (status, { r with ipc := ipc })

/-- The members of an `FCGI_BeginRequestBody`: the role, and whether the
connection is kept. -/
def beginBody : Bytes → Option (Nat × Bool)
  | [roleB1, roleB0, flags, _, _, _, _, _] =>
      some (roleB1.toNat * 2 ^ 8 + roleB0.toNat, flags &&& 1 ≠ 0)
  | _ => none

def processBeginRecord (requestId : Nat) (r : Reading) : Except Fault (Status × Reading) := do
  if requestId = 0 ∨ r.stream.contentLen ≠ 8 then
    return (.error fcgxProtocolError, r)
  else if r.request.isBeginProcessed then
    let header ← makeHeader FcgiType.kFcgiEndRequest.code requestId 8 0
    return reply (header ++ makeEndRequestBody 0 fcgiCantMpxConn) .skip r
  else
    let (body, r) ← getStr fillRecord 8
      { r with request := { r.request with requestId := requestId } }
    match beginBody body with
    | some (role, keepConnection) =>
        return (.beginRecord, { r with request := { r.request with
          keepConnection := keepConnection
          role := role
          isBeginProcessed := true } })
    | none => return (.error fcgxProtocolError, r)

/-- The variables that a GET_VALUES record may ask for, and their values. -/
def knownValue (name : Bytes) : Option UInt8 :=
  if name = ascii "FCGI_MAX_CONNS" then some 49
  else if name = ascii "FCGI_MAX_REQS" then some 49
  else if name = ascii "FCGI_MPXS_CONNS" then some 48
  else none

/-- `sizeof response`. -/
def responseSize : Nat := 64

/-- The reply to one string of a GET_VALUES record, behind those before it.  The
name ends at the first equality sign, which has to come before any zero. -/
def putValue (body nameValue : Bytes) : Except Fault Bytes :=
  let name := nameValue.takeWhile fun c => c ≠ 0 ∧ c ≠ 61
  if nameValue[name.length]? ≠ some 61 then .error .outOfBounds
  else
    match knownValue name with
    | none => .ok body
    | some value =>
        -- `sprintf` writes a terminating zero behind the value
        if headerLen + body.length + name.length + 4 ≤ responseSize then
          .ok (body ++ UInt8.ofNat name.length :: 1 :: name ++ [value])
        else .error .outOfBounds

def processManagementRecord (type : UInt8) (r : Reading) : Except Fault (Status × Reading) := do
  if type = FcgiType.kFcgiGetValues.code then
    let (_, params, r) ← readParams (readingSource fillRecord) (newParams 3) r
    if r.stream.fcgiErrno ≠ 0 ∨ r.stream.contentLen ≠ 0 then
      return (.error fcgxProtocolError, r)
    else
      let body ← params.vec.foldlM putValue []
      let padding := alignInt8 body.length - body.length
      let header ← makeHeader FcgiType.kFcgiGetValuesResult.code 0 body.length padding
      inside responseSize (headerLen + alignInt8 body.length)
      return reply (header ++ body ++ List.replicate padding 0) .mgmtRecord r
  else
    let header ← makeHeader fcgiUnknownType 0 8 0
    return reply (header ++ [type, 0, 0, 0, 0, 0, 0, 0]) .mgmtRecord r

/-- The members of an `FCGI_Header`. -/
structure HeaderFields where
  version : UInt8
  type : UInt8
  requestId : Nat
  contentLength : Nat
  paddingLength : Nat
deriving Repr, DecidableEq

def headerFields : Bytes → Option HeaderFields
  | [version, type, requestIdB1, requestIdB0, contentLengthB1, contentLengthB0, paddingLength, _] =>
      some
        { version := version
          type := type
          requestId := requestIdB1.toNat * 2 ^ 8 + requestIdB0.toNat
          contentLength := contentLengthB1.toNat * 2 ^ 8 + contentLengthB0.toNat
          paddingLength := paddingLength.toNat }
  | _ => none

/-- What `ProcessHeader` does with a record whose lengths it has stored. -/
def processRecord (header : HeaderFields) (r : Reading) : Except Fault (Status × Reading) :=
  if header.type = FcgiType.kFcgiBeginRequest.code then processBeginRecord header.requestId r
  else if header.requestId = 0 then processManagementRecord header.type r
  else if header.requestId ≠ r.request.requestId then .ok (.skip, r)
  else if header.type ≠ r.stream.type then .ok (.error fcgxProtocolError, r)
  else .ok (.streamRecord, r)

def processFields (header : HeaderFields) (r : Reading) : Except Fault (Status × Reading) :=
  if header.version ≠ 1 then .ok (.error fcgxUnsupportedVersion, r)
  else
    processRecord header { r with stream := { r.stream with
      contentLen := header.contentLength
      paddingLen := header.paddingLength } }

def processHeader (header : Bytes) (r : Reading) : Except Fault (Status × Reading) :=
  match headerFields header with
  | some header => processFields header r
  | none => .error .outOfBounds

def fillBuffProc : Reading → Except Fault Reading := fillWith processHeader

/-! ### `FCGX_Accept_r` -/

/-- The parameter that stands for the role of the request. -/
def roleStr (role : Nat) : Option Bytes :=
  if role = 1 then some (ascii "FCGI_ROLE=RESPONDER")
  else if role = 2 then some (ascii "FCGI_ROLE=AUTHORIZER")
  else if role = 3 then some (ascii "FCGI_ROLE=FILTER")
  else none

/-- One turn of the loop of `FCGX_Accept_r` on an open connection: the
parameters of the request it carries, or `none` if it goes to `TryAgain`. -/
def readRequest (misaligned : Bool) (request : Request) (ipc : Ipc) :
    Except Fault (Option Params × Reading) := do
  let r ← fillBuffProc
    { stream := newReader 8192 misaligned 0
      request := { request with isBeginProcessed := false }
      ipc := ipc }
  if r.request.isBeginProcessed = false then
    return (none, r)
  else
    match roleStr r.request.role with
    | none => return (none, r)
    | some role =>
        let params ← putParam (newParams 30) role
        let (done, params, r) ← readParams (readingSource fillBuffProc) params
          (r.setReaderType FcgiType.kFcgiParams.code)
        if done then
          return (some params, r.setReaderType FcgiType.kFcgiStdin.code)
        else
          return (none, r)

/-- What `FCGX_Accept_r` comes to: a request, or a failed `OS_Accept`; and the
connections it gave up before that. -/
structure Accepted where
  accepted : Option (Params × Reading)
  closed : List Ipc
  /-- The connections that were not accepted yet. -/
  later : List Ipc

/-- The loop of `FCGX_Accept_r`.  The first connection is the one that was kept
open, if there is one. -/
def acceptR (misaligned : Bool) : Request → List Ipc → Except Fault Accepted
  | _, [] => .ok ⟨none, [], []⟩
  | request, ipc :: later => do
      let (params, r) ← readRequest misaligned request ipc
      match params with
      | some params => return ⟨some (params, r), [], later⟩
      | none =>
          let rest ← acceptR misaligned r.request later
          return { rest with closed := r.ipc :: rest.closed }

end Fcgx

end FastCgi
