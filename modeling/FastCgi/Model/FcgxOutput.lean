/-
Module: FastCgi.Model.FcgxOutput
Layer: Model
Purpose: The output streams of libfcgi (fastcgi/fastcgi_lib/fcgiapp.cpp), which
  the fastcgi server prints to: `FCGX_PutChar`, `FCGX_PutStr`, `FCGX_FFlush`,
  `FCGX_FClose` and `FCGX_Finish_r`, with `EmptyBuffProc`, `WriteCloseRecords`,
  `write_it_all`, `MakeHeader` and `MakeEndRequestBody` behind them.
Trusted boundary: `OS_Write` of at least one byte takes at least one byte or
  fails; `shutdownNow`, which makes both calls fail at once, is not set; what
  `malloc` returns holds any bytes, zeros here
Main exports: Fcgx.Ipc, Fcgx.Request, Fcgx.OutputStream, Fcgx.putStr,
  Fcgx.emptyBuffProc, Fcgx.writeCloseRecords, Fcgx.fClose, Fcgx.Output,
  Fcgx.OutputOp, Fcgx.Output.run, Fcgx.Output.finish
-/
import FastCgi.Library.Loop
import FastCgi.Model.Respond

namespace FastCgi

namespace Fcgx

open Library (Turn runLoop)

/-! ### The connection -/

/-- What `OS_Errno` holds after a failure. -/
abbrev Errno := { errno : Int // errno ≠ 0 }

/-- `ipcFd`, as this process sees it. -/
structure Ipc where
  /-- What the web server still sends before the connection ends. -/
  incoming : Bytes
  /-- The `k`-th `OS_Read` gets at most this many bytes and one more. -/
  pieces : Nat → Nat
  reads : Nat
  /-- The last `OS_Read` returns zero, or fails. -/
  ending : Option Errno
  /-- The `k`-th `OS_Write` takes at most this many bytes and one more, or
  fails with this `OS_Errno`. -/
  answer : Nat → Except Int Nat
  writes : Nat
  /-- What the web server has received. -/
  received : Bytes

/-- `OS_Write`: the number of bytes it took, or `OS_Errno`. -/
def osWrite (ipc : Ipc) (buf : Bytes) : Except Int Nat × Ipc :=
  match ipc.answer ipc.writes with
  | .error errno => (.error errno, { ipc with writes := ipc.writes + 1 })
  | .ok more =>
      (.ok (min (more + 1) buf.length),
        { ipc with
          writes := ipc.writes + 1
          received := ipc.received ++ buf.take (more + 1) })

/-- The loop of `write_it_all`, with a bound on its turns. -/
def writeWith : Nat → Ipc → Bytes → Except Int Unit × Ipc
  | 0, ipc, _ => (.ok (), ipc)
  | fuel + 1, ipc, buf =>
      if buf = [] then (.ok (), ipc)
      else
        match osWrite ipc buf with
        | (.error errno, ipc) => (.error errno, ipc)
        | (.ok wrote, ipc) => writeWith fuel ipc (buf.drop wrote)

/-- Every turn takes a byte, so that there are at most as many as bytes. -/
def writeItAll (ipc : Ipc) (buf : Bytes) : Except Int Unit × Ipc :=
  writeWith buf.length ipc buf

/-! ### Records -/

/-- `AlignInt8`; `UINT_MAX - 7` masks the last three bits. -/
def alignInt8 (n : Nat) : Nat := (n + 7) % 2 ^ 32 &&& (2 ^ 32 - 1 - 7)

/-- The eight bytes of an `FCGI_Header`. -/
def makeHeader (type : UInt8) (requestId contentLength paddingLength : Nat) :
    Except Fault Bytes := do
  check (contentLength ≤ fcgiMaxLength)
    "contentLength >= 0 && contentLength <= FCGI_MAX_LENGTH"
  check (paddingLength ≤ 0xff) "paddingLength >= 0 && paddingLength <= 0xff"
  return [1, type, UInt8.ofNat (requestId / 2 ^ 8), UInt8.ofNat requestId,
    UInt8.ofNat (contentLength / 2 ^ 8), UInt8.ofNat contentLength,
    UInt8.ofNat paddingLength, 0]

/-- The eight bytes of an `FCGI_EndRequestBody`. -/
def makeEndRequestBody (appStatus : UInt32) (protocolStatus : UInt8) : Bytes :=
  [(appStatus >>> 24).toUInt8, (appStatus >>> 16).toUInt8, (appStatus >>> 8).toUInt8,
    appStatus.toUInt8, protocolStatus, 0, 0, 0]

/-- `FCGI_REQUEST_COMPLETE`. -/
def fcgiRequestComplete : UInt8 := 0

/-- The members of `FCGX_Request` that the streams use, but for the streams
themselves, `ipcFd` and the parameters. -/
structure Request where
  requestId : Nat
  role : Nat
  isBeginProcessed : Bool
  keepConnection : Bool
  appStatus : UInt32
  nWriters : Nat
deriving Repr, DecidableEq

/-! ### Output streams -/

/-- An `FCGX_Stream` with `isReader` FALSE and its `FCGX_Stream_Data`.  The
pointers are offsets into `buff`; `rdNext` and `stopUnget`, which a writer
leaves alone, and `buffStop`, the size of `buff`, are left out. -/
structure OutputStream where
  buff : Bytes
  wrNext : Nat
  stop : Nat
  isClosed : Bool
  wasFCloseCalled : Bool
  fcgiErrno : Int
  type : UInt8
  isAnythingWritten : Bool
  rawWrite : Bool
deriving Repr, DecidableEq

/-- `sizeof(FCGI_Header)`. -/
def headerLen : Nat := 8

/-- `NewWriter`.  The buffer loses eight bytes if `malloc` did not align it. -/
def newWriter (bufflen : Nat) (misaligned : Bool) (streamType : UInt8) : OutputStream :=
  let bufflen := alignInt8 (min (max bufflen 32) (fcgiMaxLength + 1))
  let bufflen := if misaligned then bufflen - 8 else bufflen
  { buff := List.replicate bufflen 0
    wrNext := headerLen
    stop := bufflen
    isClosed := false
    wasFCloseCalled := false
    fcgiErrno := 0
    type := streamType
    isAnythingWritten := false
    rawWrite := false }

namespace OutputStream

/-- `SetError` keeps the first error only. -/
def setError (stream : OutputStream) (fcgiErrno : Int) : OutputStream :=
  { stream with
    fcgiErrno := if stream.fcgiErrno = 0 then fcgiErrno else stream.fcgiErrno
    isClosed := true }

/-- Copy to `wrNext` and advance it.  A copy past `stop` is reported, though it
may still be inside the buffer. -/
def store (stream : OutputStream) (data : Bytes) : Except Fault OutputStream :=
  if stream.wrNext + data.length ≤ stream.stop then
    .ok { stream with
      buff := Buffer.overwrite stream.buff stream.wrNext data
      wrNext := stream.wrNext + data.length }
  else
    .error .outOfBounds

/-- The copy of one turn of `FCGX_PutStr`, if the buffer is not full. -/
def fillUp (stream : OutputStream) (data : Bytes) : Except Fault OutputStream :=
  if stream.wrNext ≠ stream.stop then stream.store data else .ok stream

/-- The first part of `EmptyBuffProc`: pad the content and fill in its header,
or give the room of the header back. -/
def encapsulate (stream : OutputStream) (requestId : Nat) : Except Fault OutputStream :=
  if stream.rawWrite then .ok stream
  else if headerLen < stream.wrNext then do
    let cLen := stream.wrNext - headerLen
    let eLen := alignInt8 cLen
    let stream ← stream.store (List.replicate (eLen - cLen) 0)
    let header ← makeHeader stream.type requestId cLen (eLen - cLen)
    return { stream with buff := Buffer.overwrite stream.buff 0 header }
  else
    .ok { stream with wrNext := 0 }

/-- Where `wrNext` stands in an empty buffer. -/
def emptied (stream : OutputStream) : OutputStream :=
  { stream with wrNext := if stream.rawWrite then 0 else headerLen }

/-- The last part of `EmptyBuffProc`: write what the buffer holds. -/
def writeBuff (stream : OutputStream) (ipc : Ipc) : OutputStream × Ipc :=
  if stream.wrNext ≠ 0 then
    match writeItAll ipc (stream.buff.take stream.wrNext) with
    | (.error errno, ipc) => ({ stream with isAnythingWritten := true }.setError errno, ipc)
    | (.ok (), ipc) => ({ stream with isAnythingWritten := true }.emptied, ipc)
  else
    (stream.emptied, ipc)

end OutputStream

/-- `EmptyBuffProc` with `doClose` FALSE. -/
def emptyBuffProc (requestId : Nat) (stream : OutputStream) (ipc : Ipc) :
    Except Fault (OutputStream × Ipc) := do
  let stream ← stream.encapsulate requestId
  return stream.writeBuff ipc

/-- One turn of the loop of `FCGX_PutStr`, with what is left of the string. -/
def putStrTurn (requestId : Nat) (state : Bytes × OutputStream × Ipc) :
    Except Fault (Turn (Bytes × OutputStream × Ipc) (Bool × OutputStream × Ipc)) := do
  let (str, stream, ipc) := state
  let m := min str.length (stream.stop - stream.wrNext)
  let stream ← stream.fillUp (str.take m)
  if m = str.length then
    return .leave (true, stream, ipc)
  else if stream.isClosed then
    return .leave (false, stream, ipc)
  else do
    let (stream, ipc) ← emptyBuffProc requestId stream ipc
    return .again (str.drop m, stream, ipc)

/-- `FCGX_PutStr`, and whether it returned `n` or -1. -/
def putStr (requestId : Nat) (str : Bytes) (stream : OutputStream) (ipc : Ipc) :
    Except Fault (Bool × OutputStream × Ipc) :=
  if str.length ≤ stream.stop - stream.wrNext then do
    let stream ← stream.store str
    return (true, stream, ipc)
  else
    runLoop .diverged (putStrTurn requestId) (str.length + 2) (str, stream, ipc)

/-- `FCGX_PutChar`, and whether it returned the byte or EOF. -/
def putChar (requestId : Nat) (c : UInt8) (stream : OutputStream) (ipc : Ipc) :
    Except Fault (Bool × OutputStream × Ipc) := do
  if stream.wrNext ≠ stream.stop then
    let stream ← stream.store [c]
    return (true, stream, ipc)
  else if stream.isClosed then
    return (false, stream, ipc)
  else
    let (stream, ipc) ← emptyBuffProc requestId stream ipc
    if stream.wrNext ≠ stream.stop then
      let stream ← stream.store [c]
      return (true, stream, ipc)
    else
      check stream.isClosed "stream->isClosed"
      return (false, stream, ipc)

/-- `FCGX_FFlush`, and whether it returned zero or EOF. -/
def fFlush (requestId : Nat) (stream : OutputStream) (ipc : Ipc) :
    Except Fault (Bool × OutputStream × Ipc) := do
  if stream.isClosed then
    return (true, stream, ipc)
  else
    let (stream, ipc) ← emptyBuffProc requestId stream ipc
    return (!stream.isClosed, stream, ipc)

/-- An `FCGI_EndRequestRecord` of eight bytes of body. -/
def endRequestBytes (request : Request) : Except Fault Bytes := do
  let header ← makeHeader FcgiType.kFcgiEndRequest.code request.requestId 8 0
  return header ++ makeEndRequestBody request.appStatus fcgiRequestComplete

/-- What `WriteCloseRecords` puts: the end of the stream, unless it is a STDERR
stream that carried nothing, and the end of the request from the last
writer. -/
def closeRecords (request : Request) (stream : OutputStream) : Except Fault (List Bytes) := do
  let endOfStream ←
    if stream.type = FcgiType.kFcgiStderr.code ∧ stream.wrNext = 0 ∧
        stream.isAnythingWritten = false then
      pure []
    else do
      let header ← makeHeader stream.type request.requestId 0 0
      pure [header]
  let endOfRequest ←
    if request.nWriters = 1 then do
      let record ← endRequestBytes request
      pure [record]
    else
      pure []
  return endOfStream ++ endOfRequest

/-- Put the records one by one; the results are dropped, as in the source. -/
def putRecords (requestId : Nat) :
    List Bytes → OutputStream → Ipc → Except Fault (OutputStream × Ipc)
  | [], stream, ipc => .ok (stream, ipc)
  | record :: records, stream, ipc => do
      let (_, stream, ipc) ← putStr requestId record stream ipc
      putRecords requestId records stream ipc

def writeCloseRecords (request : Request) (stream : OutputStream) (ipc : Ipc) :
    Except Fault (Request × OutputStream × Ipc) := do
  let stream := { stream with rawWrite := true }
  let records ← closeRecords request stream
  let (stream, ipc) ← putRecords request.requestId records stream ipc
  return ({ request with nWriters := request.nWriters - 1 }, stream, ipc)

/-- `EmptyBuffProc` with `doClose` TRUE. -/
def emptyBuffProcClose (request : Request) (stream : OutputStream) (ipc : Ipc) :
    Except Fault (Request × OutputStream × Ipc) := do
  let stream ← stream.encapsulate request.requestId
  let (request, stream, ipc) ← writeCloseRecords request stream ipc
  let (stream, ipc) := stream.writeBuff ipc
  return (request, stream, ipc)

/-- `FCGX_FClose`, and whether it returned zero or EOF. -/
def fClose (request : Request) (stream : OutputStream) (ipc : Ipc) :
    Except Fault (Bool × Request × OutputStream × Ipc) := do
  let (request, stream, ipc) ←
    if stream.wasFCloseCalled then pure (request, stream, ipc)
    else do
      let (request, stream, ipc) ← emptyBuffProcClose request stream ipc
      pure (request,
        { stream with wasFCloseCalled := true, isClosed := true, stop := stream.wrNext }, ipc)
  return (decide (stream.fcgiErrno = 0), request, stream, ipc)

/-! ### The two streams of a request -/

/-- `out` or `err`. -/
inductive StreamName where
  | out
  | err
deriving Repr, DecidableEq

/-- The type of a stream's records. -/
def StreamName.type : StreamName → FcgiType
  | .out => .kFcgiStdout
  | .err => .kFcgiStderr

/-- The two output streams of a request on their connection. -/
structure Output where
  request : Request
  out : OutputStream
  err : OutputStream
  ipc : Ipc

namespace Output

def stream (output : Output) : StreamName → OutputStream
  | .out => output.out
  | .err => output.err

def setStream (output : Output) (name : StreamName) (stream : OutputStream) (ipc : Ipc) : Output :=
  match name with
  | .out => { output with out := stream, ipc := ipc }
  | .err => { output with err := stream, ipc := ipc }

/-- The output streams as `FCGX_Accept_r` leaves them. -/
def start (request : Request) (misaligned : StreamName → Bool) (ipc : Ipc) : Output where
  request := { request with nWriters := 2 }
  out := newWriter 8192 (misaligned .out) FcgiType.kFcgiStdout.code
  err := newWriter 512 (misaligned .err) FcgiType.kFcgiStderr.code
  ipc := ipc

end Output

/-- What an application may do to its output streams. -/
inductive OutputOp where
  | putStr (name : StreamName) (str : Bytes)
  | putChar (name : StreamName) (c : UInt8)
  | fFlush (name : StreamName)
  | fClose (name : StreamName)
  | setExitStatus (status : UInt32)
deriving Repr, DecidableEq

namespace Output

/-- One call, and whether it succeeded. -/
def step (output : Output) : OutputOp → Except Fault (Bool × Output)
  | .putStr name str => do
      let (done, stream, ipc) ←
        Fcgx.putStr output.request.requestId str (output.stream name) output.ipc
      return (done, output.setStream name stream ipc)
  | .putChar name c => do
      let (done, stream, ipc) ←
        Fcgx.putChar output.request.requestId c (output.stream name) output.ipc
      return (done, output.setStream name stream ipc)
  | .fFlush name => do
      let (done, stream, ipc) ←
        Fcgx.fFlush output.request.requestId (output.stream name) output.ipc
      return (done, output.setStream name stream ipc)
  | .fClose name => do
      let (done, request, stream, ipc) ←
        Fcgx.fClose output.request (output.stream name) output.ipc
      return (done, { output with request := request }.setStream name stream ipc)
  | .setExitStatus status =>
      .ok (true, { output with request := { output.request with appStatus := status } })

/-- A sequence of calls, and whether each succeeded. -/
def run : List OutputOp → Output → Except Fault (List Bool × Output)
  | [], output => .ok ([], output)
  | op :: ops, output => do
      let (done, output) ← output.step op
      let (later, output) ← run ops output
      return (done :: later, output)

/-- `FCGX_Finish_r` of an accepted request, and whether it closes the
connection; `inputError` is the error of the input stream. -/
def finish (output : Output) (inputError : Int) : Except Fault (Bool × Output) := do
  let (errDone, output) ← output.step (.fClose .err)
  let (outDone, output) ← output.step (.fClose .out)
  return (!output.request.keepConnection || !errDone || !outDone || decide (inputError ≠ 0),
    output)

end Output

end Fcgx

end FastCgi
