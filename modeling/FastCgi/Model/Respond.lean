/-
Module: FastCgi.Model.Respond
Layer: Model
Purpose: `FastCgiCodec::respond` and its two helpers, which mucgi/fastcgi.cpp
  and cocgi/cocgi_lib/fastcgi.cpp share: a backend's output as STDOUT records,
  the empty STDOUT record and the END_REQUEST record.
Trusted boundary: none
Main exports: RecordHeader.memory, appendStdout, endStdout, endRequest, respond
-/
import FastCgi.Model.CgiUtils
import FastCgi.Model.Codec

namespace FastCgi

/-- `FCGI_MAX_LENGTH` (`FCGI_MAX_CONTENT_LENGTH` in cocgi). -/
def fcgiMaxLength : Nat := 0xffff

/-- The eight bytes of a header in memory.  What `respond` writes has `id` and
`length` in network order already. -/
def RecordHeader.memory (header : RecordHeader) : Bytes :=
  [header.version, header.type] ++ storeUInt16 header.id ++ storeUInt16 header.length ++
    [header.padding, header.unused]

/-- `static_cast<uint8_t>(-length & 7)`, of a `size_t`; for the constant
`FCGI_MAX_LENGTH` it is the same in `int`. -/
def paddingOf (length : Nat) : UInt8 := (-(UInt64.ofNat length) &&& 7).toUInt8

/-- The header of a STDOUT record with this many bytes of content. -/
def stdoutHeader (length : Nat) : RecordHeader where
  version := 1
  type := FcgiType.kFcgiStdout.code
  id := hton16 1
  length := hton16 (UInt16.ofNat length)
  padding := paddingOf length
  unused := 0

/-- The statements that append one STDOUT record.  The source has them three
times: for the whole output and for its last piece with `length` the size of
the content, and for a full piece with `length` the constant
`FCGI_MAX_LENGTH`. -/
def appendStdout (response : Buffer) (length : Nat) (content : Bytes) :
    Except Fault Buffer := do
  let response ← response.append (stdoutHeader length).memory
  let response ← response.append content
  response.append (List.replicate (stdoutHeader length).padding.toNat 0)

def endStdout (buf : Buffer) : Except Fault Buffer :=
  let header : RecordHeader := {
    version := 1
    type := FcgiType.kFcgiStdout.code
    id := hton16 1
    length := 0
    padding := 0
    unused := 0 }
  buf.append header.memory

/-- The header of the END_REQUEST record. -/
def endRequestHeader : RecordHeader where
  version := 1
  type := FcgiType.kFcgiEndRequest.code
  id := hton16 1
  length := hton16 (UInt16.ofNat kRecordHeader)
  padding := 0
  unused := 0

def endRequest (buf : Buffer) : Except Fault Buffer := do
  let buf ← buf.append endRequestHeader.memory
  let buf ← buf.appendInt32 0
  buf.appendInt32 0

/-- The page that stands for an empty output. -/
def emptyResult : Bytes :=
  ascii "Content-Type: text/html; charset=UTF-8\r\nContent-Length: 13\r\n\r\nEmpty Result!"

/-- The `else` branch of `respond`: full pieces of `FCGI_MAX_LENGTH` bytes, and
the rest if there is one. -/
def appendSubstrings (response : Buffer) (out : Bytes) : Except Fault Buffer := do
  let numSubstrings := out.length / fcgiMaxLength
  let response ← (List.range numSubstrings).foldlM (fun response i => do
    let outSubString ← substr out (i * fcgiMaxLength) (some fcgiMaxLength)
    appendStdout response fcgiMaxLength outSubString) response
  if out.length % fcgiMaxLength ≠ 0 then do
    let outSubString ← substr out (fcgiMaxLength * numSubstrings) none
    appendStdout response outSubString.length outSubString
  else
    pure response

/-- The statement of `respond` that appends the output. -/
def appendOutput (response : Buffer) (out : Bytes) : Except Fault Buffer :=
  if out.length ≤ fcgiMaxLength then
    appendStdout response out.length out
  else
    appendSubstrings response out

def respond (out : Bytes) (response : Buffer) : Except Fault Buffer := do
  let out := if out = [] then emptyResult else out
  let response ← appendOutput response out
  let response ← endStdout response
  endRequest response

end FastCgi
