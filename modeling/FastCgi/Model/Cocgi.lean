/-
Module: FastCgi.Model.Cocgi
Layer: Model
Purpose: `FastCgiCodec::readData` of the cocgi server
  (cocgi/cocgi_lib/fastcgi.cpp), with the request handler `doRequest` as a
  parameter.
Trusted boundary: `int errno;` in `readData` declares the thread's own
  `errno`, which a successful `readv` leaves as earlier calls left it
Main exports: Cocgi.ErrorCode, Cocgi.ReadResult, Cocgi.readData, Cocgi.clear,
  Cocgi.run, Cocgi.returns
-/
import FastCgi.Model.Codec

namespace FastCgi

namespace Cocgi

variable {σ : Type}

/-- `enum error_code_e`. -/
inductive ErrorCode where
  | errOk
  | errSocketRead
  | errSocketWrite
  | errSocketFinish
  | errSocketEagain
deriving Repr, DecidableEq

/-- A value of `errno`. -/
abbrev Errno := Nat

def eagain : Errno := 11

/-- What `readFd` made of one `readv`: a positive count, zero, or minus one. -/
inductive ReadResult where
  | received (data : Bytes)
  | endOfFile
  | failed (errno : Errno)
deriving Repr, DecidableEq

/-- `doRequest`, which may change `m_params` and `m_stdin` of its codec.  `σ`
is the socket and whatever else it may change.  The result is `none` while the
call is still inside `write`. -/
abbrev DoRequest (σ : Type) :=
  ParamMap → Buffer → σ → Except Fault (Option ErrorCode × ParamMap × Buffer × σ)

/-- A request handler that returns. -/
def returning (handler : ParamMap → Buffer → σ → ErrorCode × ParamMap × Buffer × σ) :
    DoRequest σ := fun params stdin world =>
  let (ret, params, stdin, world) := handler params stdin world
  .ok (some ret, params, stdin, world)

/-- The return value of `readData`, the state after it, and what could be seen
on the way. -/
structure ReadData (σ : Type) where
  ret : Option ErrorCode
  codec : FastCgiCodec
  world : σ
  seen : List Observation

/-- `parseFcgiPackage`; the result of the source is always `true`. -/
def parseFcgiPackage (c : FastCgiCodec) : Except Fault (FastCgiCodec × List RecordEvent) :=
  c.parseRecords

/-- The part of `readData` after `parseFcgiPackage`. -/
def answer (doRequest : DoRequest σ) (c : FastCgiCodec) (world : σ)
    (events : List RecordEvent) : Except Fault (ReadData σ) := do
  if c.gotRequest then
    let seen := events.map .record ++ [.invoked ⟨c.params, c.stdin.readable⟩]
    match ← doRequest c.params c.stdin world with
    | (none, params, stdin, world) =>
        return { ret := none, codec := { c with params := params, stdin := stdin }, world, seen }
    | (some ret, params, stdin, world) =>
        let c := { c with params := params, stdin := stdin }.clearRequest
        if !c.keepConn && ret = .errOk then
          return { ret := some .errSocketFinish, codec := c, world, seen }
        else
          return { ret := some .errOk, codec := c, world, seen }
  else
    return { ret := some .errOk, codec := c, world, seen := events.map .record }

/-- `readData`, with the value `errno` has before the call. -/
def readData (doRequest : DoRequest σ) (errno : Errno) (c : FastCgiCodec) (world : σ) :
    ReadResult → Except Fault (ReadData σ)
  | .received data => do
      let buf ← c.buf.readFd data
      let (c, events) ← parseFcgiPackage { c with buf := buf }
      answer doRequest c world events
  | .endOfFile =>
      if errno = eagain then
        return { ret := some .errSocketEagain, codec := c, world, seen := [] }
      else
        return { ret := some .errSocketRead, codec := c, world, seen := [] }
  | .failed errno =>
      if errno = eagain then
        return { ret := some .errSocketEagain, codec := c, world, seen := [] }
      else
        return { ret := some .errSocketRead, codec := c, world, seen := [] }

/-- `FastCgiCodec::clear`. -/
def clear (c : FastCgiCodec) : FastCgiCodec :=
  { c.clearRequest with
    keepConn := false
    buf := c.buf.retrieveAll }

/-- Successive calls of `readData` that each receive data, whatever error code
they return. -/
def run (doRequest : DoRequest σ) (errno : Errno) : FastCgiCodec → σ → List Bytes →
    Except Fault (FastCgiCodec × σ × List Observation)
  | c, world, [] => .ok (c, world, [])
  | c, world, data :: reads => do
      let read ← readData doRequest errno c world (.received data)
      match read.ret with
      | none => return (read.codec, read.world, read.seen)
      | some _ =>
          let (c, world, seen) ← run doRequest errno read.codec read.world reads
          return (c, world, read.seen ++ seen)

/-- What these calls of `readData` return; a call that is still inside
`doRequest` is the last. -/
def returns (doRequest : DoRequest σ) (errno : Errno) : FastCgiCodec → σ → List Bytes →
    Except Fault (List ErrorCode)
  | _, _, [] => .ok []
  | c, world, data :: reads => do
      let read ← readData doRequest errno c world (.received data)
      match read.ret with
      | none => return []
      | some ret =>
          let later ← returns doRequest errno read.codec read.world reads
          return ret :: later

end Cocgi

end FastCgi
