/-
Module: FastCgi.Model.Handlers
Layer: Model
Purpose: The request handlers of the two servers, `onRequest` (mucgi/main.cpp)
  and `FastCgiCodec::doRequest` (cocgi/cocgi_lib/fastcgi.cpp), and the loop of
  `CCocgiServer::RealReadwriteRoutine` (cocgi/cocgi_lib/cocgi.cpp) that serves
  one connection with the latter.
Trusted boundary: the backend returns, and its output depends on nothing but
  the calls made so far (two calls may still differ in their output);
  `boost::to_lower_copy`, which is not part of the sources, is `tolower` on every
  character; log lines are left out
Main exports: BackendCall, Backend, Event, Mucgi.onRequest, Cocgi.Socket,
  Cocgi.writeLoop, Cocgi.doRequest, Cocgi.readwriteTurns, Cocgi.readwriteLoop,
  Cocgi.serveConnection, Cocgi.transcript, Cocgi.Operation, Cocgi.turns,
  Cocgi.operations
-/
import FastCgi.Library.Assignments
import FastCgi.Model.Cgicc
import FastCgi.Model.Cocgi
import FastCgi.Model.Mucgi
import FastCgi.Model.Respond

namespace FastCgi

open Library (assignAll)

/-- The arguments of one backend call. -/
structure BackendCall where
  qmap : ParamMap
  header : ParamMap
deriving DecidableEq

/-- The backend: `BackendProc::printRequest` in mucgi, `m_callBack` in cocgi.
The first argument are the earlier calls. -/
abbrev Backend := List BackendCall → BackendCall → Bytes

/-- What a handler does that can be seen from outside: it calls the backend,
has built a response, and in cocgi writes to the socket. -/
inductive Event where
  | called (call : BackendCall)
  | responded (response : Bytes)
  | wrote (data : Bytes)
  | writeFailed (errno : Cocgi.Errno)
deriving DecidableEq

/-- The backend call of an event. -/
def Event.call? : Event → Option BackendCall
  | .called call => some call
  | _ => none

/-- The backend calls of a trace. -/
def calls (trace : List Event) : List BackendCall := trace.filterMap Event.call?

/-- `map[key]` as an expression: a missing key is inserted with the empty
string. -/
def subscript (map : ParamMap) (key : Bytes) : Bytes × ParamMap :=
  match map[key]? with
  | some value => (value, map)
  | none => ([], map.insert key [])

/-- `postData`, with the buffer left behind. -/
def takePostData (stdin : Buffer) : Except Fault (Bytes × Buffer) :=
  if 0 < stdin.readableBytes then stdin.retrieveAllAsString else .ok ([], stdin)

/-- The pairs that the loop over `getCookieList()` assigns. -/
def Cgicc.cookiePairs (cgi : Cgicc) : List (Bytes × Bytes) :=
  cgi.cookies.map fun cookie => (cookie.name, cookie.value)

/-- The pairs that the loop over `getFiles()` stores. -/
def Cgicc.filePairs (cgi : Cgicc) : List (Bytes × Bytes) :=
  cgi.formFiles.map fun file => (file.name, file.data)

/-! ### mucgi -/

namespace Mucgi

/-- `map.insert` for every pair in turn: a name that is there stays. -/
def insertAll (map : ParamMap) (pairs : List (Bytes × Bytes)) : ParamMap :=
  pairs.foldl (fun map pair => map.insertIfNew pair.1 pair.2) map

/-- `boost::to_lower_copy`. -/
def toLowerCopy (text : Bytes) : Bytes := text.map tolower

/-- The pairs that the loop over `getElements()` stores. -/
def elementPairs (cgi : Cgicc) : List (Bytes × Bytes) :=
  cgi.formData.map fun element => (toLowerCopy element.name, element.value)

/-- `conn->send(&response)` hands the response over to the connection, whose
trace is the state here. -/
def onRequest (printRequest : Backend) : Callback (List Event) := fun params input conn => do
  let (queryString, params) := subscript params (ascii "QUERY_STRING")
  let (queryType, params) := subscript params (ascii "CONTENT_TYPE")
  let (queryCookie, params) := subscript params (ascii "HTTP_COOKIE")
  let (postData, input) ← takePostData input
  let cgi ← Cgicc.construct queryString queryCookie postData queryType
  let qmap := insertAll (insertAll ∅ (elementPairs cgi)) cgi.filePairs
  let header := assignAll (assignAll ∅ params.toList) cgi.cookiePairs
  let call : BackendCall := { qmap := qmap, header := header }
  let res := printRequest (calls conn) call
  let response ← respond res .empty
  return (params, input, conn ++ [.called call, .responded response.readable])

end Mucgi

/-! ### cocgi -/

namespace Cocgi

/-- What `write` is going to make of a request to write: it takes this many
bytes, or as many as it is given if they are fewer, or it fails. -/
inductive WriteResult where
  | accepted (count : Nat)
  | failed (errno : Errno)
deriving Repr, DecidableEq

/-- The socket: the results of the writes to come, and what happened on the
connection. -/
structure Socket where
  script : List WriteResult
  trace : List Event

/-- `if (n > 0) response.retrieve(n);` -/
def retrieveWritten (response : Buffer) (n : Nat) : Except Fault Buffer :=
  if 0 < n then response.retrieve n else .ok response

/-- The loop of `doRequest` that writes the response: its return value, the
results that are left, and its writes.  Without a result the loop is still
inside `write`. -/
def writeLoop : List WriteResult → Buffer →
    Except Fault (Option ErrorCode × List WriteResult × List Event)
  | [], response =>
      if 0 < response.readableBytes then .ok (none, [], []) else .ok (some .errOk, [], [])
  | result :: script, response =>
      if 0 < response.readableBytes then
        match result with
        | .failed errno => .ok (some .errSocketWrite, script, [.writeFailed errno])
        | .accepted count => do
            let n := min count response.readableBytes
            let data ← response.bytesAt 0 n
            let response ← retrieveWritten response n
            let (ret, script, writes) ← writeLoop script response
            return (ret, script, .wrote data :: writes)
      else
        .ok (some .errOk, result :: script, [])

/-- The pairs that the loop over `getElements()` assigns. -/
def elementPairs (cgi : Cgicc) : List (Bytes × Bytes) :=
  cgi.formData.map fun element => (element.name, element.value)

def doRequest (callBack : Option Backend) : DoRequest Socket := fun params stdin socket => do
  let (queryString, params) := subscript params (ascii "QUERY_STRING")
  let (queryType, params) := subscript params (ascii "CONTENT_TYPE")
  let (queryCookie, params) := subscript params (ascii "HTTP_COOKIE")
  let (postData, stdin) ← takePostData stdin
  let cgi ← Cgicc.construct queryString queryCookie postData queryType
  let qmap := assignAll (assignAll ∅ (elementPairs cgi)) cgi.filePairs
  let header := assignAll params cgi.cookiePairs
  let call : BackendCall := { qmap := qmap, header := header }
  let (res, called) : Bytes × List Event :=
    match callBack with
    | some callBack => (callBack (calls socket.trace) call, [.called call])
    | none => ([], [])
  let response ← respond res .empty
  let (ret, script, writes) ← writeLoop socket.script response
  return (ret, params, stdin, {
    script := script
    trace := socket.trace ++ called ++ .responded response.readable :: writes })

/-! ### The loop over one connection -/

def maxRecycleCount : Nat := 60

/-- Where a coroutine is in the loop over its connection. -/
inductive Phase where
  | polling (recycle : Nat)
  | writing
  | closed
deriving Repr, DecidableEq

/-- What the loop does after a call of `readData`: another turn with this
count, or it stops. -/
def nextTurn (recycle : Nat) : Option ErrorCode → Nat ⊕ Phase
  | none => .inr .writing
  | some .errOk => .inl 0
  | some .errSocketEagain =>
      if recycle ≥ maxRecycleCount then .inr .closed else .inl (recycle + 1)
  | some _ => .inr .closed

/-- One turn of the loop: what its call of `readData` found and made of it. -/
structure Turn {σ : Type} (doRequest : DoRequest σ) where
  errno : Errno
  codec : FastCgiCodec
  world : σ
  result : ReadResult
  read : ReadData σ
  called : readData doRequest errno codec world result = .ok read

/-- How a run of the loop ends: it has come this far, or `readData` failed on
this read. -/
inductive Stop where
  | stands (phase : Phase)
  | faulted (result : ReadResult) (fault : Fault)
deriving Repr, DecidableEq

/-- The inner loop of `RealReadwriteRoutine`, over what the reads bring and
the values of `errno` before them: its turns, and how they end.  Every turn
begins with `co_poll`, which waits for one second at most. -/
def readwriteTurns {σ : Type} (doRequest : DoRequest σ) (recycle : Nat) (c : FastCgiCodec)
    (world : σ) : List (Errno × ReadResult) → List (Turn doRequest) × Stop
  | [] => ([], .stands (.polling recycle))
  | (errno, result) :: reads =>
      match called : readData doRequest errno c world result with
      | .error fault => ([], .faulted result fault)
      | .ok read =>
          match nextTurn recycle read.ret with
          | .inl recycle =>
              let later := readwriteTurns doRequest recycle read.codec read.world reads
              (⟨errno, c, world, result, read, called⟩ :: later.1, later.2)
          | .inr phase => ([⟨errno, c, world, result, read, called⟩], .stands phase)

/-! ### What can be seen of it -/

/-- Where the loop stands, or the fault that stopped it. -/
def Stop.phase : Stop → Except Fault Phase
  | .stands phase => .ok phase
  | .faulted _ fault => .error fault

/-- The connection after some reads. -/
structure Serving (σ : Type) where
  phase : Phase
  codec : FastCgiCodec
  world : σ

/-- The connection after these reads: as its last turn left it. -/
def readwriteLoop {σ : Type} (doRequest : DoRequest σ) (recycle : Nat) (c : FastCgiCodec)
    (world : σ) (reads : List (Errno × ReadResult)) : Except Fault (Serving σ) :=
  let (turns, stop) := readwriteTurns doRequest recycle c world reads
  stop.phase.map fun phase => {
    phase := phase
    codec := (turns.map fun turn => turn.read.codec).getLastD c
    world := (turns.map fun turn => turn.read.world).getLastD world }

/-- A connection from the moment a coroutine takes its descriptor. -/
def serveConnection {σ : Type} (doRequest : DoRequest σ) (c : FastCgiCodec) (world : σ)
    (reads : List (Errno × ReadResult)) : Except Fault (Serving σ) :=
  readwriteLoop doRequest 0 (clear c) world reads

/-- What one call of `readData` shows: its return value, the state of the
socket after it, and the records and the hand-over it made. -/
structure Reading (σ : Type) where
  ret : Option ErrorCode
  world : σ
  seen : List Observation

def ReadData.reading {σ : Type} (read : ReadData σ) : Reading σ where
  ret := read.ret
  world := read.world
  seen := read.seen

/-- The calls of `readData` that the loop makes, and where it is after them or
the fault that stopped it. -/
def transcript {σ : Type} (doRequest : DoRequest σ) (recycle : Nat) (c : FastCgiCodec)
    (world : σ) (reads : List (Errno × ReadResult)) : List (Reading σ) × Except Fault Phase :=
  let (turns, stop) := readwriteTurns doRequest recycle c world reads
  (turns.map fun turn => turn.read.reading, stop.phase)

/-! ### What the routine does with its descriptor -/

/-- An operation on the descriptor of a connection. -/
inductive Operation where
  | read (result : ReadResult)
  | wrote (data : Bytes)
  | writeFailed (errno : Errno)
  | close
deriving Repr, DecidableEq

/-- The operation that an event of the socket is. -/
def operationOf : Event → Option Operation
  | .wrote data => some (.wrote data)
  | .writeFailed errno => some (.writeFailed errno)
  | _ => none

/-- What happened on the socket from one state of it to a later one. -/
def eventsBetween (before after : Socket) : List Event := after.trace.drop before.trace.length

/-- The operations of one call of `readData`. -/
def readOperations (socket : Socket) (result : ReadResult) (read : ReadData Socket) :
    List Operation :=
  .read result :: (eventsBetween socket read.world).filterMap operationOf

def Turn.operations {doRequest : DoRequest Socket} (turn : Turn doRequest) : List Operation :=
  readOperations turn.world turn.result turn.read

/-- What the routine does with its descriptor when the loop stops. -/
def Phase.operations : Phase → List Operation
  | .closed => [.close]
  | _ => []

/-- A fault comes before the first write of its turn. -/
def Stop.operations : Stop → List Operation
  | .stands phase => phase.operations
  | .faulted result _ => [.read result]

/-- The turns that the loop makes.  A turn that ends with a fault is left
out. -/
def turns (doRequest : DoRequest Socket) (recycle : Nat) (c : FastCgiCodec) (socket : Socket)
    (reads : List (Errno × ReadResult)) : List (Turn doRequest) :=
  (readwriteTurns doRequest recycle c socket reads).1

/-- The operations of the loop on its descriptor. -/
def operations (doRequest : DoRequest Socket) (recycle : Nat) (c : FastCgiCodec)
    (socket : Socket) (reads : List (Errno × ReadResult)) : List Operation :=
  let (turns, stop) := readwriteTurns doRequest recycle c socket reads
  turns.flatMap Turn.operations ++ stop.operations

end Cocgi

end FastCgi
