/-
Module: FastCgi.Spec.Requests
Layer: Spec
Purpose: The receiving codec on byte strings.  A `RequestState` is what one
  connection has accumulated for the request in progress; records act on it,
  a read drains the records it completes, and a request is handed over at the
  end of the read that completed an empty STDIN record.
Trusted boundary: human-reviewed spec
Main exports: RequestState, RequestState.handle, RequestState.event,
  RequestState.serve, View, View.step, View.run, View.run_eq_serve,
  StreamHomomorphism
-/
import FastCgi.Library.Assignments
import FastCgi.Model.Codec
import FastCgi.Spec.Wire

namespace FastCgi

open Library (assignAll)

/-- What a connection has accumulated for the request in progress. -/
structure RequestState where
  gotRequest : Bool
  keepConn : Bool
  stdin : Bytes
  paramsStream : Bytes
  params : ParamMap
deriving DecidableEq

/-- The state of a fresh codec, and after every hand-over but for `keepConn`. -/
def RequestState.idle (keepConn : Bool) : RequestState where
  gotRequest := false
  keepConn := keepConn
  stdin := []
  paramsStream := []
  params := ∅

/-- The BEGIN_REQUEST bodies that `onBeginRequest` accepts: at least eight
bytes, of which the first two name the responder role. -/
def Record.acceptsBegin (r : Record) : Bool :=
  decide (8 ≤ r.contentData.length ∧ r.contentData.take 2 = [0, 1])

/-- The flags byte of a BEGIN_REQUEST body. -/
def Record.beginFlags (r : Record) : UInt8 := (r.contentData.drop 2).headD 0

/-- What a failed parse leaves of an incomplete pair: the lengths it could
read are gone. -/
def stuckTail (stream : Bytes) : Bytes :=
  match nextLength stream with
  | none => stream
  | some (_, stream) =>
      match nextLength stream with
      | none => stream
      | some (_, stream) => stream

namespace RequestState

/-- The effect of one record. -/
def handle (s : RequestState) (r : Record) : RequestState :=
  match FcgiType.ofCode r.type with
  | some .kFcgiBeginRequest =>
      if r.acceptsBegin then { s with keepConn := r.beginFlags = kFcgiKeepConn } else s
  | some .kFcgiParams =>
      if r.contentData = [] then
        { s with
          paramsStream := stuckTail (pairFraming.drain s.paramsStream).2
          params := assignAll s.params ((pairFraming.drain s.paramsStream).1.map WirePair.entry) }
      else
        { s with paramsStream := s.paramsStream ++ r.contentData }
  | some .kFcgiStdin =>
      if r.contentData = [] then { s with gotRequest := true }
      else { s with stdin := s.stdin ++ r.contentData }
  | _ => s

/-- What the handler of one record answers. -/
def event (s : RequestState) (r : Record) : RecordEvent :=
  match FcgiType.ofCode r.type with
  | some .kFcgiBeginRequest => .beginRequest r.acceptsBegin
  | some .kFcgiParams =>
      if r.contentData = [] then
        .params true ((pairFraming.drain s.paramsStream).2 = [])
      else
        .params false true
  | some .kFcgiStdin => .stdin (r.contentData = [])
  | _ => .ignored

/-- The effect of a list of records. -/
def handleAll (s : RequestState) (records : List Record) : RequestState :=
  records.foldl handle s

/-- The answers along a list of records. -/
def events : RequestState → List Record → List RecordEvent
  | _, [] => []
  | s, r :: records => s.event r :: events (s.handle r) records

@[simp] theorem handleAll_nil (s : RequestState) : s.handleAll [] = s := rfl

@[simp] theorem handleAll_cons (s : RequestState) (r : Record) (records : List Record) :
    s.handleAll (r :: records) = (s.handle r).handleAll records := rfl

theorem handleAll_append (s : RequestState) (first second : List Record) :
    s.handleAll (first ++ second) = (s.handleAll first).handleAll second := by
  rw [handleAll, handleAll, handleAll, List.foldl_append]

theorem events_append (s : RequestState) (first second : List Record) :
    s.events (first ++ second) = s.events first ++ (s.handleAll first).events second := by
  induction first generalizing s with
  | nil => rfl
  | cons r first inductionHypothesis =>
      simp only [List.cons_append, events, handleAll_cons, inductionHypothesis]

/-- What the handler is called with in this state. -/
def invocation (s : RequestState) : Invocation where
  params := s.params
  stdin := s.stdin

/-- The hand-over at the end of a read, as it is seen. -/
def handover (s : RequestState) : List Observation :=
  if s.gotRequest then [.invoked s.invocation] else []

/-- The state after the hand-over. -/
def settle (s : RequestState) : RequestState :=
  if s.gotRequest then .idle s.keepConn else s

/-- Batches of records, one for each read, with a hand-over after each batch
that asks for one. -/
def serve : RequestState → List (List Record) → RequestState × List Observation
  | s, [] => (s, [])
  | s, batch :: batches =>
      let next := serve (s.handleAll batch).settle batches
      (next.1, (s.events batch).map .record ++ (s.handleAll batch).handover ++ next.2)

theorem serve_append (s : RequestState) (first second : List (List Record)) :
    s.serve (first ++ second) =
      (((s.serve first).1.serve second).1,
        (s.serve first).2 ++ ((s.serve first).1.serve second).2) := by
  induction first generalizing s with
  | nil => simp [serve]
  | cons batch first inductionHypothesis =>
      simp only [List.cons_append, serve, inductionHypothesis, List.append_assoc]

end RequestState

@[simp] theorem invocations_append (first second : List Observation) :
    invocations (first ++ second) = invocations first ++ invocations second := by
  simp [invocations]

@[simp] theorem invocations_records (events : List RecordEvent) :
    invocations (events.map .record) = [] := by
  induction events with
  | nil => rfl
  | cons event events inductionHypothesis => exact inductionHypothesis

/-- A connection: the bytes not yet consumed, and the request in progress. -/
structure View where
  pending : Bytes
  request : RequestState
deriving DecidableEq

/-- The view of a fresh codec. -/
def View.fresh : View where
  pending := []
  request := .idle false

namespace View

/-- The records completed by one read. -/
def records (v : View) (data : Bytes) : List Record :=
  (recordFraming.drain (v.pending ++ data)).1

/-- Drain the records completed by one read. -/
def receive (v : View) (data : Bytes) : View where
  pending := (recordFraming.drain (v.pending ++ data)).2
  request := v.request.handleAll (v.records data)

/-- The records do not depend on where the stream is cut. -/
theorem records_append (v : View) (first second : Bytes) :
    v.records (first ++ second) = v.records first ++ (v.receive first).records second := by
  simp only [records, receive, ← List.append_assoc, recordFraming.drain_append (v.pending ++ first)]

/-- Two reads with nothing between them receive what one read would. -/
theorem receive_append (v : View) (first second : Bytes) :
    v.receive (first ++ second) = (v.receive first).receive second := by
  have records := v.records_append first second
  have rest := congrArg Prod.snd (recordFraming.drain_append (v.pending ++ first) second)
  rw [List.append_assoc] at rest
  simp only [receive, records, RequestState.handleAll_append] at rest ⊢
  rw [rest]

/-- What is seen during one read. -/
def seen (v : View) (data : Bytes) : List Observation :=
  (v.request.events (v.records data)).map .record ++ (v.receive data).request.handover

/-- The hand-over of one read. -/
theorem invocations_seen (v : View) (data : Bytes) :
    invocations (v.seen data) =
      if (v.receive data).request.gotRequest then [(v.receive data).request.invocation]
      else [] := by
  rw [seen, invocations_append, invocations_records, List.nil_append, RequestState.handover]
  split <;> rfl

/-- One read: drain it, then hand a request over if one was completed. -/
def step (v : View) (data : Bytes) : View where
  pending := (v.receive data).pending
  request := (v.receive data).request.settle

/-- A sequence of reads: the final view and what was seen. -/
def run : View → List Bytes → View × List Observation
  | v, [] => (v, [])
  | v, data :: reads =>
      ((run (v.step data) reads).1, v.seen data ++ (run (v.step data) reads).2)

/-- The reads matter only through the batches of records they complete. -/
theorem run_eq_serve (v : View) (reads : List Bytes) :
    v.run reads =
      ({ pending := (recordFraming.batches v.pending reads).2
         request := (v.request.serve (recordFraming.batches v.pending reads).1).1 },
        (v.request.serve (recordFraming.batches v.pending reads).1).2) := by
  induction reads generalizing v with
  | nil => rfl
  | cons data reads inductionHypothesis =>
      simp only [run, inductionHypothesis]
      rfl

theorem run_append (v : View) (first second : List Bytes) :
    v.run (first ++ second) =
      (((v.run first).1.run second).1, (v.run first).2 ++ ((v.run first).1.run second).2) := by
  induction first generalizing v with
  | nil => simp [run]
  | cons data first inductionHypothesis =>
      simp only [List.cons_append, run, inductionHypothesis, List.append_assoc]

end View

/-- What a codec stands for. -/
def FastCgiCodec.request (c : FastCgiCodec) : RequestState where
  gotRequest := c.gotRequest
  keepConn := c.keepConn
  stdin := c.stdin.readable
  paramsStream := c.paramsStream.readable
  params := c.params

/-- What a codec and its input buffer stand for. -/
def FastCgiCodec.view (c : FastCgiCodec) : View where
  pending := c.buf.readable
  request := c.request

/-! ### The record loop as a map on streams -/

/-- Append to the input buffer, then run a record loop on it. -/
def appendAndRun (loop : FastCgiCodec → Except Fault (FastCgiCodec × List RecordEvent))
    (c : FastCgiCodec) (data : Bytes) : Except Fault (FastCgiCodec × List RecordEvent) := do
  let buf ← c.buf.append data
  loop { c with buf := buf }

/-- A run that started from `request` consumed of `stream` the longest
beginning made of complete records, and did what these records do. -/
def Consumes (request : RequestState) (stream : Bytes)
    (result : FastCgiCodec × List RecordEvent) : Prop :=
  ∃ records : List Record, LongestRecords stream records ∧
    stream = records.flatMap Record.encode ++ result.1.buf.readable ∧
    result.1.request = request.handleAll records ∧ result.2 = request.events records

/-- A record loop that never fails, consumes whole records only and all of
them, and for which two runs are one run on the concatenation. -/
structure StreamHomomorphism
    (loop : FastCgiCodec → Except Fault (FastCgiCodec × List RecordEvent)) : Prop where
  consumes : ∀ (c : FastCgiCodec) (data : Bytes), ∃ result,
    appendAndRun loop c data = .ok result ∧
      Consumes c.request (c.buf.readable ++ data) result
  appends : ∀ (c : FastCgiCodec) (a b : Bytes), ∃ first second whole,
    appendAndRun loop c a = .ok first ∧ appendAndRun loop first.1 b = .ok second ∧
      appendAndRun loop c (a ++ b) = .ok whole ∧
      second.1.view = whole.1.view ∧ first.2 ++ second.2 = whole.2

end FastCgi
