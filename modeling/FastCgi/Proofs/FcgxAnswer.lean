/-
Module: FastCgi.Proofs.FcgxAnswer
Layer: Proofs
Purpose: The two output streams of a request over any sequence of calls.  The
  records on the wire and the two buffers carry what was put into each stream;
  `FCGX_Finish_r` completes the answer.
Trusted boundary: none
Main exports: Fcgx.OutputInvariant, Fcgx.outputInvariant_start,
  Fcgx.outputInvariant_step, Fcgx.outputInvariant_run, Fcgx.answer_complete
-/
import FastCgi.Proofs.FcgxOutput

namespace FastCgi

namespace Fcgx

/-! ### Records of a stream -/

theorem isOf_streamRecord (type type' : FcgiType) (requestId : Nat) (content : Bytes) :
    (streamRecord type.code requestId content).isOf type' = decide (type = type') := by
  simp [Record.isOf, streamRecord, FcgiType.ofCode_code]

theorem isOf_endRecord (type : FcgiType) (requestId : Nat) (appStatus : UInt32) :
    (endRecord requestId appStatus).isOf type = decide (.kFcgiEndRequest = type) := by
  simp [Record.isOf, endRecord, FcgiType.ofCode_code]

/-- The records that carry these pieces. -/
def pieceRecords (type : UInt8) (requestId : Nat) (pieces : List Bytes) : List Record :=
  pieces.map (streamRecord type requestId)

theorem flatMap_pieceRecords (type : UInt8) (requestId : Nat) (pieces : List Bytes) :
    (pieceRecords type requestId pieces).flatMap Record.encode =
      pieceBytes type requestId pieces := by
  rw [pieceRecords, List.flatMap_map]
  rfl

/-- Pieces that fit are the contents of their records, and of no others. -/
theorem contentsOf_pieceRecords (type type' : FcgiType) (requestId : Nat) {pieces : List Bytes}
    (fits : ∀ piece ∈ pieces, piece.length ≤ fcgiMaxLength) :
    contentsOf type' (pieceRecords type.code requestId pieces) =
      if type = type' then pieces else [] := by
  induction pieces with
  | nil => simp [contentsOf, pieceRecords]
  | cons piece pieces inductionHypothesis =>
      have head : pieceRecords type.code requestId (piece :: pieces) =
          [streamRecord type.code requestId piece] ++
            pieceRecords type.code requestId pieces := rfl
      have content : (streamRecord type.code requestId piece).contentData = piece :=
        List.take_of_length_le (fits piece List.mem_cons_self)
      rw [head, contentsOf_append, contentsOf_singleton, isOf_streamRecord, content,
        inductionHypothesis fun piece member => fits piece (List.mem_cons_of_mem _ member)]
      by_cases same : type = type'
      · simp [same]
      · simp [same]

/-- A record of the request with this id, as the streams send it. -/
structure Sendable (requestId : Nat) (r : Record) : Prop where
  version : r.version = 1
  id : r.requestId = requestId
  type : r.isOf .kFcgiStdout = true ∨ r.isOf .kFcgiStderr = true ∨
    r.isOf .kFcgiEndRequest = true
  aligned : 8 ∣ r.encode.length

theorem requestId_bytes {requestId : Nat} (small : requestId < 2 ^ 16) :
    2 ^ 8 * (UInt8.ofNat (requestId / 2 ^ 8)).toNat + (UInt8.ofNat requestId).toNat =
      requestId := by
  rw [← ofNat_mod requestId]
  exact contentLength_decode small

theorem sendable_streamRecord {requestId : Nat} (small : requestId < 2 ^ 16) (name : StreamName)
    {content : Bytes} (fits : content.length ≤ fcgiMaxLength) :
    Sendable requestId (streamRecord name.type.code requestId content) where
  version := rfl
  id := requestId_bytes small
  type := by
    cases name with
    | out => exact Or.inl (isOf_streamRecord _ _ _ _)
    | err => exact Or.inr (Or.inl (isOf_streamRecord _ _ _ _))
  aligned := by
    rw [Record.length_encode]
    simp only [streamRecord, List.take_of_length_le fits, List.length_replicate]
    omega

theorem sendable_endRecord {requestId : Nat} (small : requestId < 2 ^ 16) (appStatus : UInt32) :
    Sendable requestId (endRecord requestId appStatus) where
  version := rfl
  id := requestId_bytes small
  type := Or.inr (Or.inr (isOf_endRecord _ _ _))
  aligned := ⟨2, rfl⟩

/-! ### The invariant -/

/-- Whether a closed stream is ended by an empty record. -/
def StreamName.ended (name : StreamName) (content : Bytes) : Bool :=
  match name with
  | .out => true
  | .err => decide (content ≠ [])

/-- One stream, against what was put into it and the contents of its records
so far. -/
inductive StreamState (name : StreamName) (stream : OutputStream) (content : Bytes)
    (contents : List Bytes) : Bool → Prop
  | running (opened : stream.Open name.type.code) (nonempty : ∀ piece ∈ contents, piece ≠ [])
      (carried : contents.flatten ++ stream.pending = content)
      (written : stream.isAnythingWritten = !contents.isEmpty) :
      StreamState name stream content contents false
  | closed (closed : stream.Closed) (pieces : List Bytes)
      (framed : StreamFramed contents content (name.ended content) pieces) :
      StreamState name stream content contents true

/-- The records sent so far end with the END_REQUEST record if both streams are
closed, and have none otherwise. -/
def Ending (requestId : Nat) (sent : Sent) (records : List Record) : Prop :=
  if sent.finished then
    ∃ earlier, records = earlier ++ [endRecord requestId sent.appStatus] ∧
      ∀ r ∈ earlier, r.isOf .kFcgiEndRequest = false
  else ∀ r ∈ records, r.isOf .kFcgiEndRequest = false

/-- The number of open streams. -/
def Sent.writers (sent : Sent) : Nat :=
  (if sent.closed .out then 0 else 1) + if sent.closed .err then 0 else 1

/-- The two streams on their connection, against what was put into them and the
records sent since `before`. -/
structure OutputInvariant (request : Request) (before : Bytes) (output : Output) (sent : Sent)
    (records : List Record) : Prop where
  wire : output.ipc.received = before ++ records.flatMap Record.encode
  accepting : output.ipc.Accepting
  id : output.request.requestId = request.requestId
  keep : output.request.keepConnection = request.keepConnection
  writers : output.request.nWriters = sent.writers
  status : sent.finished = false → output.request.appStatus = sent.appStatus
  streams : ∀ name, StreamState name (output.stream name) (sent.content name)
    (contentsOf name.type records) (sent.closed name)
  sendable : ∀ r ∈ records, Sendable request.requestId r
  ending : Ending request.requestId sent records

@[simp] theorem ipc_setStream (output : Output) (name : StreamName) (stream : OutputStream)
    (ipc : Ipc) : (output.setStream name stream ipc).ipc = ipc := by
  cases name with
  | out => rfl
  | err => rfl

@[simp] theorem request_setStream (output : Output) (name : StreamName) (stream : OutputStream)
    (ipc : Ipc) : (output.setStream name stream ipc).request = output.request := by
  cases name with
  | out => rfl
  | err => rfl

theorem stream_setStream (output : Output) (name other : StreamName) (stream : OutputStream)
    (ipc : Ipc) :
    (output.setStream name stream ipc).stream other =
      if other = name then stream else output.stream other := by
  cases name with
  | out => cases other with
      | out => rfl
      | err => rfl
  | err => cases other with
      | out => rfl
      | err => rfl

theorem StreamName.type_inj {name other : StreamName} : name.type = other.type ↔ name = other := by
  cases name with
  | out => cases other with
      | out => simp
      | err => simp [StreamName.type]
  | err => cases other with
      | out => simp [StreamName.type]
      | err => simp

theorem StreamName.type_ne_end (name : StreamName) : name.type ≠ .kFcgiEndRequest := by
  cases name with
  | out => decide
  | err => decide

theorem not_finished_of_open {sent : Sent} {name : StreamName}
    (running : sent.closed name = false) :
    sent.finished = false := by
  cases name with
  | out => simp [Sent.finished, running]
  | err => simp [Sent.finished, running]

section Step

variable {request : Request} {before : Bytes} {output : Output} {sent : Sent}
  {records : List Record} {name : StreamName}

/-- Records of an open stream are no end of the request. -/
theorem Ending.append_of_not_finished {requestId : Nat} (ending : Ending requestId sent records)
    (open_ : sent.finished = false) {more : List Record}
    (streamsOnly : ∀ r ∈ more, r.isOf .kFcgiEndRequest = false) :
    ∀ r ∈ records ++ more, r.isOf .kFcgiEndRequest = false := by
  rw [Ending, open_, if_neg (by decide)] at ending
  intro r member
  rcases List.mem_append.mp member with earlier | later
  · exact ending r earlier
  · exact streamsOnly r later

theorem pieceRecords_not_end {requestId : Nat} {pieces : List Bytes} :
    ∀ r ∈ pieceRecords name.type.code requestId pieces, r.isOf .kFcgiEndRequest = false := by
  intro r member
  obtain ⟨piece, _, rfl⟩ := List.mem_map.mp member
  rw [isOf_streamRecord]
  exact decide_eq_false name.type_ne_end

theorem pieceRecords_sendable {requestId : Nat} (small : requestId < 2 ^ 16)
    {pieces : List Bytes} (fits : ∀ piece ∈ pieces, piece.length ≤ fcgiMaxLength) :
    ∀ r ∈ pieceRecords name.type.code requestId pieces, Sendable requestId r := by
  intro r member
  obtain ⟨piece, inside, rfl⟩ := List.mem_map.mp member
  exact sendable_streamRecord small name (fits piece inside)

/-- An open stream has put a string, in part into records. -/
theorem OutputInvariant.emits (invariant : OutputInvariant request before output sent records)
    (small : request.requestId < 2 ^ 16) (running : sent.closed name = false)
    {pieces : List Bytes} {stream : OutputStream} {ipc : Ipc} {str : Bytes}
    (emitted : Emitted name.type.code request.requestId (output.stream name) output.ipc pieces
      stream ipc str) :
    OutputInvariant request before (output.setStream name stream ipc) (sent.put name str)
      (records ++ pieceRecords name.type.code request.requestId pieces) := by
  have open_ := not_finished_of_open running
  have put : sent.put name str =
      { sent with content := Function.update sent.content name (sent.content name ++ str) } :=
    if_neg (by simp [running])
  rw [put]
  constructor
  · rw [ipc_setStream, emitted.took.received, invariant.wire, List.flatMap_append,
      flatMap_pieceRecords, List.append_assoc]
  · rw [ipc_setStream]
    exact emitted.took.accepting invariant.accepting
  · rw [request_setStream]
    exact invariant.id
  · rw [request_setStream]
    exact invariant.keep
  · rw [request_setStream]
    exact invariant.writers
  · rw [request_setStream]
    exact invariant.status
  · intro other
    rw [stream_setStream, contentsOf_append, contentsOf_pieceRecords _ _ _ emitted.fits]
    by_cases same : other = name
    · subst same
      have state := invariant.streams other
      simp only [running, if_true, Function.update_self] at state ⊢
      cases state with
      | running opened nonempty carried written =>
          refine .running emitted.opened ?_ ?_ ?_
          · intro piece member
            rcases List.mem_append.mp member with earlier | later
            · exact nonempty piece earlier
            · exact emitted.nonempty piece later
          · rw [List.flatten_append, List.append_assoc, emitted.carried, ← List.append_assoc,
              carried]
          · rw [emitted.written, written]
            cases contentsOf other.type records with
            | nil => simp
            | cons piece pieces => simp
    · have different : name.type ≠ other.type := fun equal =>
        same (StreamName.type_inj.mp equal).symm
      rw [if_neg same, if_neg different, List.append_nil]
      simp only [Function.update_of_ne same]
      exact invariant.streams other
  · intro r member
    rcases List.mem_append.mp member with earlier | later
    · exact invariant.sendable r earlier
    · exact pieceRecords_sendable small emitted.fits r later
  · rw [Ending, if_neg (by simpa [Sent.finished] using open_)]
    exact invariant.ending.append_of_not_finished open_ pieceRecords_not_end

/-- The end of a stream is an empty record, which an error stream does without
if nothing was put into it. -/
theorem contentsOf_endOfStream {requestId : Nat} {stream : OutputStream} {content : Bytes}
    {contents : List Bytes} (opened : stream.Open name.type.code)
    (nonempty : ∀ piece ∈ contents, piece ≠ [])
    (carried : contents.flatten ++ stream.pending = content)
    (written : stream.isAnythingWritten = !contents.isEmpty) (type : FcgiType) :
    contentsOf type (endOfStream requestId stream) =
      if name.type = type ∧ name.ended content = true then [[]] else [] := by
  have empty : (streamRecord name.type.code requestId []).contentData = [] := rfl
  rw [endOfStream, opened.records]
  cases name with
  | out =>
      rw [if_neg (by simp [StreamName.type, FcgiType.code]), contentsOf_singleton,
        isOf_streamRecord, empty]
      by_cases same : StreamName.out.type = type
      · simp [same, StreamName.ended]
      · simp [same]
  | err =>
      -- nothing was put exactly if there is no record and the buffer is empty
      have nothing : stream.pending = [] ∧ stream.isAnythingWritten = false ↔ content = [] := by
        rw [written, ← carried, List.append_eq_nil_iff, List.flatten_eq_nil_iff]
        constructor
        · rintro ⟨none, unwritten⟩
          refine ⟨?_, none⟩
          cases contents with
          | nil => simp
          | cons piece pieces => simp at unwritten
        · rintro ⟨none, pending⟩
          refine ⟨pending, ?_⟩
          cases contents with
          | nil => rfl
          | cons piece pieces =>
              exact absurd (none piece List.mem_cons_self) (nonempty piece List.mem_cons_self)
      by_cases none : content = []
      · rw [if_pos ⟨rfl, nothing.mpr none⟩]
        simp [contentsOf, StreamName.ended, none]
      · rw [if_neg fun skipped => none (nothing.mp skipped.2), contentsOf_singleton,
          isOf_streamRecord, empty]
        by_cases same : StreamName.err.type = type
        · simp [same, StreamName.ended, none]
        · simp [same]

theorem endOfStream_streamRecord {requestId : Nat} {stream : OutputStream}
    (opened : stream.Open name.type.code) :
    ∀ r ∈ endOfStream requestId stream, r = streamRecord name.type.code requestId [] := by
  intro r member
  unfold endOfStream at member
  split at member
  · cases member
  · rw [List.mem_singleton.mp member, opened.records]

theorem mem_endOfRequest {request : Request} {r : Record} (member : r ∈ endOfRequest request) :
    r = endRecord request.requestId request.appStatus := by
  unfold endOfRequest at member
  split at member
  · exact List.mem_singleton.mp member
  · cases member

theorem contentsOf_endOfRequest (request : Request) :
    contentsOf name.type (endOfRequest request) = [] := by
  unfold endOfRequest
  split
  · rw [contentsOf_singleton, isOf_endRecord]
    simp [name.type_ne_end.symm]
  · rfl

/-- Closing one of two open streams leaves the request open; closing the last
one ends it. -/
theorem writers_of_open (running : sent.closed name = false) :
    (sent.writers = 1 ∧ (sent.step (.fClose name)).finished = true ∨
        sent.writers = 2 ∧ (sent.step (.fClose name)).finished = false) ∧
      (sent.step (.fClose name)).writers = sent.writers - 1 := by
  cases name with
  | out =>
      cases other : sent.closed .err with
      | false => simp [Sent.writers, Sent.step, Sent.finished, running, other]
      | true => simp [Sent.writers, Sent.step, Sent.finished, running, other]
  | err =>
      cases other : sent.closed .out with
      | false => simp [Sent.writers, Sent.step, Sent.finished, running, other]
      | true => simp [Sent.writers, Sent.step, Sent.finished, running, other]

/-- An open stream was closed. -/
theorem OutputInvariant.closes (invariant : OutputInvariant request before output sent records)
    (small : request.requestId < 2 ^ 16) (running : sent.closed name = false)
    {stream : OutputStream} {ipc : Ipc} (closed : stream.Closed)
    (took : output.ipc.Took
      (pieceBytes name.type.code output.request.requestId (onePiece (output.stream name).pending) ++
        (endOfStream output.request.requestId (output.stream name) ++
          endOfRequest output.request).flatMap Record.encode) ipc) :
    OutputInvariant request before
      ({ output with
         request := { output.request with
           nWriters := output.request.nWriters - 1 } }.setStream name stream ipc)
      (sent.step (.fClose name))
      (records ++ (pieceRecords name.type.code request.requestId
          (onePiece (output.stream name).pending) ++
        (endOfStream request.requestId (output.stream name) ++ endOfRequest output.request))) := by
  have open_ := not_finished_of_open running
  have status := invariant.status open_
  have writers := writers_of_open running
  have state := invariant.streams name
  rw [running] at state
  rw [invariant.id] at took
  cases state with
  | running opened nonempty carried written =>
      have pending_fits : ∀ piece ∈ onePiece (output.stream name).pending,
          piece.length ≤ fcgiMaxLength := by
        intro piece member
        rw [(mem_onePiece member).1]
        exact opened.pending_fits
      constructor
      · rw [ipc_setStream, took.received, invariant.wire]
        simp only [List.flatMap_append, flatMap_pieceRecords, List.append_assoc]
      · rw [ipc_setStream]
        exact took.accepting invariant.accepting
      · rw [request_setStream]
        exact invariant.id
      · rw [request_setStream]
        exact invariant.keep
      · rw [request_setStream]
        simp only
        rw [invariant.writers, writers.2]
      · intro _
        rw [request_setStream]
        exact status
      · intro other
        rw [stream_setStream, contentsOf_append, contentsOf_append, contentsOf_append,
          contentsOf_pieceRecords _ _ _ pending_fits, contentsOf_endOfRequest, List.append_nil,
          contentsOf_endOfStream opened nonempty carried written]
        by_cases same : other = name
        · subst same
          simp only [Sent.step, if_true, Function.update_self, true_and]
          refine .closed closed
            (contentsOf other.type records ++ onePiece (output.stream other).pending)
            ⟨by rw [List.append_assoc], ?_, ?_⟩
          · intro piece member
            rcases List.mem_append.mp member with earlier | last
            · exact nonempty piece earlier
            · rw [(mem_onePiece last).1]
              exact (mem_onePiece last).2
          · rw [List.flatten_append, flatten_onePiece, carried]
        · have different : name.type ≠ other.type := fun equal =>
            same (StreamName.type_inj.mp equal).symm
          simp only [if_neg same, different, false_and, if_false,
            List.append_nil, Sent.step, Function.update_of_ne same]
          exact invariant.streams other
      · intro r member
        rcases List.mem_append.mp member with earlier | later
        · exact invariant.sendable r earlier
        · rcases List.mem_append.mp later with content | ends
          · exact pieceRecords_sendable small pending_fits r content
          · rcases List.mem_append.mp ends with ofStream | ofRequest
            · rw [endOfStream_streamRecord opened r ofStream]
              exact sendable_streamRecord small name (Nat.zero_le _)
            · rw [mem_endOfRequest ofRequest, invariant.id]
              exact sendable_endRecord small _
      · -- what is sent before the end of the request does not end it
        have streamsOnly : ∀ r ∈ records ++ (pieceRecords name.type.code request.requestId
            (onePiece (output.stream name).pending) ++
            endOfStream request.requestId (output.stream name)),
            r.isOf .kFcgiEndRequest = false := by
          refine invariant.ending.append_of_not_finished open_ ?_
          intro r member
          rcases List.mem_append.mp member with content | ofStream
          · exact pieceRecords_not_end r content
          · rw [endOfStream_streamRecord opened r ofStream, isOf_streamRecord]
            exact decide_eq_false name.type_ne_end
        rw [Ending, endOfRequest, invariant.writers, ← List.append_assoc, ← List.append_assoc,
          List.append_assoc records]
        rcases writers.1 with ⟨one, finished⟩ | ⟨two, unfinished⟩
        · rw [if_pos finished, if_pos one]
          refine ⟨_, ?_, streamsOnly⟩
          rw [invariant.id, status]
          rfl
        · rw [if_neg (by simp [unfinished]), if_neg (by omega), List.append_nil]
          exact streamsOnly

/-- A closed stream stays closed. -/
theorem OutputInvariant.idles (invariant : OutputInvariant request before output sent records)
    (isClosed : sent.closed name = true) {stream : OutputStream} (closed : stream.Closed) :
    OutputInvariant request before (output.setStream name stream output.ipc) sent records := by
  refine ⟨?_, ?_, ?_, ?_, ?_, ?_, ?_, invariant.sendable, invariant.ending⟩
  · rw [ipc_setStream]
    exact invariant.wire
  · rw [ipc_setStream]
    exact invariant.accepting
  · rw [request_setStream]
    exact invariant.id
  · rw [request_setStream]
    exact invariant.keep
  · rw [request_setStream]
    exact invariant.writers
  · rw [request_setStream]
    exact invariant.status
  · intro other
    rw [stream_setStream]
    have state := invariant.streams other
    by_cases same : other = name
    · subst same
      rw [isClosed] at state ⊢
      rw [if_pos rfl]
      cases state with
      | closed _ pieces framed => exact .closed closed pieces framed
    · rw [if_neg same]
      exact state

theorem OutputInvariant.stream_open (invariant : OutputInvariant request before output sent records)
    (running : sent.closed name = false) : (output.stream name).Open name.type.code := by
  have state := invariant.streams name
  rw [running] at state
  cases state with
  | running opened => exact opened

theorem OutputInvariant.stream_closed
    (invariant : OutputInvariant request before output sent records)
    (isClosed : sent.closed name = true) : (output.stream name).Closed := by
  have state := invariant.streams name
  rw [isClosed] at state
  cases state with
  | closed closed => exact closed

/-- Every call keeps the invariant, and succeeds as it should. -/
theorem outputInvariant_step (invariant : OutputInvariant request before output sent records)
    (small : request.requestId < 2 ^ 16) (op : OutputOp) :
    ∃ output' records', output.step op = .ok (sent.succeeds op, output') ∧
      OutputInvariant request before output' (sent.step op) records' := by
  cases op with
  | putStr name str =>
      cases state : sent.closed name with
      | false =>
          obtain ⟨pieces, stream, ipc, ran, emitted⟩ := putStr_open
            request.requestId (invariant.stream_open state) invariant.accepting str
          refine ⟨_, _, ?_, invariant.emits small state emitted⟩
          simp only [Output.step, invariant.id, ran, ok_bind, pure_ok, Sent.succeeds, state,
            Bool.not_false, Bool.true_or]
      | true =>
          obtain ⟨stream, ran, closed⟩ := putStr_closed request.requestId
            (invariant.stream_closed state) str output.ipc
          refine ⟨output.setStream name stream output.ipc, records, ?_, ?_⟩
          · simp only [Output.step, invariant.id, ran, ok_bind, pure_ok, Sent.succeeds, state,
              Bool.not_true, Bool.false_or]
          · rw [Sent.step, Sent.put, if_pos state]
            exact invariant.idles state closed
  | putChar name c =>
      cases state : sent.closed name with
      | false =>
          obtain ⟨pieces, stream, ipc, ran, emitted⟩ := putChar_open
            request.requestId (invariant.stream_open state) invariant.accepting c
          refine ⟨_, _, ?_, invariant.emits small state emitted⟩
          simp only [Output.step, invariant.id, ran, ok_bind, pure_ok, Sent.succeeds, state,
            Bool.not_false]
      | true =>
          have closed := invariant.stream_closed state
          refine ⟨output.setStream name (output.stream name) output.ipc, records, ?_, ?_⟩
          · simp only [Output.step, putChar_closed closed, ok_bind, pure_ok, Sent.succeeds, state,
              Bool.not_true]
          · rw [Sent.step, Sent.put, if_pos state]
            exact invariant.idles state closed
  | fFlush name =>
      cases state : sent.closed name with
      | false =>
          obtain ⟨pieces, stream, ipc, ran, emitted⟩ := fFlush_open
            request.requestId (invariant.stream_open state) invariant.accepting
          have kept := invariant.emits small state emitted
          rw [Sent.put, if_neg (by simp [state]), List.append_nil,
            Function.update_eq_self] at kept
          refine ⟨_, _, ?_, kept⟩
          simp only [Output.step, invariant.id, ran, ok_bind, pure_ok, Sent.succeeds]
      | true =>
          have closed := invariant.stream_closed state
          refine ⟨output.setStream name (output.stream name) output.ipc, records, ?_,
            invariant.idles state closed⟩
          simp only [Output.step, fFlush_closed closed, ok_bind, pure_ok, Sent.succeeds]
  | fClose name =>
      cases state : sent.closed name with
      | false =>
          obtain ⟨stream, ipc, ran, closed, took⟩ := fClose_open output.request
            (invariant.stream_open state) invariant.accepting
          refine ⟨_, _, ?_, invariant.closes small state closed took⟩
          simp only [Output.step, ran, ok_bind, pure_ok, Sent.succeeds]
      | true =>
          have closed := invariant.stream_closed state
          refine ⟨output.setStream name (output.stream name) output.ipc, records, ?_, ?_⟩
          · simp only [Output.step, fClose_closed closed, ok_bind, pure_ok, Sent.succeeds]
          · have same : Function.update sent.closed name true = sent.closed := by
              rw [← state, Function.update_eq_self]
            rw [Sent.step, same]
            exact invariant.idles state closed
  | setExitStatus status =>
      refine ⟨_, records, rfl, ?_⟩
      cases finished : sent.finished with
      | false =>
          simp only [Sent.step, finished, Bool.false_eq_true, if_false]
          exact ⟨invariant.wire, invariant.accepting, invariant.id, invariant.keep,
            invariant.writers, fun _ => rfl, invariant.streams, invariant.sendable, by
              have ending := invariant.ending
              rw [Ending, finished, if_neg (by decide)] at ending
              rw [Ending, if_neg (by simpa [Sent.finished] using finished)]
              exact ending⟩
      | true =>
          simp only [Sent.step, finished, if_true]
          have closed (open_ : sent.finished = false) : status = sent.appStatus := by
            rw [finished] at open_
            cases open_
          exact ⟨invariant.wire, invariant.accepting, invariant.id, invariant.keep,
            invariant.writers, closed, invariant.streams, invariant.sendable, invariant.ending⟩

/-- Every sequence of calls keeps the invariant. -/
theorem outputInvariant_run (small : request.requestId < 2 ^ 16) (ops : List OutputOp)
    (invariant : OutputInvariant request before output sent records) :
    ∃ output' records', output.run ops = .ok (sent.results ops, output') ∧
      OutputInvariant request before output' (sent.run ops) records' := by
  induction ops generalizing output sent records with
  | nil => exact ⟨output, records, rfl, invariant⟩
  | cons op ops inductionHypothesis =>
      obtain ⟨next, nextRecords, stepped, kept⟩ := outputInvariant_step invariant small op
      obtain ⟨last, lastRecords, ran, done⟩ := inductionHypothesis kept
      refine ⟨last, lastRecords, ?_, done⟩
      simp only [Output.run, stepped, ok_bind, ran, pure_ok, Sent.results]

end Step

/-- The streams that `FCGX_Accept_r` creates. -/
theorem outputInvariant_start (request : Request) (misaligned : StreamName → Bool) {ipc : Ipc}
    (accepting : ipc.Accepting) :
    OutputInvariant request ipc.received (Output.start request misaligned ipc)
      (Sent.start request.appStatus) [] where
  wire := by simp [Output.start]
  accepting := accepting
  id := rfl
  keep := rfl
  writers := rfl
  status := fun _ => rfl
  streams := by
    have empty (bufflen : Nat) (misaligned : Bool) (type : UInt8) :
        (newWriter bufflen misaligned type).pending = [] := by
      rw [← List.length_eq_zero_iff, (newWriter_open misaligned type).length_pending]
      rfl
    intro name
    cases name with
    | out => exact .running (newWriter_open _ _) (by simp [contentsOf]) (empty _ _ _) rfl
    | err => exact .running (newWriter_open _ _) (by simp [contentsOf]) (empty _ _ _) rfl
  sendable := by simp
  ending := by simp [Ending, Sent.finished, Sent.start]

/-- `FCGX_Finish_r` completes the answer. -/
theorem OutputInvariant.finish {request : Request} {before : Bytes} {output : Output} {sent : Sent}
    {records : List Record} (invariant : OutputInvariant request before output sent records)
    (small : request.requestId < 2 ^ 16) (inputError : Int) :
    ∃ finished all,
      output.finish inputError =
        .ok (!request.keepConnection || decide (inputError ≠ 0), finished) ∧
      finished.ipc.received = before ++ all.flatMap Record.encode ∧
      Answers request.requestId sent all := by
  obtain ⟨errClosed, errRecords, errStep, afterErr⟩ :=
    outputInvariant_step invariant small (.fClose .err)
  obtain ⟨outClosed, records, outStep, done⟩ :=
    outputInvariant_step afterErr small (.fClose .out)
  refine ⟨outClosed, records, ?_, done.wire, ?_⟩
  · simp only [Output.finish, errStep, ok_bind, outStep, Sent.succeeds, pure_ok, done.keep,
      Bool.not_true, Bool.or_false]
  · have out := done.streams .out
    have err := done.streams .err
    have ending := done.ending
    simp only [Sent.step, Function.update_self] at out
    simp only [Sent.step, Function.update_of_ne (show StreamName.err ≠ .out by decide),
      Function.update_self] at err
    rw [Ending, if_pos (by simp [Sent.step, Sent.finished])] at ending
    cases out with
    | closed _ outPieces outFramed =>
        cases err with
        | closed _ errPieces errFramed =>
            exact
              { addressed := fun r member =>
                  ⟨(done.sendable r member).version, (done.sendable r member).id⟩
                types := fun r member => (done.sendable r member).type
                out := ⟨outPieces, outFramed⟩
                err := ⟨errPieces, errFramed⟩
                ending := ending
                aligned := fun r member => (done.sendable r member).aligned }

/-- An application may write to its two streams, flush and close them in any
order, and set its exit status; `OS_Write` may take its bytes in any pieces.
Once `FCGX_Finish_r` is done, what was sent is a complete answer: the records
of the request's id that carry in order the bytes put into each stream before it
was closed, the end of STDOUT, that of STDERR if anything was put into it, and
the END_REQUEST record with the exit status that was set last before the second
of the streams was closed.  The connection is closed exactly if the request did
not ask to keep it or its input failed. -/
theorem answer_complete (request : Request) (misaligned : StreamName → Bool) (ipc : Ipc)
    (small : request.requestId < 2 ^ 16) (accepting : ipc.Accepting) (ops : List OutputOp)
    (inputError : Int) :
    ∃ output finished records,
      (Output.start request misaligned ipc).run ops =
        .ok ((Sent.start request.appStatus).results ops, output) ∧
      output.finish inputError =
        .ok (!request.keepConnection || decide (inputError ≠ 0), finished) ∧
      finished.ipc.received = ipc.received ++ records.flatMap Record.encode ∧
      Answers request.requestId ((Sent.start request.appStatus).run ops) records := by
  obtain ⟨output, earlier, ran, invariant⟩ :=
    outputInvariant_run small ops (outputInvariant_start request misaligned accepting)
  obtain ⟨finished, records, closed, wire, answers⟩ := invariant.finish small inputError
  exact ⟨output, finished, records, ran, closed, wire, answers⟩

theorem answer_complete_one_byte :
    ∃ output finished records,
      (Output.start ⟨1, 1, true, false, 0, 0⟩ (fun _ => false)
        ⟨[], fun _ => 0, 0, none, fun _ => .ok 0, 0, []⟩).run [.putChar .err 7] =
        .ok ((Sent.start 0).results [.putChar .err 7], output) ∧
      output.finish 0 = .ok (true, finished) ∧
      finished.ipc.received = records.flatMap Record.encode ∧
      Answers 1 ((Sent.start 0).run [.putChar .err 7]) records :=
  answer_complete ⟨1, 1, true, false, 0, 0⟩ (fun _ => false)
    ⟨[], fun _ => 0, 0, none, fun _ => .ok 0, 0, []⟩ (by decide) (fun _ => ⟨0, rfl⟩)
    [.putChar .err 7] 0

end Fcgx

end FastCgi
