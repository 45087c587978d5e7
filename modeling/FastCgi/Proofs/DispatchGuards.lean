/-
Module: FastCgi.Proofs.DispatchGuards
Layer: Proofs
Purpose: When a request is handed over.  The hand-over happens at the end of
  every read that completes an empty STDIN record, whatever the handlers of
  the earlier records answered; so exactly those connections dispatch only
  accepted requests whose records have the right role and order and carry
  complete pairs.
Trusted boundary: none
Main exports: dispatched, completed, Accepted, Acceptable, accepted_iff,
  dispatched_run, dispatches_accepted_iff, rejected_request_is_dispatched
-/
import FastCgi.Proofs.RequestStreams
import FastCgi.Proofs.ServerRefinement

namespace FastCgi

/-! ### Traces -/

/-- For each handler call of a trace, the answers to the records since the
previous call; `since` are those seen so far. -/
def dispatched (since : List RecordEvent) : List Observation → List (List RecordEvent)
  | [] => []
  | .record event :: trace => dispatched (since ++ [event]) trace
  | .invoked _ :: trace => since :: dispatched [] trace

/-- For each batch that completes a request, the records since the previous
such batch; `since` are those of earlier batches. -/
def completed (since : List Record) : List (List Record) → List (List Record)
  | [] => []
  | batch :: batches =>
      if batch.any Record.closes then (since ++ batch) :: completed [] batches
      else completed (since ++ batch) batches

/-- The answer rejects a BEGIN_REQUEST record or a PARAMS stream. -/
def RecordEvent.rejects : RecordEvent → Bool
  | .beginRequest accepted => !accepted
  | .params _ accepted => !accepted
  | .stdin _ => false
  | .ignored => false

/-- An accepted BEGIN_REQUEST, then an accepted end of the PARAMS stream, then the
end of STDIN, and nothing that was rejected. -/
def Accepted (events : List RecordEvent) : Prop :=
  List.Sublist [.beginRequest true, .params true true, .stdin true] events ∧
    ∀ event ∈ events, event.rejects = false

/-! ### Records -/

/-- The PARAMS streams that the records end, each as the contents of its records;
`since` is what the stream in progress carries already. -/
def endedStreams (since : Bytes) : List Record → List Bytes
  | [] => []
  | r :: records =>
      if r.isOf .kFcgiParams then
        if r.contentData = [] then since :: endedStreams [] records
        else endedStreams (since ++ r.contentData) records
      else endedStreams since records

/-- Records that both servers are to hand over. -/
structure Acceptable (records : List Record) : Prop where
  /-- A BEGIN_REQUEST, an empty PARAMS and an empty STDIN record, in this order. -/
  order : ∃ opening ending closing, List.Sublist [opening, ending, closing] records ∧
    opening.isOf .kFcgiBeginRequest = true ∧
    (ending.isOf .kFcgiParams = true ∧ ending.contentData = []) ∧
    closing.isOf .kFcgiStdin = true ∧ closing.contentData = []
  /-- Every BEGIN_REQUEST has a body of eight bytes at least and the role of a
  responder. -/
  roles : ∀ r ∈ records, r.isOf .kFcgiBeginRequest = true →
    8 ≤ r.contentData.length ∧ r.contentData.take 2 = [0, 1]
  /-- Every PARAMS stream that ends consists of complete pairs. -/
  pairs : ∀ stream ∈ endedStreams [] records,
    ∃ pairs : List WirePair, stream = pairs.flatMap WirePair.encode

/-- The answer to a record that is not rejected. -/
def Record.welcome (r : Record) : RecordEvent :=
  match FcgiType.ofCode r.type with
  | some .kFcgiBeginRequest => .beginRequest true
  | some .kFcgiParams => .params (r.contentData = []) true
  | some .kFcgiStdin => .stdin (r.contentData = [])
  | _ => .ignored

namespace RequestState

/-- What it takes that one record is not rejected. -/
theorem rejects_event_iff (s : RequestState) (r : Record) :
    (s.event r).rejects = false ↔
      (r.isOf .kFcgiBeginRequest = true → r.acceptsBegin = true) ∧
        (r.isOf .kFcgiParams = true → r.contentData = [] →
          (pairFraming.drain s.paramsStream).2 = []) := by
  simp only [event, Record.isOf, decide_eq_true_eq]
  cases FcgiType.ofCode r.type with
  | none => simp [RecordEvent.rejects]
  | some known =>
      cases known with
      | kFcgiBeginRequest => simp [RecordEvent.rejects]
      | kFcgiParams => by_cases empty : r.contentData = [] <;> simp [RecordEvent.rejects, empty]
      | _ => simp [RecordEvent.rejects]

/-- A record that is not rejected is answered as it deserves. -/
theorem event_eq_welcome {s : RequestState} {r : Record}
    (accepted : (s.event r).rejects = false) : s.event r = r.welcome := by
  revert accepted
  simp only [event, Record.welcome]
  cases FcgiType.ofCode r.type with
  | none => simp
  | some known =>
      cases known with
      | kFcgiBeginRequest => simp [RecordEvent.rejects]
      | kFcgiParams => by_cases empty : r.contentData = [] <;> simp [RecordEvent.rejects, empty]
      | _ => simp

theorem events_eq_welcome {s : RequestState} {records : List Record}
    (accepted : ∀ event ∈ s.events records, event.rejects = false) :
    s.events records = records.map Record.welcome := by
  induction records generalizing s with
  | nil => rfl
  | cons r records inductionHypothesis =>
      obtain ⟨here, later⟩ := List.forall_mem_cons.mp accepted
      rw [events, List.map_cons, event_eq_welcome here, inductionHypothesis later]

/-- The stream in progress behind one record that is not rejected. -/
theorem endedStreams_cons {s : RequestState} {r : Record}
    (accepted : (s.event r).rejects = false) (records : List Record) :
    endedStreams s.paramsStream (r :: records) =
      (if r.isOf .kFcgiParams ∧ r.contentData = [] then [s.paramsStream] else []) ++
        endedStreams (s.handle r).paramsStream records := by
  have whole := ((rejects_event_iff s r).mp accepted).2
  simp only [endedStreams, handle, Record.isOf, decide_eq_true_eq] at whole ⊢
  cases type : FcgiType.ofCode r.type with
  | none => simp
  | some known =>
      cases known with
      | kFcgiBeginRequest => cases r.acceptsBegin <;> simp
      | kFcgiParams =>
          by_cases empty : r.contentData = []
          · simp [empty, whole type empty, stuckTail_nil]
          · simp [empty]
      | kFcgiStdin => by_cases empty : r.contentData = [] <;> simp [empty]
      | _ => simp

/-- Nothing is rejected exactly if the roles are right and the streams are complete. -/
theorem rejects_events_iff (s : RequestState) (records : List Record) :
    (∀ event ∈ s.events records, event.rejects = false) ↔
      (∀ r ∈ records, r.isOf .kFcgiBeginRequest = true → r.acceptsBegin = true) ∧
        ∀ stream ∈ endedStreams s.paramsStream records, (pairFraming.drain stream).2 = [] := by
  induction records generalizing s with
  | nil => simp [events, endedStreams]
  | cons r records inductionHypothesis =>
      rw [events, List.forall_mem_cons, List.forall_mem_cons]
      by_cases accepted : (s.event r).rejects = false
      · obtain ⟨role, whole⟩ := (rejects_event_iff s r).mp accepted
        rw [and_iff_right accepted, inductionHypothesis, endedStreams_cons accepted,
          List.forall_mem_append, and_iff_right role, and_congr_right_iff]
        intro _
        split
        · rename_i ends
          simp [whole ends.1 ends.2]
        · simp
      · refine iff_of_false (fun both => accepted both.1) ?_
        rintro ⟨⟨role, _⟩, streams⟩
        refine accepted ((rejects_event_iff s r).mpr ⟨role, fun isParams empty => streams _ ?_⟩)
        simp [endedStreams, isParams, empty]

end RequestState

theorem welcome_eq_beginRequest {r : Record} :
    r.welcome = .beginRequest true ↔ r.isOf .kFcgiBeginRequest = true := by
  simp only [Record.welcome, Record.isOf, decide_eq_true_eq]
  split <;> simp_all

theorem welcome_eq_params {r : Record} :
    r.welcome = .params true true ↔ r.isOf .kFcgiParams = true ∧ r.contentData = [] := by
  simp only [Record.welcome, Record.isOf, decide_eq_true_eq]
  split <;> simp_all

theorem welcome_eq_stdin {r : Record} :
    r.welcome = .stdin true ↔ r.isOf .kFcgiStdin = true ∧ r.contentData = [] := by
  simp only [Record.welcome, Record.isOf, decide_eq_true_eq]
  split <;> simp_all

/-- From an idle state, exactly the acceptable records are accepted. -/
theorem accepted_iff (keepConn : Bool) (records : List Record) :
    Accepted ((RequestState.idle keepConn).events records) ↔ Acceptable records := by
  have complete : ∀ stream : Bytes, (pairFraming.drain stream).2 = [] ↔
      ∃ pairs : List WirePair, stream = pairs.flatMap WirePair.encode :=
    pairFraming.drain_rest_eq_nil_iff pairFraming_inverts
  have silent := (RequestState.idle keepConn).rejects_events_iff records
  simp only [RequestState.idle, complete, Record.acceptsBegin, decide_eq_true_eq] at silent
  have ordered (accepted : ∀ event ∈ (RequestState.idle keepConn).events records,
      event.rejects = false) :
      List.Sublist [.beginRequest true, .params true true, .stdin true]
          ((RequestState.idle keepConn).events records) ↔
        ∃ opening ending closing, List.Sublist [opening, ending, closing] records ∧
          opening.isOf .kFcgiBeginRequest = true ∧
          (ending.isOf .kFcgiParams = true ∧ ending.contentData = []) ∧
          closing.isOf .kFcgiStdin = true ∧ closing.contentData = [] := by
    rw [RequestState.events_eq_welcome accepted, List.sublist_map_iff]
    simp only [← welcome_eq_beginRequest, ← welcome_eq_params, ← welcome_eq_stdin]
    constructor
    · rintro ⟨chosen, sublist, same⟩
      obtain ⟨opening, chosen, rfl, first, same⟩ := List.map_eq_cons_iff.mp same.symm
      obtain ⟨ending, chosen, rfl, second, same⟩ := List.map_eq_cons_iff.mp same
      obtain ⟨closing, chosen, rfl, third, same⟩ := List.map_eq_cons_iff.mp same
      obtain rfl := List.map_eq_nil_iff.mp same
      exact ⟨opening, ending, closing, sublist, first, second, third⟩
    · rintro ⟨opening, ending, closing, sublist, first, second, third⟩
      exact ⟨[opening, ending, closing], sublist, by simp [first, second, third]⟩
  constructor
  · rintro ⟨sublist, accepted⟩
    exact ⟨(ordered accepted).mp sublist, (silent.mp accepted).1, (silent.mp accepted).2⟩
  · rintro ⟨order, roles, pairs⟩
    have accepted := silent.mpr ⟨roles, pairs⟩
    exact ⟨(ordered accepted).mpr order, accepted⟩

/-! ### Runs -/

theorem dispatched_records (since events : List RecordEvent) (trace : List Observation) :
    dispatched since (events.map .record ++ trace) = dispatched (since ++ events) trace := by
  induction events generalizing since with
  | nil => simp
  | cons event events inductionHypothesis =>
      simp only [List.map_cons, List.cons_append, dispatched, inductionHypothesis,
        List.append_assoc, List.nil_append]

namespace RequestState

theorem handle_gotRequest (s : RequestState) (r : Record) :
    (s.handle r).gotRequest = (s.gotRequest || r.closes) := by
  cases closes : r.closes with
  | false => rw [(s.handle_of_not_closes closes).1, Bool.or_false]
  | true => rw [s.handle_of_closes closes, Bool.or_true]

/-- A batch asks for a hand-over exactly when it completes a request. -/
theorem handleAll_gotRequest (s : RequestState) (records : List Record) :
    (s.handleAll records).gotRequest = (s.gotRequest || records.any Record.closes) := by
  induction records generalizing s with
  | nil => simp
  | cons r records inductionHypothesis =>
      rw [handleAll_cons, inductionHypothesis, handle_gotRequest, List.any_cons, Bool.or_assoc]

/-- The PARAMS stream develops on its own. -/
theorem handle_paramsStream_congr {s t : RequestState} (same : s.paramsStream = t.paramsStream)
    (r : Record) : (s.handle r).paramsStream = (t.handle r).paramsStream := by
  unfold handle
  cases FcgiType.ofCode r.type with
  | none => exact same
  | some known =>
      cases known with
      | kFcgiBeginRequest => simp only; split <;> exact same
      | kFcgiParams => simp only [same]; split <;> rfl
      | kFcgiStdin => simp only; split <;> exact same
      | _ => exact same

theorem handleAll_paramsStream_congr {s t : RequestState}
    (same : s.paramsStream = t.paramsStream) (records : List Record) :
    (s.handleAll records).paramsStream = (t.handleAll records).paramsStream := by
  induction records generalizing s t with
  | nil => exact same
  | cons r records inductionHypothesis =>
      exact inductionHypothesis (handle_paramsStream_congr same r)

/-- The answers depend on the accumulated PARAMS stream only. -/
theorem events_congr {s t : RequestState} (same : s.paramsStream = t.paramsStream)
    (records : List Record) : s.events records = t.events records := by
  induction records generalizing s t with
  | nil => rfl
  | cons r records inductionHypothesis =>
      have answer : s.event r = t.event r := by simp only [event, same]
      rw [events, events, answer, inductionHypothesis (handle_paramsStream_congr same r)]

end RequestState

/-- Batches dispatch where they complete a request, and the records since the
previous hand-over were answered as from an idle state. -/
theorem dispatched_serve {s : RequestState} (waits : s.gotRequest = false) (since : List Record)
    (stream : s.paramsStream = ((RequestState.idle false).handleAll since).paramsStream)
    (batches : List (List Record)) :
    dispatched ((RequestState.idle false).events since) (s.serve batches).2 =
      (completed since batches).map (RequestState.idle false).events := by
  induction batches generalizing s since with
  | nil => rfl
  | cons batch batches inductionHypothesis =>
      have answers : (RequestState.idle false).events since ++ s.events batch =
          (RequestState.idle false).events (since ++ batch) := by
        rw [RequestState.events_append, RequestState.events_congr stream]
      have asks := s.handleAll_gotRequest batch
      rw [waits, Bool.false_or] at asks
      rw [RequestState.serve, List.append_assoc, dispatched_records, answers, completed]
      cases closes : batch.any Record.closes with
      | true =>
          rw [closes] at asks
          simp only [RequestState.handover, RequestState.settle, asks, if_true,
            List.singleton_append, dispatched, List.map_cons]
          rw [← inductionHypothesis (s := .idle (s.handleAll batch).keepConn) rfl [] rfl]
          rfl
      | false =>
          rw [closes] at asks
          rw [RequestState.handover_of_not_got asks, RequestState.settle_of_not_got asks]
          simp only [List.nil_append, Bool.false_eq_true, if_false]
          refine inductionHypothesis asks (since ++ batch) ?_
          rw [RequestState.handleAll_append]
          exact RequestState.handleAll_paramsStream_congr stream batch

/-- What a fresh connection dispatches. -/
theorem dispatched_run (reads : List Bytes) :
    dispatched [] (FastCgiCodec.fresh.view.run reads).2 =
      (completed [] (recordFraming.batches [] reads).1).map (RequestState.idle false).events := by
  rw [view_fresh, View.run_eq_serve]
  exact dispatched_serve (s := .idle false) rfl [] rfl _

/-- The exact condition under which only accepted requests are dispatched.
Every run hands over at the end of each read that completes an empty STDIN
record, so that each handler call is preceded, since the previous one, by an
accepted BEGIN_REQUEST, an accepted PARAMS stream and an empty STDIN record, and by
nothing that was rejected, if and only if the records that arrive up to each such
read, since the previous one, are acceptable. -/
theorem dispatches_accepted_iff {σ : Type} (mucgi : ParamMap → Buffer → σ → ParamMap × Buffer × σ)
    (cocgi : ParamMap → Buffer → σ → Cocgi.ErrorCode × ParamMap × Buffer × σ)
    (errno : Cocgi.Errno) (world : σ) (reads : List Bytes) :
    (∃ c conn trace, Mucgi.run (Mucgi.returning mucgi) .fresh world reads =
        .ok (c, conn, trace) ∧
      ((∀ events ∈ dispatched [] trace, Accepted events) ↔
        ∀ records ∈ completed [] (recordFraming.batches [] reads).1, Acceptable records)) ∧
      ∃ c world' trace, Cocgi.run (Cocgi.returning cocgi) errno .fresh world reads =
        .ok (c, world', trace) ∧
      ((∀ events ∈ dispatched [] trace, Accepted events) ↔
        ∀ records ∈ completed [] (recordFraming.batches [] reads).1, Acceptable records) := by
  obtain ⟨c₁, conn, ran₁, _⟩ := Mucgi.run_returning mucgi .fresh world reads
  obtain ⟨c₂, world', ran₂, _⟩ := Cocgi.run_returning cocgi errno .fresh world reads
  have same : (∀ events ∈ dispatched [] (FastCgiCodec.fresh.view.run reads).2, Accepted events) ↔
      ∀ records ∈ completed [] (recordFraming.batches [] reads).1, Acceptable records := by
    simp only [dispatched_run, List.forall_mem_map, accepted_iff]
  exact ⟨⟨c₁, conn, _, ran₁, same⟩, ⟨c₂, world', _, ran₂, same⟩⟩

/-- A request in the authorizer role, whose PARAMS stream ends inside a pair. -/
def rejectedRequest : List Record :=
  [plainRecord .kFcgiBeginRequest [0, 2, 1, 0, 0, 0, 0, 0] (by decide),
    plainRecord .kFcgiParams [1, 1, 65] (by decide), plainRecord .kFcgiParams [] nil_content_fits,
    plainRecord .kFcgiStdin [] nil_content_fits]

/-- Its BEGIN_REQUEST and its PARAMS stream are both rejected, and yet the
request is dispatched, by both servers. -/
theorem rejected_request_is_dispatched :
    (∃ c conn trace, Mucgi.run (Mucgi.returning fun params stdin (_ : Unit) =>
          (params, stdin, ())) .fresh () [rejectedRequest.flatMap Record.encode] =
        .ok (c, conn, trace) ∧
      dispatched [] trace =
        [[.beginRequest false, .params false true, .params true false, .stdin true]]) ∧
      (∃ c world trace, Cocgi.run (Cocgi.returning fun params stdin (_ : Unit) =>
          (.errOk, params, stdin, ())) 0 .fresh () [rejectedRequest.flatMap Record.encode] =
        .ok (c, world, trace) ∧
      dispatched [] trace =
        [[.beginRequest false, .params false true, .params true false, .stdin true]]) ∧
      ¬ Accepted [.beginRequest false, .params false true, .params true false, .stdin true] := by
  have trace : dispatched []
      (FastCgiCodec.fresh.view.run [rejectedRequest.flatMap Record.encode]).2 =
      [[.beginRequest false, .params false true, .params true false, .stdin true]] := by
    rw [dispatched_run]
    decide
  obtain ⟨c₁, conn, ran₁, _⟩ := Mucgi.run_returning
    (fun params stdin (_ : Unit) => (params, stdin, ())) .fresh ()
    [rejectedRequest.flatMap Record.encode]
  obtain ⟨c₂, world, ran₂, _⟩ := Cocgi.run_returning
    (fun params stdin (_ : Unit) => (.errOk, params, stdin, ())) 0 .fresh ()
    [rejectedRequest.flatMap Record.encode]
  refine ⟨⟨c₁, conn, _, ran₁, trace⟩, ⟨c₂, world, _, ran₂, trace⟩, ?_⟩
  rintro ⟨_, accepted⟩
  exact absurd (accepted (.beginRequest false) List.mem_cons_self) (by decide)

end FastCgi
