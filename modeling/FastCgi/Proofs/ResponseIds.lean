/-
Module: FastCgi.Proofs.ResponseIds
Layer: Proofs
Purpose: To which request a response is addressed.  The record loop decodes the
  request id of every record and drops it, and `respond` writes the constant
  one, so both servers answer the right request exactly when its id is one.
Trusted boundary: none
Main exports: Mucgi.Responds, Cocgi.Responds, addressedBy_responseBytes_iff,
  response_addressed_iff
-/
import FastCgi.Proofs.HandlerRefinement
import FastCgi.Proofs.ResponseRecords
import FastCgi.Proofs.Segmentation

namespace FastCgi

/-- The four headers of `respond` carry the constant one. -/
theorem requestId_of_mem_response {out : Bytes} {r : Record}
    (member : r ∈ (recordFraming.drain (responseBytes out)).1) : r.requestId = 1 := by
  simp only [drain_responseBytes, responseRecords, List.mem_append, List.mem_map, List.mem_cons,
    List.not_mem_nil, or_false] at member
  rcases member with ⟨content, _, rfl⟩ | rfl | rfl
  · rfl
  · rfl
  · rfl

/-- A response has the id of the request it answers exactly when that is
one. -/
theorem addressedBy_responseBytes_iff {request : WellFormedRequest} {id : Nat}
    (own : ∀ r ∈ request.records, r.requestId = id) (out : Bytes) :
    request.AddressedBy (responseBytes out) ↔ id = 1 := by
  constructor
  · intro addressed
    have ending : endRequestRecord ∈ (recordFraming.drain (responseBytes out)).1 := by
      simp [drain_responseBytes, responseRecords]
    have closing : request.closing ∈ request.records := by
      simp [WellFormedRequest.records]
    rw [← own _ closing, ← addressed _ ending _ closing]
    rfl
  · rintro rfl sent member received inside
    rw [requestId_of_mem_response member, own received inside]

/-- These reads make `onRequest` answer once, with this response. -/
def Mucgi.Responds (backend : Backend) (c : FastCgiCodec) (conn : List Event)
    (reads : List Bytes) (response : Bytes) : Prop :=
  ∃ c' call seen, run (onRequest backend) c conn reads =
    .ok (c', conn ++ [.called call, .responded response], seen)

/-- These reads make `doRequest` answer once, with this response; it may still
be writing it. -/
def Cocgi.Responds (backend : Backend) (errno : Errno) (c : FastCgiCodec) (socket : Socket)
    (reads : List Bytes) (response : Bytes) : Prop :=
  ∃ c' script call writes seen, run (doRequest (some backend)) errno c socket reads =
    .ok (c', ⟨script, socket.trace ++ .called call :: .responded response :: writes⟩, seen)

section OneCall

variable (backend : Backend) {c : FastCgiCodec} {reads : List Bytes} {invocation : Invocation}
  (one : invocations (c.view.run reads).2 = [invocation])
  (parses : BodyParses (variableOf invocation.params (ascii "CONTENT_TYPE")) invocation.stdin)

include one parses

/-- One request whose body parses is answered with a response to some
output. -/
theorem Mucgi.responds_of_parses (conn : List Event) :
    ∃ out, Mucgi.Responds backend c conn reads (responseBytes out) := by
  obtain ⟨stdin, same, ran⟩ := Mucgi.run_one_call (Mucgi.onRequest backend) conn one
  rw [← same] at parses
  obtain ⟨_, _, call, answered, _⟩ := Mucgi.onRequest_of_parses backend parses conn
  rw [answered] at ran
  obtain ⟨⟨c', conn', seen⟩, result, rfl⟩ := ok_of_map ran
  exact ⟨_, c', call, seen, result⟩

theorem Cocgi.responds_of_parses (errno : Cocgi.Errno) (socket : Cocgi.Socket) :
    ∃ out, Cocgi.Responds backend errno c socket reads (responseBytes out) := by
  obtain ⟨stdin, same, ran⟩ :=
    Cocgi.run_one_call (Cocgi.doRequest (some backend)) errno socket one
  rw [← same] at parses
  obtain ⟨_, _, call, answered, _⟩ := Cocgi.doRequest_of_parses backend parses socket
  rw [answered] at ran
  obtain ⟨⟨c', socket', seen⟩, result, rfl⟩ := ok_of_map ran
  exact ⟨_, c', _, call, _, seen, result⟩

end OneCall

/-- The request that follows others in reads of its own is one call. -/
theorem invocations_after {earlier : List WellFormedRequest} {groups : List (List Bytes)}
    (split : List.Forall₂ (fun request group => group.flatten = request.encode) earlier groups)
    (request : WellFormedRequest) {group : List Bytes} (whole : group.flatten = request.encode) :
    invocations ((View.fresh.run groups.flatten).1.run group).2 = [request.invocation] := by
  obtain ⟨keepConn, state, _⟩ := run_groups (v := View.fresh) rfl rfl split
  rw [state]
  obtain ⟨_, _, calls⟩ := run_request (v := ⟨[], .idle keepConn⟩) rfl rfl request whole
  rw [calls, request.invocationFrom_idle]

/-- For every well-formed request with one id in all its records, as any
request of a connection, and for every backend: both servers answer, and all
records of the answer carry the request's id exactly when that id is one. -/
theorem response_addressed_iff (earlier : List WellFormedRequest) (groups : List (List Bytes))
    (split : List.Forall₂ (fun request group => group.flatten = request.encode) earlier groups)
    (request : WellFormedRequest) (group : List Bytes) (whole : group.flatten = request.encode)
    (id : Nat) (own : ∀ r ∈ request.records, r.requestId = id)
    (parses : BodyParses (variableOf request.invocation.params (ascii "CONTENT_TYPE"))
      request.body)
    (backend : Backend) {σ : Type} {mucgi : ParamMap → Buffer → σ → ParamMap × Buffer × σ}
    {cocgi : ParamMap → Buffer → σ → Cocgi.ErrorCode × ParamMap × Buffer × σ}
    {errno : Cocgi.Errno} {world : σ} {c₁ c₂ : FastCgiCodec} {calls₁ calls₂ : List Invocation}
    (reached₁ : Mucgi.Calls mucgi world .fresh groups.flatten c₁ calls₁)
    (reached₂ : Cocgi.Calls cocgi errno world .fresh groups.flatten c₂ calls₂)
    (conn : List Event) (socket : Cocgi.Socket) :
    (∃ response, Mucgi.Responds backend c₁ conn group response ∧
        (request.AddressedBy response ↔ id = 1)) ∧
      ∃ response, Cocgi.Responds backend errno c₂ socket group response ∧
        (request.AddressedBy response ↔ id = 1) := by
  have one := invocations_after split request whole
  have view₁ := Mucgi.view_of_calls reached₁
  have view₂ := Cocgi.view_of_calls reached₂
  rw [view_fresh] at view₁ view₂
  obtain ⟨out₁, answered₁⟩ :=
    Mucgi.responds_of_parses backend (by rw [view₁]; exact one) parses conn
  obtain ⟨out₂, answered₂⟩ :=
    Cocgi.responds_of_parses backend (by rw [view₂]; exact one) parses errno socket
  exact ⟨⟨_, answered₁, addressedBy_responseBytes_iff own out₁⟩,
    _, answered₂, addressedBy_responseBytes_iff own out₂⟩

/-- A request with this id: its BEGIN_REQUEST, an empty PARAMS stream and an
empty body. -/
def numberedRequest (id : UInt8) : WellFormedRequest where
  pairs := []
  body := []
  lead := [{ plainRecord .kFcgiBeginRequest [0, 1, 1, 0, 0, 0, 0, 0] begin_content_fits with
      requestIdB0 := id },
    { plainRecord .kFcgiParams [] nil_content_fits with requestIdB0 := id }]
  closing := { plainRecord .kFcgiStdin [] nil_content_fits with requestIdB0 := id }
  trail := []
  opening := { plainRecord .kFcgiBeginRequest [0, 1, 1, 0, 0, 0, 0, 0] begin_content_fits with
    requestIdB0 := id }
  middle := [{ plainRecord .kFcgiParams [] nil_content_fits with requestIdB0 := id }]
  paramsChunks := []
  lead_shape := rfl
  opening_begins := rfl
  opening_accepted := rfl
  middle_streams := List.forall_mem_singleton.mpr (Or.inl rfl)
  params_shape := rfl
  params_nonempty := List.forall_mem_nil _
  params_carry := rfl
  stdin_nonempty := List.forall_mem_nil _
  stdin_carry := rfl
  closing_closes := rfl
  trail_ignored := nil_ignored

theorem numberedRequest_own (id : UInt8) :
    ∀ r ∈ (numberedRequest id).records, r.requestId = id.toNat := by
  simp [WellFormedRequest.records, numberedRequest, plainRecord, Record.requestId]

/-- The second request of a connection, with the id one, is answered under its
id. -/
theorem response_addressed_second :
    ∃ c₁ c₂,
      (∃ response, Mucgi.Responds (fun _ _ => [104]) c₁ [] [(numberedRequest 1).encode] response ∧
        (numberedRequest 1).AddressedBy response) ∧
      ∃ response, Cocgi.Responds (fun _ _ => [104]) 0 c₂ ⟨[.accepted 64], []⟩
          [(numberedRequest 1).encode] response ∧
        (numberedRequest 1).AddressedBy response := by
  obtain ⟨c₁, reached₁, _⟩ := Mucgi.calls_of_view
    (fun params stdin (_ : Unit) => (params, stdin, ())) () .fresh [(numberedRequest 1).encode]
  obtain ⟨c₂, reached₂, _⟩ := Cocgi.calls_of_view
    (fun params stdin (_ : Unit) => (.errOk, params, stdin, ())) 0 () .fresh
    [(numberedRequest 1).encode]
  obtain ⟨⟨response₁, answered₁, addressed₁⟩, response₂, answered₂, addressed₂⟩ :=
    response_addressed_iff [numberedRequest 1] [[(numberedRequest 1).encode]] (.cons rfl .nil)
      (numberedRequest 1) [(numberedRequest 1).encode] rfl 1 (numberedRequest_own 1)
      (bodyParses_nil _) (fun _ _ => [104]) reached₁ reached₂ [] ⟨[.accepted 64], []⟩
  exact ⟨c₁, c₂, ⟨response₁, answered₁, addressed₁.mpr rfl⟩,
    response₂, answered₂, addressed₂.mpr rfl⟩

/-- The first request of a connection, with the id two, is answered under
another id. -/
theorem response_misaddressed :
    (∃ response, Mucgi.Responds (fun _ _ => [104]) .fresh [] [(numberedRequest 2).encode]
        response ∧ ¬ (numberedRequest 2).AddressedBy response) ∧
      ∃ response, Cocgi.Responds (fun _ _ => [104]) 0 .fresh ⟨[.accepted 64], []⟩
          [(numberedRequest 2).encode] response ∧
        ¬ (numberedRequest 2).AddressedBy response := by
  have one : invocations (FastCgiCodec.fresh.view.run [(numberedRequest 2).encode]).2 =
      [(numberedRequest 2).invocation] := by
    rw [view_fresh]
    exact invocations_after .nil (numberedRequest 2) rfl
  have misses (out : Bytes) : ¬ (numberedRequest 2).AddressedBy (responseBytes out) := by
    rw [addressedBy_responseBytes_iff (numberedRequest_own 2)]
    decide
  obtain ⟨out₁, answered₁⟩ := Mucgi.responds_of_parses (fun _ _ => [104]) one
    (bodyParses_nil _) []
  obtain ⟨out₂, answered₂⟩ := Cocgi.responds_of_parses (fun _ _ => [104]) one
    (bodyParses_nil _) 0 ⟨[.accepted 64], []⟩
  exact ⟨⟨_, answered₁, misses out₁⟩, _, answered₂, misses out₂⟩

end FastCgi
