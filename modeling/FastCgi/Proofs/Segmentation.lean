/-
Module: FastCgi.Proofs.Segmentation
Layer: Proofs
Purpose: How the stream is cut into reads.  A keep-alive connection decodes to
  the requests that were encoded when every read holds bytes of one request
  only, and more generally when no read completes both a request and a STDIN
  record or a PARAMS record with content of the next; without that two requests
  are merged.
Trusted boundary: none
Main exports: run_harmless, connection_decodes, calm_splits_agree,
  requests_merged_in_one_read
-/
import FastCgi.Proofs.RequestStreams
import FastCgi.Proofs.ServerRefinement

namespace FastCgi

open Library (assignAll)

/-- The batches of a stream of whole records are these records, and nothing is
left pending. -/
theorem batches_of_records {reads : List Bytes} {records : List Record}
    (whole : reads.flatten = records.flatMap Record.encode) :
    (recordFraming.batches [] reads).1.flatten = records ∧
      (recordFraming.batches [] reads).2 = [] := by
  have cut := recordFraming.batches_flatten reads recordFraming.next_nil
  rw [List.nil_append, whole, recordFraming.drain_encoded recordFraming_encodes] at cut
  exact Prod.mk.inj cut

/-- The batches of a quiet list of records are quiet wherever it is cut. -/
theorem batches_quiet {reads : List Bytes} {records : List Record}
    (whole : reads.flatten = records.flatMap Record.encode)
    (quiet : RequestState.Quiet records) :
    ∀ batch ∈ (recordFraming.batches [] reads).1, RequestState.Quiet batch := by
  intro batch member
  have inside := List.sublist_flatten_of_mem member
  rw [(batches_of_records whole).1] at inside
  exact quiet.sublist inside

/-- Between requests a connection that reads whole records in harmless batches
serves them as if one by one. -/
theorem run_harmless {v : View} (boundary : v.pending = []) (got : v.request.gotRequest = false)
    {reads : List Bytes} {records : List Record}
    (whole : reads.flatten = records.flatMap Record.encode)
    (harmless : v.request.HarmlessAll (recordFraming.batches [] reads).1) :
    (v.run reads).1 = { pending := [], request := (v.request.serveEach records).1 } ∧
      invocations (v.run reads).2 = invocations (v.request.serveEach records).2 := by
  obtain ⟨flat, rest⟩ := batches_of_records whole
  obtain ⟨state, calls⟩ := harmless.serve got
  rw [flat] at state calls
  rw [v.run_eq_serve, boundary, rest, state]
  exact ⟨rfl, calls⟩

/-- The same for records of which none of a stream follows one that completes a
request. -/
theorem run_quiet {v : View} (boundary : v.pending = []) (got : v.request.gotRequest = false)
    {reads : List Bytes} {records : List Record}
    (whole : reads.flatten = records.flatMap Record.encode)
    (quiet : RequestState.Quiet records) :
    (v.run reads).1 = { pending := [], request := (v.request.serveEach records).1 } ∧
      invocations (v.run reads).2 = invocations (v.request.serveEach records).2 :=
  run_harmless boundary got whole
    (RequestState.harmlessAll_of_quiet v.request (batches_quiet whole quiet))

theorem flatMap_encode (requests : List WellFormedRequest) :
    requests.flatMap WellFormedRequest.encode =
      (requests.flatMap WellFormedRequest.records).flatMap Record.encode := by
  rw [List.flatMap_assoc]
  rfl

/-! ### Splits that respect the requests -/

theorem WellFormedRequest.records_quiet (request : WellFormedRequest) :
    RequestState.Quiet request.records :=
  RequestState.quiet_of_completes request.lead_stays request.trail_quiet

/-- One request in reads of its own, from a record boundary. -/
theorem run_request {v : View} (boundary : v.pending = []) (waits : v.request.gotRequest = false)
    (request : WellFormedRequest) {group : List Bytes}
    (whole : group.flatten = request.encode) :
    ∃ keepConn, (v.run group).1 = { pending := [], request := .idle keepConn } ∧
      invocations (v.run group).2 = [request.invocationFrom v.request] := by
  obtain ⟨state, calls⟩ := run_quiet boundary waits whole request.records_quiet
  obtain ⟨keepConn, after, called⟩ := request.serveEach_request waits
  exact ⟨keepConn, by rw [state, after], by rw [calls, called]⟩

/-- Requests in reads of their own, one after the other. -/
theorem run_groups {v : View} (boundary : v.pending = []) {keepConn : Bool}
    (idle : v.request = .idle keepConn) {requests : List WellFormedRequest}
    {groups : List (List Bytes)}
    (split : List.Forall₂ (fun request group => group.flatten = request.encode)
      requests groups) :
    ∃ keepConn', (v.run groups.flatten).1 = { pending := [], request := .idle keepConn' } ∧
      invocations (v.run groups.flatten).2 = requests.map WellFormedRequest.invocation := by
  induction split generalizing v keepConn with
  | nil =>
      refine ⟨keepConn, ?_, rfl⟩
      rw [← idle, ← boundary]
      rfl
  | @cons request group requests groups whole _ inductionHypothesis =>
      obtain ⟨keepConn₁, state, calls⟩ :=
        run_request boundary (by rw [idle]; rfl) request whole
      rw [idle, request.invocationFrom_idle] at calls
      obtain ⟨keepConn₂, stateAll, callsAll⟩ :=
        inductionHypothesis (v := { pending := [], request := .idle keepConn₁ }) rfl rfl
      refine ⟨keepConn₂, ?_, ?_⟩
      · rw [List.flatten_cons, View.run_append, state, stateAll]
      · rw [List.flatten_cons, View.run_append, state, invocations_append, calls, callsAll]
        rfl

/-- Decoding undoes encoding over a whole connection: if no read holds bytes
of two requests, both servers call their handler once for each request, in
order, with exactly its pairs and its body, and end between requests. -/
theorem connection_decodes (requests : List WellFormedRequest) (groups : List (List Bytes))
    (split : List.Forall₂ (fun request group => group.flatten = request.encode)
      requests groups)
    {σ : Type} (mucgi : ParamMap → Buffer → σ → ParamMap × Buffer × σ)
    (cocgi : ParamMap → Buffer → σ → Cocgi.ErrorCode × ParamMap × Buffer × σ)
    (errno : Cocgi.Errno) (world : σ) :
    (∃ c keepConn, Mucgi.Calls mucgi world .fresh groups.flatten c
        (requests.map WellFormedRequest.invocation) ∧
      c.view = { pending := [], request := .idle keepConn }) ∧
    ∃ c keepConn, Cocgi.Calls cocgi errno world .fresh groups.flatten c
        (requests.map WellFormedRequest.invocation) ∧
      c.view = { pending := [], request := .idle keepConn } := by
  obtain ⟨keepConn, state, calls⟩ := run_groups (v := View.fresh) rfl rfl split
  rw [← view_fresh] at state calls
  obtain ⟨c₁, called₁, view₁⟩ := Mucgi.calls_of_view mucgi world .fresh groups.flatten
  obtain ⟨c₂, called₂, view₂⟩ := Cocgi.calls_of_view cocgi errno world .fresh groups.flatten
  rw [calls] at called₁ called₂
  rw [state] at view₁ view₂
  exact ⟨⟨c₁, keepConn, called₁, view₁⟩, ⟨c₂, keepConn, called₂, view₂⟩⟩

/-- A pair with one-byte lengths. -/
def shortPair (name value : Bytes) (fits : name.length < 2 ^ 7 ∧ value.length < 2 ^ 7) :
    WirePair where
  nameForm := .short
  valueForm := .short
  name := name
  value := value
  name_fits := fits.1
  value_fits := fits.2

/-- One pair, a body of one byte, each stream in one record. -/
def smallRequest (name value body : UInt8) : WellFormedRequest :=
  .plain [shortPair [name] [value] (by simp)] [⟨[1, 1, name, value], by simp⟩]
    [⟨[body], by simp⟩] rfl

/-- Two requests, the first cut in the middle of a header and of a pair, the
second in one read. -/
theorem connection_decodes_two :
    ∃ c keepConn, Mucgi.Calls (fun params stdin (calls : Nat) => (params, stdin, calls + 1)) 0
        .fresh
        [(smallRequest 65 49 98).encode.take 3, ((smallRequest 65 49 98).encode.drop 3).take 24,
          (smallRequest 65 49 98).encode.drop 27, (smallRequest 66 50 99).encode] c
        [(smallRequest 65 49 98).invocation, (smallRequest 66 50 99).invocation] ∧
      c.view = { pending := [], request := .idle keepConn } :=
  (connection_decodes [smallRequest 65 49 98, smallRequest 66 50 99]
    [[(smallRequest 65 49 98).encode.take 3, ((smallRequest 65 49 98).encode.drop 3).take 24,
        (smallRequest 65 49 98).encode.drop 27],
      [(smallRequest 66 50 99).encode]]
    (.cons rfl (.cons rfl .nil)) _
    (fun params stdin calls => (.errOk, params, stdin, calls)) 0 0).1

/-! ### Splits in which a read spans requests -/

/-- Reads of whole requests in calm batches: one call for each request. -/
theorem run_calm_requests {requests : List WellFormedRequest} {reads : List Bytes}
    (whole : reads.flatten = requests.flatMap WellFormedRequest.encode)
    (calm : ∀ batch ∈ (recordFraming.batches [] reads).1, Calm batch) :
    invocations (FastCgiCodec.fresh.view.run reads).2 =
      requests.map WellFormedRequest.invocation := by
  obtain ⟨_, _, served⟩ := serveEach_requests false requests
  rw [flatMap_encode] at whole
  have ended : (RequestState.idle false).ParamsEnded
      (recordFraming.batches [] reads).1.flatten := by
    rw [(batches_of_records whole).1]
    exact paramsEnded_requests false requests
  have harmless := RequestState.harmlessAll_of_calm rfl calm ended
  rw [view_fresh, (run_harmless (v := View.fresh) rfl rfl whole harmless).2]
  exact served

/-- For every two splits in which no read completes a request and then a STDIN
record or a PARAMS record with content, both servers make the same calls: one for
each request. -/
theorem calm_splits_agree (requests : List WellFormedRequest) (reads₁ reads₂ : List Bytes)
    (whole₁ : reads₁.flatten = requests.flatMap WellFormedRequest.encode)
    (whole₂ : reads₂.flatten = requests.flatMap WellFormedRequest.encode)
    (calm₁ : ∀ batch ∈ (recordFraming.batches [] reads₁).1, Calm batch)
    (calm₂ : ∀ batch ∈ (recordFraming.batches [] reads₂).1, Calm batch)
    {σ : Type} (mucgi : ParamMap → Buffer → σ → ParamMap × Buffer × σ)
    (cocgi : ParamMap → Buffer → σ → Cocgi.ErrorCode × ParamMap × Buffer × σ)
    (errno : Cocgi.Errno) (world : σ) :
    (∃ c, Mucgi.Calls mucgi world .fresh reads₁ c
        (requests.map WellFormedRequest.invocation)) ∧
      (∃ c, Mucgi.Calls mucgi world .fresh reads₂ c
        (requests.map WellFormedRequest.invocation)) ∧
      (∃ c, Cocgi.Calls cocgi errno world .fresh reads₁ c
        (requests.map WellFormedRequest.invocation)) ∧
      ∃ c, Cocgi.Calls cocgi errno world .fresh reads₂ c
        (requests.map WellFormedRequest.invocation) := by
  have calls₁ := run_calm_requests whole₁ calm₁
  have calls₂ := run_calm_requests whole₂ calm₂
  refine ⟨?_, ?_, ?_, ?_⟩
  · obtain ⟨c, called, _⟩ := Mucgi.calls_of_view mucgi world .fresh reads₁
    exact ⟨c, calls₁ ▸ called⟩
  · obtain ⟨c, called, _⟩ := Mucgi.calls_of_view mucgi world .fresh reads₂
    exact ⟨c, calls₂ ▸ called⟩
  · obtain ⟨c, called, _⟩ := Cocgi.calls_of_view cocgi errno world .fresh reads₁
    exact ⟨c, calls₁ ▸ called⟩
  · obtain ⟨c, called, _⟩ := Cocgi.calls_of_view cocgi errno world .fresh reads₂
    exact ⟨c, calls₂ ▸ called⟩

/-- A request without parameters: its PARAMS stream is the empty record. -/
def unnamedRequest (body : UInt8) : WellFormedRequest :=
  .plain [] [] [⟨[body], by simp⟩] nil_carries

/-- A read may end one request and begin the next: here the second BEGIN_REQUEST and
its empty PARAMS record arrive with the end of the first request. -/
theorem calm_splits_agree_spanning :
    ∃ c, Mucgi.Calls (fun params stdin (calls : Nat) => (params, stdin, calls + 1)) 0 .fresh
      [(smallRequest 65 49 98).encode ++ (unnamedRequest 99).encode.take 24,
        (unnamedRequest 99).encode.drop 24] c
      [(smallRequest 65 49 98).invocation, (unnamedRequest 99).invocation] :=
  (calm_splits_agree [smallRequest 65 49 98, unnamedRequest 99]
    [(smallRequest 65 49 98).encode ++ (unnamedRequest 99).encode.take 24,
      (unnamedRequest 99).encode.drop 24]
    [(smallRequest 65 49 98).encode, (unnamedRequest 99).encode]
    rfl rfl (by decide) (by decide) _
    (fun params stdin calls => (.errOk, params, stdin, calls)) 0 0).1

/-- Two requests that arrive in one read are handed over as one request: the
handler is called once, with the parameters and the bodies of both. -/
theorem requests_merged_in_one_read :
    [(smallRequest 65 49 98).encode ++ (smallRequest 66 50 99).encode].flatten =
        [smallRequest 65 49 98, smallRequest 66 50 99].flatMap WellFormedRequest.encode ∧
      (∃ c, Mucgi.Calls (fun params stdin (_ : Unit) => (params, stdin, ())) () .fresh
        [(smallRequest 65 49 98).encode ++ (smallRequest 66 50 99).encode] c
        [{ params := assignAll ∅ [([65], [49]), ([66], [50])], stdin := [98, 99] }]) ∧
      ∃ c, Cocgi.Calls (fun params stdin (_ : Unit) => (.errOk, params, stdin, ())) 0 () .fresh
        [(smallRequest 65 49 98).encode ++ (smallRequest 66 50 99).encode] c
        [{ params := assignAll ∅ [([65], [49]), ([66], [50])], stdin := [98, 99] }] := by
  have merged : invocations (FastCgiCodec.fresh.view.run
      [(smallRequest 65 49 98).encode ++ (smallRequest 66 50 99).encode]).2 =
      [{ params := assignAll ∅ [([65], [49]), ([66], [50])], stdin := [98, 99] }] := by
    rw [view_fresh]
    decide
  refine ⟨rfl, ?_, ?_⟩
  · obtain ⟨c, called, _⟩ := Mucgi.calls_of_view
      (fun params stdin (_ : Unit) => (params, stdin, ())) () .fresh
      [(smallRequest 65 49 98).encode ++ (smallRequest 66 50 99).encode]
    exact ⟨c, merged ▸ called⟩
  · obtain ⟨c, called, _⟩ := Cocgi.calls_of_view
      (fun params stdin (_ : Unit) => (.errOk, params, stdin, ())) 0 () .fresh
      [(smallRequest 65 49 98).encode ++ (smallRequest 66 50 99).encode]
    exact ⟨c, merged ▸ called⟩

end FastCgi
