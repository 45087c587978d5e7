/-
Module: FastCgi.Proofs.RequestStreams
Layer: Proofs
Purpose: What a list of records does to the request in progress.  The PARAMS
  and STDIN streams act independently of one another, so their interleaving
  does not matter; and a batch in which nothing that feeds them follows the
  record that completes a request does the same as its records one by one.
Trusted boundary: none
Main exports: handleAll_streams, keepConn_handleAll, RequestState.serveEach,
  serveEach_completes, Calm, HarmlessAll.serve, harmlessAll_of_calm,
  serveEach_request, serveEach_requests
-/
import FastCgi.Spec.WellFormed

namespace FastCgi

open Library (assignAll)

/-! ### One record -/

/-- What a PARAMS record does to the stream and the map. -/
def feedParams (state : Bytes × ParamMap) (content : Bytes) : Bytes × ParamMap :=
  if content = [] then
    (stuckTail (pairFraming.drain state.1).2,
      assignAll state.2 ((pairFraming.drain state.1).1.map WirePair.entry))
  else
    (state.1 ++ content, state.2)

/-- What a record does to `keepConn`. -/
def keepAfter (keepConn : Bool) (r : Record) : Bool :=
  if r.isOf .kFcgiBeginRequest && r.acceptsBegin then decide (r.beginFlags = kFcgiKeepConn)
  else keepConn

/-- The record belongs to one of the two streams. -/
def Record.isStream (r : Record) : Bool := r.isOf .kFcgiParams || r.isOf .kFcgiStdin

theorem not_stream_of_ignored {r : Record} (ignored : r.isIgnored = true) :
    r.isStream = false := by
  simp only [Record.isIgnored, Bool.and_eq_true, Bool.not_eq_true'] at ignored
  simp [Record.isStream, ignored.1.2, ignored.2]

namespace RequestState

/-- Only the empty STDIN record asks for a hand-over. -/
theorem handle_of_closes (s : RequestState) {r : Record} (closes : r.closes = true) :
    s.handle r = { s with gotRequest := true } := by
  simp only [Record.closes, Record.isOf, Bool.and_eq_true, decide_eq_true_eq] at closes
  simp only [handle, closes, if_true]

/-- Every other record feeds its own stream and nothing else. -/
theorem handle_of_not_closes (s : RequestState) {r : Record} (stays : r.closes = false) :
    (s.handle r).gotRequest = s.gotRequest ∧
      (s.handle r).stdin = s.stdin ++ (contentsOf .kFcgiStdin [r]).flatten ∧
      ((s.handle r).paramsStream, (s.handle r).params) =
        (contentsOf .kFcgiParams [r]).foldl feedParams (s.paramsStream, s.params) := by
  simp only [Record.closes, Bool.and_eq_false_iff, decide_eq_false_iff_not] at stays
  simp only [contentsOf_singleton, Record.isOf, decide_eq_true_eq, decide_eq_false_iff_not,
    handle] at stays ⊢
  cases type : FcgiType.ofCode r.type with
  | none => simp
  | some known =>
      cases known with
      | kFcgiBeginRequest =>
          simp only [Option.some.injEq, reduceCtorEq, if_false, List.flatten_nil, List.foldl_nil,
            List.append_nil]
          split <;> exact ⟨rfl, rfl, rfl⟩
      | kFcgiParams =>
          by_cases empty : r.contentData = []
          · simp [feedParams, empty]
          · simp [feedParams, empty]
      | kFcgiStdin =>
          have nonempty : r.contentData ≠ [] := by simpa [type] using stays
          simp [nonempty]
      | _ => simp

/-- A record of neither stream changes at most `keepConn`. -/
theorem handle_of_not_stream (s : RequestState) {r : Record} (quiet : r.isStream = false) :
    s.handle r = { s with keepConn := keepAfter s.keepConn r } := by
  simp only [Record.isStream, Bool.or_eq_false_iff, Record.isOf, decide_eq_false_iff_not] at quiet
  simp only [handle, keepAfter, Record.isOf, Bool.and_eq_true, decide_eq_true_eq]
  cases type : FcgiType.ofCode r.type with
  | none => simp
  | some known =>
      cases known with
      | kFcgiBeginRequest => cases r.acceptsBegin <;> simp
      | kFcgiParams => exact absurd type quiet.1
      | kFcgiStdin => exact absurd type quiet.2
      | _ => simp

/-- What any record does to `keepConn`. -/
theorem keepConn_handle (s : RequestState) (r : Record) :
    (s.handle r).keepConn = keepAfter s.keepConn r := by
  simp only [handle, keepAfter, Record.isOf, Bool.and_eq_true, decide_eq_true_eq]
  cases type : FcgiType.ofCode r.type with
  | none => simp
  | some known =>
      cases known with
      | kFcgiBeginRequest => cases r.acceptsBegin <;> simp
      | kFcgiParams => by_cases empty : r.contentData = [] <;> simp [empty]
      | kFcgiStdin => by_cases empty : r.contentData = [] <;> simp [empty]
      | _ => simp

theorem closes_of_not_stream {r : Record} (quiet : r.isStream = false) : r.closes = false := by
  simp only [Record.isStream, Bool.or_eq_false_iff] at quiet
  simp [Record.closes, quiet.2]

/-! ### Lists of records -/

/-- Records that complete no request feed the two streams independently. -/
theorem handleAll_streams (s : RequestState) {records : List Record}
    (stays : ∀ r ∈ records, r.closes = false) :
    (s.handleAll records).gotRequest = s.gotRequest ∧
      (s.handleAll records).stdin = s.stdin ++ (contentsOf .kFcgiStdin records).flatten ∧
      ((s.handleAll records).paramsStream, (s.handleAll records).params) =
        (contentsOf .kFcgiParams records).foldl feedParams (s.paramsStream, s.params) := by
  induction records generalizing s with
  | nil => simp [contentsOf]
  | cons r records inductionHypothesis =>
      obtain ⟨got, stdin, params⟩ := s.handle_of_not_closes (stays r (by simp))
      obtain ⟨gotAll, stdinAll, paramsAll⟩ := inductionHypothesis (s.handle r)
        (fun later member => stays later (List.mem_cons_of_mem _ member))
      rw [handleAll_cons, ← List.singleton_append, contentsOf_append, contentsOf_append]
      refine ⟨by rw [gotAll, got], ?_, ?_⟩
      · rw [stdinAll, stdin, List.flatten_append, List.append_assoc]
      · rw [paramsAll, params, List.foldl_append]

theorem keepConn_handleAll (s : RequestState) (records : List Record) :
    (s.handleAll records).keepConn = records.foldl keepAfter s.keepConn := by
  induction records generalizing s with
  | nil => rfl
  | cons r records inductionHypothesis =>
      rw [handleAll_cons, inductionHypothesis, keepConn_handle, List.foldl_cons]

/-- Records of neither stream change at most `keepConn`. -/
theorem handleAll_quiet (s : RequestState) {records : List Record}
    (quiet : ∀ r ∈ records, r.isStream = false) :
    s.handleAll records = { s with keepConn := records.foldl keepAfter s.keepConn } := by
  induction records generalizing s with
  | nil => rfl
  | cons r records inductionHypothesis =>
      rw [handleAll_cons, s.handle_of_not_stream (quiet r (by simp)),
        inductionHypothesis _ (fun later member => quiet later (List.mem_cons_of_mem _ member)),
        List.foldl_cons]

/-! ### Record by record -/

@[simp] theorem settle_of_not_got {s : RequestState} (got : s.gotRequest = false) :
    s.settle = s := by
  simp [settle, got]

@[simp] theorem handover_of_not_got {s : RequestState} (got : s.gotRequest = false) :
    s.handover = [] := by
  simp [handover, got]

/-- After every read no hand-over is pending. -/
theorem settle_gotRequest (s : RequestState) : s.settle.gotRequest = false := by
  unfold settle
  split
  · rfl
  · simpa using ‹¬ s.gotRequest = true›

/-- The records one by one, with a hand-over right after each record that
completes a request. -/
def serveEach (s : RequestState) (records : List Record) : RequestState × List Observation :=
  s.serve (records.map fun r => [r])

theorem serveEach_append (s : RequestState) (first second : List Record) :
    s.serveEach (first ++ second) =
      (((s.serveEach first).1.serveEach second).1,
        (s.serveEach first).2 ++ ((s.serveEach first).1.serveEach second).2) := by
  simp only [serveEach, List.map_append, serve_append]

theorem serveEach_cons (s : RequestState) (r : Record) (records : List Record) :
    (s.serveEach (r :: records)).1 = ((s.handle r).settle.serveEach records).1 ∧
      invocations (s.serveEach (r :: records)).2 =
        invocations (s.handle r).handover ++
          invocations ((s.handle r).settle.serveEach records).2 := by
  refine ⟨rfl, ?_⟩
  simp [serveEach, serve, events, invocations]

/-- Records that complete no request are only handled. -/
theorem serveEach_stays {s : RequestState} (got : s.gotRequest = false) {records : List Record}
    (stays : ∀ r ∈ records, r.closes = false) :
    (s.serveEach records).1 = s.handleAll records ∧ invocations (s.serveEach records).2 = [] := by
  induction records generalizing s with
  | nil => exact ⟨rfl, rfl⟩
  | cons r records inductionHypothesis =>
      have still : (s.handle r).gotRequest = false := by
        rw [(s.handle_of_not_closes (stays r (by simp))).1, got]
      obtain ⟨state, calls⟩ := s.serveEach_cons r records
      obtain ⟨stateAll, callsAll⟩ := inductionHypothesis still
        (fun later member => stays later (List.mem_cons_of_mem _ member))
      rw [settle_of_not_got still] at state calls
      exact ⟨by rw [state, stateAll, handleAll_cons],
        by rw [calls, callsAll, handover_of_not_got still]; rfl⟩

/-- The record that completes a request hands it over. -/
theorem serveEach_closes {s : RequestState} {r : Record} (closes : r.closes = true)
    (records : List Record) :
    (s.serveEach (r :: records)).1 = ((idle s.keepConn).serveEach records).1 ∧
      invocations (s.serveEach (r :: records)).2 =
        s.invocation :: invocations ((idle s.keepConn).serveEach records).2 := by
  have settled : (s.handle r).settle = idle s.keepConn := by
    rw [s.handle_of_closes closes]
    rfl
  have handed : invocations (s.handle r).handover = [s.invocation] := by
    rw [s.handle_of_closes closes]
    rfl
  obtain ⟨state, calls⟩ := s.serveEach_cons r records
  rw [settled] at state calls
  exact ⟨state, by rw [calls, handed]; rfl⟩

/-- Records up to one that completes a request, and records of neither stream
behind it: one hand-over, of what the records in front have collected. -/
theorem serveEach_completes {s : RequestState} (waits : s.gotRequest = false)
    {lead trail : List Record} {closing : Record} (stays : ∀ r ∈ lead, r.closes = false)
    (closes : closing.closes = true) (quiet : ∀ r ∈ trail, r.isStream = false) :
    (s.serveEach (lead ++ closing :: trail)).1 =
        idle (trail.foldl keepAfter (s.handleAll lead).keepConn) ∧
      invocations (s.serveEach (lead ++ closing :: trail)).2 = [(s.handleAll lead).invocation] := by
  obtain ⟨state, calls⟩ := serveEach_stays waits stays
  obtain ⟨closed, called⟩ := serveEach_closes (s := s.handleAll lead) closes trail
  obtain ⟨after, silent⟩ := serveEach_stays (s := idle (s.handleAll lead).keepConn) rfl
    (fun r member => closes_of_not_stream (quiet r member))
  rw [after, handleAll_quiet _ quiet] at closed
  rw [silent] at called
  rw [serveEach_append, state]
  refine ⟨closed, ?_⟩
  rw [invocations_append, calls, called]
  rfl

end RequestState

/-! ### Calm batches -/

/-- The record adds to one of the two streams, or completes a request. -/
def Record.feeds (r : Record) : Bool :=
  (r.isOf .kFcgiParams && decide (r.contentData ≠ [])) || r.isOf .kFcgiStdin

theorem feeds_of_not_stream {r : Record} (quiet : r.isStream = false) : r.feeds = false := by
  simp only [Record.isStream, Bool.or_eq_false_iff] at quiet
  simp [Record.feeds, quiet.1, quiet.2]

theorem closes_of_not_feeds {r : Record} (idle : r.feeds = false) : r.closes = false := by
  simp only [Record.feeds, Bool.or_eq_false_iff] at idle
  simp [Record.closes, idle.2]

/-- In the same batch as the empty STDIN record that completes a request, no STDIN
record and no PARAMS record with content comes behind it. -/
def Calm (batch : List Record) : Prop :=
  batch.Pairwise fun r later => r.closes = true → later.feeds = false

instance (batch : List Record) : Decidable (Calm batch) :=
  inferInstanceAs (Decidable (batch.Pairwise _))

namespace RequestState

/-- The empty PARAMS record does nothing to an empty stream. -/
theorem handle_of_not_feeds {s : RequestState} (ended : s.paramsStream = []) {r : Record}
    (idle : r.feeds = false) : s.handle r = { s with keepConn := keepAfter s.keepConn r } := by
  by_cases quiet : r.isStream = false
  · exact s.handle_of_not_stream quiet
  · have params : FcgiType.ofCode r.type = some .kFcgiParams ∧ r.contentData = [] := by
      have both := And.intro idle quiet
      simp only [Record.feeds, Record.isStream, Record.isOf] at both
      grind
    have same := s.keepConn_handle r
    have rest : stuckTail (pairFraming.drain []).2 = [] := rfl
    have none : (pairFraming.drain []).1 = [] := rfl
    simp only [handle, params, ended, rest, none, List.map_nil, if_true] at same ⊢
    rw [← same]
    cases s
    cases ended
    rfl

/-- Records that feed nothing change at most `keepConn`. -/
theorem handleAll_idle {s : RequestState} (ended : s.paramsStream = []) {records : List Record}
    (idle : ∀ r ∈ records, r.feeds = false) :
    s.handleAll records = { s with keepConn := records.foldl keepAfter s.keepConn } := by
  induction records generalizing s with
  | nil => rfl
  | cons r records inductionHypothesis =>
      have rest := fun later member => idle later (List.mem_cons_of_mem r member)
      rw [handleAll_cons, handle_of_not_feeds ended (idle r List.mem_cons_self)]
      exact inductionHypothesis (s := { s with keepConn := keepAfter s.keepConn r }) ended rest

/-- Between requests they are only handled. -/
theorem serveEach_idle (keepConn : Bool) {records : List Record}
    (idle : ∀ r ∈ records, r.feeds = false) :
    ((RequestState.idle keepConn).serveEach records).1 = .idle (records.foldl keepAfter keepConn) ∧
      invocations ((RequestState.idle keepConn).serveEach records).2 = [] := by
  obtain ⟨state, calls⟩ := serveEach_stays (s := .idle keepConn) rfl
    (fun r member => closes_of_not_feeds (idle r member))
  exact ⟨by rw [state, handleAll_idle rfl idle]; rfl, calls⟩

/-- Where a batch completes a request, what follows has no part in it: it belongs to
neither stream, or it feeds nothing and the PARAMS stream has ended. -/
def Harmless : RequestState → List Record → Prop
  | _, [] => True
  | s, r :: batch =>
      if r.closes then
        (∀ later ∈ batch, later.isStream = false) ∨
          (s.paramsStream = [] ∧ ∀ later ∈ batch, later.feeds = false)
      else Harmless (s.handle r) batch

/-- A harmless batch does what its records do one by one. -/
theorem Harmless.serve {s : RequestState} (got : s.gotRequest = false) {batch : List Record}
    (harmless : s.Harmless batch) :
    (s.handleAll batch).settle = (s.serveEach batch).1 ∧
      invocations (s.handleAll batch).handover = invocations (s.serveEach batch).2 := by
  induction batch generalizing s with
  | nil => simp [got, serveEach, RequestState.serve]
  | cons r batch inductionHypothesis =>
      cases closes : r.closes with
      | false =>
          simp only [Harmless, closes, Bool.false_eq_true, if_false] at harmless
          have still : (s.handle r).gotRequest = false := by
            rw [(s.handle_of_not_closes closes).1, got]
          obtain ⟨state, calls⟩ := s.serveEach_cons r batch
          rw [settle_of_not_got still] at state calls
          obtain ⟨stateAll, callsAll⟩ := inductionHypothesis still harmless
          refine ⟨by rw [handleAll_cons, state, stateAll], ?_⟩
          rw [handleAll_cons, calls, callsAll, handover_of_not_got still]
          rfl
      | true =>
          -- what follows can change `keepConn` only, before or after the hand-over
          simp only [Harmless, closes, if_true] at harmless
          have idle : ∀ later ∈ batch, later.feeds = false := by
            rcases harmless with quiet | ⟨-, idle⟩
            · exact fun later member => feeds_of_not_stream (quiet later member)
            · exact idle
          have handled : (s.handleAll (r :: batch)) =
              { s with gotRequest := true, keepConn := batch.foldl keepAfter s.keepConn } := by
            rw [handleAll_cons, s.handle_of_closes closes]
            rcases harmless with quiet | ⟨ended, _⟩
            · exact handleAll_quiet _ quiet
            · exact handleAll_idle (s := { s with gotRequest := true }) ended idle
          obtain ⟨state, calls⟩ := serveEach_closes (s := s) closes batch
          obtain ⟨after, silent⟩ := serveEach_idle s.keepConn idle
          rw [handled, state, after, calls, silent]
          exact ⟨rfl, rfl⟩

/-- Every batch is harmless where it comes. -/
def HarmlessAll : RequestState → List (List Record) → Prop
  | _, [] => True
  | s, batch :: batches => s.Harmless batch ∧ HarmlessAll (s.handleAll batch).settle batches

/-- Harmless batches do what their records do one by one: where the batches are
cut does not matter. -/
theorem HarmlessAll.serve {s : RequestState} (got : s.gotRequest = false)
    {batches : List (List Record)} (harmless : s.HarmlessAll batches) :
    (s.serve batches).1 = (s.serveEach batches.flatten).1 ∧
      invocations (s.serve batches).2 = invocations (s.serveEach batches.flatten).2 := by
  induction batches generalizing s with
  | nil => exact ⟨rfl, rfl⟩
  | cons batch batches inductionHypothesis =>
      obtain ⟨state, calls⟩ := harmless.1.serve got
      obtain ⟨stateAll, callsAll⟩ :=
        inductionHypothesis (s.handleAll batch).settle_gotRequest harmless.2
      rw [List.flatten_cons, serveEach_append, ← state]
      refine ⟨stateAll, ?_⟩
      simp only [RequestState.serve, invocations_append, invocations_records, List.nil_append,
        calls, callsAll]

/-! ### Which batches are harmless -/

/-- Nothing of a stream follows a record that completes a request. -/
def Quiet (records : List Record) : Prop :=
  records.Pairwise fun r later => r.closes = true → later.isStream = false

theorem harmless_of_quiet (s : RequestState) {batch : List Record} (quiet : Quiet batch) :
    s.Harmless batch := by
  induction batch generalizing s with
  | nil => trivial
  | cons r batch inductionHypothesis =>
      obtain ⟨behind, quiet⟩ := List.pairwise_cons.mp quiet
      rw [Harmless]
      split
      · rename_i closes
        exact Or.inl fun later member => behind later member closes
      · exact inductionHypothesis _ quiet

theorem harmlessAll_of_quiet (s : RequestState) {batches : List (List Record)}
    (quiet : ∀ batch ∈ batches, Quiet batch) : s.HarmlessAll batches := by
  induction batches generalizing s with
  | nil => trivial
  | cons batch batches inductionHypothesis =>
      exact ⟨harmless_of_quiet s (quiet batch List.mem_cons_self),
        inductionHypothesis _ fun later member => quiet later (List.mem_cons_of_mem _ member)⟩

/-- Nothing of a stream follows the record that completes the only request. -/
theorem quiet_of_completes {lead trail : List Record} {closing : Record}
    (stays : ∀ r ∈ lead, r.closes = false) (quiet : ∀ r ∈ trail, r.isStream = false) :
    Quiet (lead ++ closing :: trail) := by
  have never : ∀ r ∈ lead, ∀ later : Record, r.closes = true → later.isStream = false := by
    intro r member later closes
    rw [stays r member] at closes
    cases closes
  unfold Quiet
  rw [List.pairwise_append, List.pairwise_cons]
  refine ⟨?_, ⟨?_, ?_⟩, ?_⟩
  · exact List.pairwise_of_forall_mem_list fun r member later _ => never r member later
  · intro later member _
    exact quiet later member
  · exact List.pairwise_of_forall_mem_list fun _ _ later member _ => quiet later member
  · exact fun r member later _ => never r member later

/-- Where one of the records completes a request, the PARAMS stream has ended. -/
def ParamsEnded : RequestState → List Record → Prop
  | _, [] => True
  | s, r :: records =>
      (r.closes = true → s.paramsStream = []) ∧ ParamsEnded (s.handle r).settle records

/-- Records that complete no request only move the state along. -/
theorem paramsEnded_stays {s : RequestState} (got : s.gotRequest = false) {lead : List Record}
    (stays : ∀ r ∈ lead, r.closes = false) (records : List Record) :
    s.ParamsEnded (lead ++ records) ↔ (s.handleAll lead).ParamsEnded records := by
  induction lead generalizing s with
  | nil => rfl
  | cons r lead inductionHypothesis =>
      have open' := stays r List.mem_cons_self
      have still : (s.handle r).gotRequest = false := by
        rw [(s.handle_of_not_closes open').1, got]
      rw [List.cons_append, ParamsEnded, settle_of_not_got still,
        inductionHypothesis still fun later member => stays later (List.mem_cons_of_mem r member)]
      simp [open']

/-- A calm batch is harmless if the PARAMS stream has ended where it completes a
request; what follows it is then as it would be behind its records one by one. -/
theorem harmless_of_calm {s : RequestState} (got : s.gotRequest = false)
    {batch records : List Record} (calm : Calm batch) (ended : s.ParamsEnded (batch ++ records)) :
    s.Harmless batch ∧ (s.handleAll batch).settle.ParamsEnded records := by
  induction batch generalizing s with
  | nil => exact ⟨trivial, by rwa [handleAll_nil, settle_of_not_got got]⟩
  | cons r batch inductionHypothesis =>
      obtain ⟨behind, calm⟩ := List.pairwise_cons.mp calm
      obtain ⟨here, later⟩ := ended
      cases closes : r.closes with
      | false =>
          have still : (s.handle r).gotRequest = false := by
            rw [(s.handle_of_not_closes closes).1, got]
          rw [settle_of_not_got still] at later
          simpa only [Harmless, closes, Bool.false_eq_true, if_false, handleAll_cons] using
            inductionHypothesis still calm later
      | true =>
          have unfed : ∀ later ∈ batch, later.feeds = false :=
            fun later member => behind later member closes
          have harmless : s.Harmless (r :: batch) := by
            simp only [Harmless, closes, if_true]
            exact Or.inr ⟨here closes, unfed⟩
          refine ⟨harmless, ?_⟩
          rw [(harmless.serve got).1, (serveEach_closes closes batch).1,
            (serveEach_idle s.keepConn unfed).1]
          have settled : (s.handle r).settle = .idle s.keepConn := by
            rw [s.handle_of_closes closes]
            rfl
          have next : (idle s.keepConn).ParamsEnded (batch ++ records) := settled ▸ later
          rwa [paramsEnded_stays (s := .idle s.keepConn) rfl fun later member =>
            closes_of_not_feeds (unfed later member), handleAll_idle rfl unfed] at next

theorem harmlessAll_of_calm {s : RequestState} (got : s.gotRequest = false)
    {batches : List (List Record)} (calm : ∀ batch ∈ batches, Calm batch)
    (ended : s.ParamsEnded batches.flatten) : s.HarmlessAll batches := by
  induction batches generalizing s with
  | nil => trivial
  | cons batch batches inductionHypothesis =>
      obtain ⟨harmless, later⟩ := harmless_of_calm got (calm batch List.mem_cons_self) ended
      exact ⟨harmless, inductionHypothesis (s.handleAll batch).settle_gotRequest
        (fun other member => calm other (List.mem_cons_of_mem _ member)) later⟩

end RequestState

/-! ### Well-formed requests -/

/-- The PARAMS stream of a request, fed to an empty stream. -/
theorem feedParams_chunks {chunks : List Bytes} (nonempty : ∀ chunk ∈ chunks, chunk ≠ [])
    (stream : Bytes) (params : ParamMap) :
    chunks.foldl feedParams (stream, params) = (stream ++ chunks.flatten, params) := by
  induction chunks generalizing stream with
  | nil => simp
  | cons chunk chunks inductionHypothesis =>
      have head : feedParams (stream, params) chunk = (stream ++ chunk, params) :=
        if_neg (nonempty chunk (by simp))
      rw [List.foldl_cons, head, inductionHypothesis
        (fun later member => nonempty later (List.mem_cons_of_mem _ member)), List.flatten_cons,
        List.append_assoc]

/-- The records in front of the last, of which none that is not ignored
completes a request, complete none. -/
theorem stays_of_shape {lead middle : List Record} {opening : Record}
    (shape : lead.filter (fun r => !r.isIgnored) = opening :: middle)
    (begins : opening.isOf .kFcgiBeginRequest = true)
    (stays : ∀ r ∈ middle, r.closes = false) : ∀ r ∈ lead, r.closes = false := by
  intro r member
  cases ignored : r.isIgnored with
  | true => exact RequestState.closes_of_not_stream (not_stream_of_ignored ignored)
  | false =>
      have kept : r ∈ lead.filter (fun r => !r.isIgnored) :=
        List.mem_filter.mpr ⟨member, by simp [ignored]⟩
      rw [shape, List.mem_cons] at kept
      rcases kept with rfl | inside
      · simp only [Record.isOf, decide_eq_true_eq] at begins
        simp [Record.closes, Record.isOf, begins]
      · exact stays r inside

namespace WellFormedRequest

variable (request : WellFormedRequest)

/-- Only the last record completes the request. -/
theorem lead_stays : ∀ r ∈ request.lead, r.closes = false := by
  refine stays_of_shape request.lead_shape request.opening_begins ?_
  intro r inside
  cases stream : r.isOf .kFcgiStdin with
  | false => simp [Record.closes, stream]
  | true =>
      have carried : r.contentData ∈ contentsOf .kFcgiStdin request.middle :=
        List.mem_map.mpr ⟨r, List.mem_filter.mpr ⟨inside, stream⟩, rfl⟩
      simp [Record.closes, request.stdin_nonempty _ carried]

theorem trail_quiet : ∀ r ∈ request.trail, r.isStream = false :=
  fun r member => not_stream_of_ignored (request.trail_ignored r member)

/-- Ignored records and the BEGIN_REQUEST carry nothing of either stream. -/
theorem contentsOf_lead {type : FcgiType} (stream : type = .kFcgiParams ∨ type = .kFcgiStdin) :
    contentsOf type request.lead = contentsOf type request.middle := by
  have kept : request.lead.filter (Record.isOf type) =
      (request.lead.filter (fun r => !r.isIgnored)).filter (Record.isOf type) := by
    rw [List.filter_filter]
    apply List.filter_congr
    intro r _
    rcases stream with rfl | rfl
    · cases params : r.isOf .kFcgiParams <;> simp [Record.isIgnored, params]
    · cases stdin : r.isOf .kFcgiStdin <;> simp [Record.isIgnored, stdin]
  have other : request.opening.isOf type = false := by
    have begins := request.opening_begins
    simp only [Record.isOf, decide_eq_true_eq] at begins
    rcases stream with rfl | rfl <;> simp [Record.isOf, begins]
  rw [contentsOf, kept, request.lead_shape, List.filter_cons_of_neg (by simp [other])]
  rfl

/-- What the handler is called with when the request arrives in a given
state: everything that is left there takes part. -/
def invocationFrom (s : RequestState) : Invocation where
  params := assignAll s.params
    ((pairFraming.drain (s.paramsStream ++ request.pairs.flatMap WirePair.encode)).1.map
      WirePair.entry)
  stdin := s.stdin ++ request.body

/-- From an idle state nothing but the request takes part. -/
theorem invocationFrom_idle (keepConn : Bool) :
    request.invocationFrom (.idle keepConn) = request.invocation := by
  simp only [invocationFrom, RequestState.idle, List.nil_append,
    pairFraming.drain_encoded pairFraming_encodes]
  rfl

/-- The records before the last collect the pairs and the body behind what is
there already. -/
theorem handleAll_lead (s : RequestState) :
    (s.handleAll request.lead).gotRequest = s.gotRequest ∧
      (s.handleAll request.lead).invocation = request.invocationFrom s := by
  obtain ⟨got, stdin, params⟩ := s.handleAll_streams request.lead_stays
  refine ⟨got, ?_⟩
  rw [request.contentsOf_lead (Or.inl rfl), request.params_shape, List.foldl_append,
    feedParams_chunks request.params_nonempty, request.params_carry] at params
  simp only [List.foldl_cons, List.foldl_nil, feedParams, if_true] at params
  rw [request.contentsOf_lead (Or.inr rfl), request.stdin_carry] at stdin
  simp only [RequestState.invocation, invocationFrom, stdin, (Prod.mk.inj params).2]

/-- From an idle state, the PARAMS stream has ended before the last record. -/
theorem handleAll_lead_ended (keepConn : Bool) :
    ((RequestState.idle keepConn).handleAll request.lead).paramsStream = [] := by
  obtain ⟨_, _, params⟩ := (RequestState.idle keepConn).handleAll_streams request.lead_stays
  rw [request.contentsOf_lead (Or.inl rfl), request.params_shape, List.foldl_append,
    feedParams_chunks request.params_nonempty, request.params_carry] at params
  simp only [List.foldl_cons, List.foldl_nil, feedParams, if_true, RequestState.idle,
    List.nil_append, pairFraming.drain_encoded pairFraming_encodes] at params
  exact (Prod.mk.inj params).1

/-- A well-formed request, record by record: one hand-over, and an idle state
after it. -/
theorem serveEach_request {s : RequestState} (waits : s.gotRequest = false) :
    ∃ keepConn, (s.serveEach request.records).1 = .idle keepConn ∧
      invocations (s.serveEach request.records).2 = [request.invocationFrom s] := by
  obtain ⟨after, called⟩ := RequestState.serveEach_completes waits request.lead_stays
    request.closing_closes request.trail_quiet
  rw [(request.handleAll_lead s).2] at called
  exact ⟨_, after, called⟩

/-- Between requests, a well-formed request ends its PARAMS stream before it is
complete, and leaves the next one to itself. -/
theorem paramsEnded_request (keepConn : Bool) (later : List Record) :
    ∃ keepConn', (RequestState.idle keepConn).ParamsEnded (request.records ++ later) ↔
      (RequestState.idle keepConn').ParamsEnded later := by
  have idle : ∀ r ∈ request.trail, r.feeds = false :=
    fun r member => feeds_of_not_stream (request.trail_quiet r member)
  have ended := request.handleAll_lead_ended keepConn
  generalize reached : (RequestState.idle keepConn).handleAll request.lead = s at ended
  have settled : (s.handle request.closing).settle = .idle s.keepConn := by
    rw [s.handle_of_closes request.closing_closes]
    rfl
  refine ⟨request.trail.foldl keepAfter s.keepConn, ?_⟩
  rw [records, List.append_assoc, RequestState.paramsEnded_stays rfl request.lead_stays, reached,
    List.cons_append, RequestState.ParamsEnded, settled,
    RequestState.paramsEnded_stays (s := .idle s.keepConn) rfl fun r member =>
      closes_of_not_feeds (idle r member),
    RequestState.handleAll_idle rfl idle, and_iff_right fun _ => ended]
  rfl

end WellFormedRequest

theorem paramsEnded_requests (keepConn : Bool) (requests : List WellFormedRequest) :
    (RequestState.idle keepConn).ParamsEnded (requests.flatMap WellFormedRequest.records) := by
  induction requests generalizing keepConn with
  | nil => trivial
  | cons request requests inductionHypothesis =>
      obtain ⟨keepConn', later⟩ := request.paramsEnded_request keepConn
        (requests.flatMap WellFormedRequest.records)
      rw [List.flatMap_cons, later]
      exact inductionHypothesis keepConn'

/-- A sequence of well-formed requests, record by record: one hand-over for
each, in order. -/
theorem serveEach_requests (keepConn : Bool) (requests : List WellFormedRequest) :
    ∃ keepConn',
      ((RequestState.idle keepConn).serveEach
          (requests.flatMap WellFormedRequest.records)).1 = .idle keepConn' ∧
      invocations ((RequestState.idle keepConn).serveEach
          (requests.flatMap WellFormedRequest.records)).2 =
        requests.map WellFormedRequest.invocation := by
  induction requests generalizing keepConn with
  | nil => exact ⟨keepConn, rfl, rfl⟩
  | cons request requests inductionHypothesis =>
      obtain ⟨keepConn₁, state, calls⟩ :=
        request.serveEach_request (s := .idle keepConn) rfl
      rw [request.invocationFrom_idle] at calls
      obtain ⟨keepConn₂, stateAll, callsAll⟩ := inductionHypothesis keepConn₁
      refine ⟨keepConn₂, ?_, ?_⟩
      · rw [List.flatMap_cons, RequestState.serveEach_append, state, stateAll]
      · rw [List.flatMap_cons, RequestState.serveEach_append, state, invocations_append, calls,
          callsAll]
        rfl

end FastCgi
