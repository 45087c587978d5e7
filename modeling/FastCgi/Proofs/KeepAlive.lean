/-
Module: FastCgi.Proofs.KeepAlive
Layer: Proofs
Purpose: Which request ends a connection.  Both servers decide by a Boolean
  that only a responder's BEGIN_REQUEST writes, and that is set only by the
  flags byte one; the request's own keep-alive bit decides exactly under
  `OwnBitDecides`.
Trusted boundary: none
Main exports: Mucgi.EndsAfter, Cocgi.EndsAfter, Mucgi.endsAfter_view,
  Cocgi.endsAfter_view, own_bit_decides_iff
-/
import FastCgi.Proofs.Segmentation
import FastCgi.Spec.KeepAlive
import Mathlib.Data.List.Induction

namespace FastCgi

/-! ### What requests do to `keepConn` -/

theorem keepAfter_of_not_begin {r : Record} (other : r.isOf .kFcgiBeginRequest = false)
    (keepConn : Bool) : keepAfter keepConn r = keepConn := by
  simp [keepAfter, other]

theorem foldl_keepAfter_of_not_begin {records : List Record}
    (other : ∀ r ∈ records, r.isOf .kFcgiBeginRequest = false) (keepConn : Bool) :
    records.foldl keepAfter keepConn = keepConn := by
  induction records with
  | nil => rfl
  | cons r records inductionHypothesis =>
      rw [List.foldl_cons, keepAfter_of_not_begin (other r (by simp)),
        inductionHypothesis fun later member => other later (List.mem_cons_of_mem _ member)]

theorem not_begin_of_ignored {r : Record} (ignored : r.isIgnored = true) :
    r.isOf .kFcgiBeginRequest = false := by
  simp only [Record.isIgnored, Bool.and_eq_true, Bool.not_eq_true'] at ignored
  exact ignored.1.1

theorem not_begin_of_stream {r : Record}
    (stream : r.isOf .kFcgiParams = true ∨ r.isOf .kFcgiStdin = true) :
    r.isOf .kFcgiBeginRequest = false := by
  simp only [Record.isOf, decide_eq_true_eq, decide_eq_false_iff_not] at stream ⊢
  rcases stream with params | stdin
  · simp [params]
  · simp [stdin]

/-- Only the records that are not ignored count. -/
theorem foldl_keepAfter_filter (records : List Record) (keepConn : Bool) :
    (records.filter fun r => !r.isIgnored).foldl keepAfter keepConn =
      records.foldl keepAfter keepConn := by
  rw [List.foldl_filter]
  congr 1
  funext keepConn r
  cases ignored : r.isIgnored with
  | false => simp
  | true => simp [keepAfter_of_not_begin (not_begin_of_ignored ignored)]

namespace BegunRequest

variable (request : BegunRequest)

/-- What a request leaves in `keepConn`. -/
def keepsAfter (keepConn : Bool) (request : BegunRequest) : Bool :=
  if request.isResponder then decide (request.flags = kFcgiKeepConn) else keepConn

theorem lead_stays : ∀ r ∈ request.lead, r.closes = false :=
  stays_of_shape request.lead_shape request.opening_begins request.middle_stays

theorem trail_quiet : ∀ r ∈ request.trail, r.isStream = false :=
  fun r member => not_stream_of_ignored (request.trail_ignored r member)

theorem foldl_keepAfter_lead (keepConn : Bool) :
    request.lead.foldl keepAfter keepConn = keepsAfter keepConn request := by
  have streams : ∀ r ∈ request.middle, r.isOf .kFcgiBeginRequest = false :=
    fun r member => not_begin_of_stream (request.middle_streams r member)
  rw [← foldl_keepAfter_filter, request.lead_shape, List.foldl_cons,
    foldl_keepAfter_of_not_begin streams]
  have accepted : request.opening.acceptsBegin = request.isResponder := by
    simp only [Record.acceptsBegin, isResponder, request.opening_long, true_and]
  rw [keepAfter, request.opening_begins, Bool.true_and, accepted, keepsAfter, flags]

/-- The last request of a connection in reads of its own leaves an idle
connection, with the Boolean that its BEGIN_REQUEST left. -/
theorem run_group {v : View} (boundary : v.pending = []) (waits : v.request.gotRequest = false)
    {group : List Bytes} (whole : group.flatten = request.encode) :
    (v.run group).1 =
      { pending := [], request := .idle (keepsAfter v.request.keepConn request) } := by
  have quiet : RequestState.Quiet request.records :=
    RequestState.quiet_of_completes request.lead_stays request.trail_quiet
  have trail : ∀ r ∈ request.trail, r.isOf .kFcgiBeginRequest = false :=
    fun r member => not_begin_of_ignored (request.trail_ignored r member)
  rw [(run_quiet boundary waits whole quiet).1, records,
    (RequestState.serveEach_completes waits request.lead_stays request.closing_closes
      request.trail_quiet).1, foldl_keepAfter_of_not_begin trail,
    RequestState.keepConn_handleAll, request.foldl_keepAfter_lead]

end BegunRequest

/-- Requests in reads of their own, one after the other. -/
theorem run_begun_groups {v : View} (boundary : v.pending = []) {keepConn : Bool}
    (idle : v.request = .idle keepConn) {requests : List BegunRequest}
    {groups : List (List Bytes)}
    (split : List.Forall₂ (fun request group => group.flatten = request.encode)
      requests groups) :
    (v.run groups.flatten).1 =
      { pending := [], request := .idle (requests.foldl BegunRequest.keepsAfter keepConn) } := by
  induction split generalizing v keepConn with
  | nil =>
      rw [List.flatten_nil, View.run, List.foldl_nil, ← idle, ← boundary]
  | @cons request group requests groups whole _ inductionHypothesis =>
      have first := request.run_group boundary (by rw [idle]; rfl) whole
      rw [List.flatten_cons, View.run_append, first, List.foldl_cons,
        inductionHypothesis rfl rfl, idle]
      rfl

/-! ### Which read ends the connection -/

namespace RequestState

/-- Records that complete no request end nothing. -/
theorem endings_of_stays {s : RequestState} (waits : s.gotRequest = false)
    {batches : List (List Record)} (stays : ∀ r ∈ batches.flatten, r.closes = false) :
    ∀ ends ∈ s.endings batches, ends = false := by
  induction batches generalizing s with
  | nil => simp [endings]
  | cons batch batches inductionHypothesis =>
      rw [List.flatten_cons] at stays
      have still : (s.handleAll batch).gotRequest = false := by
        rw [(s.handleAll_streams fun r member => stays r (List.mem_append_left _ member)).1, waits]
      intro ends member
      rw [endings, settle_of_not_got still, List.mem_cons] at member
      rcases member with rfl | later
      · simp [RequestState.ends, still]
      · exact inductionHypothesis still
          (fun r member => stays r (List.mem_append_right _ member)) ends later

/-- A batch of a request ends in front of the record that completes it, or
holds that record. -/
theorem batch_cases {batch later lead trail : List Record} {closing : Record}
    (whole : batch ++ later = lead ++ closing :: trail) :
    (∃ rest, lead = batch ++ rest ∧ later = rest ++ closing :: trail) ∨
      ∃ rest, batch = lead ++ closing :: rest ∧ trail = rest ++ later := by
  rcases List.append_eq_append_iff.mp whole with ⟨rest, front, back⟩ | ⟨rest, front, back⟩
  · exact Or.inl ⟨rest, front, back⟩
  · cases rest with
    | nil => exact Or.inl ⟨[], by simpa using front.symm, by simpa using back.symm⟩
    | cons r rest =>
        obtain ⟨rfl, rfl⟩ := List.cons.inj back
        exact Or.inr ⟨rest, front, rfl⟩

/-- Wherever the records of a request are cut, one hand-over follows, and it
ends the connection exactly when the records in front of the last left the
Boolean clear. -/
theorem mem_endings_iff {s : RequestState} (waits : s.gotRequest = false)
    {lead trail : List Record} {closing : Record} (stays : ∀ r ∈ lead, r.closes = false)
    (closes : closing.closes = true) (ignored : ∀ r ∈ trail, r.isIgnored = true)
    {batches : List (List Record)} (whole : batches.flatten = lead ++ closing :: trail) :
    true ∈ s.endings batches ↔ lead.foldl keepAfter s.keepConn = false := by
  induction batches generalizing s lead with
  | nil => simp at whole
  | cons batch batches inductionHypothesis =>
      rw [List.flatten_cons] at whole
      rcases batch_cases whole with ⟨rest, rfl, later⟩ | ⟨rest, rfl, rfl⟩
      · have still : (s.handleAll batch).gotRequest = false := by
          rw [(s.handleAll_streams fun r member => stays r (List.mem_append_left _ member)).1,
            waits]
        have before : (s.handleAll batch).ends = false := by
          simp [RequestState.ends, still]
        rw [endings, settle_of_not_got still, before, List.mem_cons, List.foldl_append,
          inductionHypothesis still (fun r member => stays r (List.mem_append_right _ member))
            later, keepConn_handleAll]
        simp
      · -- what follows in the batch and after it is ignored
        have quiet : ∀ r ∈ rest, r.isStream = false := fun r member =>
          not_stream_of_ignored (ignored r (List.mem_append_left _ member))
        have other : ∀ r ∈ rest, r.isOf .kFcgiBeginRequest = false := fun r member =>
          not_begin_of_ignored (ignored r (List.mem_append_left _ member))
        have handed : s.handleAll (lead ++ closing :: rest) =
            { s.handleAll lead with gotRequest := true } := by
          rw [handleAll_append, handleAll_cons, handle_of_closes _ closes,
            handleAll_quiet _ quiet, foldl_keepAfter_of_not_begin other]
        have stays' : ∀ r ∈ batches.flatten, r.closes = false := fun r member =>
          closes_of_not_stream (not_stream_of_ignored (ignored r (List.mem_append_right _ member)))
        have silent := endings_of_stays (s := idle (s.handleAll lead).keepConn) rfl stays'
        rw [endings, handed, List.mem_cons, ← keepConn_handleAll]
        constructor
        · rintro (now | later)
          · simpa [RequestState.ends] using now
          · cases silent true later
        · intro clear
          exact Or.inl (by simp [RequestState.ends, clear])

end RequestState

/-- The reads of a request end the connection exactly when its BEGIN_REQUEST
left the Boolean clear. -/
theorem BegunRequest.mem_endings_iff (request : BegunRequest) {v : View}
    (boundary : v.pending = []) (waits : v.request.gotRequest = false) {group : List Bytes}
    (whole : group.flatten = request.encode) :
    true ∈ v.endings group ↔ keepsAfter v.request.keepConn request = false := by
  rw [v.endings_eq, boundary, RequestState.mem_endings_iff waits request.lead_stays
    request.closing_closes request.trail_ignored (batches_of_records whole).1,
    request.foldl_keepAfter_lead]

/-! ### The two servers -/

namespace Mucgi

variable {σ : Type}

/-- `onMessage` calls `shutdown` at the hand-overs that end the connection. -/
theorem handleRead_shutdown {cb : Callback σ} {c : FastCgiCodec} {conn : σ} {data : Bytes}
    {handled : Handled σ} (read : handleRead cb c conn data = .ok handled) :
    handled.shutdown = (c.view.receive data).request.ends := by
  by_cases got : (c.view.receive data).request.gotRequest = true
  · obtain ⟨c', received, calls⟩ := handleRead_calls cb conn got
    rw [calls] at read
    obtain ⟨result, _, rfl⟩ := ok_of_map read
    rw [RequestState.ends, got, Bool.true_and, ← received]
    rfl
  · obtain ⟨c', waits, _⟩ := handleRead_waits cb conn got
    cases waits.symm.trans read
    rw [RequestState.ends, Bool.eq_false_iff.mpr got, Bool.false_and]

theorem shutdowns_returning (handler : ParamMap → Buffer → σ → ParamMap × Buffer × σ)
    (c : FastCgiCodec) (conn : σ) (reads : List Bytes) :
    shutdowns (returning handler) c conn reads = .ok (c.view.endings reads) := by
  induction reads generalizing c conn with
  | nil => rfl
  | cons data reads inductionHypothesis =>
      rcases handleRead_view (returning handler) c conn data with
        ⟨handled, read, view, _⟩ | ⟨params, stdin, fault, called, _⟩
      · simp only [shutdowns, read, ok_bind, inductionHypothesis, view,
          handleRead_shutdown read]
        rfl
      · cases called

/-- A fresh connection receives the reads `earlier`, with the callback
`before`, and one of the reads that follow, with the callback `last`, calls
`conn->shutdown()`. -/
def EndsAfter (before last : ParamMap → Buffer → σ → ParamMap × Buffer × σ) (conn : σ)
    (earlier reads : List Bytes) : Prop :=
  ∃ c conn' trace ended, run (returning before) .fresh conn earlier = .ok (c, conn', trace) ∧
    shutdowns (returning last) c conn' reads = .ok ended ∧ true ∈ ended

theorem endsAfter_view (before last : ParamMap → Buffer → σ → ParamMap × Buffer × σ) (conn : σ)
    (earlier reads : List Bytes) :
    EndsAfter before last conn earlier reads ↔
      true ∈ (View.fresh.run earlier).1.endings reads := by
  obtain ⟨c, conn', ran, view⟩ := run_returning before .fresh conn earlier
  rw [view_fresh] at view
  rw [← view]
  constructor
  · rintro ⟨_, _, _, ended, ran', shut, member⟩
    cases ran.symm.trans ran'
    rw [shutdowns_returning] at shut
    cases shut
    exact member
  · intro member
    exact ⟨c, conn', _, _, ran, shutdowns_returning last c conn' reads, member⟩

end Mucgi

namespace Cocgi

variable {σ : Type}

/-- `readData` returns ERR_SOCKET_FINISH at the hand-overs that end the
connection, if the response was written. -/
theorem readData_finish {handler : ParamMap → Buffer → σ → ErrorCode × ParamMap × Buffer × σ}
    (written : ∀ params stdin world, (handler params stdin world).1 = .errOk) {errno : Errno}
    {c : FastCgiCodec} {world : σ} {data : Bytes} {read : ReadData σ}
    (received : readData (returning handler) errno c world (.received data) = .ok read) :
    read.ret = some (if (c.view.receive data).request.ends then .errSocketFinish else .errOk) := by
  rcases readData_received_cases received with
    ⟨waits, ret, _⟩ | ⟨got, params, stdin, ret, _, _, asked, returned⟩
  · rw [ret, RequestState.ends, waits, Bool.false_and]
    rfl
  · have code : some (handler params stdin world).1 = ret :=
      congrArg Prod.fst (Except.ok.inj asked)
    rw [written] at code
    rw [returned, ← code, RequestState.ends, got, Bool.true_and]
    simp

theorem returns_returning {handler : ParamMap → Buffer → σ → ErrorCode × ParamMap × Buffer × σ}
    (written : ∀ params stdin world, (handler params stdin world).1 = .errOk) (errno : Errno)
    (c : FastCgiCodec) (world : σ) (reads : List Bytes) :
    returns (returning handler) errno c world reads =
      .ok ((c.view.endings reads).map fun ends => if ends then .errSocketFinish else .errOk) := by
  induction reads generalizing c world with
  | nil => rfl
  | cons data reads inductionHypothesis =>
      rcases readData_view (returning handler) errno c world data with
        ⟨read, ret, received, _, view, _⟩ | ⟨_, _, _, _, called, _⟩ | ⟨_, _, _, called, _⟩
      · simp only [returns, received, ok_bind, readData_finish written received,
          inductionHypothesis, view]
        rfl
      · cases called
      · cases called

/-- A fresh connection receives the reads `earlier`, with the handler
`before`, and for one of the reads that follow, with the handler `last`,
`readData` returns ERR_SOCKET_FINISH. -/
def EndsAfter (before last : ParamMap → Buffer → σ → ErrorCode × ParamMap × Buffer × σ)
    (errno : Errno) (world : σ) (earlier reads : List Bytes) : Prop :=
  ∃ c world' trace rets,
    run (returning before) errno .fresh world earlier = .ok (c, world', trace) ∧
      returns (returning last) errno c world' reads = .ok rets ∧ .errSocketFinish ∈ rets

theorem endsAfter_view
    {before last : ParamMap → Buffer → σ → ErrorCode × ParamMap × Buffer × σ}
    (written : ∀ params stdin world, (last params stdin world).1 = .errOk) (errno : Errno)
    (world : σ) (earlier reads : List Bytes) :
    EndsAfter before last errno world earlier reads ↔
      true ∈ (View.fresh.run earlier).1.endings reads := by
  obtain ⟨c, world', ran, view⟩ := run_returning before errno .fresh world earlier
  rw [view_fresh] at view
  rw [← view]
  have finished (endings : List Bool) :
      ErrorCode.errSocketFinish ∈ endings.map (fun ends =>
        if ends then ErrorCode.errSocketFinish else .errOk) ↔ true ∈ endings := by
    simp
  constructor
  · rintro ⟨_, _, _, rets, ran', returned, member⟩
    cases ran.symm.trans ran'
    rw [returns_returning written] at returned
    cases returned
    exact (finished _).mp member
  · intro member
    exact ⟨c, world', _, _, ran, returns_returning written errno c world' reads,
      (finished _).mpr member⟩

end Cocgi

/-! ### Whose bit decides -/

/-- What the Boolean holds after a list of requests. -/
theorem foldl_keepsAfter (requests : List BegunRequest) :
    requests.foldl BegunRequest.keepsAfter false = true ↔
      lastResponderFlags requests = some kFcgiKeepConn := by
  induction requests using List.reverseRecOn with
  | nil => simp [lastResponderFlags]
  | append_singleton requests request inductionHypothesis =>
      rw [List.foldl_append, List.foldl_cons, List.foldl_nil, BegunRequest.keepsAfter]
      by_cases responder : request.isResponder = true
      · rw [if_pos responder]
        simp [lastResponderFlags, List.filter_append, responder]
      · rw [if_neg responder, inductionHypothesis]
        simp [lastResponderFlags, List.filter_append, responder]

/-- The keep-alive bit alone is a flags byte that sets it. -/
theorem keepBit_of_flags {request : BegunRequest} (alone : request.flags = kFcgiKeepConn) :
    request.keepBit = true := by
  rw [BegunRequest.keepBit, alone]
  decide

/-- What ends the connection is the request's own bit, exactly under
`OwnBitDecides`. -/
theorem decides_iff (earlier : List BegunRequest) (request : BegunRequest) :
    (BegunRequest.keepsAfter (earlier.foldl BegunRequest.keepsAfter false) request = false ↔
        request.keepBit = false) ↔
      OwnBitDecides earlier request := by
  rw [OwnBitDecides, BegunRequest.keepsAfter]
  by_cases responder : request.isResponder = true
  · rw [if_pos responder, if_pos responder, decide_eq_false_iff_not]
    constructor
    · intro agree set
      by_contra other
      rw [agree.mp other] at set
      cases set
    · intro alone
      constructor
      · intro other
        exact Bool.eq_false_iff.mpr (mt alone other)
      · intro clear same
        rw [keepBit_of_flags same] at clear
        cases clear
  · rw [if_neg responder, if_neg responder, ← foldl_keepsAfter, ← Bool.not_eq_true,
      ← Bool.not_eq_true, not_iff_not]
    exact Iff.comm

/-- Requests in reads of their own: the last one ends the connection exactly
when it leaves the Boolean clear. -/
theorem mem_endings_after (earlier : List BegunRequest) (groups : List (List Bytes))
    (split : List.Forall₂ (fun request group => group.flatten = request.encode) earlier groups)
    (request : BegunRequest) (group : List Bytes) (whole : group.flatten = request.encode) :
    true ∈ (View.fresh.run groups.flatten).1.endings group ↔
      BegunRequest.keepsAfter (earlier.foldl BegunRequest.keepsAfter false) request = false := by
  rw [run_begun_groups (v := View.fresh) rfl rfl split]
  exact request.mem_endings_iff rfl rfl whole

/-- For every sequence of requests on one connection, of any roles and flags,
each in reads of its own: the last of them ends the connection by its own
keep-alive bit exactly under `OwnBitDecides`, in both servers.  In cocgi its
response must have been written. -/
theorem own_bit_decides_iff (earlier : List BegunRequest) (groups : List (List Bytes))
    (split : List.Forall₂ (fun request group => group.flatten = request.encode) earlier groups)
    (request : BegunRequest) (group : List Bytes) (whole : group.flatten = request.encode)
    {σ : Type} (mucgi mucgi' : ParamMap → Buffer → σ → ParamMap × Buffer × σ)
    (cocgi cocgi' : ParamMap → Buffer → σ → Cocgi.ErrorCode × ParamMap × Buffer × σ)
    (written : ∀ params stdin world, (cocgi' params stdin world).1 = .errOk)
    (errno : Cocgi.Errno) (world : σ) :
    ((Mucgi.EndsAfter mucgi mucgi' world groups.flatten group ↔ request.keepBit = false) ↔
        OwnBitDecides earlier request) ∧
      ((Cocgi.EndsAfter cocgi cocgi' errno world groups.flatten group ↔
          request.keepBit = false) ↔
        OwnBitDecides earlier request) := by
  rw [Mucgi.endsAfter_view, Cocgi.endsAfter_view written,
    mem_endings_after earlier groups split request group whole, decides_iff]
  exact ⟨Iff.rfl, Iff.rfl⟩

/-- Two responder requests whose flags bytes are one and zero, the second cut
inside its BEGIN_REQUEST: it ends the connection, as its bit is clear. -/
theorem own_bit_decides_second :
    (Mucgi.EndsAfter (fun params stdin (_ : Unit) => (params, stdin, ()))
        (fun params stdin _ => (params, stdin, ())) () [(BegunRequest.bare 1 1).encode]
        [(BegunRequest.bare 1 0).encode.take 11, (BegunRequest.bare 1 0).encode.drop 11] ↔
      (BegunRequest.bare 1 0).keepBit = false) ∧
    (Cocgi.EndsAfter (fun params stdin (_ : Unit) => (.errOk, params, stdin, ()))
        (fun params stdin _ => (.errOk, params, stdin, ())) 0 ()
        [(BegunRequest.bare 1 1).encode]
        [(BegunRequest.bare 1 0).encode.take 11, (BegunRequest.bare 1 0).encode.drop 11] ↔
      (BegunRequest.bare 1 0).keepBit = false) := by
  have decided := own_bit_decides_iff [.bare 1 1] [[(BegunRequest.bare 1 1).encode]]
    (.cons rfl .nil) (.bare 1 0)
    [(BegunRequest.bare 1 0).encode.take 11, (BegunRequest.bare 1 0).encode.drop 11] rfl
    (fun params stdin (_ : Unit) => (params, stdin, ()))
    (fun params stdin _ => (params, stdin, ()))
    (fun params stdin _ => (.errOk, params, stdin, ()))
    (fun params stdin _ => (.errOk, params, stdin, ())) (fun _ _ _ => rfl) 0 ()
  exact ⟨decided.1.mpr (by decide), decided.2.mpr (by decide)⟩

/-- Where the own bit does not decide, in both servers: the first request of a
connection, whose flags byte three has the bit set, ends it; and an authorizer
request whose flags byte is zero does not, behind a responder request that
asked to keep the connection. -/
theorem own_bit_overruled :
    ((BegunRequest.bare 1 3).keepBit = true ∧
      Mucgi.EndsAfter (fun params stdin (_ : Unit) => (params, stdin, ()))
        (fun params stdin _ => (params, stdin, ())) () [] [(BegunRequest.bare 1 3).encode] ∧
      Cocgi.EndsAfter (fun params stdin (_ : Unit) => (.errOk, params, stdin, ()))
        (fun params stdin _ => (.errOk, params, stdin, ())) 0 () []
        [(BegunRequest.bare 1 3).encode]) ∧
    (BegunRequest.bare 2 0).keepBit = false ∧
      ¬ Mucgi.EndsAfter (fun params stdin (_ : Unit) => (params, stdin, ()))
        (fun params stdin _ => (params, stdin, ())) () [(BegunRequest.bare 1 1).encode]
        [(BegunRequest.bare 2 0).encode] ∧
      ¬ Cocgi.EndsAfter (fun params stdin (_ : Unit) => (.errOk, params, stdin, ()))
        (fun params stdin _ => (.errOk, params, stdin, ())) 0 ()
        [(BegunRequest.bare 1 1).encode] [(BegunRequest.bare 2 0).encode] := by
  have manyFlags := (mem_endings_after [] [] .nil (.bare 1 3)
    [(BegunRequest.bare 1 3).encode] rfl).mpr (by decide)
  have otherRole := mt (mem_endings_after [.bare 1 1] [[(BegunRequest.bare 1 1).encode]]
    (.cons rfl .nil) (.bare 2 0) [(BegunRequest.bare 2 0).encode] rfl).mp (by decide)
  rw [Mucgi.endsAfter_view, Mucgi.endsAfter_view, Cocgi.endsAfter_view (fun _ _ _ => rfl),
    Cocgi.endsAfter_view (fun _ _ _ => rfl)]
  exact ⟨⟨by decide, manyFlags, manyFlags⟩, by decide, otherRole, otherRole⟩

end FastCgi
