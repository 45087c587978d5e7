/-
Module: FastCgi.Proofs.ServerRefinement
Layer: Proofs
Purpose: Both servers refine the connection on byte strings.  A read of either
  server is one `View.step`, and a sequence of reads is a `View.run`; the only
  faults are those of the request handler itself.
Trusted boundary: none
Main exports: Mucgi.handleRead_calls, Mucgi.run_view, Mucgi.run_one_call,
  Mucgi.Calls, Mucgi.calls_of_view, Cocgi.readData_calls,
  Cocgi.readData_received_cases, Cocgi.run_view,
  Cocgi.run_one_call, Cocgi.Calls, Cocgi.calls_of_view
-/
import FastCgi.Model.Cocgi
import FastCgi.Model.Mucgi
import FastCgi.Proofs.CodecRefinement

namespace FastCgi

/-- The record loop after `data` was put behind what the input buffer held. -/
theorem parseRecords_joined {c : FastCgiCodec} {buf : Buffer} {data : Bytes}
    (joined : buf.readable = c.buf.readable ++ data) :
    ∃ c', ({ c with buf := buf } : FastCgiCodec).parseRecords =
        .ok (c', c.request.events (c.view.records data)) ∧
      c'.view = c.view.receive data := by
  obtain ⟨c', parsed, pending, request⟩ := parseRecords_view { c with buf := buf }
  simp only [joined] at parsed pending request
  refine ⟨c', parsed, ?_⟩
  simp only [FastCgiCodec.view, View.receive, pending, request]
  rfl

/-- What both servers do first: fill the input buffer and run the record
loop. -/
theorem receive_view (c : FastCgiCodec) (data : Bytes) :
    ∃ buf c', c.buf.readFd data = .ok buf ∧
      ({ c with buf := buf } : FastCgiCodec).parseRecords =
        .ok (c', c.request.events (c.view.records data)) ∧
      c'.view = c.view.receive data := by
  obtain ⟨buf, filled, joined⟩ := c.buf.readFd_view data
  obtain ⟨c', parsed, received⟩ := parseRecords_joined joined
  exact ⟨buf, c', filled, parsed, received⟩

/-- The view after a hand-over, whatever the handler made of the map and the
buffer it was given. -/
theorem view_clearRequest (c : FastCgiCodec) (params : ParamMap) (stdin : Buffer) :
    ({ c with params := params, stdin := stdin } : FastCgiCodec).clearRequest.view =
      { pending := c.view.pending, request := .idle c.view.request.keepConn } := by
  simp only [FastCgiCodec.view, clearRequest_request]
  rfl

/-- The view of a fresh codec. -/
theorem view_fresh : FastCgiCodec.fresh.view = View.fresh := by
  simp [FastCgiCodec.fresh, FastCgiCodec.view, FastCgiCodec.request, View.fresh, RequestState.idle]

/-- A read that completed a request hands it over. -/
theorem step_of_gotRequest {c c' : FastCgiCodec} {data : Bytes}
    (received : c'.view = c.view.receive data) (got : c'.gotRequest = true)
    (params : ParamMap) (stdin : Buffer) :
    ({ c' with params := params, stdin := stdin } : FastCgiCodec).clearRequest.view =
        c.view.step data ∧
      (c.request.events (c.view.records data)).map .record ++
        [.invoked ⟨c'.params, c'.stdin.readable⟩] = c.view.seen data := by
  have complete : c'.view.request.gotRequest = true := got
  refine ⟨?_, ?_⟩
  · rw [view_clearRequest, View.step, ← received, RequestState.settle, if_pos complete]
  · rw [View.seen, ← received, RequestState.handover, if_pos complete]
    rfl

/-- A read that completed no request only receives. -/
theorem step_of_not_gotRequest {c c' : FastCgiCodec} {data : Bytes}
    (received : c'.view = c.view.receive data) (waits : ¬ c'.gotRequest = true) :
    c'.view = c.view.step data ∧
      (c.request.events (c.view.records data)).map .record = c.view.seen data := by
  have incomplete : ¬ c'.view.request.gotRequest = true := waits
  refine ⟨?_, ?_⟩
  · rw [View.step, ← received, RequestState.settle, if_neg incomplete]
  · rw [View.seen, ← received, RequestState.handover, if_neg incomplete, List.append_nil]
    rfl

/-! ### mucgi -/

namespace Mucgi

variable {σ : Type}

/-- A read that completes no request leaves the connection alone. -/
theorem handleRead_waits (cb : Callback σ) {c : FastCgiCodec} (conn : σ) {data : Bytes}
    (waits : ¬ (c.view.receive data).request.gotRequest = true) :
    ∃ c', handleRead cb c conn data =
        .ok { codec := c', conn := conn, shutdown := false, seen := c.view.seen data } ∧
      c'.view = c.view.step data := by
  obtain ⟨buf, c', filled, parsed, received⟩ := receive_view c data
  rw [← received] at waits
  obtain ⟨view, seen⟩ := step_of_not_gotRequest received waits
  have still : ¬ c'.gotRequest = true := waits
  refine ⟨c', ?_, view⟩
  simp only [handleRead, onMessage, parseRequest, filled, parsed, ok_bind, if_neg still, ← seen]
  rfl

/-- A read that completes a request hands it to the callback. -/
theorem handleRead_calls (cb : Callback σ) {c : FastCgiCodec} (conn : σ) {data : Bytes}
    (got : (c.view.receive data).request.gotRequest = true) :
    ∃ c' : FastCgiCodec, c'.view = c.view.receive data ∧
      handleRead cb c conn data = (cb c'.params c'.stdin conn).map fun result =>
        { codec := { c' with params := result.1, stdin := result.2.1 }.clearRequest
          conn := result.2.2
          shutdown := !c'.keepConn
          seen := c.view.seen data } := by
  obtain ⟨buf, c', filled, parsed, received⟩ := receive_view c data
  rw [← received] at got
  have handed : c'.gotRequest = true := got
  obtain ⟨_, seen⟩ := step_of_gotRequest received handed c'.params c'.stdin
  refine ⟨c', received, ?_⟩
  simp only [handleRead, onMessage, parseRequest, filled, parsed, ok_bind, if_pos handed, seen]
  rfl

/-- One read either is a step of the view, or ends in a fault of the
callback. -/
theorem handleRead_view (cb : Callback σ) (c : FastCgiCodec) (conn : σ) (data : Bytes) :
    (∃ handled, handleRead cb c conn data = .ok handled ∧
        handled.codec.view = c.view.step data ∧ handled.seen = c.view.seen data) ∨
      ∃ params stdin fault, cb params stdin conn = .error fault ∧
        handleRead cb c conn data = .error fault := by
  by_cases got : (c.view.receive data).request.gotRequest = true
  · obtain ⟨c', received, read⟩ := handleRead_calls cb conn got
    rw [read]
    cases called : cb c'.params c'.stdin conn with
    | error fault => exact Or.inr ⟨c'.params, c'.stdin, fault, called, rfl⟩
    | ok result =>
        rw [← received] at got
        obtain ⟨view, _⟩ := step_of_gotRequest received got result.1 result.2.1
        exact Or.inl ⟨_, rfl, view, rfl⟩
  · obtain ⟨c', read, view⟩ := handleRead_waits cb conn got
    exact Or.inl ⟨_, read, view, rfl⟩

/-- A connection either runs as its view does, or ends in a fault of the
callback. -/
theorem run_view (cb : Callback σ) (c : FastCgiCodec) (conn : σ) (reads : List Bytes) :
    (∃ c' conn', run cb c conn reads = .ok (c', conn', (c.view.run reads).2) ∧
        c'.view = (c.view.run reads).1) ∨
      ∃ params stdin conn' fault, cb params stdin conn' = .error fault ∧
        run cb c conn reads = .error fault := by
  induction reads generalizing c conn with
  | nil => exact Or.inl ⟨c, conn, rfl, rfl⟩
  | cons data reads inductionHypothesis =>
      rcases handleRead_view cb c conn data with
        ⟨handled, read, view, seen⟩ | ⟨params, stdin, fault, called, failed⟩
      · rcases inductionHypothesis handled.codec handled.conn with
          ⟨c', conn', ran, final⟩ | ⟨params, stdin, conn', fault, called, failed⟩
        · refine Or.inl ⟨c', conn', ?_, ?_⟩
          · simp only [run, read, ok_bind, ran, view, seen, View.run]
            rfl
          · rw [final, view, View.run]
        · refine Or.inr ⟨params, stdin, conn', fault, called, ?_⟩
          simp only [run, read, ok_bind, failed]
          rfl
      · refine Or.inr ⟨params, stdin, conn, fault, called, ?_⟩
        simp only [run, failed]
        rfl

/-- Reads that complete no request leave the connection alone. -/
theorem run_silent (cb : Callback σ) {c : FastCgiCodec} (conn : σ) {reads : List Bytes}
    (silent : invocations (c.view.run reads).2 = []) :
    ∃ c' seen, run cb c conn reads = .ok (c', conn, seen) := by
  induction reads generalizing c with
  | nil => exact ⟨c, [], rfl⟩
  | cons data reads inductionHypothesis =>
      rw [View.run, invocations_append, List.append_eq_nil_iff, View.invocations_seen] at silent
      have waits : ¬ (c.view.receive data).request.gotRequest = true := by
        intro got
        simp [got] at silent
      obtain ⟨c', read, view⟩ := handleRead_waits cb conn waits
      rw [← view] at silent
      obtain ⟨final, seen, ran⟩ := inductionHypothesis silent.2
      refine ⟨final, c.view.seen data ++ seen, ?_⟩
      simp only [run, read, ok_bind, ran]
      rfl

/-- Reads that complete one request call the callback once, and do nothing
else to the connection. -/
theorem run_one_call (cb : Callback σ) {c : FastCgiCodec} (conn : σ) {reads : List Bytes}
    {invocation : Invocation} (one : invocations (c.view.run reads).2 = [invocation]) :
    ∃ stdin : Buffer, stdin.readable = invocation.stdin ∧
      (run cb c conn reads).map (fun result => result.2.1) =
        (cb invocation.params stdin conn).map fun result => result.2.2 := by
  induction reads generalizing c with
  | nil => cases one
  | cons data reads inductionHypothesis =>
      rw [View.run, invocations_append, View.invocations_seen] at one
      by_cases got : (c.view.receive data).request.gotRequest = true
      · rw [if_pos got, List.singleton_append, List.cons.injEq] at one
        obtain ⟨rfl, silent⟩ := one
        obtain ⟨c', received, read⟩ := handleRead_calls cb conn got
        rw [← received] at got ⊢
        refine ⟨c'.stdin, rfl, ?_⟩
        have handed : c'.view.request.invocation.params = c'.params := rfl
        simp only [run, read, handed]
        cases called : cb c'.params c'.stdin conn with
        | error fault => rfl
        | ok result =>
            obtain ⟨view, _⟩ := step_of_gotRequest received got result.1 result.2.1
            rw [← view] at silent
            obtain ⟨final, seen, ran⟩ := run_silent cb result.2.2 silent
            simp only [Except.map, ok_bind, ran]
            rfl
      · rw [if_neg got, List.nil_append] at one
        obtain ⟨c', read, view⟩ := handleRead_waits cb conn got
        rw [← view] at one
        obtain ⟨stdin, same, ran⟩ := inductionHypothesis one
        refine ⟨stdin, same, ?_⟩
        rw [← ran]
        simp only [run, read, ok_bind]
        cases run cb c' conn reads <;> rfl

/-- With a callback that returns, a connection runs as its view does. -/
theorem run_returning (handler : ParamMap → Buffer → σ → ParamMap × Buffer × σ)
    (c : FastCgiCodec) (conn : σ) (reads : List Bytes) :
    ∃ c' conn', run (returning handler) c conn reads = .ok (c', conn', (c.view.run reads).2) ∧
      c'.view = (c.view.run reads).1 := by
  rcases run_view (returning handler) c conn reads with
    ran | ⟨params, stdin, conn', fault, called, failed⟩
  · exact ran
  · cases called

/-- The reads take the codec `c` to `c'`, with these calls of the callback. -/
def Calls (handler : ParamMap → Buffer → σ → ParamMap × Buffer × σ) (conn : σ)
    (c : FastCgiCodec) (reads : List Bytes) (c' : FastCgiCodec) (calls : List Invocation) : Prop :=
  ∃ conn' trace, run (returning handler) c conn reads = .ok (c', conn', trace) ∧
    invocations trace = calls

theorem calls_of_view (handler : ParamMap → Buffer → σ → ParamMap × Buffer × σ) (conn : σ)
    (c : FastCgiCodec) (reads : List Bytes) :
    ∃ c', Calls handler conn c reads c' (invocations (c.view.run reads).2) ∧
      c'.view = (c.view.run reads).1 := by
  obtain ⟨c', conn', ran, view⟩ := run_returning handler c conn reads
  exact ⟨c', ⟨conn', _, ran, rfl⟩, view⟩

/-- The calls are those of the view. -/
theorem calls_iff (handler : ParamMap → Buffer → σ → ParamMap × Buffer × σ) (conn : σ)
    (c : FastCgiCodec) (reads : List Bytes) (calls : List Invocation) :
    (∃ c', Calls handler conn c reads c' calls) ↔
      invocations (c.view.run reads).2 = calls := by
  obtain ⟨c', conn', ran, _⟩ := run_returning handler c conn reads
  constructor
  · rintro ⟨_, _, trace, ran', called⟩
    cases ran.symm.trans ran'
    exact called
  · intro called
    exact ⟨c', conn', _, ran, called⟩

/-- The codec after the reads has the view after them. -/
theorem view_of_calls {handler : ParamMap → Buffer → σ → ParamMap × Buffer × σ} {conn : σ}
    {c c' : FastCgiCodec} {reads : List Bytes} {calls : List Invocation}
    (called : Calls handler conn c reads c' calls) : c'.view = (c.view.run reads).1 := by
  obtain ⟨_, trace, ran, _⟩ := called
  obtain ⟨_, _, ran', view⟩ := run_returning handler c conn reads
  cases ran.symm.trans ran'
  exact view

end Mucgi

/-! ### cocgi -/

namespace Cocgi

variable {σ : Type}

/-- An error code for a read without data, by the `errno` that is looked at. -/
def withoutData (errno : Errno) (c : FastCgiCodec) (world : σ) : ReadData σ where
  ret := some (if errno = eagain then .errSocketEagain else .errSocketRead)
  codec := c
  world := world
  seen := []

/-- At the end of file `errno` is what it was before the call. -/
theorem readData_endOfFile (doRequest : DoRequest σ) (errno : Errno) (c : FastCgiCodec)
    (world : σ) :
    readData doRequest errno c world .endOfFile = .ok (withoutData errno c world) := by
  simp only [readData, withoutData]
  split <;> rfl

/-- After a failed read `errno` is what the read has set. -/
theorem readData_failed (doRequest : DoRequest σ) (before : Errno) (c : FastCgiCodec)
    (world : σ) (errno : Errno) :
    readData doRequest before c world (.failed errno) = .ok (withoutData errno c world) := by
  simp only [readData, withoutData]
  split <;> rfl

/-- A call of `readData` that completes no request returns without a call of
`doRequest`. -/
theorem readData_waits (doRequest : DoRequest σ) (errno : Errno) {c : FastCgiCodec} (world : σ)
    {data : Bytes} (waits : ¬ (c.view.receive data).request.gotRequest = true) :
    ∃ c', readData doRequest errno c world (.received data) =
        .ok { ret := some .errOk, codec := c', world := world, seen := c.view.seen data } ∧
      c'.view = c.view.step data := by
  obtain ⟨buf, c', filled, parsed, received⟩ := receive_view c data
  rw [← received] at waits
  obtain ⟨view, seen⟩ := step_of_not_gotRequest received waits
  have still : ¬ c'.gotRequest = true := waits
  refine ⟨c', ?_, view⟩
  simp only [readData, answer, parseFcgiPackage, filled, parsed, ok_bind, if_neg still, ← seen]
  rfl

/-- What `readData` makes of the result of `doRequest`. -/
def answered (c : FastCgiCodec) (seen : List Observation) :
    Option ErrorCode × ParamMap × Buffer × σ → ReadData σ
  | (none, params, stdin, world) =>
      { ret := none, codec := { c with params := params, stdin := stdin }, world, seen }
  | (some ret, params, stdin, world) =>
      { ret := some (if !c.keepConn && ret = .errOk then .errSocketFinish else .errOk)
        codec := { c with params := params, stdin := stdin }.clearRequest
        world, seen }

/-- A call of `readData` that completes a request hands it to `doRequest`. -/
theorem readData_calls (doRequest : DoRequest σ) (errno : Errno) {c : FastCgiCodec} (world : σ)
    {data : Bytes} (got : (c.view.receive data).request.gotRequest = true) :
    ∃ c' : FastCgiCodec, c'.view = c.view.receive data ∧
      readData doRequest errno c world (.received data) =
        (doRequest c'.params c'.stdin world).map (answered c' (c.view.seen data)) := by
  obtain ⟨buf, c', filled, parsed, received⟩ := receive_view c data
  rw [← received] at got
  have handed : c'.gotRequest = true := got
  obtain ⟨_, seen⟩ := step_of_gotRequest received handed c'.params c'.stdin
  refine ⟨c', received, ?_⟩
  simp only [readData, answer, parseFcgiPackage, filled, parsed, ok_bind, if_pos handed, seen]
  cases called : doRequest c'.params c'.stdin world with
  | error fault => rfl
  | ok result =>
      obtain ⟨ret, params, stdin, world'⟩ := result
      cases ret with
      | none => rfl
      | some ret =>
          -- the two return values leave the same codec behind
          simp only [ok_bind, Except.map, answered, FastCgiCodec.clearRequest]
          cases c'.keepConn <;> cases ret <;> rfl

/-- What a call of `readData` that received data and did not fail has done: it
has completed no request, or it has called `doRequest` once and made its own
result of what that returned. -/
theorem readData_received_cases {doRequest : DoRequest σ} {errno : Errno} {c : FastCgiCodec}
    {world : σ} {data : Bytes} {read : ReadData σ}
    (ran : readData doRequest errno c world (.received data) = .ok read) :
    ((c.view.receive data).request.gotRequest = false ∧ read.ret = some .errOk ∧
        read.world = world) ∨
      ((c.view.receive data).request.gotRequest = true ∧
        ∃ params stdin ret params' stdin',
          doRequest params stdin world = .ok (ret, params', stdin', read.world) ∧
          read.ret = ret.map fun code =>
            if !(c.view.receive data).request.keepConn && code = .errOk then .errSocketFinish
            else .errOk) := by
  by_cases got : (c.view.receive data).request.gotRequest = true
  · obtain ⟨c', received, calls⟩ := readData_calls doRequest errno world got
    have keeps : (c.view.receive data).request.keepConn = c'.keepConn := by
      rw [← received]
      rfl
    rw [calls] at ran
    obtain ⟨⟨ret, params', stdin', world'⟩, asked, rfl⟩ := ok_of_map ran
    refine Or.inr ⟨got, c'.params, c'.stdin, ret, params', stdin', ?_⟩
    rw [keeps]
    cases ret with
    | none => exact ⟨asked, rfl⟩
    | some ret => exact ⟨asked, rfl⟩
  · obtain ⟨c', waits, _⟩ := readData_waits doRequest errno world got
    cases waits.symm.trans ran
    exact Or.inl ⟨Bool.eq_false_iff.mpr got, rfl, rfl⟩

/-- One call of `readData` that received data is a step of the view, or is
still inside `doRequest`, or ends in a fault of `doRequest`. -/
theorem readData_view (doRequest : DoRequest σ) (errno : Errno) (c : FastCgiCodec) (world : σ)
    (data : Bytes) :
    (∃ read ret, readData doRequest errno c world (.received data) = .ok read ∧
        read.ret = some ret ∧ read.codec.view = c.view.step data ∧
        read.seen = c.view.seen data) ∨
      (∃ read params stdin rest, doRequest params stdin world = .ok (none, rest) ∧
        readData doRequest errno c world (.received data) = .ok read ∧ read.ret = none) ∨
      ∃ params stdin fault, doRequest params stdin world = .error fault ∧
        readData doRequest errno c world (.received data) = .error fault := by
  by_cases got : (c.view.receive data).request.gotRequest = true
  · obtain ⟨c', received, read⟩ := readData_calls doRequest errno world got
    rw [read]
    cases called : doRequest c'.params c'.stdin world with
    | error fault => exact Or.inr (Or.inr ⟨c'.params, c'.stdin, fault, called, rfl⟩)
    | ok result =>
        obtain ⟨ret, params, stdin, world'⟩ := result
        cases ret with
        | none => exact Or.inr (Or.inl ⟨_, c'.params, c'.stdin, _, called, rfl, rfl⟩)
        | some ret =>
            rw [← received] at got
            obtain ⟨view, _⟩ := step_of_gotRequest received got params stdin
            exact Or.inl ⟨_, _, rfl, rfl, view, rfl⟩
  · obtain ⟨c', read, view⟩ := readData_waits doRequest errno world got
    exact Or.inl ⟨_, _, read, rfl, view, rfl⟩

/-- A sequence of calls either runs as the view does, or ends inside
`doRequest`, or ends in a fault of `doRequest`. -/
theorem run_view (doRequest : DoRequest σ) (errno : Errno) (c : FastCgiCodec) (world : σ)
    (reads : List Bytes) :
    (∃ c' world', run doRequest errno c world reads = .ok (c', world', (c.view.run reads).2) ∧
        c'.view = (c.view.run reads).1) ∨
      (∃ params stdin world' rest result, doRequest params stdin world' = .ok (none, rest) ∧
        run doRequest errno c world reads = .ok result) ∨
      ∃ params stdin world' fault, doRequest params stdin world' = .error fault ∧
        run doRequest errno c world reads = .error fault := by
  induction reads generalizing c world with
  | nil => exact Or.inl ⟨c, world, rfl, rfl⟩
  | cons data reads inductionHypothesis =>
      rcases readData_view doRequest errno c world data with
        ⟨outcome, ret, read, returned, view, seen⟩ |
        ⟨outcome, params, stdin, rest, called, read, blocked⟩ |
        ⟨params, stdin, fault, called, failed⟩
      · rcases inductionHypothesis outcome.codec outcome.world with
          ⟨c', world', ran, final⟩ | ⟨params, stdin, world', rest, result, called, ran⟩ |
          ⟨params, stdin, world', fault, called, failed⟩
        · refine Or.inl ⟨c', world', ?_, ?_⟩
          · simp only [run, read, ok_bind, returned, ran, view, seen, View.run]
            rfl
          · rw [final, view, View.run]
        · refine Or.inr (Or.inl ⟨params, stdin, world', rest,
            (result.1, result.2.1, outcome.seen ++ result.2.2), called, ?_⟩)
          simp only [run, read, ok_bind, returned, ran]
          rfl
        · refine Or.inr (Or.inr ⟨params, stdin, world', fault, called, ?_⟩)
          simp only [run, read, ok_bind, returned, failed]
          rfl
      · refine Or.inr (Or.inl ⟨params, stdin, world, rest,
          (outcome.codec, outcome.world, outcome.seen), called, ?_⟩)
        simp only [run, read, ok_bind, blocked]
        rfl
      · refine Or.inr (Or.inr ⟨params, stdin, world, fault, called, ?_⟩)
        simp only [run, failed]
        rfl

/-- Reads that complete no request make no call of `doRequest`. -/
theorem run_silent (doRequest : DoRequest σ) (errno : Errno) {c : FastCgiCodec} (world : σ)
    {reads : List Bytes} (silent : invocations (c.view.run reads).2 = []) :
    ∃ c' seen, run doRequest errno c world reads = .ok (c', world, seen) := by
  induction reads generalizing c with
  | nil => exact ⟨c, [], rfl⟩
  | cons data reads inductionHypothesis =>
      rw [View.run, invocations_append, List.append_eq_nil_iff, View.invocations_seen] at silent
      have waits : ¬ (c.view.receive data).request.gotRequest = true := by
        intro got
        simp [got] at silent
      obtain ⟨c', read, view⟩ := readData_waits doRequest errno world waits
      rw [← view] at silent
      obtain ⟨final, seen, ran⟩ := inductionHypothesis silent.2
      refine ⟨final, c.view.seen data ++ seen, ?_⟩
      simp only [run, read, ok_bind, ran]
      rfl

/-- Reads that complete one request call `doRequest` once, and do nothing else
to the socket; the call may not have returned. -/
theorem run_one_call (doRequest : DoRequest σ) (errno : Errno) {c : FastCgiCodec} (world : σ)
    {reads : List Bytes} {invocation : Invocation}
    (one : invocations (c.view.run reads).2 = [invocation]) :
    ∃ stdin : Buffer, stdin.readable = invocation.stdin ∧
      (run doRequest errno c world reads).map (fun result => result.2.1) =
        (doRequest invocation.params stdin world).map fun result => result.2.2.2 := by
  induction reads generalizing c with
  | nil => cases one
  | cons data reads inductionHypothesis =>
      rw [View.run, invocations_append, View.invocations_seen] at one
      by_cases got : (c.view.receive data).request.gotRequest = true
      · rw [if_pos got, List.singleton_append, List.cons.injEq] at one
        obtain ⟨rfl, silent⟩ := one
        obtain ⟨c', received, read⟩ := readData_calls doRequest errno world got
        rw [← received] at got ⊢
        refine ⟨c'.stdin, rfl, ?_⟩
        have handed : c'.view.request.invocation.params = c'.params := rfl
        simp only [run, read, handed]
        cases called : doRequest c'.params c'.stdin world with
        | error fault => rfl
        | ok result =>
            obtain ⟨ret, params, stdin, world'⟩ := result
            cases ret with
            | none => rfl
            | some ret =>
                obtain ⟨view, _⟩ := step_of_gotRequest received got params stdin
                rw [← view] at silent
                obtain ⟨final, seen, ran⟩ := run_silent doRequest errno world' silent
                simp only [Except.map, answered, ok_bind, ran]
                rfl
      · rw [if_neg got, List.nil_append] at one
        obtain ⟨c', read, view⟩ := readData_waits doRequest errno world got
        rw [← view] at one
        obtain ⟨stdin, same, ran⟩ := inductionHypothesis one
        refine ⟨stdin, same, ?_⟩
        rw [← ran]
        simp only [run, read, ok_bind]
        cases run doRequest errno c' world reads <;> rfl

/-- With a handler that returns, a sequence of calls runs as the view does. -/
theorem run_returning (handler : ParamMap → Buffer → σ → ErrorCode × ParamMap × Buffer × σ)
    (errno : Errno) (c : FastCgiCodec) (world : σ) (reads : List Bytes) :
    ∃ c' world', run (returning handler) errno c world reads =
        .ok (c', world', (c.view.run reads).2) ∧
      c'.view = (c.view.run reads).1 := by
  rcases run_view (returning handler) errno c world reads with
    ran | ⟨params, stdin, world', rest, result, called, ran⟩ |
    ⟨params, stdin, world', fault, called, failed⟩
  · exact ran
  · cases called
  · cases called

/-- The reads take the codec `c` to `c'`, with these calls of `doRequest`. -/
def Calls (handler : ParamMap → Buffer → σ → ErrorCode × ParamMap × Buffer × σ) (errno : Errno)
    (world : σ) (c : FastCgiCodec) (reads : List Bytes) (c' : FastCgiCodec)
    (calls : List Invocation) : Prop :=
  ∃ world' trace, run (returning handler) errno c world reads = .ok (c', world', trace) ∧
    invocations trace = calls

theorem calls_of_view (handler : ParamMap → Buffer → σ → ErrorCode × ParamMap × Buffer × σ)
    (errno : Errno) (world : σ) (c : FastCgiCodec) (reads : List Bytes) :
    ∃ c', Calls handler errno world c reads c' (invocations (c.view.run reads).2) ∧
      c'.view = (c.view.run reads).1 := by
  obtain ⟨c', world', ran, view⟩ := run_returning handler errno c world reads
  exact ⟨c', ⟨world', _, ran, rfl⟩, view⟩

/-- The calls are those of the view. -/
theorem calls_iff (handler : ParamMap → Buffer → σ → ErrorCode × ParamMap × Buffer × σ)
    (errno : Errno) (world : σ) (c : FastCgiCodec) (reads : List Bytes)
    (calls : List Invocation) :
    (∃ c', Calls handler errno world c reads c' calls) ↔
      invocations (c.view.run reads).2 = calls := by
  obtain ⟨c', world', ran, _⟩ := run_returning handler errno c world reads
  constructor
  · rintro ⟨_, _, trace, ran', called⟩
    cases ran.symm.trans ran'
    exact called
  · intro called
    exact ⟨c', world', _, ran, called⟩

/-- The codec after the reads has the view after them. -/
theorem view_of_calls {handler : ParamMap → Buffer → σ → ErrorCode × ParamMap × Buffer × σ}
    {errno : Errno} {world : σ} {c c' : FastCgiCodec} {reads : List Bytes}
    {calls : List Invocation} (called : Calls handler errno world c reads c' calls) :
    c'.view = (c.view.run reads).1 := by
  obtain ⟨_, trace, ran, _⟩ := called
  obtain ⟨_, _, ran', view⟩ := run_returning handler errno c world reads
  cases ran.symm.trans ran'
  exact view

end Cocgi

end FastCgi
