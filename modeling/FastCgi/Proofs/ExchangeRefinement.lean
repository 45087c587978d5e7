/-
Module: FastCgi.Proofs.ExchangeRefinement
Layer: Proofs
Purpose: A connection of cocgi runs as its exchanges: the loop does on the
  socket what the requests of its reads and the results of its writes say.
Trusted boundary: none
Main exports: Cocgi.readData_exchange, Cocgi.readData_without_exchange,
  Cocgi.readwriteLoop_exchange, Cocgi.trace_readwriteLoop
-/
import FastCgi.Proofs.HandlerRefinement
import FastCgi.Proofs.ServerRefinement
import FastCgi.Spec.Exchanges

namespace FastCgi

/-! ### The calls of a trace -/

@[simp] theorem calls_append (first second : List Event) :
    calls (first ++ second) = calls first ++ calls second := List.filterMap_append

theorem calls_of_isWrite {events : List Event} (writes : ∀ event ∈ events, event.IsWrite) :
    calls events = [] := by
  apply List.filterMap_eq_nil_iff.mpr
  intro event member
  have isWrite := writes event member
  cases event with
  | called call => exact isWrite.elim
  | responded response => rfl
  | wrote data => rfl
  | writeFailed errno => rfl

namespace Cocgi

/-! ### One turn -/

variable {backend : Backend} {recycle : Nat} {c : FastCgiCodec} {socket : Socket} {errno : Errno}

/-- A read without data looks at `errno`. -/
theorem readData_without_data {result : ReadResult} (empty : ∀ data, result ≠ .received data) :
    readData (doRequest (some backend)) errno c socket result =
      .ok (withoutData (errnoAfter errno result) c socket) := by
  cases result with
  | received data => exact absurd rfl (empty data)
  | endOfFile => exact readData_endOfFile _ errno c socket
  | failed code => exact readData_failed _ errno c socket code

/-- After a read without data the loop goes on exactly if it has to try again
and has not done so too often. -/
theorem nextTurn_withoutData (recycle : Nat) (errno : Errno) (c : FastCgiCodec) (socket : Socket) :
    nextTurn recycle (withoutData errno c socket).ret =
      if errno = eagain ∧ recycle < maxRecycleCount then .inl (recycle + 1) else .inr .closed := by
  by_cases again : errno = eagain
  · by_cases often : recycle < maxRecycleCount
    · simp [withoutData, nextTurn, again, often]
    · simp [withoutData, nextTurn, again, often]
  · simp [withoutData, nextTurn, again]

/-- The socket after an exchange. -/
def Socket.after (socket : Socket) (exchange : Exchange) : Socket where
  script := (transmit socket.script exchange.response).2.1
  trace := socket.trace ++ exchange.events socket.script

theorem calls_after (socket : Socket) (exchange : Exchange) :
    calls (socket.after exchange).trace = calls socket.trace ++ [exchange.call] := by
  have writes := calls_of_isWrite (transmit_isWrite socket.script exchange.response)
  simp only [Socket.after, calls_append]
  exact congrArg (calls socket.trace ++ exchange.call :: ·) writes

theorem answered_world (c : FastCgiCodec) (seen : List Observation) (ret : Option ErrorCode)
    (params : ParamMap) (stdin : Buffer) (socket : Socket) :
    (answered c seen (ret, params, stdin, socket)).world = socket := by
  cases ret with
  | none => rfl
  | some code => rfl

theorem answered_view {c' : FastCgiCodec} {data : Bytes} (received : c'.view = c.view.receive data)
    (got : c'.view.request.gotRequest = true) {seen : List Observation} {ret : Option ErrorCode}
    {params : ParamMap} {stdin : Buffer}
    (finished : (answered c' seen (ret, params, stdin, socket)).ret ≠ none) :
    (answered c' seen (ret, params, stdin, socket)).codec.view = c.view.step data := by
  cases ret with
  | none => exact absurd rfl finished
  | some code => exact (step_of_gotRequest received got params stdin).1

/-- After an answered request the loop goes on exactly if another exchange may
follow. -/
theorem nextTurn_answered {exchange : Exchange} (keeps : c.keepConn = exchange.keepConn)
    (recycle : Nat) (seen : List Observation) (ret : Option ErrorCode) (params : ParamMap)
    (stdin : Buffer) (socket : Socket) :
    if exchange.goesOn ret then
      nextTurn recycle (answered c seen (ret, params, stdin, socket)).ret = .inl 0
    else ∃ phase, nextTurn recycle (answered c seen (ret, params, stdin, socket)).ret =
      .inr phase := by
  cases ret with
  | none => exact ⟨.writing, rfl⟩
  | some code =>
      by_cases done : code = .errOk
      · subst done
        cases kept : exchange.keepConn with
        | true => simp [Exchange.goesOn, answered, nextTurn, keeps, kept]
        | false => simp [Exchange.goesOn, answered, nextTurn, keeps, kept]
      · simp [Exchange.goesOn, answered, nextTurn, done]

theorem exchangeOf_of_cgi {earlier : List BackendCall} {request : RequestState} {cgi : Cgicc}
    (built : requestCgi request.params request.stdin = .ok cgi) :
    exchangeOf backend earlier request = some {
      call := callOf request.params cgi
      response := responseBytes (backend earlier (callOf request.params cgi))
      keepConn := request.keepConn } := by
  rw [exchangeOf, built]

theorem cgi_of_exchangeOf {earlier : List BackendCall} {request : RequestState}
    {exchange : Exchange} (asked : exchangeOf backend earlier request = some exchange) :
    ∃ cgi, requestCgi request.params request.stdin = .ok cgi ∧ exchange = {
      call := callOf request.params cgi
      response := responseBytes (backend earlier (callOf request.params cgi))
      keepConn := request.keepConn } := by
  cases built : requestCgi request.params request.stdin with
  | error fault => simp [exchangeOf, built] at asked
  | ok cgi =>
      rw [exchangeOf_of_cgi built] at asked
      exact ⟨cgi, rfl, (Option.some.inj asked).symm⟩

/-- A read that completes a request makes the exchange of it.  The loop goes on
exactly if another one may follow. -/
theorem readData_exchange {data : Bytes} {exchange : Exchange}
    (got : (c.view.receive data).request.gotRequest = true)
    (asked : exchangeOf backend (calls socket.trace) (c.view.receive data).request =
      some exchange) (errno : Errno) (recycle : Nat) :
    ∃ read, readData (doRequest (some backend)) errno c socket (.received data) = .ok read ∧
      read.world = socket.after exchange ∧
      (read.ret ≠ none → read.codec.view = c.view.step data) ∧
      if exchange.goesOn (transmit socket.script exchange.response).1 then
        nextTurn recycle read.ret = .inl 0
      else ∃ phase, nextTurn recycle read.ret = .inr phase := by
  obtain ⟨c', received, called⟩ := readData_calls (doRequest (some backend)) errno socket got
  rw [← received] at asked got
  obtain ⟨cgi, built, rfl⟩ := cgi_of_exchangeOf asked
  have parsed : requestCgi c'.params c'.stdin.readable = .ok cgi := built
  obtain ⟨stdin', returned⟩ := doRequest_of_cgi backend parsed socket
  rw [returned _ rfl] at called
  refine ⟨_, called, answered_world _ _ _ _ _ _, ?_, nextTurn_answered rfl recycle _ _ _ _ _⟩
  intro finished
  exact answered_view received got finished

/-- A read that completes a request with a body that does not parse fails. -/
theorem readData_without_exchange {data : Bytes}
    (got : (c.view.receive data).request.gotRequest = true)
    (unasked : exchangeOf backend (calls socket.trace) (c.view.receive data).request = none)
    (errno : Errno) :
    ∃ fault, readData (doRequest (some backend)) errno c socket (.received data) =
      .error fault := by
  obtain ⟨c', received, called⟩ := readData_calls (doRequest (some backend)) errno socket got
  rw [← received] at unasked
  have malformed : ¬ BodyParses (variableOf c'.params (ascii "CONTENT_TYPE"))
      c'.stdin.readable := by
    intro parses
    obtain ⟨cgi, built⟩ := requestCgi_of_parses parses
    have asked : exchangeOf backend (calls socket.trace) c'.view.request = some _ :=
      exchangeOf_of_cgi built
    cases unasked.symm.trans asked
  rw [doRequest_of_not_parses (some backend) malformed socket] at called
  exact ⟨_, called⟩

/-! ### Runs of the loop -/

/-- The loop behind a read without data. -/
theorem readwriteLoop_without_data {result : ReadResult} (empty : ∀ data, result ≠ .received data)
    (recycle : Nat) (errno : Errno) (reads : List (Errno × ReadResult)) :
    readwriteLoop (doRequest (some backend)) recycle c socket ((errno, result) :: reads) =
      if errnoAfter errno result = eagain ∧ recycle < maxRecycleCount then
        readwriteLoop (doRequest (some backend)) (recycle + 1) c socket reads
      else .ok { phase := .closed, codec := c, world := socket } := by
  rw [readwriteLoop_cons, readData_without_data empty, ok_bind, nextTurn_withoutData]
  by_cases again : errnoAfter errno result = eagain ∧ recycle < maxRecycleCount
  · rw [if_pos again, if_pos again]
    rfl
  · rw [if_neg again, if_neg again]
    rfl

/-- The loop behind a read that completes no request. -/
theorem readwriteLoop_waits {data : Bytes}
    (waits : ¬ (c.view.receive data).request.gotRequest = true) (recycle : Nat) (errno : Errno)
    (reads : List (Errno × ReadResult)) :
    ∃ c', c'.view = c.view.step data ∧
      readwriteLoop (doRequest (some backend)) recycle c socket
          ((errno, .received data) :: reads) =
        readwriteLoop (doRequest (some backend)) 0 c' socket reads := by
  obtain ⟨c', called, view⟩ := readData_waits (doRequest (some backend)) errno socket waits
  refine ⟨c', view, ?_⟩
  rw [readwriteLoop_cons, called, ok_bind]
  rfl

/-- The loop behind a read that completes a request. -/
theorem readwriteLoop_exchange {data : Bytes} {exchange : Exchange}
    (got : (c.view.receive data).request.gotRequest = true)
    (asked : exchangeOf backend (calls socket.trace) (c.view.receive data).request =
      some exchange) (recycle : Nat) (errno : Errno) (reads : List (Errno × ReadResult)) :
    if exchange.goesOn (transmit socket.script exchange.response).1 then
      ∃ c', c'.view = c.view.step data ∧
        readwriteLoop (doRequest (some backend)) recycle c socket
            ((errno, .received data) :: reads) =
          readwriteLoop (doRequest (some backend)) 0 c' (socket.after exchange) reads
    else
      ∃ phase c', readwriteLoop (doRequest (some backend)) recycle c socket
          ((errno, .received data) :: reads) =
        .ok { phase := phase, codec := c', world := socket.after exchange } := by
  obtain ⟨read, called, world, view, turn⟩ := readData_exchange got asked errno recycle
  rw [readwriteLoop_cons, called, ok_bind]
  split at turn
  · rename_i goesOn
    rw [if_pos goesOn, turn, ← world]
    exact ⟨read.codec, view (returned_of_nextTurn turn), rfl⟩
  · rename_i stops
    obtain ⟨phase, turn⟩ := turn
    rw [if_neg stops, turn, ← world]
    exact ⟨phase, read.codec, rfl⟩

theorem exchanges_without_data {result : ReadResult} (empty : ∀ data, result ≠ .received data)
    (recycle : Nat) (v : View) (earlier : List BackendCall) (errno : Errno)
    (reads : List (Errno × ReadResult)) :
    exchanges backend recycle v earlier ((errno, result) :: reads) =
      if errnoAfter errno result = eagain ∧ recycle < maxRecycleCount then
        exchanges backend (recycle + 1) v earlier reads
      else [] := by
  cases result with
  | received data => exact absurd rfl (empty data)
  | endOfFile => rfl
  | failed code => rfl

/-- Every response of a connection is the response to some output. -/
theorem response_of_mem_exchanges {v : View} {earlier : List BackendCall}
    {reads : List (Errno × ReadResult)} {exchange : Exchange}
    (member : exchange ∈ exchanges backend recycle v earlier reads) :
    ∃ out, exchange.response = responseBytes out := by
  induction reads generalizing recycle v earlier with
  | nil => cases member
  | cons read reads inductionHypothesis =>
      obtain ⟨errno, result⟩ := read
      by_cases empty : ∀ data, result ≠ .received data
      · rw [exchanges_without_data empty] at member
        split at member
        · exact inductionHypothesis member
        · cases member
      · obtain ⟨data, rfl⟩ := not_forall_not.mp empty
        rw [exchanges] at member
        split at member
        · split at member
          · cases member
          · rename_i asked
            rcases List.mem_cons.mp member with rfl | later
            · obtain ⟨cgi, _, rfl⟩ := cgi_of_exchangeOf asked
              exact ⟨_, rfl⟩
            · exact inductionHypothesis later
        · exact inductionHypothesis member

/-- What a run of the loop adds to the trace are the exchanges that its reads
ask for, with the socket that it has. -/
theorem trace_readwriteLoop {reads : List (Errno × ReadResult)} {serving : Serving Socket}
    (ran : readwriteLoop (doRequest (some backend)) recycle c socket reads = .ok serving) :
    serving.world.trace = socket.trace ++ converse socket.script
      (exchanges backend recycle c.view (calls socket.trace) reads) := by
  induction reads generalizing recycle c socket with
  | nil =>
      cases ran
      simp [exchanges, converse]
  | cons read reads inductionHypothesis =>
      obtain ⟨errno, result⟩ := read
      by_cases empty : ∀ data, result ≠ .received data
      · rw [readwriteLoop_without_data empty] at ran
        rw [exchanges_without_data empty]
        split at ran
        · rename_i again
          rw [if_pos again]
          exact inductionHypothesis ran
        · rename_i closed
          cases ran
          rw [if_neg closed, converse, List.append_nil]
      · obtain ⟨data, rfl⟩ := not_forall_not.mp empty
        by_cases got : (c.view.receive data).request.gotRequest = true
        · rw [exchanges, if_pos got]
          cases asked : exchangeOf backend (calls socket.trace) (c.view.receive data).request with
          | none =>
              obtain ⟨fault, failed⟩ := readData_without_exchange got asked errno
              rw [readwriteLoop_cons, failed] at ran
              cases ran
          | some exchange =>
              have behind := readwriteLoop_exchange got asked recycle errno reads
              dsimp only
              rw [converse]
              split at behind
              · rename_i goesOn
                obtain ⟨c', view, same⟩ := behind
                rw [same] at ran
                have later := inductionHypothesis ran
                rw [view, calls_after] at later
                rw [if_pos goesOn, later]
                exact List.append_assoc _ _ _
              · rename_i stops
                obtain ⟨phase, c', same⟩ := behind
                cases same.symm.trans ran
                rw [if_neg stops, List.append_nil]
                rfl
        · obtain ⟨c', view, same⟩ := readwriteLoop_waits got recycle errno reads
          rw [same] at ran
          rw [exchanges, if_neg got, ← view]
          exact inductionHypothesis ran

end Cocgi

end FastCgi
