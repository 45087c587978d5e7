/-
Module: FastCgi.Proofs.HandlerRefinement
Layer: Proofs
Purpose: One specification of each request handler.  With a body that parses
  it calls the backend once and answers with the response to its output;
  with any other body it throws before the backend is called.
Trusted boundary: none
Main exports: writeLoop_view, transmit_induction, Mucgi.onRequest_of_cgi,
  Mucgi.onRequest_of_parses, Mucgi.onRequest_of_not_parses,
  Cocgi.doRequest_of_cgi, Cocgi.doRequest_of_parses,
  Cocgi.doRequest_of_not_parses, Cocgi.readwriteLoop_cons
-/
import FastCgi.Proofs.RespondRefinement
import FastCgi.Spec.Handling

namespace FastCgi

open Library

/-! ### Reading the request -/

theorem subscript_eq (map : ParamMap) (key : Bytes) :
    subscript map key = (variableOf map key, withDefault map key) := by
  unfold withDefault subscript variableOf
  cases map[key]? with
  | none => rfl
  | some value => rfl

/-- Inserting a missing key changes no variable, not even that of the key. -/
@[simp] theorem variableOf_withDefault (map : ParamMap) (key other : Bytes) :
    variableOf (withDefault map key) other = variableOf map other := by
  unfold withDefault subscript variableOf
  cases stored : map[key]? with
  | some value => rfl
  | none =>
      simp only [Std.ExtTreeMap.getElem?_insert]
      by_cases same : key = other
      · subst same
        simp [stored]
      · simp [same]

/-- The keys that are there keep their values. -/
theorem getElem?_withDefault {map : ParamMap} {other : Bytes} (present : other ∈ map)
    (key : Bytes) : (withDefault map key)[other]? = map[other]? := by
  unfold withDefault subscript
  cases stored : map[key]? with
  | some value => rfl
  | none =>
      have apart : key ≠ other := by
        intro same
        subst same
        simp [Std.ExtTreeMap.mem_iff_isSome_getElem?, stored] at present
      simp [Std.ExtTreeMap.getElem?_insert, apart]

theorem mem_withDefault {map : ParamMap} {other : Bytes} (present : other ∈ map) (key : Bytes) :
    other ∈ withDefault map key := by
  rw [Std.ExtTreeMap.mem_iff_isSome_getElem?, getElem?_withDefault present,
    ← Std.ExtTreeMap.mem_iff_isSome_getElem?]
  exact present

theorem getElem?_lookedUp {params : ParamMap} {key : Bytes} (present : key ∈ params) :
    (lookedUp params)[key]? = params[key]? := by
  have first := mem_withDefault present (ascii "QUERY_STRING")
  have second := mem_withDefault first (ascii "CONTENT_TYPE")
  rw [lookedUp, getElem?_withDefault second, getElem?_withDefault first,
    getElem?_withDefault present]

theorem takePostData_view (stdin : Buffer) :
    ∃ stdin', takePostData stdin = .ok (stdin.readable, stdin') := by
  unfold takePostData
  by_cases some : 0 < stdin.readableBytes
  · obtain ⟨stdin', taken, _⟩ := stdin.retrieveAllAsString_view
    exact ⟨stdin', by rw [if_pos some, taken]⟩
  · have empty : stdin.readable = [] := by
      rw [← List.length_eq_zero_iff, stdin.length_readable]
      omega
    exact ⟨stdin, by rw [if_neg some, empty]⟩

/-- A request with a `Cgicc` object has a body that parses, and the object has
its cookies. -/
theorem cookiePairs_of_requestCgi {params : ParamMap} {body : Bytes} {cgi : Cgicc}
    (built : requestCgi params body = .ok cgi) :
    BodyParses (variableOf params (ascii "CONTENT_TYPE")) body ∧
      cgi.cookiePairs = requestCookies params := by
  unfold requestCgi at built
  by_cases parses : BodyParses (variableOf params (ascii "CONTENT_TYPE")) body
  · obtain ⟨cgi', built', cookies⟩ := construct_of_parses parses
      (variableOf params (ascii "QUERY_STRING")) (variableOf params (ascii "HTTP_COOKIE"))
    cases built.symm.trans built'
    exact ⟨parses, by rw [Cgicc.cookiePairs, cookies, requestCookies]⟩
  · rw [construct_of_not_parses parses] at built
    cases built

/-- A request whose body parses has a `Cgicc` object. -/
theorem requestCgi_of_parses {params : ParamMap} {body : Bytes}
    (parses : BodyParses (variableOf params (ascii "CONTENT_TYPE")) body) :
    ∃ cgi, requestCgi params body = .ok cgi := by
  obtain ⟨cgi, built, _⟩ := construct_of_parses parses
    (variableOf params (ascii "QUERY_STRING")) (variableOf params (ascii "HTTP_COOKIE"))
  exact ⟨cgi, built⟩

theorem requestCgi_of_not_parses {params : ParamMap} {body : Bytes}
    (malformed : ¬ BodyParses (variableOf params (ascii "CONTENT_TYPE")) body) :
    requestCgi params body = .error (.exception "Malformed input") :=
  construct_of_not_parses malformed _ _

/-! ### Sending the response -/

theorem retrieveWritten_view (response : Buffer) (count : Nat) :
    ∃ response', Cocgi.retrieveWritten response (min count response.readableBytes) =
        .ok response' ∧
      response'.readable = response.readable.drop count := by
  have size := response.length_readable
  unfold Cocgi.retrieveWritten
  by_cases some : 0 < min count response.readableBytes
  · obtain ⟨response', retrieved, view⟩ :=
      response.retrieve_view (min count response.readableBytes) (by omega)
    refine ⟨response', by rw [if_pos some, retrieved], ?_⟩
    rw [view, ← size, List.drop_eq_drop_iff]
    omega
  · refine ⟨response, if_neg some, ?_⟩
    exact List.drop_zero.symm.trans (List.drop_eq_drop_iff.mpr (by omega))

/-- The write loop offers the readable bytes until they are taken. -/
theorem writeLoop_view (script : List Cocgi.WriteResult) (response : Buffer) :
    Cocgi.writeLoop script response = .ok (transmit script response.readable) := by
  have empty_iff (response : Buffer) : response.readable = [] ↔ ¬ 0 < response.readableBytes := by
    rw [← List.length_eq_zero_iff, response.length_readable]
    omega
  induction script generalizing response with
  | nil =>
      unfold Cocgi.writeLoop transmit
      by_cases more : 0 < response.readableBytes
      · simp [more, empty_iff]
      · simp [more, empty_iff]
  | cons result script inductionHypothesis =>
      unfold Cocgi.writeLoop transmit
      by_cases more : 0 < response.readableBytes
      · simp only [if_pos more, if_neg (mt (empty_iff response).mp (not_not_intro more))]
        cases result with
        | failed errno => rfl
        | accepted count =>
            have size := response.length_readable
            have data := response.bytesAt_eq 0 (min count response.readableBytes) (by omega)
            have piece : (response.readable.drop 0).take (min count response.readableBytes) =
                response.readable.take count := by
              rw [List.drop_zero, ← size, List.take_eq_take_iff]
              omega
            obtain ⟨response', retrieved, view⟩ := retrieveWritten_view response count
            simp only [data, retrieved, ok_bind, inductionHypothesis, view, piece]
            rfl
      · simp [more, empty_iff]

theorem transmit_done (script : List Cocgi.WriteResult) :
    transmit script [] = (some .errOk, script, []) := by
  cases script with
  | nil => rfl
  | cons result script => rfl

theorem transmit_blocked {bytes : Bytes} (more : bytes ≠ []) :
    transmit [] bytes = (none, [], []) := by
  simp [transmit, more]

theorem transmit_failed {bytes : Bytes} (more : bytes ≠ []) (errno : Cocgi.Errno)
    (script : List Cocgi.WriteResult) :
    transmit (.failed errno :: script) bytes =
      (some .errSocketWrite, script, [.writeFailed errno]) := by
  simp [transmit, more]

theorem transmit_accepted {bytes : Bytes} (more : bytes ≠ []) (count : Nat)
    (script : List Cocgi.WriteResult) :
    transmit (.accepted count :: script) bytes =
      ((transmit script (bytes.drop count)).1, (transmit script (bytes.drop count)).2.1,
        .wrote (bytes.take count) :: (transmit script (bytes.drop count)).2.2) := by
  simp [transmit, more]

/-- Induction along a transmission: nothing is left, the results have run out,
or the next one is a failure or takes some bytes. -/
theorem transmit_induction {motive : List Cocgi.WriteResult → Bytes → Prop}
    (done : ∀ script, motive script [])
    (blocked : ∀ bytes, bytes ≠ [] → motive [] bytes)
    (failed : ∀ errno script bytes, bytes ≠ [] → motive (.failed errno :: script) bytes)
    (accepted : ∀ count script bytes, bytes ≠ [] → motive script (bytes.drop count) →
      motive (.accepted count :: script) bytes)
    (script : List Cocgi.WriteResult) (bytes : Bytes) : motive script bytes := by
  induction script generalizing bytes with
  | nil =>
      by_cases more : bytes = []
      · exact more ▸ done []
      · exact blocked bytes more
  | cons result script inductionHypothesis =>
      by_cases more : bytes = []
      · exact more ▸ done _
      · cases result with
        | failed errno => exact failed errno script bytes more
        | accepted count => exact accepted count script bytes more (inductionHypothesis _)

/-- The events of a transmission are writes. -/
def Event.IsWrite : Event → Prop
  | .wrote _ => True
  | .writeFailed _ => True
  | _ => False

theorem transmit_isWrite (script : List Cocgi.WriteResult) (bytes : Bytes) :
    ∀ event ∈ (transmit script bytes).2.2, event.IsWrite := by
  induction script, bytes using transmit_induction with
  | done script => simp [transmit_done]
  | blocked bytes more => simp [transmit_blocked more]
  | failed errno script bytes more => simp [transmit_failed more, Event.IsWrite]
  | accepted count script bytes more rest =>
      rw [transmit_accepted more]
      exact List.forall_mem_cons.mpr ⟨trivial, rest⟩

/-- A transmission is still under way exactly when the results are not
enough. -/
theorem transmit_eq_none_iff (script : List Cocgi.WriteResult) (bytes : Bytes) :
    (transmit script bytes).1 = none ↔ ¬ Suffices script bytes.length := by
  induction script, bytes using transmit_induction with
  | done script => simp [transmit_done, Suffices]
  | blocked bytes more => simp [transmit_blocked more, Suffices, more]
  | failed errno script bytes more => simp [transmit_failed more, Suffices]
  | accepted count script bytes more rest =>
      simp only [transmit_accepted more, rest, Suffices, List.mem_cons, List.length_drop,
        List.map_cons, List.sum_cons, Cocgi.WriteResult.count, reduceCtorEq, false_or]
      have moved (sum : Nat) : bytes.length - count ≤ sum ↔ bytes.length ≤ count + sum := by
        omega
      rw [moved]

/-! ### mucgi -/

namespace Mucgi

theorem onRequest_eq (printRequest : Backend) (params : ParamMap) (input : Buffer)
    (conn : List Event) {input' : Buffer}
    (taken : takePostData input = .ok (input.readable, input')) :
    onRequest printRequest params input conn = (do
      let cgi ← requestCgi params input.readable
      let response ← respond (printRequest (calls conn) (callOf params cgi)) .empty
      return (lookedUp params, input',
        conn ++ [.called (callOf params cgi), .responded response.readable])) := by
  unfold onRequest
  simp only [subscript_eq, variableOf_withDefault, taken, ok_bind, assignAll_toList]
  rfl

/-- Once the object is built, the backend is called once and its output is
answered. -/
theorem onRequest_of_cgi (printRequest : Backend) {params : ParamMap} {input : Buffer}
    {cgi : Cgicc} (built : requestCgi params input.readable = .ok cgi) (conn : List Event) :
    ∃ input', onRequest printRequest params input conn =
      .ok (lookedUp params, input', conn ++ [.called (callOf params cgi),
        .responded (responseBytes (printRequest (calls conn) (callOf params cgi)))]) := by
  obtain ⟨input', taken⟩ := takePostData_view input
  obtain ⟨response, responded, view⟩ :=
    respond_view (printRequest (calls conn) (callOf params cgi)) .empty
  rw [Buffer.readable_empty, List.nil_append] at view
  rw [onRequest_eq printRequest params input conn taken, built, ok_bind, responded, ok_bind, view]
  exact ⟨input', rfl⟩

/-- With a body that parses, the backend is called once and its output is
answered.  The cookies are assigned after the variables. -/
theorem onRequest_of_parses (printRequest : Backend) {params : ParamMap} {input : Buffer}
    (parses : BodyParses (variableOf params (ascii "CONTENT_TYPE")) input.readable)
    (conn : List Event) :
    ∃ params' input' call,
      onRequest printRequest params input conn =
        .ok (params', input', conn ++
          [.called call, .responded (responseBytes (printRequest (calls conn) call))]) ∧
      call.header = assignAll (lookedUp params) (requestCookies params) := by
  obtain ⟨cgi, built⟩ := requestCgi_of_parses parses
  obtain ⟨input', returned⟩ := onRequest_of_cgi printRequest built conn
  refine ⟨_, input', callOf params cgi, returned, ?_⟩
  rw [callOf, (cookiePairs_of_requestCgi built).2]

/-- With any other body the handler throws. -/
theorem onRequest_of_not_parses (printRequest : Backend) {params : ParamMap} {input : Buffer}
    (malformed : ¬ BodyParses (variableOf params (ascii "CONTENT_TYPE")) input.readable)
    (conn : List Event) :
    onRequest printRequest params input conn = .error (.exception "Malformed input") := by
  obtain ⟨input', taken⟩ := takePostData_view input
  rw [onRequest_eq printRequest params input conn taken, requestCgi_of_not_parses malformed]
  rfl

end Mucgi

/-! ### cocgi -/

namespace Cocgi

/-- What a call of the backend adds to the trace, and its output. -/
def callOut (callBack : Option Backend) (trace : List Event) (call : BackendCall) :
    Bytes × List Event :=
  match callBack with
  | some callBack => (callBack (calls trace) call, [.called call])
  | none => ([], [])

theorem doRequest_eq (callBack : Option Backend) (params : ParamMap) (stdin : Buffer)
    (socket : Socket) {stdin' : Buffer}
    (taken : takePostData stdin = .ok (stdin.readable, stdin')) :
    doRequest callBack params stdin socket = (do
      let cgi ← requestCgi params stdin.readable
      let (res, called) := callOut callBack socket.trace (callOf params cgi)
      let response ← respond res .empty
      let (ret, script, writes) ← writeLoop socket.script response
      return (ret, lookedUp params, stdin', {
        script := script
        trace := socket.trace ++ called ++ .responded response.readable :: writes })) := by
  unfold doRequest
  simp only [subscript_eq, variableOf_withDefault, taken, ok_bind]
  cases callBack with
  | none => rfl
  | some callBack => rfl

/-- Once the object is built, the backend is called once, and the response to
its output is built once and goes out through the socket. -/
theorem doRequest_of_cgi (backend : Backend) {params : ParamMap} {stdin : Buffer} {cgi : Cgicc}
    (built : requestCgi params stdin.readable = .ok cgi) (socket : Socket) :
    ∃ stdin', ∀ response,
      response = responseBytes (backend (calls socket.trace) (callOf params cgi)) →
        doRequest (some backend) params stdin socket =
          .ok ((transmit socket.script response).1, lookedUp params, stdin', {
            script := (transmit socket.script response).2.1
            trace := socket.trace ++ .called (callOf params cgi) :: .responded response ::
              (transmit socket.script response).2.2 }) := by
  obtain ⟨stdin', taken⟩ := takePostData_view stdin
  obtain ⟨buffer, responded, view⟩ :=
    respond_view (backend (calls socket.trace) (callOf params cgi)) .empty
  rw [Buffer.readable_empty, List.nil_append] at view
  refine ⟨stdin', ?_⟩
  rintro response rfl
  rw [doRequest_eq (some backend) params stdin socket taken, built, ok_bind]
  simp only [callOut, responded, writeLoop_view, view, ok_bind, List.append_assoc,
    List.singleton_append]
  rfl

/-- With a body that parses, the backend is called once, and the response to
its output is built once and goes out through the socket. -/
theorem doRequest_of_parses (backend : Backend) {params : ParamMap} {stdin : Buffer}
    (parses : BodyParses (variableOf params (ascii "CONTENT_TYPE")) stdin.readable)
    (socket : Socket) :
    ∃ params' stdin' call,
      doRequest (some backend) params stdin socket =
        .ok ((transmit socket.script (responseBytes (backend (calls socket.trace) call))).1,
          params', stdin', {
            script :=
              (transmit socket.script (responseBytes (backend (calls socket.trace) call))).2.1
            trace := socket.trace ++ .called call ::
              .responded (responseBytes (backend (calls socket.trace) call)) ::
              (transmit socket.script (responseBytes (backend (calls socket.trace) call))).2.2 }) ∧
      call.header = assignAll (lookedUp params) (requestCookies params) := by
  obtain ⟨cgi, built⟩ := requestCgi_of_parses parses
  obtain ⟨stdin', returned⟩ := doRequest_of_cgi backend built socket
  refine ⟨_, stdin', callOf params cgi, returned _ rfl, ?_⟩
  rw [callOf, (cookiePairs_of_requestCgi built).2]

/-- With any other body the handler throws. -/
theorem doRequest_of_not_parses (callBack : Option Backend) {params : ParamMap} {stdin : Buffer}
    (malformed : ¬ BodyParses (variableOf params (ascii "CONTENT_TYPE")) stdin.readable)
    (socket : Socket) :
    doRequest callBack params stdin socket = .error (.exception "Malformed input") := by
  obtain ⟨stdin', taken⟩ := takePostData_view stdin
  rw [doRequest_eq callBack params stdin socket taken, requestCgi_of_not_parses malformed]
  rfl

/-! ### The loop over one connection -/

section Loop

variable {σ : Type}

variable {doRequest : DoRequest σ} {recycle : Nat} {c : FastCgiCodec} {world : σ} {errno : Errno}
  {result : ReadResult} {reads : List (Errno × ReadResult)}

/-- A turn that fails is the end of the run. -/
theorem readwriteTurns_of_fault {fault : Fault}
    (failed : readData doRequest errno c world result = .error fault) :
    readwriteTurns doRequest recycle c world ((errno, result) :: reads) =
      ([], .faulted result fault) := by
  rw [readwriteTurns]
  split
  · rename_i failed'
    cases failed.symm.trans failed'
    rfl
  · rename_i called
    cases failed.symm.trans called

/-- A turn that succeeds, and those behind it. -/
theorem readwriteTurns_cons {read : ReadData σ}
    (called : readData doRequest errno c world result = .ok read) :
    readwriteTurns doRequest recycle c world ((errno, result) :: reads) =
      let later := match nextTurn recycle read.ret with
        | .inl recycle => readwriteTurns doRequest recycle read.codec read.world reads
        | .inr phase => ([], .stands phase)
      (⟨errno, c, world, result, read, called⟩ :: later.1, later.2) := by
  rw [readwriteTurns]
  split
  · rename_i failed
    cases called.symm.trans failed
  · rename_i called'
    cases called.symm.trans called'
    cases nextTurn recycle read.ret <;> rfl

/-- One turn of the loop. -/
theorem readwriteLoop_cons (doRequest : DoRequest σ) (recycle : Nat) (c : FastCgiCodec)
    (world : σ) (errno : Errno) (result : ReadResult) (reads : List (Errno × ReadResult)) :
    readwriteLoop doRequest recycle c world ((errno, result) :: reads) = (do
      let read ← readData doRequest errno c world result
      match nextTurn recycle read.ret with
      | .inl next => readwriteLoop doRequest next read.codec read.world reads
      | .inr phase => return { phase := phase, codec := read.codec, world := read.world }) := by
  cases called : readData doRequest errno c world result with
  | error fault =>
      rw [readwriteLoop, readwriteTurns_of_fault called]
      rfl
  | ok read =>
      rw [readwriteLoop, readwriteTurns_cons called, ok_bind]
      cases nextTurn recycle read.ret with
      | inl next => simp only [readwriteLoop, List.map_cons, List.getLastD_cons]
      | inr phase => rfl

/-- The loop goes on only after a call that has returned. -/
theorem returned_of_nextTurn {recycle next : Nat} {ret : Option ErrorCode}
    (goesOn : nextTurn recycle ret = .inl next) : ret ≠ none := by
  rintro rfl
  cases goesOn

end Loop

end Cocgi

end FastCgi
