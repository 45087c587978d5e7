/-
Module: FastCgi.Proofs.RequestHandling
Layer: Proofs
Purpose: What a request's content can do to its handler: which bodies make it
  throw, and which variables of the header map its cookies replace.
Trusted boundary: none
Main exports: handlers_answer_iff, Mucgi.handsOver_iff, Cocgi.handsOver_iff,
  header_unless_cookie
-/
import FastCgi.Proofs.HandlerRefinement

namespace FastCgi

open Library

/-! ### Returning -/

/-- `onRequest` returns after one backend call, having handed the response to
its output to the connection. -/
def Mucgi.Answers (backend : Backend) (params : ParamMap) (input : Buffer)
    (conn : List Event) : Prop :=
  ∃ params' input' call, onRequest backend params input conn =
    .ok (params', input', conn ++
      [.called call, .responded (responseBytes (backend (calls conn) call))])

/-- `doRequest` calls the backend once, builds the response to its output once,
does nothing but write from then on, and returns as soon as `write` has taken
enough bytes or has failed. -/
def Cocgi.Answers (backend : Backend) (params : ParamMap) (stdin : Buffer)
    (socket : Socket) : Prop :=
  ∃ ret params' stdin' socket' call writes,
    doRequest (some backend) params stdin socket = .ok (ret, params', stdin', socket') ∧
      socket'.trace = socket.trace ++ .called call ::
        .responded (responseBytes (backend (calls socket.trace) call)) :: writes ∧
      (∀ event ∈ writes, event.IsWrite) ∧
      (Suffices socket.script (responseBytes (backend (calls socket.trace) call)).length →
        ret ≠ none)

/-- The exact condition under which the handlers survive a request: they
return after one backend call and one response if and only if the body parses,
and any other body makes both of them throw. -/
theorem handlers_answer_iff (backend : Backend) (params : ParamMap) (stdin : Buffer)
    (conn : List Event) (socket : Cocgi.Socket) :
    (Mucgi.Answers backend params stdin conn ↔
        BodyParses (variableOf params (ascii "CONTENT_TYPE")) stdin.readable) ∧
      (Cocgi.Answers backend params stdin socket ↔
        BodyParses (variableOf params (ascii "CONTENT_TYPE")) stdin.readable) ∧
      (¬ BodyParses (variableOf params (ascii "CONTENT_TYPE")) stdin.readable →
        Mucgi.onRequest backend params stdin conn = .error (.exception "Malformed input") ∧
          Cocgi.doRequest (some backend) params stdin socket =
            .error (.exception "Malformed input")) := by
  refine ⟨⟨?_, ?_⟩, ⟨?_, ?_⟩, ?_⟩
  · rintro ⟨params', input', call, returned⟩
    by_contra malformed
    rw [Mucgi.onRequest_of_not_parses backend malformed conn] at returned
    cases returned
  · intro parses
    obtain ⟨params', input', call, returned, _⟩ :=
      Mucgi.onRequest_of_parses backend parses conn
    exact ⟨params', input', call, returned⟩
  · rintro ⟨ret, params', stdin', socket', call, writes, returned, _⟩
    by_contra malformed
    rw [Cocgi.doRequest_of_not_parses (some backend) malformed socket] at returned
    cases returned
  · intro parses
    obtain ⟨params', stdin', call, returned, _⟩ :=
      Cocgi.doRequest_of_parses backend parses socket
    refine ⟨_, params', stdin', _, call, _, returned, rfl, transmit_isWrite _ _, ?_⟩
    intro enough blocked
    exact (transmit_eq_none_iff _ _).mp blocked enough
  · intro malformed
    exact ⟨Mucgi.onRequest_of_not_parses backend malformed conn,
      Cocgi.doRequest_of_not_parses (some backend) malformed socket⟩

/-- The variables of a file upload with boundary `B`. -/
def uploadParams : ParamMap :=
  assignAll ∅ [(ascii "CONTENT_TYPE", ascii "multipart/form-data; boundary=B")]

/-- A body of one part that has no empty line. -/
def headlessBody : Bytes := ascii "--B\r\nx--B--\r\n"

/-- This body makes both handlers throw, whatever the backend and the history
of the connection. -/
theorem headless_body_throws :
    ∃ stdin : Buffer, stdin.readable = headlessBody ∧
      ∀ (backend : Backend) (conn : List Event) (socket : Cocgi.Socket),
        Mucgi.onRequest backend uploadParams stdin conn =
            .error (.exception "Malformed input") ∧
          Cocgi.doRequest (some backend) uploadParams stdin socket =
            .error (.exception "Malformed input") := by
  obtain ⟨stdin, _, view⟩ := Buffer.empty.append_view headlessBody
  rw [Buffer.readable_empty, List.nil_append] at view
  have malformed :
      ¬ BodyParses (variableOf uploadParams (ascii "CONTENT_TYPE")) stdin.readable := by
    rw [view]
    decide
  refine ⟨stdin, view, fun backend conn socket => ?_⟩
  exact ⟨Mucgi.onRequest_of_not_parses backend malformed conn,
    Cocgi.doRequest_of_not_parses (some backend) malformed socket⟩

/-! ### The header map -/

/-- `onRequest` hands this call to the backend. -/
def Mucgi.HandsOver (backend : Backend) (params : ParamMap) (input : Buffer) (conn : List Event)
    (call : BackendCall) : Prop :=
  ∃ params' input' events, onRequest backend params input conn =
    .ok (params', input', conn ++ .called call :: events)

/-- `doRequest` hands this call to the backend. -/
def Cocgi.HandsOver (backend : Backend) (params : ParamMap) (stdin : Buffer) (socket : Socket)
    (call : BackendCall) : Prop :=
  ∃ ret params' stdin' script events, doRequest (some backend) params stdin socket =
    .ok (ret, params', stdin', ⟨script, socket.trace ++ .called call :: events⟩)

/-- One of the two handlers hands this call to the backend. -/
def HandsOver (params : ParamMap) (stdin : Buffer) (call : BackendCall) : Prop :=
  (∃ backend conn, Mucgi.HandsOver backend params stdin conn call) ∨
    ∃ backend socket, Cocgi.HandsOver backend params stdin socket call

/-- There is one call that `onRequest` can hand over, and it does so whatever
the backend and the history of the connection. -/
theorem Mucgi.handsOver_iff (backend : Backend) (params : ParamMap) (stdin : Buffer)
    (conn : List Event) (call : BackendCall) :
    HandsOver backend params stdin conn call ↔
      ∃ cgi, requestCgi params stdin.readable = .ok cgi ∧ call = callOf params cgi := by
  constructor
  · rintro ⟨params', input', events, returned⟩
    by_cases parses : BodyParses (variableOf params (ascii "CONTENT_TYPE")) stdin.readable
    · obtain ⟨cgi, built⟩ := requestCgi_of_parses parses
      obtain ⟨_, returned'⟩ := onRequest_of_cgi backend built conn
      rw [returned'] at returned
      simp only [Except.ok.injEq, Prod.mk.injEq, List.append_cancel_left_eq, List.cons.injEq,
        Event.called.injEq] at returned
      exact ⟨cgi, built, returned.2.2.1.symm⟩
    · rw [onRequest_of_not_parses backend parses conn] at returned
      cases returned
  · rintro ⟨cgi, built, rfl⟩
    obtain ⟨input', returned⟩ := onRequest_of_cgi backend built conn
    exact ⟨_, input', _, returned⟩

/-- There is one call that `doRequest` can hand over, and it does so whatever
the backend and the state of the socket. -/
theorem Cocgi.handsOver_iff (backend : Backend) (params : ParamMap) (stdin : Buffer)
    (socket : Socket) (call : BackendCall) :
    HandsOver backend params stdin socket call ↔
      ∃ cgi, requestCgi params stdin.readable = .ok cgi ∧ call = callOf params cgi := by
  constructor
  · rintro ⟨ret, params', stdin', script, events, returned⟩
    by_cases parses : BodyParses (variableOf params (ascii "CONTENT_TYPE")) stdin.readable
    · obtain ⟨cgi, built⟩ := requestCgi_of_parses parses
      obtain ⟨_, returned'⟩ := doRequest_of_cgi backend built socket
      rw [returned' _ rfl] at returned
      simp only [Except.ok.injEq, Prod.mk.injEq, Cocgi.Socket.mk.injEq,
        List.append_cancel_left_eq, List.cons.injEq, Event.called.injEq] at returned
      exact ⟨cgi, built, returned.2.2.2.2.1.symm⟩
    · rw [doRequest_of_not_parses (some backend) parses socket] at returned
      cases returned
  · rintro ⟨cgi, built, rfl⟩
    obtain ⟨stdin', returned⟩ := doRequest_of_cgi backend built socket
    exact ⟨_, _, stdin', _, _, returned _ rfl⟩

section Built

variable {params : ParamMap} {stdin : Buffer} {cgi : Cgicc}
  (built : requestCgi params stdin.readable = .ok cgi)

include built

theorem Mucgi.handsOver_of_cgi (backend : Backend) (conn : List Event) (call : BackendCall) :
    HandsOver backend params stdin conn call ↔ call = callOf params cgi := by
  rw [handsOver_iff, built]
  simp

theorem Cocgi.handsOver_of_cgi (backend : Backend) (socket : Socket) (call : BackendCall) :
    HandsOver backend params stdin socket call ↔ call = callOf params cgi := by
  rw [handsOver_iff, built]
  simp

end Built

/-- The header map: the variables, with the cookies assigned over them. -/
theorem header_of_handsOver {params : ParamMap} {stdin : Buffer} {call : BackendCall}
    (handed : HandsOver params stdin call) :
    call.header = assignAll (lookedUp params) (requestCookies params) := by
  rcases handed with ⟨backend, conn, handed⟩ | ⟨backend, socket, handed⟩
  · obtain ⟨cgi, built, rfl⟩ := (Mucgi.handsOver_iff ..).mp handed
    rw [Mucgi.callOf, (cookiePairs_of_requestCgi built).2]
  · obtain ⟨cgi, built, rfl⟩ := (Cocgi.handsOver_iff ..).mp handed
    rw [Cocgi.callOf, (cookiePairs_of_requestCgi built).2]

/-- A variable of the header map is the last cookie of its name, or else the
variable of the request. -/
theorem getElem?_header {params : ParamMap} {stdin : Buffer} {call : BackendCall}
    (handed : HandsOver params stdin call) {key : Bytes} (present : key ∈ params) :
    call.header[key]? = (lastValue key (requestCookies params)).or params[key]? := by
  rw [header_of_handsOver handed, getElem?_assignAll, getElem?_lookedUp present]

/-- What cookies can do to the header map, in both servers: a variable of the
request reaches the backend with its own value unless a cookie has its name,
and the last such cookie replaces it.  Two requests that differ in nothing but
their cookies therefore agree on every variable that is the name of no
cookie. -/
theorem header_unless_cookie {params : ParamMap} {stdin : Buffer} {call : BackendCall}
    (handed : HandsOver params stdin call) :
    (∀ key ∈ params,
        call.header[key]? = (lastValue key (requestCookies params)).or params[key]?) ∧
      (∀ key ∈ params, (∀ cookie ∈ requestCookies params, cookie.1 ≠ key) →
        call.header[key]? = params[key]?) ∧
      ∀ params₂ stdin₂ call₂, HandsOver params₂ stdin₂ call₂ →
        (∀ key, key ≠ ascii "HTTP_COOKIE" → params[key]? = params₂[key]?) →
        ∀ key ∈ params, key ≠ ascii "HTTP_COOKIE" →
          (∀ cookie ∈ requestCookies params ++ requestCookies params₂, cookie.1 ≠ key) →
          call.header[key]? = call₂.header[key]? := by
  have own {params : ParamMap} {stdin : Buffer} {call : BackendCall}
      (handed : HandsOver params stdin call) {key : Bytes} (present : key ∈ params)
      (free : ∀ cookie ∈ requestCookies params, cookie.1 ≠ key) :
      call.header[key]? = params[key]? := by
    rw [getElem?_header handed present, lastValue_eq_none_iff.mpr free, Option.none_or]
  refine ⟨fun key present => getElem?_header handed present,
    fun key present free => own handed present free, ?_⟩
  intro params₂ stdin₂ call₂ handed₂ same key present other free
  have present₂ : key ∈ params₂ := by
    rw [Std.ExtTreeMap.mem_iff_isSome_getElem?] at present ⊢
    rwa [← same key other]
  rw [own handed present fun cookie member => free cookie (List.mem_append_left _ member),
    own handed₂ present₂ fun cookie member => free cookie (List.mem_append_right _ member),
    same key other]

/-- The variables of a request of the user `bob` with this cookie header. -/
def bobParams (cookie : Bytes) : ParamMap :=
  assignAll ∅ [(ascii "REMOTE_USER", ascii "bob"), (ascii "HTTP_COOKIE", cookie)]

/-- A request without a body is handed over by both servers. -/
theorem handsOver_empty (params : ParamMap) :
    (∃ call, Mucgi.HandsOver (fun _ _ => []) params .empty [] call) ∧
      ∃ call, Cocgi.HandsOver (fun _ _ => []) params .empty ⟨[], []⟩ call := by
  have parses : BodyParses (variableOf params (ascii "CONTENT_TYPE")) Buffer.empty.readable := by
    rw [Buffer.readable_empty]
    exact bodyParses_nil _
  obtain ⟨cgi, built⟩ := requestCgi_of_parses parses
  exact ⟨⟨_, (Mucgi.handsOver_of_cgi built ..).mpr rfl⟩, _,
    (Cocgi.handsOver_of_cgi built ..).mpr rfl⟩

/-- A cookie of another name leaves the user alone. -/
theorem other_cookie_keeps_user :
    ∃ call, HandsOver (bobParams (ascii "theme=dark")) .empty call ∧
      call.header[ascii "REMOTE_USER"]? = some (ascii "bob") := by
  obtain ⟨call, handed⟩ := (handsOver_empty (bobParams (ascii "theme=dark"))).1
  have handed : HandsOver (bobParams (ascii "theme=dark")) .empty call :=
    Or.inl ⟨_, _, handed⟩
  refine ⟨call, handed, ?_⟩
  rw [(header_unless_cookie handed).2.1 (ascii "REMOTE_USER") (by decide) (by decide)]
  decide

/-- A cookie with the name of a server variable replaces it, in both
servers. -/
theorem cookie_forges_user :
    (bobParams (ascii "REMOTE_USER=admin"))[ascii "REMOTE_USER"]? = some (ascii "bob") ∧
      (∃ call, Mucgi.HandsOver (fun _ _ => []) (bobParams (ascii "REMOTE_USER=admin")) .empty []
          call ∧
        call.header[ascii "REMOTE_USER"]? = some (ascii "admin")) ∧
      ∃ call, Cocgi.HandsOver (fun _ _ => []) (bobParams (ascii "REMOTE_USER=admin")) .empty
          ⟨[], []⟩ call ∧
        call.header[ascii "REMOTE_USER"]? = some (ascii "admin") := by
  have present : ascii "REMOTE_USER" ∈ bobParams (ascii "REMOTE_USER=admin") := by decide
  have forged : (lastValue (ascii "REMOTE_USER")
      (requestCookies (bobParams (ascii "REMOTE_USER=admin")))).or
        (bobParams (ascii "REMOTE_USER=admin"))[ascii "REMOTE_USER"]? = some (ascii "admin") := by
    decide
  obtain ⟨⟨call, handed⟩, call', handed'⟩ :=
    handsOver_empty (bobParams (ascii "REMOTE_USER=admin"))
  refine ⟨by decide, ⟨call, handed, ?_⟩, call', handed', ?_⟩
  · rw [getElem?_header (Or.inl ⟨_, _, handed⟩) present, forged]
  · rw [getElem?_header (Or.inr ⟨_, _, handed'⟩) present, forged]

end FastCgi
