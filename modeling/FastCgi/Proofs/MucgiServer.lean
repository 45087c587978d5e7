/-
Module: FastCgi.Proofs.MucgiServer
Layer: Proofs
Purpose: What every connection of the mucgi server writes, whatever the loops do: the
  responses to its own requests, up to the first one behind which it does not stay.
Trusted boundary: none
Main exports: Mucgi.messageCallback_of_cgi, Mucgi.callsBy_responses, Mucgi.Settles,
  Mucgi.connection_answers
-/
import FastCgi.Model.MucgiServer
import FastCgi.Proofs.HandlerRefinement
import FastCgi.Proofs.ServerRefinement
import FastCgi.Proofs.TcpServer
import FastCgi.Spec.Exchanges

namespace FastCgi

open Library (bind_eq_ok runSteps)

namespace Mucgi

open Muduo (Call acceptedBy callsBy sentBy)

variable {backend : Backend}

/-! ### What a connection owes -/

theorem requestsFrom_cons (v : View) (data : Bytes) (reads : List Bytes) :
    requestsFrom v (data :: reads) = invocations (v.seen data) ++
      if (v.receive data).request.ends then [] else requestsFrom (v.step data) reads := by
  rw [requestsFrom, View.endings, List.findIdx_cons]
  cases (v.receive data).request.ends with
  | true => simp [View.run]
  | false => simp [View.run, invocations_append, requestsFrom]

/-! ### One read -/

/-- A read that completes no request does nothing with its connection. -/
theorem messageCallback_waits {context context' : Context} {data : Bytes} {made : List Call}
    (handled : messageCallback backend context data = .ok (context', made))
    (waits : ¬ (context.1.view.receive data).request.gotRequest = true) :
    context'.1.view = context.1.view.step data ∧ context'.2 = context.2 ∧ made = [] := by
  obtain ⟨c', read, view⟩ := handleRead_waits (onRequest backend) context.2 waits
  rw [messageCallback, read, ok_bind] at handled
  cases handled
  exact ⟨view, rfl, by simp⟩

/-- A read that completes a request sends the response to it, and asks for the end if
the connection is not to stay. -/
theorem messageCallback_of_cgi (backend : Backend) {context : Context} {data : Bytes} {cgi : Cgicc}
    (got : (context.1.view.receive data).request.gotRequest = true)
    (parsed : requestCgi (context.1.view.receive data).request.params
      (context.1.view.receive data).request.stdin = .ok cgi) {call : BackendCall}
    (asked : call = callOf (context.1.view.receive data).request.params cgi) {response : Bytes}
    (made : response = responseBytes (backend (calls context.2) call)) :
    ∃ c', messageCallback backend context data =
        .ok ((c', context.2 ++ [.called call, .responded response]), .send response ::
          if (context.1.view.receive data).request.ends then [.shutdown] else []) ∧
      c'.view = context.1.view.step data := by
  obtain ⟨c', received, read⟩ := handleRead_calls (onRequest backend) context.2 got
  rw [← received] at got parsed asked ⊢
  have parses : requestCgi c'.params c'.stdin.readable = .ok cgi := parsed
  obtain ⟨stdin, answered⟩ := onRequest_of_cgi backend parses context.2
  have same : callOf c'.params cgi = call := asked.symm
  rw [same, ← made] at answered
  have ends : c'.view.request.ends = !c'.keepConn := by
    rw [RequestState.ends, got, Bool.true_and]
    rfl
  refine ⟨({ c' with params := lookedUp c'.params, stdin := stdin } : FastCgiCodec).clearRequest,
    ?_, (step_of_gotRequest received got _ _).1⟩
  rw [messageCallback, read, answered, ends]
  simp [Except.map, sends]

/-- A read that completes a request whose body does not parse fails. -/
theorem messageCallback_of_error {context : Context} {data : Bytes} {fault : Fault}
    (got : (context.1.view.receive data).request.gotRequest = true)
    (parsed : requestCgi (context.1.view.receive data).request.params
      (context.1.view.receive data).request.stdin = .error fault) :
    messageCallback backend context data = .error fault := by
  obtain ⟨c', received, read⟩ := handleRead_calls (onRequest backend) context.2 got
  rw [← received] at parsed
  have fails : requestCgi c'.params c'.stdin.readable = .error fault := parsed
  obtain ⟨stdin, taken⟩ := takePostData_view c'.stdin
  rw [messageCallback, read, onRequest_eq backend c'.params c'.stdin context.2 taken, fails]
  rfl

/-- What a read that completes a request has done. -/
theorem messageCallback_answers {context context' : Context} {data : Bytes} {made : List Call}
    (handled : messageCallback backend context data = .ok (context', made))
    (got : (context.1.view.receive data).request.gotRequest = true) :
    ∃ call response,
      (∀ requests, responses backend (calls context.2)
        ((context.1.view.receive data).request.invocation :: requests) =
          response ++ responses backend (calls context.2 ++ [call]) requests) ∧
      context'.1.view = context.1.view.step data ∧
      context'.2 = context.2 ++ [.called call, .responded response] ∧
      made = .send response ::
        if (context.1.view.receive data).request.ends then [.shutdown] else [] := by
  cases parsed : requestCgi (context.1.view.receive data).request.params
      (context.1.view.receive data).request.stdin with
  | error fault =>
      rw [messageCallback_of_error got parsed] at handled
      cases handled
  | ok cgi =>
      obtain ⟨c', answered, view⟩ := messageCallback_of_cgi backend got parsed rfl rfl
      cases handled.symm.trans answered
      refine ⟨_, _, fun requests => ?_, view, rfl, rfl⟩
      have same : requestCgi (context.1.view.receive data).request.invocation.params
          (context.1.view.receive data).request.invocation.stdin = .ok cgi := parsed
      rw [responses, same]
      rfl

/-! ### All reads -/

/-- The calls that the reads of a connection lead to hand over what it owes. -/
theorem callsBy_responses {context last : Context} {reads : List Bytes} {made : List Call}
    (known : callsBy (messageCallback backend) context reads = .ok (last, made)) :
    acceptedBy made =
        responses backend (calls context.2) (requestsFrom context.1.view reads) ∧
      (.shutdown ∈ made ↔ true ∈ context.1.view.endings reads) := by
  induction reads generalizing context made with
  | nil =>
      cases known
      exact ⟨rfl, by simp [View.endings]⟩
  | cons data reads inductionHypothesis =>
      rw [callsBy] at known
      obtain ⟨⟨next, first⟩, handled, known⟩ := bind_eq_ok.mp known
      obtain ⟨⟨_, later⟩, further, known⟩ := bind_eq_ok.mp known
      cases known
      obtain ⟨accepted, ends⟩ := inductionHypothesis further
      rw [requestsFrom_cons, View.invocations_seen, View.endings]
      by_cases got : (context.1.view.receive data).request.gotRequest = true
      · obtain ⟨call, response, responding, view, trace, rfl⟩ :=
          messageCallback_answers handled got
        have extended : calls next.2 = calls context.2 ++ [call] := by
          rw [trace]
          simp [calls, Event.call?]
        rw [view, extended] at accepted
        rw [view] at ends
        rw [if_pos got, List.singleton_append, responding]
        cases (context.1.view.receive data).request.ends with
        | true => simp [acceptedBy, responses]
        | false => simpa [acceptedBy, ends] using accepted
      · obtain ⟨view, trace, rfl⟩ := messageCallback_waits handled got
        have open' : (context.1.view.receive data).request.ends = false := by
          simp [RequestState.ends, got]
        rw [view, trace] at accepted
        rw [view] at ends
        rw [if_neg got, open']
        simpa using ⟨accepted, ends⟩

/-! ### The server -/

open Muduo.TcpConnection (operationsOf)

theorem sentBy_operationsOf (pieces : List Bytes) (ended : Bool) :
    sentBy (operationsOf pieces ended) = pieces.flatten := by
  have pieceByPiece : (pieces.map Muduo.Operation.wrote).flatMap Muduo.Operation.taken =
      pieces.flatten := by
    induction pieces with
    | nil => rfl
    | cons piece pieces inductionHypothesis =>
        rw [List.map_cons, List.flatMap_cons, inductionHypothesis, List.flatten_cons]
        rfl
  cases ended <;> simp [sentBy, operationsOf, Muduo.Operation.taken, pieceByPiece]

theorem shutdownWrite_mem_operationsOf (pieces : List Bytes) (ended : Bool) :
    .shutdownWrite ∈ operationsOf pieces ended ↔ ended = true := by
  cases ended <;> simp [operationsOf]

/-- What a connection behind some reads did, whether it is up or down. -/
theorem behind_account {γ : Type} {onMessage : Muduo.MessageCallback γ} {codec : γ}
    {reads : List Bytes} {down : Bool} {c : Muduo.TcpConnection γ}
    (behind : c.Behind onMessage codec reads down) :
    ∃ context calls pieces, callsBy onMessage codec reads = .ok (context, calls) ∧
      c.Carried calls pieces ∧ sentBy c.operations = pieces.flatten ∧
      (.shutdownWrite ∈ c.operations ↔ c.Drained calls) := by
  obtain ⟨context, calls, pieces, known, now⟩ := behind
  refine ⟨context, calls, pieces, known, ?_⟩
  cases down with
  | false =>
      obtain ⟨serving, -⟩ := now
      refine ⟨serving.carried, ?_, ?_⟩
      · rw [serving.operations, sentBy_operationsOf]
      · rw [serving.operations, shutdownWrite_mem_operationsOf, decide_eq_true_iff]
  | true =>
      have ended : c.Ended calls pieces := now
      refine ⟨ended.carried, ?_, ?_⟩
      · have more : sentBy [.connection false, .closed] = [] := rfl
        rw [ended.operations, ← List.append_nil pieces.flatten, ← more,
          ← sentBy_operationsOf pieces (decide (c.Drained calls))]
        exact List.flatMap_append
      · rw [ended.operations, List.mem_append, shutdownWrite_mem_operationsOf, decide_eq_true_iff]
        simp

/-- No write has found the other side gone. -/
def Reached (c : Muduo.TcpConnection Context) : Prop :=
  ∀ k < c.writes, c.socket.result k ≠ .broken

/-- What a connection sent, against the responses to its requests: a beginning of
them, and the rest waits unless a write found the other side gone, which may drop what
is left of a response.  The sending side is closed once a request asked for it and
nothing waits; the other side, if it is there, has got everything then. -/
structure Settles (backend : Backend) (reads : List Bytes) (c : Muduo.TcpConnection Context) :
    Prop where
  sent : sentBy c.operations <+: responses backend [] (requestsFrom .fresh reads)
  kept : Reached c → sentBy c.operations ++ c.outputBuffer.readable =
    responses backend [] (requestsFrom .fresh reads)
  ended : Reached c → (.shutdownWrite ∈ c.operations ↔ true ∈ View.fresh.endings reads ∧
    sentBy c.operations = responses backend [] (requestsFrom .fresh reads))
  drained : .shutdownWrite ∈ c.operations ↔
    true ∈ View.fresh.endings reads ∧ c.outputBuffer.readable = []

/-- As long as the other side is there, nothing waits exactly if everything is
sent. -/
theorem settles_of_account {reads : List Bytes} {c : Muduo.TcpConnection Context}
    (sent : sentBy c.operations <+: responses backend [] (requestsFrom .fresh reads))
    (kept : Reached c → sentBy c.operations ++ c.outputBuffer.readable =
      responses backend [] (requestsFrom .fresh reads))
    (drained : .shutdownWrite ∈ c.operations ↔
      true ∈ View.fresh.endings reads ∧ c.outputBuffer.readable = []) :
    Settles backend reads c := by
  refine ⟨sent, kept, fun reached => ?_, drained⟩
  rw [drained, ← kept reached, List.self_eq_append_right]

theorem settles_of_behind {reads : List Bytes} {down : Bool} {c : Muduo.TcpConnection Context}
    (behind : c.Behind (messageCallback backend) onConnection reads down) :
    Settles backend reads c := by
  obtain ⟨context, made, pieces, known, carried, sent, ended⟩ := behind_account behind
  obtain ⟨accepted, ends⟩ := callsBy_responses known
  have fresh : onConnection.1.view = .fresh := view_fresh
  rw [fresh] at accepted ends
  have none : calls onConnection.2 = [] := rfl
  rw [none] at accepted
  refine settles_of_account ?_ (fun reached => ?_) ?_
  · rw [sent, ← accepted]
    rcases carried with all | ⟨-, part⟩
    · exact ⟨_, all⟩
    · exact part
  · rw [sent, ← accepted]
    rcases carried with all | ⟨⟨k, earlier, broken⟩, -⟩
    · exact all
    · exact absurd broken (reached k earlier)
  · rw [ended, Muduo.TcpConnection.Drained, ends]

/-- Each connection of the mucgi server, in every state that its loops can reach, has
written the responses to its own reads in order, or a beginning of them.  As long as
no write found the other side gone, what it did not write yet waits, and its sending
side is closed exactly when a request asked for it and everything is written.  After
such a write bytes may be missing, and it is closed as soon as nothing waits. -/
theorem connection_answers {numThreads : Nat} {actions : List Muduo.TcpServer.Action}
    {s : Muduo.TcpServer Context} {n : Muduo.ConnId} {loop : Muduo.LoopId}
    {c : Muduo.TcpConnection Context}
    (ran : runSteps (advance backend) (.start numThreads) actions = some s)
    (conn : s.conns n = some (loop, c)) :
    Settles backend (Muduo.TcpServer.readsOf n actions) c := by
  have life := (Muduo.TcpServer.consistent_run ran).life n
  have same : (s.view n).conn = some (loop, c) := conn
  generalize s.view n = v at life same
  generalize Muduo.TcpServer.readsOf n actions = reads at life
  cases life
  case absent => cases same
  case connecting socket =>
    cases same
    exact settles_of_account List.nil_prefix (fun _ => rfl)
      (by simp [Muduo.TcpConnection.make, View.endings])
  case up behind =>
    cases same
    exact settles_of_behind behind
  case down behind =>
    cases same
    exact settles_of_behind behind
  case removed behind =>
    cases same
    exact settles_of_behind behind

section Witness

open Muduo.TcpServer (ready readable)

/-- A connection that was accepted and has not read anything. -/
def established {γ : Type} (codec : γ) : Muduo.TcpConnection γ :=
  { Muduo.TcpConnection.make codec ready with
    state := .kConnected
    channel := .listening false
    operations := [.connection true] }

/-- A connection of a server with one loop, behind one read that its callback
handles. -/
theorem one_read {γ : Type} {onMessage : Muduo.MessageCallback γ} {codec context : γ}
    {byte : UInt8} {rest : Bytes} {made : List Call} {c : Muduo.TcpConnection γ}
    (handled : onMessage codec (byte :: rest) = .ok (context, made))
    (called : (established context).makeCalls made = .ok c)
    (stays : .closed ∉ c.operations.drop (established codec).operations.length) :
    ∃ s, runSteps (Muduo.TcpServer.advance onMessage codec) (.start 0)
      [.accept ready, .event 1 readable (.data byte rest)] = some s ∧
      s.conns 1 = some (0, c) := by
  have first : ∃ s, (Muduo.TcpServer.start 0).advance onMessage codec (.accept ready) = some s ∧
      s.conns 1 = some (0, established codec) ∧ s.connections 1 = true := ⟨_, rfl, rfl, rfl⟩
  obtain ⟨s, accepted, conn, listed⟩ := first
  have event : (established codec).handleEvent onMessage readable (.data byte rest) = .ok c := by
    have read : (established codec).handleRead onMessage (.data byte rest) = .ok c := by
      have same : (established codec).context = codec := rfl
      rw [Muduo.TcpConnection.handleRead, same, handled]
      exact called
    exact congrArg (· >>= Muduo.TcpConnection.whenWritable readable) read
  have next : s.advance onMessage codec (.event 1 readable (.data byte rest)) =
      some (s.setConn 1 (some (0, c))) := by
    have kept : (s.setConn 1 (some (0, c))).release 1 = .ok (s.setConn 1 (some (0, c))) :=
      Muduo.TcpServer.release_kept (.inl listed)
    have possible : readable.possible (established codec).channel.watched = true := rfl
    rw [Muduo.TcpServer.advance, Muduo.TcpServer.step, conn]
    dsimp only
    rw [if_pos possible, Muduo.TcpServer.handleChannel, event, ok_bind,
      Muduo.TcpServer.closeCallbacks_none codec 0 stays, ok_bind, kept]
    rfl
  refine ⟨s.setConn 1 (some (0, c)), ?_, by simp [Muduo.TcpServer.setConn]⟩
  rw [runSteps, accepted]
  dsimp only
  rw [runSteps, next]
  rfl

/-- A backend with a page of one letter. -/
def onePage : Backend := fun _ _ => [65]

/-- A request behind which the connection does not stay. -/
def oneRequest : Bytes := (BegunRequest.bare 1 0).encode

theorem makeCalls_established {γ : Type} (context : γ) :
    (established context).makeCalls [.send (responseBytes [65]), .shutdown] =
      .ok { established context with
        state := .kDisconnecting
        writes := 1
        operations := [.connection true, .wrote (responseBytes [65]), .shutdownWrite] } := rfl

/-- A connection that has answered its only request. -/
theorem connection_answers_one : ∃ s c,
    runSteps (advance onePage) (.start 0)
      [.accept ready, .event 1 readable (.data 1 oneRequest.tail)] = some s ∧
    s.conns 1 = some (0, c) ∧ sentBy c.operations = responseBytes [65] ∧
    .shutdownWrite ∈ c.operations ∧ Settles onePage [oneRequest] c := by
  have fresh : onConnection.1.view = .fresh := view_fresh
  have got : (onConnection.1.view.receive oneRequest).request.gotRequest = true := by
    rw [fresh]
    decide
  have ends : (onConnection.1.view.receive oneRequest).request.ends = true := by
    rw [fresh]
    decide
  have parses : BodyParses
      (variableOf (onConnection.1.view.receive oneRequest).request.params (ascii "CONTENT_TYPE"))
      (onConnection.1.view.receive oneRequest).request.stdin := by
    rw [fresh]
    decide
  obtain ⟨cgi, parsed⟩ := requestCgi_of_parses parses
  obtain ⟨codec, handled, -⟩ := messageCallback_of_cgi onePage got parsed rfl rfl
  rw [if_pos ends, show oneRequest = 1 :: oneRequest.tail from rfl] at handled
  obtain ⟨s, ran, conn⟩ := one_read handled (makeCalls_established _) (by simp [established])
  exact ⟨s, _, ran, conn, rfl, by simp, connection_answers ran conn⟩

end Witness

end Mucgi

end FastCgi
