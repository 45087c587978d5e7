/-
Module: FastCgi.Proofs.OutputFraming
Layer: Proofs
Purpose: What a cocgi connection writes, over whole runs of its loop: the
  output is framed exactly as long as no later request is answered with bytes
  that the socket takes once a response was abandoned, because `readData` drops
  the error code and the loop reads on.
Trusted boundary: none
Main exports: framed_converse_iff, output_framed_iff
-/
import FastCgi.Proofs.ExchangeRefinement
import FastCgi.Proofs.Segmentation
import Mathlib.Data.List.Induction

namespace FastCgi

open Cocgi (WriteResult ErrorCode Errno ReadResult Socket Exchange)

/-! ### Written and built bytes -/

@[simp] theorem written_append (first second : List Event) :
    written (first ++ second) = written first ++ written second := List.flatMap_append

@[simp] theorem built_append (first second : List Event) :
    built (first ++ second) = built first ++ built second := List.flatMap_append

@[simp] theorem written_cons (event : Event) (events : List Event) :
    written (event :: events) = event.written ++ written events := List.flatMap_cons

@[simp] theorem built_cons (event : Event) (events : List Event) :
    built (event :: events) = event.built ++ built events := List.flatMap_cons

theorem built_of_isWrite {events : List Event} (writes : ∀ event ∈ events, event.IsWrite) :
    built events = [] := by
  apply List.flatMap_eq_nil_iff.mpr
  intro event member
  have isWrite := writes event member
  cases event with
  | called call => rfl
  | responded response => exact isWrite.elim
  | wrote data => rfl
  | writeFailed errno => rfl

/-- No write has failed yet. -/
def Clean (events : List Event) : Prop := ∀ event ∈ events, event.isFailure = false

theorem clean_append {first second : List Event} :
    Clean (first ++ second) ↔ Clean first ∧ Clean second := List.forall_mem_append

theorem clean_cons {event : Event} {events : List Event} :
    Clean (event :: events) ↔ event.isFailure = false ∧ Clean events := List.forall_mem_cons

/-- No byte is written. -/
def Silent (events : List Event) : Prop := ∀ event ∈ events, event.written = []

theorem silent_append {first second : List Event} :
    Silent (first ++ second) ↔ Silent first ∧ Silent second := List.forall_mem_append

theorem silent_cons {event : Event} {events : List Event} :
    Silent (event :: events) ↔ event.written = [] ∧ Silent events := List.forall_mem_cons

/-- After a failed write nothing more is written. -/
def Hushed (events : List Event) : Prop :=
  events.Pairwise fun earlier later => earlier.isFailure = true → later.written = []

theorem hushed_nil : Hushed [] := List.Pairwise.nil

theorem hushed_of_silent {events : List Event} (silent : Silent events) : Hushed events :=
  List.pairwise_of_forall_mem_list fun _ _ later member _ => silent later member

theorem hushed_cons {event : Event} {events : List Event} (success : event.isFailure = false) :
    Hushed (event :: events) ↔ Hushed events := by
  simp [Hushed, success]

theorem hushed_append {first second : List Event} :
    Hushed (first ++ second) ↔
      Hushed first ∧ Hushed second ∧ (¬ Clean first → Silent second) := by
  have failure : ¬ Clean first ↔ ∃ failed ∈ first, failed.isFailure = true := by
    simp [Clean]
  rw [failure]
  simp only [Hushed, List.pairwise_append, Silent]
  grind

/-! ### One response -/

/-- What a transmission writes is a beginning of its bytes. -/
theorem written_transmit (script : List WriteResult) (bytes : Bytes) :
    written (transmit script bytes).2.2 <+: bytes := by
  induction script, bytes using transmit_induction with
  | done script =>
      rw [transmit_done]
      exact List.nil_prefix
  | blocked bytes more =>
      rw [transmit_blocked more]
      exact List.nil_prefix
  | failed errno script bytes more =>
      rw [transmit_failed more]
      exact List.nil_prefix
  | accepted count script bytes more rest =>
      have joined := (List.prefix_append_right_inj (bytes.take count)).mpr rest
      rw [List.take_append_drop] at joined
      rw [transmit_accepted more]
      exact joined

/-- A transmission reports success exactly if everything was written. -/
theorem transmit_errOk_iff (script : List WriteResult) (bytes : Bytes) :
    (transmit script bytes).1 = some .errOk ↔ written (transmit script bytes).2.2 = bytes := by
  induction script, bytes using transmit_induction with
  | done script => simp [transmit_done, written]
  | blocked bytes more => simp [transmit_blocked more, written, more.symm]
  | failed errno script bytes more =>
      simp [transmit_failed more, written, Event.written, more.symm]
  | accepted count script bytes more rest =>
      have whole := List.take_append_drop count bytes
      simp only [transmit_accepted more, rest, written_cons, Event.written]
      constructor
      · intro last
        rw [last, whole]
      · intro all
        exact List.append_cancel_left (all.trans whole.symm)

/-- A transmission is still under way, or has sent everything, both without a
failed write, or it has ended with one. -/
theorem transmit_cases (script : List WriteResult) (bytes : Bytes) :
    (transmit script bytes).1 = none ∧ Clean (transmit script bytes).2.2 ∨
      (transmit script bytes).1 = some .errOk ∧ Clean (transmit script bytes).2.2 ∨
      (transmit script bytes).1 = some .errSocketWrite ∧ ¬ Clean (transmit script bytes).2.2 := by
  induction script, bytes using transmit_induction with
  | done script => simp [transmit_done, Clean]
  | blocked bytes more => simp [transmit_blocked more, Clean]
  | failed errno script bytes more => simp [transmit_failed more, Clean, Event.isFailure]
  | accepted count script bytes more rest =>
      have success : (Event.wrote (bytes.take count)).isFailure = false := rfl
      simpa only [transmit_accepted more, clean_cons, success, true_and] using rest

theorem hushed_transmit (script : List WriteResult) (bytes : Bytes) :
    Hushed (transmit script bytes).2.2 := by
  induction script, bytes using transmit_induction with
  | done script => simp [transmit_done, Hushed]
  | blocked bytes more => simp [transmit_blocked more, Hushed]
  | failed errno script bytes more => simp [transmit_failed more, Hushed]
  | accepted count script bytes more rest =>
      rw [transmit_accepted more]
      exact (hushed_cons rfl).mpr rest

/-- What the results are to a response is how its transmission ends. -/
theorem outlay_eq (script : List WriteResult) (bytes : Bytes) :
    Cocgi.outlay script bytes.length =
      match (transmit script bytes).1 with
      | none => .short
      | some .errOk => .covered (transmit script bytes).2.1
      | some _ => .failed (transmit script bytes).2.1 := by
  induction script, bytes using transmit_induction with
  | done script => simp [transmit_done, Cocgi.outlay]
  | blocked bytes more =>
      obtain ⟨byte, bytes, rfl⟩ := List.exists_cons_of_ne_nil more
      simp [transmit_blocked more, Cocgi.outlay]
  | failed errno script bytes more =>
      obtain ⟨byte, bytes, rfl⟩ := List.exists_cons_of_ne_nil more
      simp [transmit_failed more, Cocgi.outlay]
  | accepted count script bytes more rest =>
      rw [List.length_drop] at rest
      rw [transmit_accepted more, ← rest]
      obtain ⟨byte, bytes, rfl⟩ := List.exists_cons_of_ne_nil more
      rfl

/-- The results take nothing of the responses exactly if they take nothing of
the first one, and those that are left take nothing of the others. -/
theorem silentFor_succ {bytes : Bytes} (more : bytes ≠ []) (script : List WriteResult)
    (later : Nat) :
    Cocgi.silentFor script (later + 1) = true ↔
      Silent (transmit script bytes).2.2 ∧
        ((transmit script bytes).1 ≠ none →
          Cocgi.silentFor (transmit script bytes).2.1 later = true) := by
  induction script, bytes using transmit_induction with
  | done script => exact absurd rfl more
  | blocked bytes more => simp [transmit_blocked more, Cocgi.silentFor, Silent]
  | failed errno script bytes more =>
      simp [transmit_failed more, Cocgi.silentFor, Silent, Event.written]
  | accepted count script bytes more rest =>
      -- a result that takes some bytes is not silent, and any other leaves all of them
      rw [transmit_accepted more]
      cases count with
      | zero => simpa [Cocgi.silentFor, silent_cons, Event.written] using rest more
      | succ count => simp [Cocgi.silentFor, silent_cons, Event.written, more]

/-! ### The exchanges of a connection -/

/-- As long as no write has failed, the bytes written are a beginning of the
responses. -/
def Ordered (trace : List Event) : Prop :=
  ∀ moment, moment <+: trace → Clean moment → written moment <+: built moment

/-- What follows when every response is written keeps the order. -/
theorem ordered_append {first second : List Event} (ordered : Ordered first)
    (complete : Clean first → written first = built first) (later : Ordered second) :
    Ordered (first ++ second) := by
  intro moment early clean
  obtain ⟨rest, split⟩ := early
  -- the moment lies in the first events, or reaches into the second
  rcases List.append_eq_append_iff.mp split with ⟨left, inside, _⟩ | ⟨part, rfl, reached⟩
  · exact ordered moment ⟨left, inside.symm⟩ clean
  · obtain ⟨cleanFirst, cleanPart⟩ := clean_append.mp clean
    rw [written_append, built_append, complete cleanFirst]
    exact (List.prefix_append_right_inj _).mpr (later part ⟨rest, reached.symm⟩ cleanPart)

theorem built_exchange (script : List WriteResult) (exchange : Exchange) :
    built (exchange.events script) = exchange.response := by
  simp [Exchange.events, Event.built, built_of_isWrite (transmit_isWrite script exchange.response)]

theorem written_exchange (script : List WriteResult) (exchange : Exchange) :
    written (exchange.events script) = written (transmit script exchange.response).2.2 := rfl

theorem clean_exchange {script : List WriteResult} {exchange : Exchange} :
    Clean (exchange.events script) ↔ Clean (transmit script exchange.response).2.2 := by
  simp [Exchange.events, clean_cons, Event.isFailure]

theorem silent_exchange {script : List WriteResult} {exchange : Exchange} :
    Silent (exchange.events script) ↔ Silent (transmit script exchange.response).2.2 := by
  simp [Exchange.events, silent_cons, Event.written]

theorem hushed_exchange (script : List WriteResult) (exchange : Exchange) :
    Hushed (exchange.events script) :=
  (hushed_cons rfl).mpr ((hushed_cons rfl).mpr (hushed_transmit script exchange.response))

theorem ordered_exchange (script : List WriteResult) (exchange : Exchange) :
    Ordered (exchange.events script) := by
  intro moment early _
  -- only what stands behind the response is written
  rcases List.prefix_cons_iff.mp early with rfl | ⟨part, rfl, further⟩
  · exact List.nil_prefix
  · rcases List.prefix_cons_iff.mp further with rfl | ⟨writes, rfl, ⟨later, split⟩⟩
    · exact List.nil_prefix
    · have sent : written writes <+: exchange.response := by
        apply List.IsPrefix.trans _ (written_transmit script exchange.response)
        rw [← split, written_append]
        exact List.prefix_append _ _
      exact sent.trans (List.prefix_append _ _)

theorem ordered_nil : Ordered [] := by
  intro moment early _
  rw [List.prefix_nil.mp early]
  exact List.prefix_refl _

/-- Until a write fails, the responses go out one after the other. -/
theorem ordered_converse (script : List WriteResult) (exchanges : List Exchange) :
    Ordered (Cocgi.converse script exchanges) := by
  induction exchanges generalizing script with
  | nil => exact ordered_nil
  | cons exchange later inductionHypothesis =>
      rw [Cocgi.converse]
      by_cases goesOn : exchange.goesOn (transmit script exchange.response).1 = true
      · rw [if_pos goesOn]
        refine ordered_append (ordered_exchange script exchange) ?_ (inductionHypothesis _)
        intro clean
        rw [written_exchange, built_exchange]
        apply (transmit_errOk_iff script exchange.response).mp
        rcases transmit_cases script exchange.response with
          ⟨blocked, _⟩ | ⟨done, _⟩ | ⟨_, failed⟩
        · rw [blocked] at goesOn
          cases goesOn
        · exact done
        · exact absurd (clean_exchange.mp clean) failed
      · rw [if_neg goesOn, List.append_nil]
        exact ordered_exchange script exchange

/-- Nothing is written in the exchanges exactly if the results take nothing of
that many responses. -/
theorem silent_converse_iff {exchanges : List Exchange}
    (something : ∀ exchange ∈ exchanges, exchange.response ≠ []) (script : List WriteResult) :
    Silent (Cocgi.converse script exchanges) ↔
      Cocgi.silentFor script exchanges.length = true := by
  induction exchanges generalizing script with
  | nil => simp [Cocgi.converse, Silent, Cocgi.silentFor]
  | cons exchange later inductionHypothesis =>
      obtain ⟨more, others⟩ := List.forall_mem_cons.mp something
      rw [Cocgi.converse, silent_append, silent_exchange, List.length_cons, silentFor_succ more]
      apply and_congr_right
      intro silent
      rcases transmit_cases script exchange.response with ⟨ret, _⟩ | ⟨ret, _⟩ | ⟨ret, _⟩
      · simp [ret, Exchange.goesOn, Silent]
      · have all := (transmit_errOk_iff script exchange.response).mp ret
        have none : written (transmit script exchange.response).2.2 = [] :=
          List.flatMap_eq_nil_iff.mpr silent
        exact absurd (all.symm.trans none) more
      · simp [ret, Exchange.goesOn, inductionHypothesis others]

/-- After a failed write nothing more is written exactly if the results take
nothing once a response is abandoned. -/
theorem hushed_converse_iff {exchanges : List Exchange}
    (something : ∀ exchange ∈ exchanges, exchange.response ≠ []) (script : List WriteResult) :
    Hushed (Cocgi.converse script exchanges) ↔
      Cocgi.silentOnceAbandoned script exchanges = true := by
  induction exchanges generalizing script with
  | nil => simp [Cocgi.converse, Hushed, Cocgi.silentOnceAbandoned]
  | cons exchange later inductionHypothesis =>
      obtain ⟨_, others⟩ := List.forall_mem_cons.mp something
      rw [Cocgi.converse, hushed_append, clean_exchange, Cocgi.silentOnceAbandoned, outlay_eq]
      have hushed := hushed_exchange script exchange
      rcases transmit_cases script exchange.response with
        ⟨ret, clean⟩ | ⟨ret, clean⟩ | ⟨ret, failed⟩
      · simp [ret, Exchange.goesOn, hushed, clean, hushed_nil]
      · cases kept : exchange.keepConn with
        | true => simp [ret, Exchange.goesOn, hushed, clean, kept, inductionHypothesis others]
        | false => simp [ret, Exchange.goesOn, hushed, clean, kept, hushed_nil]
      · have quiet := silent_converse_iff others (transmit script exchange.response).2.1
        simp only [ret, Exchange.goesOn, if_true, hushed, failed, not_false_eq_true, true_and,
          true_implies, ← quiet]
        exact ⟨fun both => both.2, fun silent => ⟨hushed_of_silent silent, silent⟩⟩

/-- With a socket that is silent after a failure, only the moments before the
first failure matter. -/
theorem written_of_silent {trace : List Event} (ordered : Ordered trace)
    (silent : trace.Pairwise fun earlier later => earlier.isFailure = true → later.written = []) :
    ∀ moment, moment <+: trace → written moment <+: built moment := by
  intro moment early
  induction moment using List.reverseRecOn with
  | nil => exact List.prefix_refl _
  | append_singleton earlier event inductionHypothesis =>
      by_cases clean : Clean (earlier ++ [event])
      · exact ordered _ early clean
      · have before := inductionHypothesis ((List.prefix_append earlier [event]).trans early)
        have quiet : event.written = [] := by
          by_cases cleanEarlier : Clean earlier
          · -- the event is the first failure itself
            have failure : event.isFailure = true := by
              by_contra success
              apply clean
              rw [clean_append]
              exact ⟨cleanEarlier, by simpa [Clean] using success⟩
            cases event with
            | writeFailed errno => rfl
            | called call => rfl
            | responded response => rfl
            | wrote data => cases failure
          · obtain ⟨failed, member, failure⟩ : ∃ failed ∈ earlier, failed.isFailure = true := by
              simpa [Clean] using cleanEarlier
            have pairs := silent.sublist early.sublist
            rw [List.pairwise_append] at pairs
            exact pairs.2.2 failed member event (List.mem_singleton.mpr rfl) failure
        have same : written (earlier ++ [event]) = written earlier := by
          rw [written_append, written_cons, quiet]
          exact List.append_nil _
        rw [same, built_append]
        exact before.trans (List.prefix_append _ _)

/-- The exchanges are framed exactly if the results take nothing once a response
is abandoned. -/
theorem framed_converse_iff {exchanges : List Exchange}
    (something : ∀ exchange ∈ exchanges, exchange.response ≠ []) (script : List WriteResult) :
    Framed (Cocgi.converse script exchanges) ↔
      Cocgi.silentOnceAbandoned script exchanges = true := by
  rw [← hushed_converse_iff something]
  constructor
  · intro framed
    exact framed.2
  · intro hushed
    exact ⟨written_of_silent (ordered_converse script exchanges) hushed, hushed⟩

/-! ### The output of a connection -/

/-- What one call of `doRequest` does to the socket. -/
theorem doRequest_inversion {backend : Backend} {params params' : ParamMap}
    {stdin stdin' : Buffer} {socket socket' : Socket} {ret : Option ErrorCode}
    (returned : Cocgi.doRequest (some backend) params stdin socket =
      .ok (ret, params', stdin', socket')) :
    ∃ call response, ret = (transmit socket.script response).1 ∧
      socket'.script = (transmit socket.script response).2.1 ∧
      socket'.trace = socket.trace ++
        .called call :: .responded response :: (transmit socket.script response).2.2 := by
  by_cases parses : BodyParses (variableOf params (ascii "CONTENT_TYPE")) stdin.readable
  · obtain ⟨_, _, call, answered, _⟩ := Cocgi.doRequest_of_parses backend parses socket
    rw [answered] at returned
    cases returned
    exact ⟨call, _, rfl, rfl, rfl⟩
  · rw [Cocgi.doRequest_of_not_parses (some backend) parses socket] at returned
    cases returned

/-- A connection starts with the view of a fresh codec. -/
theorem view_clear (c : FastCgiCodec) : (Cocgi.clear c).view = View.fresh := by
  simp [Cocgi.clear, FastCgiCodec.clearRequest, FastCgiCodec.view, FastCgiCodec.request,
    View.fresh, RequestState.idle]

/-- A connection does on its socket what its reads ask for. -/
theorem trace_serveConnection {backend : Backend} {c : FastCgiCodec} {script : List WriteResult}
    {reads : List (Errno × ReadResult)} {serving : Cocgi.Serving Socket}
    (ran : Cocgi.serveConnection (Cocgi.doRequest (some backend)) c ⟨script, []⟩ reads =
      .ok serving) :
    serving.world.trace =
      Cocgi.converse script (Cocgi.exchanges backend 0 .fresh [] reads) := by
  have trace := Cocgi.trace_readwriteLoop ran
  rw [view_clear] at trace
  exact trace

theorem responseBytes_ne_nil (out : Bytes) : responseBytes out ≠ [] := by
  simp [responseBytes, responseRecords, endRequestRecord, Record.encode]

/-- The exact condition under which the output of a connection is framed: once
a write has failed before its response was covered, the results of `write` take
nothing of the responses to the requests that are read after it. -/
theorem output_framed_iff (backend : Backend) (c : FastCgiCodec) (script : List WriteResult)
    (reads : List (Errno × ReadResult)) (serving : Cocgi.Serving Socket)
    (ran : Cocgi.serveConnection (Cocgi.doRequest (some backend)) c ⟨script, []⟩ reads =
      .ok serving) :
    Framed serving.world.trace ↔
      Cocgi.silentOnceAbandoned script (Cocgi.exchanges backend 0 .fresh [] reads) = true := by
  rw [trace_serveConnection ran]
  apply framed_converse_iff
  intro exchange member
  obtain ⟨out, response⟩ := Cocgi.response_of_mem_exchanges member
  rw [response]
  exact responseBytes_ne_nil out

/-! ### Runs on fixed requests -/

/-- The request that the runs below receive. -/
def plainBytes : Bytes := (smallRequest 65 49 120).encode

/-- The output of the backend in the runs below. -/
def letterPage : Backend := fun _ _ => [65]

/-- The same request twice, each in a read of its own. -/
def plainReads : List (Errno × ReadResult) := [(0, .received plainBytes), (0, .received plainBytes)]

/-- A plain request, also behind another one, asks for an exchange. -/
theorem exchangeOf_plain {v : View}
    (parses : BodyParses (variableOf (v.receive plainBytes).request.params (ascii "CONTENT_TYPE"))
      (v.receive plainBytes).request.stdin) (earlier : List BackendCall) :
    ∃ exchange, Cocgi.exchangeOf letterPage earlier (v.receive plainBytes).request =
      some exchange ∧ exchange.response = responseBytes [65] := by
  obtain ⟨cgi, built⟩ := requestCgi_of_parses parses
  exact ⟨_, Cocgi.exchangeOf_of_cgi built, rfl⟩

/-- If the first response is abandoned, the second request is read and
answered all the same. -/
theorem plain_requests_served (script : List WriteResult)
    (abandoned : (transmit script (responseBytes [65])).1 = some .errSocketWrite) :
    ∃ serving first second,
      Cocgi.serveConnection (Cocgi.doRequest (some letterPage)) .fresh ⟨script, []⟩ plainReads =
        .ok serving ∧
      Cocgi.exchanges letterPage 0 .fresh [] plainReads = [first, second] ∧
      first.response = responseBytes [65] ∧ second.response = responseBytes [65] := by
  have got₁ : (View.fresh.receive plainBytes).request.gotRequest = true := by decide
  have got₂ : ((View.fresh.step plainBytes).receive plainBytes).request.gotRequest = true := by
    decide
  obtain ⟨first, asked₁, response₁⟩ :=
    exchangeOf_plain (v := View.fresh) (by decide) []
  obtain ⟨second, asked₂, response₂⟩ :=
    exchangeOf_plain (v := View.fresh.step plainBytes) (by decide) [first.call]
  have asked : Cocgi.exchanges letterPage 0 .fresh [] plainReads = [first, second] := by
    simp only [plainReads, Cocgi.exchanges, if_pos got₁, asked₁, List.nil_append, if_pos got₂,
      asked₂]
  have calls₁ := Cocgi.calls_after ⟨script, []⟩ first
  rw [← view_clear .fresh] at got₁ asked₁
  rw [show [] = calls (⟨script, []⟩ : Socket).trace from rfl] at asked₁
  have goesOn : first.goesOn (transmit script first.response).1 = true := by
    rw [response₁, abandoned]
    rfl
  have behind₁ := Cocgi.readwriteLoop_exchange got₁ asked₁ 0 0 [(0, .received plainBytes)]
  rw [if_pos goesOn] at behind₁
  obtain ⟨c, view, same⟩ := behind₁
  rw [view_clear] at view
  rw [← view] at got₂ asked₂
  rw [show [first.call] = calls (Socket.after ⟨script, []⟩ first).trace from calls₁.symm] at asked₂
  have behind₂ := Cocgi.readwriteLoop_exchange got₂ asked₂ 0 0 []
  rw [Cocgi.serveConnection, plainReads, same]
  split at behind₂
  · obtain ⟨c', -, last⟩ := behind₂
    exact ⟨_, first, second, last, asked, response₁, response₂⟩
  · obtain ⟨phase, c', last⟩ := behind₂
    exact ⟨_, first, second, last, asked, response₁, response₂⟩

/-- The first response is abandoned after five bytes; the second request is
answered in vain, and nothing follows. -/
theorem abandoned_response_alone :
    ∃ serving, Cocgi.serveConnection (Cocgi.doRequest (some letterPage)) .fresh
        ⟨[.accepted 5, .failed Cocgi.eagain, .failed Cocgi.eagain], []⟩ plainReads =
          .ok serving ∧
      Framed serving.world.trace := by
  obtain ⟨serving, first, second, ran, asked, response₁, response₂⟩ := plain_requests_served
    [.accepted 5, .failed Cocgi.eagain, .failed Cocgi.eagain] rfl
  refine ⟨serving, ran, (output_framed_iff letterPage .fresh _ plainReads serving ran).mpr ?_⟩
  rw [asked, Cocgi.silentOnceAbandoned, response₁]
  rfl

/-- After the first response has been abandoned, the second request is read
and answered in full, so the client sees five bytes of one response and then
another. -/
theorem response_follows_abandoned_one :
    ∃ serving, Cocgi.serveConnection (Cocgi.doRequest (some letterPage)) .fresh
        ⟨[.accepted 5, .failed Cocgi.eagain, .accepted 100], []⟩
        [(0, .received plainBytes), (0, .received plainBytes)] = .ok serving ∧
      built serving.world.trace = responseBytes [65] ++ responseBytes [65] ∧
      written serving.world.trace = (responseBytes [65]).take 5 ++ responseBytes [65] ∧
      ¬ Framed serving.world.trace := by
  obtain ⟨serving, first, second, ran, asked, response₁, response₂⟩ := plain_requests_served
    [.accepted 5, .failed Cocgi.eagain, .accepted 100] rfl
  have trace := trace_serveConnection ran
  rw [asked] at trace
  obtain ⟨call₁, _, keep₁⟩ := first
  obtain ⟨call₂, _, keep₂⟩ := second
  cases response₁
  cases response₂
  have events : serving.world.trace =
      [.called call₁, .responded (responseBytes [65]), .wrote ((responseBytes [65]).take 5),
        .writeFailed Cocgi.eagain, .called call₂, .responded (responseBytes [65]),
        .wrote (responseBytes [65])] := by
    rw [trace]
    cases keep₂ with
    | true => rfl
    | false => rfl
  have responses : built serving.world.trace = responseBytes [65] ++ responseBytes [65] := by
    rw [events]
    rfl
  have output : written serving.world.trace =
      (responseBytes [65]).take 5 ++ responseBytes [65] := by
    rw [events]
    rfl
  refine ⟨serving, ran, responses, output, ?_⟩
  intro framed
  have early := framed.1 _ (List.prefix_refl _)
  rw [responses, output] at early
  revert early
  decide

end FastCgi
