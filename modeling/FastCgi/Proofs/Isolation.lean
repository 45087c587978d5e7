/-
Module: FastCgi.Proofs.Isolation
Layer: Proofs
Purpose: What an abandoned request leaves behind.  The accumulators are cleared
  at a hand-over only, so the next request is delivered exactly as it was sent
  if and only if nothing was left in any of them; an aborted request leaks its
  parameters and its body into its successor.
Trusted boundary: none
Main exports: isolated_iff, isolated_iff_accumulators_empty,
  aborted_request_leaks
-/
import FastCgi.Proofs.Segmentation

namespace FastCgi

open Library (assignAll lastValue lastValue_eq_none_iff getElem?_assignAll mem_assignAll_of_mem)

/-! ### A request that shows a leftover PARAMS stream -/

/-- The request without pairs and without a body. -/
def bareRequest : WellFormedRequest := .plain [] [] [] nil_carries

/-- One pair with an empty value and four-byte lengths. -/
def probePair (name : UInt8) : WirePair where
  nameForm := .long
  valueForm := .long
  name := [name]
  value := []
  name_fits := show 1 < 2 ^ 31 by decide
  value_fits := show 0 < 2 ^ 31 by decide

/-- The lengths in front of the probe's name. -/
def probeLengths : Bytes := [0x80, 0, 0, 1, 0x80, 0, 0, 0]

theorem encode_probePair (name : UInt8) :
    (probePair name).encode = probeLengths ++ [name] := by
  simp [probePair, WirePair.encode, LengthForm.encode, probeLengths]

/-- The request with that pair only. -/
def probeRequest (name : UInt8) : WellFormedRequest :=
  .plain [probePair name] [⟨probeLengths ++ [name], by simp [probeLengths]⟩] []
    (by simp [encode_probePair])

/-- The name of a one-byte pair stands behind two, five or eight bytes. -/
theorem name_position {stream : Bytes} {pair : WirePair} {rest : Bytes} {name : UInt8}
    (cut : nextPair stream = some (pair, rest)) (named : pair.name = [name]) :
    stream[2]? = some name ∨ stream[5]? = some name ∨ stream[8]? = some name := by
  rw [nextPair_eq_some_iff.mp cut, WirePair.encode, named]
  cases nameForm : pair.nameForm with
  | short =>
      cases valueForm : pair.valueForm with
      | short => exact Or.inl rfl
      | long => exact Or.inr (Or.inl rfl)
  | long =>
      cases valueForm : pair.valueForm with
      | short => exact Or.inr (Or.inl rfl)
      | long => exact Or.inr (Or.inr rfl)

/-- Some byte stands at none of three places. -/
theorem exists_byte_avoiding (first second third : Option UInt8) :
    ∃ byte : UInt8, first ≠ some byte ∧ second ≠ some byte ∧ third ≠ some byte := by
  by_contra none
  have zero := not_exists.mp none 0
  have one := not_exists.mp none 1
  have two := not_exists.mp none 2
  have three := not_exists.mp none 3
  grind

/-- Behind a non-empty leftover some probe is not read back as itself. -/
theorem exists_probe_misread {leftover : Bytes} (nonempty : leftover ≠ []) :
    ∃ name, assignAll ∅
        ((pairFraming.drain (leftover ++ (probePair name).encode)).1.map WirePair.entry) ≠
      assignAll ∅ [(probePair name).entry] := by
  obtain ⟨name, two, five, eight⟩ := exists_byte_avoiding
    (leftover ++ probeLengths)[2]? (leftover ++ probeLengths)[5]?
    (leftover ++ probeLengths)[8]?
  refine ⟨name, fun same => ?_⟩
  have long : 8 < (leftover ++ probeLengths).length := by
    have positive := List.length_pos_iff.mpr nonempty
    simp only [List.length_append, probeLengths, List.length_cons, List.length_nil]
    omega
  -- the places where the name could stand lie before the probe's own name
  have stream : leftover ++ (probePair name).encode = (leftover ++ probeLengths) ++ [name] := by
    rw [encode_probePair, List.append_assoc]
  have apart (position : Nat) (early : position ≤ 8) :
      (leftover ++ (probePair name).encode)[position]? =
        (leftover ++ probeLengths)[position]? := by
    rw [stream, List.getElem?_append_left (by omega)]
  cases cut : nextPair (leftover ++ (probePair name).encode) with
  | none =>
      rw [pairFraming.drain_of_next_none cut] at same
      have lookup := congrArg (·[[name]]?) same
      simp [probePair, WirePair.entry] at lookup
  | some taken =>
      obtain ⟨pair, rest⟩ := taken
      rw [pairFraming.drain_of_next_some cut] at same
      -- the first pair's name is assigned, so it is the probe's
      have named : pair.name = [name] := by
        by_contra other
        have lookup := congrArg (·[pair.name]?) same
        simp only [getElem?_assignAll, Std.ExtTreeMap.getElem?_empty, Option.or_none] at lookup
        have absent : lastValue pair.name [(probePair name).entry] = none := by
          rw [lastValue_eq_none_iff]
          intro entry member
          rw [List.mem_singleton.mp member]
          exact fun found => other found.symm
        rw [absent, lastValue_eq_none_iff] at lookup
        exact lookup pair.entry (by simp) rfl
      rcases name_position cut named with found | found | found
      · exact two (by rw [← apart 2 (by omega), found])
      · exact five (by rw [← apart 5 (by omega), found])
      · exact eight (by rw [← apart 8 (by omega), found])

/-! ### The exact condition -/

/-- Assignments never empty a map. -/
theorem eq_empty_of_assignAll_eq_empty {params : ParamMap} {pairs : List (Bytes × Bytes)}
    (empty : assignAll params pairs = ∅) : params = ∅ := by
  apply Std.ExtTreeMap.ext_getElem?
  intro key
  rw [Std.ExtTreeMap.getElem?_empty]
  by_contra present
  have stays : key ∈ assignAll params pairs :=
    mem_assignAll_of_mem (Std.ExtTreeMap.mem_iff_isSome_getElem?.mpr
      (Option.isSome_iff_ne_none.mpr present))
  rw [empty] at stays
  exact Std.ExtTreeMap.not_mem_empty stays

/-- At a record boundary every well-formed request that follows is delivered
as it was sent if and only if nothing is left over. -/
theorem isolated_iff {v : View} (boundary : v.pending = []) (waits : v.request.gotRequest = false) :
    (∀ (request : WellFormedRequest) (group : List Bytes), group.flatten = request.encode →
        invocations (v.run group).2 = [request.invocation]) ↔
      v.request.stdin = [] ∧ v.request.paramsStream = [] ∧ v.request.params = ∅ := by
  constructor
  · intro isolated
    have delivered (request : WellFormedRequest) :
        request.invocationFrom v.request = request.invocation := by
      have whole : [request.encode].flatten = request.encode := by simp
      obtain ⟨_, _, calls⟩ := run_request boundary waits request whole
      rw [isolated request [request.encode] whole] at calls
      exact (List.singleton_inj.mp calls).symm
    have bare := delivered bareRequest
    have stdin : v.request.stdin ++ [] = [] := congrArg Invocation.stdin bare
    have params : v.request.params = ∅ :=
      eq_empty_of_assignAll_eq_empty (congrArg Invocation.params bare)
    refine ⟨by simpa using stdin, ?_, params⟩
    by_contra leftover
    obtain ⟨name, misread⟩ := exists_probe_misread leftover
    have probed := congrArg Invocation.params (delivered (probeRequest name))
    apply misread
    simp only [WellFormedRequest.invocationFrom, WellFormedRequest.invocation, params] at probed
    simpa [probeRequest, WellFormedRequest.plain] using probed
  · rintro ⟨stdin, stream, params⟩ request group whole
    have idle : v.request = .idle v.request.keepConn := by
      cases request : v.request with
      | mk gotRequest keepConn stdinLeft streamLeft paramsLeft =>
          rw [request] at waits stdin stream params
          simp only at waits stdin stream params
          simp only [RequestState.idle, waits, stdin, stream, params]
    obtain ⟨_, _, calls⟩ := run_request boundary waits request whole
    rw [calls, idle, request.invocationFrom_idle]

/-- After any reads no hand-over is pending. -/
theorem run_gotRequest {v : View} (waits : v.request.gotRequest = false) (reads : List Bytes) :
    (v.run reads).1.request.gotRequest = false := by
  induction reads generalizing v with
  | nil => exact waits
  | cons data reads inductionHypothesis =>
      exact inductionHypothesis (v.receive data).request.settle_gotRequest

/-- The exact condition under which requests are isolated, in both servers:
from every codec that some reads lead to, at a record boundary, all
well-formed requests that then arrive in reads of their own are handed over
with exactly their own pairs and body if and only if nothing is left in the
three accumulators. -/
theorem isolated_iff_accumulators_empty {σ : Type}
    (mucgi : ParamMap → Buffer → σ → ParamMap × Buffer × σ)
    (cocgi : ParamMap → Buffer → σ → Cocgi.ErrorCode × ParamMap × Buffer × σ)
    (errno : Cocgi.Errno) (world world' : σ) (c : FastCgiCodec) (reads : List Bytes)
    (earlier : List Invocation) (boundary : c.buf.readable = []) :
    (Mucgi.Calls mucgi world .fresh reads c earlier →
      ((∀ (request : WellFormedRequest) (group : List Bytes), group.flatten = request.encode →
          ∃ c', Mucgi.Calls mucgi world' c group c' [request.invocation]) ↔
        c.stdin.readable = [] ∧ c.paramsStream.readable = [] ∧ c.params = ∅)) ∧
      (Cocgi.Calls cocgi errno world .fresh reads c earlier →
        ((∀ (request : WellFormedRequest) (group : List Bytes), group.flatten = request.encode →
            ∃ c', Cocgi.Calls cocgi errno world' c group c' [request.invocation]) ↔
          c.stdin.readable = [] ∧ c.paramsStream.readable = [] ∧ c.params = ∅)) := by
  refine ⟨fun reached => ?_, fun reached => ?_⟩
  · have waits : c.view.request.gotRequest = false := by
      rw [Mucgi.view_of_calls reached, view_fresh]
      exact run_gotRequest rfl reads
    simp only [Mucgi.calls_iff]
    exact isolated_iff (v := c.view) boundary waits
  · have waits : c.view.request.gotRequest = false := by
      rw [Cocgi.view_of_calls reached, view_fresh]
      exact run_gotRequest rfl reads
    simp only [Cocgi.calls_iff]
    exact isolated_iff (v := c.view) boundary waits

/-- Between two requests a codec is at a record boundary with empty
accumulators. -/
theorem accumulators_of_idle {c : FastCgiCodec} {keepConn : Bool}
    (view : c.view = { pending := [], request := .idle keepConn }) :
    c.buf.readable = [] ∧
      c.stdin.readable = [] ∧ c.paramsStream.readable = [] ∧ c.params = ∅ :=
  ⟨congrArg View.pending view, congrArg (fun v : View => v.request.stdin) view,
    congrArg (fun v : View => v.request.paramsStream) view,
    congrArg (fun v : View => v.request.params) view⟩

/-- A codec that has handed over an earlier request is at a record boundary with
empty accumulators, and both servers deliver the request that follows, here cut
into two reads, as it was sent. -/
theorem served_codec_isolated :
    (∃ c c', Mucgi.Calls (fun params stdin (calls : Nat) => (params, stdin, calls + 1)) 0 .fresh
          [(smallRequest 65 49 98).encode] c [(smallRequest 65 49 98).invocation] ∧
        c.buf.readable = [] ∧
        Mucgi.Calls (fun params stdin (calls : Nat) => (params, stdin, calls + 1)) 1 c
          [(smallRequest 66 50 99).encode.take 9, (smallRequest 66 50 99).encode.drop 9] c'
          [(smallRequest 66 50 99).invocation]) ∧
      ∃ c c', Cocgi.Calls (fun params stdin (calls : Nat) => (.errOk, params, stdin, calls + 1)) 0
          0 .fresh [(smallRequest 65 49 98).encode] c [(smallRequest 65 49 98).invocation] ∧
        c.buf.readable = [] ∧
        Cocgi.Calls (fun params stdin (calls : Nat) => (.errOk, params, stdin, calls + 1)) 0 1 c
          [(smallRequest 66 50 99).encode.take 9, (smallRequest 66 50 99).encode.drop 9] c'
          [(smallRequest 66 50 99).invocation] := by
  have whole : [(smallRequest 66 50 99).encode.take 9,
      (smallRequest 66 50 99).encode.drop 9].flatten = (smallRequest 66 50 99).encode := by
    simp only [List.flatten_cons, List.flatten_nil, List.append_nil, List.take_append_drop]
  have first : [(smallRequest 65 49 98).encode].flatten = (smallRequest 65 49 98).encode :=
    List.flatten_singleton
  obtain ⟨keepConn, state, calls⟩ := run_request (v := View.fresh) rfl rfl _ first
  rw [← view_fresh] at state
  have served : invocations (FastCgiCodec.fresh.view.run [(smallRequest 65 49 98).encode]).2 =
      [(smallRequest 65 49 98).invocation] := by
    rw [view_fresh, calls]
    exact congrArg (fun request => [request]) (WellFormedRequest.invocationFrom_idle _ _)
  refine ⟨?_, ?_⟩
  · obtain ⟨c, called, view⟩ := Mucgi.calls_of_view
      (fun params stdin (calls : Nat) => (params, stdin, calls + 1)) 0 .fresh
      [(smallRequest 65 49 98).encode]
    rw [served] at called
    obtain ⟨boundary, empty⟩ := accumulators_of_idle (view.trans state)
    obtain ⟨c', called'⟩ := ((isolated_iff_accumulators_empty _
      (fun params stdin calls => (.errOk, params, stdin, calls + 1)) 0 0 1 c _ _ boundary).1
        called).mpr empty _ _ whole
    exact ⟨c, c', called, boundary, called'⟩
  · obtain ⟨c, called, view⟩ := Cocgi.calls_of_view
      (fun params stdin (calls : Nat) => (.errOk, params, stdin, calls + 1)) 0 0 .fresh
      [(smallRequest 65 49 98).encode]
    rw [served] at called
    obtain ⟨boundary, empty⟩ := accumulators_of_idle (view.trans state)
    obtain ⟨c', called'⟩ := ((isolated_iff_accumulators_empty
      (fun params stdin calls => (params, stdin, calls + 1)) _ 0 0 1 c _ _ boundary).2
        called).mpr empty _ _ whole
    exact ⟨c, c', called, boundary, called'⟩

/-- A request that is aborted after a PARAMS and a STDIN record. -/
def abortedRequest : List Record :=
  [plainRecord .kFcgiBeginRequest [0, 1, 1, 0, 0, 0, 0, 0] begin_content_fits,
    plainRecord .kFcgiParams [1, 1, 65, 49] (by decide),
    plainRecord .kFcgiStdin [120] (by decide), plainRecord .kFcgiAbortRequest [] nil_content_fits]

/-- The request that follows the aborted one, at a record boundary and in a
read of its own, is handed over with the parameters and the body of both. -/
theorem aborted_request_leaks :
    (∃ c c', Mucgi.Calls (fun params stdin (_ : Unit) => (params, stdin, ())) () .fresh
          [abortedRequest.flatMap Record.encode] c [] ∧
        c.buf.readable = [] ∧
        Mucgi.Calls (fun params stdin (_ : Unit) => (params, stdin, ())) () c
          [(smallRequest 66 50 99).encode] c'
          [{ params := assignAll ∅ [([65], [49]), ([66], [50])], stdin := [120, 99] }]) ∧
      (∃ c c', Cocgi.Calls (fun params stdin (_ : Unit) => (.errOk, params, stdin, ())) 0 ()
          .fresh [abortedRequest.flatMap Record.encode] c [] ∧
        c.buf.readable = [] ∧
        Cocgi.Calls (fun params stdin (_ : Unit) => (.errOk, params, stdin, ())) 0 () c
          [(smallRequest 66 50 99).encode] c'
          [{ params := assignAll ∅ [([65], [49]), ([66], [50])], stdin := [120, 99] }]) ∧
      (smallRequest 66 50 99).invocation =
        { params := assignAll ∅ [([66], [50])], stdin := [99] } := by
  have silent : invocations
      (FastCgiCodec.fresh.view.run [abortedRequest.flatMap Record.encode]).2 = [] := by
    rw [view_fresh]
    decide
  have boundary : (FastCgiCodec.fresh.view.run
      [abortedRequest.flatMap Record.encode]).1.pending = [] := by
    rw [view_fresh]
    decide
  have leaks : invocations ((FastCgiCodec.fresh.view.run
      [abortedRequest.flatMap Record.encode]).1.run [(smallRequest 66 50 99).encode]).2 =
      [{ params := assignAll ∅ [([65], [49]), ([66], [50])], stdin := [120, 99] }] := by
    rw [view_fresh]
    decide
  refine ⟨?_, ?_, rfl⟩
  · obtain ⟨c, called, view⟩ := Mucgi.calls_of_view
      (fun params stdin (_ : Unit) => (params, stdin, ())) () .fresh
      [abortedRequest.flatMap Record.encode]
    rw [silent] at called
    rw [← view] at boundary leaks
    obtain ⟨c', called'⟩ := (Mucgi.calls_iff _ () c _ _).mpr leaks
    exact ⟨c, c', called, boundary, called'⟩
  · obtain ⟨c, called, view⟩ := Cocgi.calls_of_view
      (fun params stdin (_ : Unit) => (.errOk, params, stdin, ())) 0 () .fresh
      [abortedRequest.flatMap Record.encode]
    rw [silent] at called
    rw [← view] at boundary leaks
    obtain ⟨c', called'⟩ := (Cocgi.calls_iff _ 0 () c _ _).mpr leaks
    exact ⟨c, c', called, boundary, called'⟩

end FastCgi
