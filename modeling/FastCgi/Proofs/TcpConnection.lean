/-
Module: FastCgi.Proofs.TcpConnection
Layer: Proofs
Purpose: Every event of a connection that is up keeps it in step with the calls of
  its message callback, or takes it down.
Trusted boundary: none
Main exports: Muduo.TcpConnection.makeCalls_serving,
  Muduo.TcpConnection.handleEvent_behind
-/
import FastCgi.Library.Simulation
import FastCgi.Proofs.BufferView
import FastCgi.Spec.TcpConnection

namespace FastCgi

namespace Muduo

open Library (bind_eq_ok)

/-! ### Channels -/

namespace Channel

theorem enableWriting_listening : (listening false).enableWriting = .ok (listening true) := rfl

theorem disableWriting_listening : (listening true).disableWriting = .ok (listening false) := rfl

theorem disableAll_listening (writing : Bool) : (listening writing).disableAll = .ok deaf := by
  cases writing <;> rfl

theorem remove_deaf : deaf.remove = .ok fresh := rfl

end Channel

/-! ### Calls -/

theorem acceptedBy_append (calls later : List Call) :
    acceptedBy (calls ++ later) =
      acceptedBy calls ++ if .shutdown ∈ calls then [] else acceptedBy later := by
  induction calls with
  | nil => simp [acceptedBy]
  | cons call calls inductionHypothesis =>
      cases call with
      | send message => simp [acceptedBy, inductionHypothesis]
      | shutdown => simp [acceptedBy]

theorem callsBy_snoc {γ : Type} (onMessage : MessageCallback γ) {codec context : γ}
    {reads : List Bytes} {calls : List Call} (data : Bytes)
    (known : callsBy onMessage codec reads = .ok (context, calls)) :
    callsBy onMessage codec (reads ++ [data]) =
      (onMessage context data).map fun made => (made.1, calls ++ made.2) := by
  induction reads generalizing codec calls with
  | nil =>
      cases known
      rw [List.nil_append, callsBy]
      cases onMessage context data with
      | error fault => rfl
      | ok made => simp [callsBy, Except.map, pure, Except.pure]
  | cons first reads inductionHypothesis =>
      rw [callsBy] at known
      obtain ⟨⟨next, made⟩, handled, known⟩ := bind_eq_ok.mp known
      obtain ⟨⟨last, rest⟩, further, known⟩ := bind_eq_ok.mp known
      cases known
      rw [List.cons_append, callsBy, handled, ok_bind]
      simp only [inductionHypothesis further]
      cases onMessage context data with
      | error fault => rfl
      | ok made => simp [Except.map, pure, Except.pure]

namespace TcpConnection

variable {γ : Type} {calls : List Call} {pieces : List Bytes} {c : TcpConnection γ}

/-! ### Sending -/

theorem Serving.isWriting (serving : c.Serving calls pieces) :
    c.isWriting = decide (c.outputBuffer.readable ≠ []) := by
  rw [TcpConnection.isWriting, serving.channel]
  rfl

theorem readableBytes_eq_zero (b : Buffer) : b.readableBytes = 0 ↔ b.readable = [] := by
  rw [← b.length_readable, List.length_eq_zero_iff]

/-- What is kept waits, and the channel is watched for writes. -/
theorem keep_view (remaining : Bytes)
    (channel : c.channel = .listening (decide (c.outputBuffer.readable ≠ []))) :
    ∃ b, c.keep remaining = .ok { c with
        outputBuffer := b, channel := .listening (decide (b.readable ≠ [])) } ∧
      b.readable = c.outputBuffer.readable ++ remaining := by
  unfold keep
  by_cases none : remaining = []
  · refine ⟨c.outputBuffer, ?_, by rw [none, List.append_nil]⟩
    rw [if_pos none, ← channel]
    rfl
  · obtain ⟨b, appended, view⟩ := c.outputBuffer.append_view remaining
    have some : b.readable ≠ [] := by
      rw [view]
      simp [none]
    refine ⟨b, ?_, view⟩
    rw [if_neg none, appended, ok_bind]
    by_cases empty : c.outputBuffer.readable = []
    · have idle : c.channel = .listening false := by rw [channel]; simp [empty]
      have quiet : c.isWriting = false := by rw [isWriting, idle]; rfl
      rw [if_neg (by simp [quiet]), idle, Channel.enableWriting_listening, ok_bind,
        decide_eq_true some]
      rfl
    · have busy : c.channel = .listening true := by rw [channel]; simp [empty]
      have writing : c.isWriting = true := by rw [isWriting, busy]; rfl
      rw [if_pos writing, decide_eq_true some, ← busy]
      rfl

theorem operationsOf_wrote (pieces : List Bytes) (data : Bytes) :
    operationsOf pieces false ++ [.wrote data] = operationsOf (pieces ++ [data]) false := by
  simp [operationsOf]

theorem operationsOf_ended (pieces : List Bytes) :
    operationsOf pieces false ++ [.shutdownWrite] = operationsOf pieces true := by
  simp [operationsOf]

/-- A connection that is up and not shut down. -/
theorem Serving.running (serving : c.Serving calls pieces) (running : .shutdown ∉ calls) :
    c.state = .kConnected ∧ c.operations = operationsOf pieces false := by
  refine ⟨by rw [serving.state, if_neg running], ?_⟩
  have drained : ¬ c.Drained calls := fun drained => running drained.1
  rw [serving.operations, decide_eq_false drained]

/-- Put together what a connection is behind one more message. -/
theorem serving_of_sent (running : .shutdown ∉ calls)
    {message : Bytes} {pieces' : List Bytes} {c' : TcpConnection γ}
    (state : c'.state = .kConnected)
    (channel : c'.channel = .listening (decide (c'.outputBuffer.readable ≠ [])))
    (carried : c'.Carried (calls ++ [.send message]) pieces')
    (operations : c'.operations = operationsOf pieces' false) :
    c'.Serving (calls ++ [.send message]) pieces' := by
  have still : .shutdown ∉ calls ++ [.send message] := by simp [running]
  have drained : ¬ c'.Drained (calls ++ [.send message]) := fun drained => still drained.1
  refine ⟨?_, channel, carried, ?_⟩
  · rw [state, if_neg still]
  · rw [operations, decide_eq_false drained]

theorem acceptedBy_sent (running : .shutdown ∉ calls) (message : Bytes) :
    acceptedBy (calls ++ [.send message]) = acceptedBy calls ++ message := by
  rw [acceptedBy_append, if_neg running]
  simp [acceptedBy]

/-- More to carry for a connection that has not written any of it. -/
theorem Serving.carried_waiting (serving : c.Serving calls pieces) (running : .shutdown ∉ calls)
    {message : Bytes} {c' : TcpConnection γ} (socket : c'.socket = c.socket)
    (writes : c.writes ≤ c'.writes)
    (waiting : c'.outputBuffer.readable = c.outputBuffer.readable ++ message) :
    c'.Carried (calls ++ [.send message]) pieces := by
  rw [Carried, acceptedBy_sent running, waiting, socket]
  rcases serving.carried with whole | ⟨⟨k, earlier, broken⟩, part⟩
  · left
    rw [← List.append_assoc, whole]
  · exact .inr ⟨⟨k, by omega, broken⟩, part.trans (List.prefix_append _ _)⟩

/-- As long as no write has found the other side gone, nothing is lost. -/
theorem Serving.whole (serving : c.Serving calls pieces)
    (open' : c.socket.result c.writes ≠ .broken) :
    pieces.flatten ++ c.outputBuffer.readable = acceptedBy calls := by
  rcases serving.carried with whole | ⟨⟨k, earlier, broken⟩, -⟩
  · exact whole
  · exact absurd (c.socket.stays_broken k c.writes (by omega) broken) open'

theorem Serving.written_prefix (serving : c.Serving calls pieces) :
    pieces.flatten <+: acceptedBy calls := by
  rcases serving.carried with whole | ⟨-, part⟩
  · exact ⟨_, whole⟩
  · exact part

theorem take_append_drop_min (n : Nat) (data : Bytes) :
    data.take n ++ data.drop (min n data.length) = data := by
  rcases Nat.le_total n data.length with within | beyond
  · rw [Nat.min_eq_left within, List.take_append_drop]
  · rw [Nat.min_eq_right beyond, List.take_of_length_le beyond, List.drop_length, List.append_nil]

/-- Behind a `shutdown` no call counts. -/
theorem Serving.behind_shutdown (serving : c.Serving calls pieces) (ended : .shutdown ∈ calls)
    (call : Call) : c.Serving (calls ++ [call]) pieces := by
  have still : .shutdown ∈ calls ++ [call] := List.mem_append_left _ ended
  have accepted : acceptedBy (calls ++ [call]) = acceptedBy calls := by
    rw [acceptedBy_append, if_pos ended, List.append_nil]
  refine ⟨?_, serving.channel, ?_, ?_⟩
  · rw [serving.state, if_pos ended, if_pos still]
  · rw [Carried, accepted]
    exact serving.carried
  · rw [serving.operations]
    simp [Drained, ended]

theorem send_serving (serving : c.Serving calls pieces) (message : Bytes) :
    ∃ c' pieces', c.send message = .ok c' ∧ c'.Serving (calls ++ [.send message]) pieces' ∧
      c'.context = c.context ∧ c.operations <+: c'.operations := by
  unfold send
  by_cases running : .shutdown ∈ calls
  · have state := serving.state
    rw [if_pos running] at state
    exact ⟨c, pieces, by rw [if_neg (by simp [state])], serving.behind_shutdown running _, rfl,
      List.prefix_rfl⟩
  obtain ⟨state, operations⟩ := serving.running running
  have writing := serving.isWriting
  rw [if_pos state, sendInLoop, if_neg (by simp [state])]
  by_cases empty : c.outputBuffer.readable = []
  · rw [if_pos ⟨by simp [writing, empty], (readableBytes_eq_zero _).mpr empty⟩, write]
    -- nothing waits, so that the message may be written at once
    cases result : c.socket.result c.writes with
    | wrote n =>
        have whole := serving.whole (by simp [result])
        obtain ⟨b, kept, view⟩ := keep_view (message.drop (min n message.length))
          (c := { c with writes := c.writes + 1 }.perform (.wrote (message.take n)))
          serving.channel
        dsimp only
        rw [check_true (by omega), ok_bind, kept]
        refine ⟨_, pieces ++ [message.take n], rfl, serving_of_sent running state rfl ?_ ?_, rfl,
          List.prefix_append _ _⟩
        · left
          rw [acceptedBy_sent running, ← whole]
          simp only [view, perform, empty, List.flatten_append, List.flatten_singleton,
            List.append_assoc, List.nil_append, take_append_drop_min]
        · rw [← operationsOf_wrote, ← operations]
          rfl
    | broken =>
        refine ⟨_, pieces, rfl, serving_of_sent running state serving.channel ?_ operations, rfl,
          List.prefix_rfl⟩
        have part : pieces.flatten <+: acceptedBy calls := serving.written_prefix
        rw [Carried, acceptedBy_sent running]
        exact .inr ⟨⟨c.writes, Nat.lt_succ_self _, result⟩, part.trans (List.prefix_append _ _)⟩
    | wouldBlock | otherError =>
        obtain ⟨b, kept, view⟩ := keep_view message (c := { c with writes := c.writes + 1 })
          serving.channel
        dsimp only
        rw [kept]
        exact ⟨_, pieces, rfl, serving_of_sent running state rfl
          (serving.carried_waiting running rfl (Nat.le_succ _) view) operations, rfl,
          List.prefix_rfl⟩
  · have busy : ¬ (c.isWriting = false ∧ c.outputBuffer.readableBytes = 0) := by
      rw [readableBytes_eq_zero]
      exact fun both => empty both.2
    obtain ⟨b, kept, view⟩ := keep_view message serving.channel
    rw [if_neg busy, kept]
    exact ⟨_, pieces, rfl, serving_of_sent running state rfl
      (serving.carried_waiting running rfl (Nat.le_refl _) view) operations, rfl,
      List.prefix_rfl⟩

theorem shutdown_serving (serving : c.Serving calls pieces) :
    c.shutdown.Serving (calls ++ [.shutdown]) pieces ∧ c.shutdown.context = c.context ∧
      c.operations <+: c.shutdown.operations := by
  unfold shutdown
  by_cases running : .shutdown ∈ calls
  · have state := serving.state
    rw [if_pos running] at state
    rw [if_neg (by simp [state])]
    exact ⟨serving.behind_shutdown running _, rfl, List.prefix_rfl⟩
  obtain ⟨state, operations⟩ := serving.running running
  have still : .shutdown ∈ calls ++ [.shutdown] := by simp
  have accepted : acceptedBy (calls ++ [.shutdown]) = acceptedBy calls := by
    rw [acceptedBy_append, if_neg running]
    simp [acceptedBy]
  have carried : c.Carried (calls ++ [.shutdown]) pieces := by
    rw [Carried, accepted]
    exact serving.carried
  have writing : { c with state := .kDisconnecting }.isWriting =
    decide (c.outputBuffer.readable ≠ []) := serving.isWriting
  rw [if_pos state, shutdownInLoop, writing]
  by_cases empty : c.outputBuffer.readable = []
  · -- nothing waits: the sending side is closed at once
    rw [if_neg (by simp [empty])]
    have drained : c.Drained (calls ++ [.shutdown]) := ⟨still, empty⟩
    refine ⟨⟨(if_pos still).symm, serving.channel, carried, ?_⟩, rfl,
      List.prefix_append _ _⟩
    have same : c.operations ++ [.shutdownWrite] =
        operationsOf pieces (decide (c.Drained (calls ++ [.shutdown]))) := by
      rw [operations, operationsOf_ended, decide_eq_true drained]
    exact same
  · rw [if_pos (by simp [empty])]
    have drained : ¬ c.Drained (calls ++ [.shutdown]) := fun drained => empty drained.2
    refine ⟨⟨(if_pos still).symm, serving.channel, carried, ?_⟩, rfl, List.prefix_rfl⟩
    have same : c.operations =
        operationsOf pieces (decide (c.Drained (calls ++ [.shutdown]))) := by
      rw [operations, decide_eq_false drained]
    exact same

/-- The calls of a message callback never fail. -/
theorem makeCalls_serving (made : List Call) (serving : c.Serving calls pieces) :
    ∃ c' pieces', c.makeCalls made = .ok c' ∧ c'.Serving (calls ++ made) pieces' ∧
      c'.context = c.context ∧ c.operations <+: c'.operations := by
  induction made generalizing c calls pieces with
  | nil => exact ⟨c, pieces, rfl, by rwa [List.append_nil], rfl, List.prefix_rfl⟩
  | cons call made inductionHypothesis =>
      rw [List.append_cons]
      cases call with
      | send message =>
          obtain ⟨c₁, pieces₁, sent, serving₁, same₁, grown₁⟩ := send_serving serving message
          obtain ⟨c₂, pieces₂, further, serving₂, same₂, grown₂⟩ := inductionHypothesis serving₁
          refine ⟨c₂, pieces₂, ?_, serving₂, same₂.trans same₁, grown₁.trans grown₂⟩
          rw [makeCalls, sent, ok_bind, further]
      | shutdown =>
          obtain ⟨serving₁, same₁, grown₁⟩ := shutdown_serving serving
          obtain ⟨c₂, pieces₂, further, serving₂, same₂, grown₂⟩ := inductionHypothesis serving₁
          exact ⟨c₂, pieces₂, further, serving₂, same₂.trans same₁, grown₁.trans grown₂⟩

/-! ### Events -/

theorem handleClose_serving (serving : c.Serving calls pieces) :
    ∃ c', c.handleClose = .ok c' ∧ c'.Ended calls pieces ∧ c'.context = c.context ∧
      c.operations <+: c'.operations := by
  have up : c.state = .kConnected ∨ c.state = .kDisconnecting := by
    rw [serving.state]
    by_cases ended : .shutdown ∈ calls <;> simp [ended]
  have deaf : c.channel.disableAll = .ok .deaf := by
    rw [serving.channel, Channel.disableAll_listening]
  rw [handleClose, check_true up, ok_bind, deaf, ok_bind]
  refine ⟨_, rfl, ⟨rfl, rfl, serving.carried, ?_⟩, rfl, ?_⟩
  · simp only [perform, List.append_assoc, List.cons_append, List.nil_append, serving.operations]
    rfl
  · simp only [perform, List.append_assoc, List.prefix_append]

/-- What is left waits; the sending side is closed when nothing does. -/
theorem written_view (n : Nat) (inside : n ≤ c.outputBuffer.readable.length)
    (channel : c.channel = .listening true) :
    ∃ b, c.written n = .ok { c with
        outputBuffer := b
        channel := .listening (decide (b.readable ≠ []))
        operations := c.operations ++
          if c.state = .kDisconnecting ∧ b.readable = [] then [.shutdownWrite] else [] } ∧
      b.readable = c.outputBuffer.readable.drop n := by
  obtain ⟨b, retrieved, view⟩ := c.outputBuffer.retrieve_view n inside
  refine ⟨b, ?_, view⟩
  unfold written
  rw [retrieved, ok_bind]
  by_cases empty : b.readable = []
  · rw [if_pos ((readableBytes_eq_zero b).mpr empty), channel, Channel.disableWriting_listening,
      ok_bind]
    by_cases ending : c.state = .kDisconnecting
    · simp [ending, empty, shutdownInLoop, isWriting, Channel.listening, perform]
      rfl
    · simp [ending, empty]
      rfl
  · rw [if_neg (fun none => empty ((readableBytes_eq_zero b).mp none))]
    simp [empty, ← channel]
    rfl

theorem Serving.ending (serving : c.Serving calls pieces) :
    c.state = .kDisconnecting ↔ .shutdown ∈ calls := by
  rw [serving.state]
  by_cases ended : .shutdown ∈ calls <;> simp [ended]

/-- Put together what a connection is when the socket took some of what waited. -/
theorem Serving.taken (serving : c.Serving calls pieces) {data rest : Bytes}
    {c' : TcpConnection γ} (state : c'.state = c.state)
    (channel : c'.channel = .listening (decide (c'.outputBuffer.readable ≠ [])))
    (whole : pieces.flatten ++ (data ++ rest) = acceptedBy calls)
    (waiting : c'.outputBuffer.readable = rest)
    (operations : c'.operations = operationsOf pieces false ++ [.wrote data] ++
      if c.state = .kDisconnecting ∧ rest = [] then [.shutdownWrite] else []) :
    c'.Serving calls (pieces ++ [data]) := by
  refine ⟨by rw [state, serving.state], channel, ?_, ?_⟩
  · left
    rw [waiting, List.flatten_append, List.flatten_singleton, List.append_assoc, whole]
  · have same : c'.Drained calls ↔ c.state = .kDisconnecting ∧ rest = [] := by
      rw [Drained, waiting, serving.ending]
    rw [operations, operationsOf_wrote]
    by_cases drained : c.state = .kDisconnecting ∧ rest = []
    · rw [if_pos drained, decide_eq_true (same.mpr drained), operationsOf_ended]
    · rw [if_neg drained, decide_eq_false (mt same.mp drained), List.append_nil]

theorem handleWrite_serving (serving : c.Serving calls pieces) :
    ∃ c' pieces', c.handleWrite = .ok c' ∧ c'.Serving calls pieces' ∧
      c'.context = c.context ∧ c.operations <+: c'.operations := by
  unfold handleWrite
  by_cases empty : c.outputBuffer.readable = []
  · rw [if_neg (by simp [serving.isWriting, empty])]
    exact ⟨c, pieces, rfl, serving, rfl, List.prefix_rfl⟩
  rw [if_pos (by simp [serving.isWriting, empty]), write]
  have channel : c.channel = .listening true := by rw [serving.channel, decide_eq_true empty]
  cases result : c.socket.result c.writes with
  | wrote n =>
      have operations : c.operations = operationsOf pieces false := by
        rw [serving.operations, decide_eq_false fun drained : c.Drained calls => empty drained.2]
      have whole := serving.whole (by simp [result])
      rw [← take_append_drop_min n c.outputBuffer.readable] at whole
      have inside : min n c.outputBuffer.readable.length ≤ c.outputBuffer.readable.length :=
        Nat.min_le_right _ _
      dsimp only
      cases count : min n c.outputBuffer.readable.length with
      | zero =>
          -- nothing was taken
          rw [count] at whole
          refine ⟨_, _, rfl, serving.taken rfl ?_ whole rfl ?_, rfl, List.prefix_append _ _⟩
          · exact serving.channel
          · rw [List.drop_zero, if_neg fun both => empty both.2, List.append_nil, ← operations]
            rfl
      | succ k =>
          dsimp only
          rw [count] at whole inside
          obtain ⟨b, taken, view⟩ := written_view (k + 1)
            (c := { c with writes := c.writes + 1 }.perform
              (.wrote (c.outputBuffer.readable.take n))) inside channel
          rw [taken]
          have rest : b.readable = c.outputBuffer.readable.drop (k + 1) := view
          refine ⟨_, _, rfl, serving.taken rfl rfl whole rest ?_, rfl, ?_⟩
          · rw [← operations, ← rest]
            rfl
          · rw [perform, List.append_assoc]
            exact List.prefix_append _ _
  | wouldBlock | otherError | broken =>
      have carried : { c with writes := c.writes + 1 }.Carried calls pieces := by
        rcases serving.carried with whole | ⟨⟨k, earlier, broken⟩, part⟩
        · exact .inl whole
        · exact .inr ⟨⟨k, Nat.lt_succ_of_lt earlier, broken⟩, part⟩
      exact ⟨_, pieces, rfl, ⟨serving.state, serving.channel, carried,
        serving.operations⟩, rfl, List.prefix_rfl⟩

theorem handleWrite_deaf (channel : c.channel = .deaf) : c.handleWrite = .ok c := by
  unfold handleWrite isWriting
  rw [channel]
  rfl

theorem send_ended (state : c.state = .kDisconnected) (message : Bytes) :
    c.send message = .ok c := by
  rw [send, if_neg (by simp [state])]

theorem shutdown_ended (state : c.state = .kDisconnected) : c.shutdown = c := by
  rw [shutdown, if_neg (by simp [state])]

theorem makeCalls_ended (state : c.state = .kDisconnected) (made : List Call) :
    c.makeCalls made = .ok c := by
  induction made with
  | nil => rfl
  | cons call made inductionHypothesis =>
      cases call with
      | send message => rw [makeCalls, send_ended state, ok_bind, inductionHypothesis]
      | shutdown => rw [makeCalls, shutdown_ended state, inductionHypothesis]

section Events

variable {onMessage : MessageCallback γ} {codec : γ} {reads : List Bytes}

theorem onMessage_ok {context : γ} {data : Bytes}
    (known : callsBy onMessage codec reads = .ok (context, calls))
    (answers : ∃ made, callsBy onMessage codec (reads ++ [data]) = .ok made) :
    ∃ made, onMessage context data = .ok made ∧
      callsBy onMessage codec (reads ++ [data]) = .ok (made.1, calls ++ made.2) := by
  obtain ⟨made, later⟩ := answers
  rw [callsBy_snoc onMessage data known] at later ⊢
  cases handled : onMessage context data with
  | error fault =>
      rw [handled] at later
      cases later
  | ok made => exact ⟨made, rfl, rfl⟩

theorem onMessage_error {context : γ} {data : Bytes} {fault : Fault}
    (known : callsBy onMessage codec reads = .ok (context, calls))
    (fails : callsBy onMessage codec (reads ++ [data]) = .error fault) :
    onMessage context data = .error fault := by
  rw [callsBy_snoc onMessage data known] at fails
  cases handled : onMessage context data with
  | error fault' =>
      rw [handled] at fails
      cases fails
      rfl
  | ok made =>
      rw [handled] at fails
      cases fails

theorem handleRead_serving (serving : c.Serving calls pieces)
    (known : callsBy onMessage codec reads = .ok (c.context, calls)) {first : UInt8}
    {rest : Bytes}
    (answers : ∃ made, callsBy onMessage codec (reads ++ [first :: rest]) = .ok made) :
    ∃ c' calls' pieces', c.handleRead onMessage (.data first rest) = .ok c' ∧
      c'.Serving calls' pieces' ∧ c.operations <+: c'.operations ∧
      callsBy onMessage codec (reads ++ [first :: rest]) = .ok (c'.context, calls') := by
  obtain ⟨⟨context, made⟩, handled, later⟩ := onMessage_ok known answers
  have given : { c with context := context }.Serving calls pieces :=
    ⟨serving.state, serving.channel, serving.carried, serving.operations⟩
  obtain ⟨c', pieces', run, serving', same, grown⟩ := makeCalls_serving made given
  refine ⟨c', _, pieces', ?_, serving', grown, ?_⟩
  · rw [handleRead, handled, ok_bind]
    exact run
  · rw [later, same]

theorem handleWrite_behind {down : Bool} (behind : c.Behind onMessage codec reads down) :
    ∃ c', c.handleWrite = .ok c' ∧ c.operations <+: c'.operations ∧
      c'.Behind onMessage codec reads down := by
  obtain ⟨context, calls, pieces, known, now⟩ := behind
  cases down with
  | false =>
      obtain ⟨serving, same⟩ := now
      obtain ⟨c', pieces', run, serving', same', grown⟩ := handleWrite_serving serving
      exact ⟨c', run, grown, context, calls, pieces', known, serving', same'.trans same⟩
  | true =>
      exact ⟨c, handleWrite_deaf (Ended.channel now), List.prefix_rfl, context, calls, pieces,
        known, now⟩

variable {revents : Revents} {result : ReadResult}

/-- A hang-up with nothing to read, and then the urgent data if there are any. -/
theorem handleRead_hungUp (behind : c.Behind onMessage codec reads false)
    (answers : ∀ data ∈ revents.given result,
      ∃ made, callsBy onMessage codec (reads ++ [data]) = .ok made)
    (quiet : revents.pollrdhup = false) (once : revents.closesTwice result = false)
    (hup : revents.pollhup = true) (noin : revents.pollin = false) :
    ∃ c₁ c₂, c.whenHungUp revents = .ok c₁ ∧ c₁.whenReadable onMessage revents result = .ok c₂ ∧
      c.operations <+: c₂.operations ∧ c₂.Behind onMessage codec reads true := by
  obtain ⟨context, calls, pieces, known, serving, same⟩ := behind
  subst same
  obtain ⟨c₁, closed, ended, context₁, grown⟩ := handleClose_serving serving
  have down : ∀ context', { c₁ with context := context' }.Behind onMessage codec reads true :=
    fun context' =>
      ⟨_, calls, pieces, known, ended.state, ended.channel, ended.carried, ended.operations⟩
  have first : c.whenHungUp revents = .ok c₁ := by
    rw [whenHungUp, if_pos (by simp [hup, noin]), closed]
  by_cases urgent : revents.pollpri = true
  · have reading : ∀ last, c₁.handleRead onMessage result = .ok last →
        c₁.whenReadable onMessage revents result = .ok last := fun last read => by
      rw [whenReadable, if_pos (by simp [urgent]), read]
    rw [← context₁] at known
    cases result with
    | data byte rest =>
        -- the callback is called, and what it does with the connection is ignored
        obtain ⟨⟨context', made⟩, handled, -⟩ :=
          onMessage_ok known (answers (byte :: rest) (by simp [Revents.given, urgent]))
        refine ⟨c₁, _, first, reading { c₁ with context := context' } ?_, grown, down context'⟩
        rw [handleRead, handled, ok_bind]
        exact makeCalls_ended (c := { c₁ with context := context' }) ended.state made
    | endOfFile => simp [Revents.closesTwice, hup, noin, urgent] at once
    | failed => exact ⟨c₁, c₁, first, reading c₁ rfl, grown, down c₁.context⟩
  · refine ⟨c₁, c₁, first, ?_, grown, down c₁.context⟩
    rw [whenReadable, if_neg (by simp [noin, urgent, quiet])]

theorem handleRead_up (behind : c.Behind onMessage codec reads false)
    (answers : ∀ data ∈ revents.given result,
      ∃ made, callsBy onMessage codec (reads ++ [data]) = .ok made)
    (reading : (revents.pollin || revents.pollpri) = true) :
    ∃ c', c.handleRead onMessage result = .ok c' ∧ c.operations <+: c'.operations ∧
      c'.Behind onMessage codec (reads ++ revents.given result) (result == .endOfFile) := by
  obtain ⟨context, calls, pieces, known, serving, same⟩ := behind
  subst same
  cases result with
  | data byte rest =>
      have given : revents.given (.data byte rest) = [byte :: rest] := by
        simp [Revents.given, reading]
      obtain ⟨c', calls', pieces', handled, serving', grown, later⟩ :=
        handleRead_serving serving known (answers (byte :: rest) (by simp [given]))
      exact ⟨c', handled, grown, _, calls', pieces', by rw [given, later], serving', rfl⟩
  | endOfFile =>
      obtain ⟨c₁, closed, ended, -, grown⟩ := handleClose_serving serving
      exact ⟨c₁, closed, grown, _, calls, pieces, by rw [Revents.given, List.append_nil, known],
        ended⟩
  | failed =>
      exact ⟨c, rfl, List.prefix_rfl, _, calls, pieces,
        by rw [Revents.given, List.append_nil, known], serving, rfl⟩

/-- The first half of `handleEventWithGuard`: the hang-up, and the read. -/
theorem handleRead_behind (behind : c.Behind onMessage codec reads false)
    (answers : ∀ data ∈ revents.given result,
      ∃ made, callsBy onMessage codec (reads ++ [data]) = .ok made)
    (quiet : revents.pollrdhup = false) (once : revents.closesTwice result = false) :
    ∃ c₁ c₂, c.whenHungUp revents = .ok c₁ ∧ c₁.whenReadable onMessage revents result = .ok c₂ ∧
      c.operations <+: c₂.operations ∧
      c₂.Behind onMessage codec (reads ++ revents.reads result) (revents.closes result) := by
  by_cases hangup : revents.pollhup = true ∧ revents.pollin = false
  · obtain ⟨hup, noin⟩ := hangup
    have unread : revents.reads result = [] := by
      cases result <;> simp [Revents.reads, hup, noin]
    have closes : revents.closes result = true := by simp [Revents.closes, hup, noin]
    rw [unread, closes, List.append_nil]
    exact handleRead_hungUp behind answers quiet once hup noin
  · have stays : (revents.pollhup && !revents.pollin) = false := by
      cases hup : revents.pollhup <;> simp_all
    have first : c.whenHungUp revents = .ok c := by
      rw [whenHungUp, if_neg (by simp [stays])]
    have given : revents.reads result = revents.given result := by
      cases hup : revents.pollhup <;> cases result <;> simp_all [Revents.reads, Revents.given]
    rw [given]
    by_cases reading : (revents.pollin || revents.pollpri) = true
    · have closes : revents.closes result = (result == .endOfFile) := by
        rw [Revents.closes, stays, reading, Bool.false_or, Bool.true_and]
      obtain ⟨c', read, grown, behind'⟩ := handleRead_up behind answers reading
      refine ⟨c, c', first, ?_, grown, by rwa [closes]⟩
      rw [whenReadable, if_pos (by simp [reading]), read]
    · have none : revents.given result = [] := by
        cases result <;> simp_all [Revents.given]
      have closes : revents.closes result = false := by simp [Revents.closes, stays, reading]
      refine ⟨c, c, first, ?_, List.prefix_rfl, by rwa [none, closes, List.append_nil]⟩
      rw [whenReadable, if_neg (by simp [reading, quiet])]

/-- An event that does not take a connection down twice takes it down or keeps it in
step with its callback. -/
theorem handleEvent_behind (behind : c.Behind onMessage codec reads false)
    (answers : ∀ data ∈ revents.given result,
      ∃ made, callsBy onMessage codec (reads ++ [data]) = .ok made)
    (quiet : revents.pollrdhup = false) (once : revents.closesTwice result = false) :
    ∃ c', c.handleEvent onMessage revents result = .ok c' ∧ c.operations <+: c'.operations ∧
      c'.Behind onMessage codec (reads ++ revents.reads result) (revents.closes result) := by
  obtain ⟨c₁, c₂, first, second, grown, behind⟩ := handleRead_behind behind answers quiet once
  rw [handleEvent, first, ok_bind, second, ok_bind, whenWritable]
  by_cases writable : revents.pollout = true
  · obtain ⟨c₃, third, grown₃, behind⟩ := handleWrite_behind behind
    exact ⟨c₃, by rw [if_pos writable, third], grown.trans grown₃, behind⟩
  · exact ⟨c₂, by rw [if_neg writable], grown, behind⟩

/-- What the callback does not handle ends the process. -/
theorem handleEvent_fault (behind : c.Behind onMessage codec reads false) {data : Bytes}
    (given : data ∈ revents.given result) {fault : Fault}
    (fails : callsBy onMessage codec (reads ++ [data]) = .error fault) :
    c.handleEvent onMessage revents result = .error fault := by
  obtain ⟨context, calls, pieces, known, serving, same⟩ := behind
  have unhandled : onMessage c.context data = .error fault := by
    rw [same]
    exact onMessage_error known fails
  have hungUp : ∃ c₁, c.whenHungUp revents = .ok c₁ ∧ c₁.context = c.context := by
    obtain ⟨c₁, closed, -, context₁, -⟩ := handleClose_serving serving
    rw [whenHungUp]
    split
    · exact ⟨c₁, closed, context₁⟩
    · exact ⟨c, rfl, rfl⟩
  obtain ⟨c₁, first, context₁⟩ := hungUp
  cases result with
  | data byte rest =>
      by_cases reading : (revents.pollin || revents.pollpri) = true
      · simp only [Revents.given, if_pos reading, List.mem_singleton] at given
        rw [handleEvent, first, ok_bind, whenReadable, if_pos (by simp [reading]), handleRead,
          context₁, ← given, unhandled]
        rfl
      · simp [Revents.given, reading] at given
  | endOfFile => cases given
  | failed => cases given

/-- The second `handleClose` of one event finds the connection down. -/
theorem handleEvent_twice (behind : c.Behind onMessage codec reads false)
    (twice : revents.closesTwice result = true) :
    c.handleEvent onMessage revents result =
      .error (.assertion "state_ == kConnected || state_ == kDisconnecting") := by
  obtain ⟨context, calls, pieces, -, serving, -⟩ := behind
  obtain ⟨c₁, closed, ended, -⟩ := handleClose_serving serving
  simp only [Revents.closesTwice, Bool.and_eq_true, Bool.not_eq_true', beq_iff_eq] at twice
  obtain ⟨⟨⟨hup, noin⟩, urgent⟩, rfl⟩ := twice
  have again : c₁.handleClose =
      .error (.assertion "state_ == kConnected || state_ == kDisconnecting") := by
    rw [handleClose, check, if_neg (by simp [ended.state])]
    rfl
  rw [handleEvent, whenHungUp, if_pos (by simp [hup, noin]), closed, ok_bind, whenReadable,
    if_pos (by simp [urgent]), handleRead, again]
  rfl

end Events

end TcpConnection

end Muduo

end FastCgi
