/-
Module: FastCgi.Proofs.RecordStream
Layer: Proofs
Purpose: The record loop as a map on streams.  `parseRequest` and
  `parseFcgiPackage` consume whole records only, leave what follows the last of
  them, and do not see where their input was cut.
Trusted boundary: none
Main exports: appendAndRun_view, recordLoops_homomorphic
-/
import FastCgi.Proofs.ServerRefinement

namespace FastCgi

/-- Appending and running is receiving, from every state. -/
theorem appendAndRun_view (c : FastCgiCodec) (data : Bytes) :
    ∃ c', appendAndRun FastCgiCodec.parseRecords c data =
        .ok (c', c.request.events (c.view.records data)) ∧
      c'.view = c.view.receive data := by
  obtain ⟨buf, appended, joined⟩ := c.buf.append_view data
  obtain ⟨c', parsed, received⟩ := parseRecords_joined joined
  exact ⟨c', by simp only [appendAndRun, appended, ok_bind, parsed], received⟩

/-- Receiving consumes the records at the front of the stream. -/
theorem consumes_of_receive {c c' : FastCgiCodec} {data : Bytes}
    (received : c'.view = c.view.receive data) :
    Consumes c.request (c.buf.readable ++ data)
      (c', c.request.events (c.view.records data)) := by
  have pending : c'.buf.readable = (recordFraming.drain (c.buf.readable ++ data)).2 :=
    congrArg View.pending received
  refine ⟨c.view.records data, longestRecords_drain _, ?_, congrArg View.request received, rfl⟩
  rw [pending]
  exact (recordFraming.drain_flatMap recordFraming_inverts (c.buf.readable ++ data)).symm

/-- The loop both servers share, on one input and on two. -/
theorem parseRecords_homomorphic : StreamHomomorphism FastCgiCodec.parseRecords where
  consumes := by
    intro c data
    obtain ⟨c', ran, received⟩ := appendAndRun_view c data
    exact ⟨_, ran, consumes_of_receive received⟩
  appends := by
    intro c a b
    obtain ⟨first, ranFirst, receivedFirst⟩ := appendAndRun_view c a
    obtain ⟨second, ranSecond, receivedSecond⟩ := appendAndRun_view first b
    obtain ⟨whole, ranWhole, receivedWhole⟩ := appendAndRun_view c (a ++ b)
    refine ⟨_, _, _, ranFirst, ranSecond, ranWhole, ?_, ?_⟩
    · rw [receivedSecond, receivedFirst, receivedWhole, View.receive_append]
    · -- the second run starts from the request the first one left
      have request : first.request = c.request.handleAll (c.view.records a) :=
        congrArg View.request receivedFirst
      simp only [request, receivedFirst, View.records_append, RequestState.events_append]

/-- mucgi's `parseRequest` and cocgi's `parseFcgiPackage`, from every state of
the codec and for every input. -/
theorem recordLoops_homomorphic :
    StreamHomomorphism Mucgi.parseRequest ∧ StreamHomomorphism Cocgi.parseFcgiPackage :=
  ⟨parseRecords_homomorphic, parseRecords_homomorphic⟩

end FastCgi
