/-
Module: FastCgi.Proofs.CodecRefinement
Layer: Proofs
Purpose: The record loop refines the record semantics on byte strings: it cuts
  the input buffer as `nextRecord` cuts its readable bytes, each handler acts
  on the request state as `RequestState.handle` does and answers as
  `RequestState.event` does, and no step fails.
Trusted boundary: none
Main exports: handleRecord_view, parseRecords_view, clearRequest_request
-/
import FastCgi.Proofs.ParamsRefinement
import FastCgi.Spec.Requests

namespace FastCgi

open Library (Turn runLoop runLoop_total assignAll)

/-! ### The header -/

/-- The header that stands in front of a record. -/
def Record.header (r : Record) : RecordHeader where
  version := r.version
  type := r.type
  id := ntoh16 (loadUInt16 r.requestIdB1 r.requestIdB0)
  length := UInt16.ofNat r.contentData.length
  padding := UInt8.ofNat r.paddingData.length
  unused := r.reserved

theorem Record.header_length (r : Record) :
    r.header.length.toNat = r.contentData.length := by
  rw [Record.header, UInt16.toNat_ofNat', Nat.mod_eq_of_lt r.content_fits]

theorem Record.header_padding (r : Record) :
    r.header.padding.toNat = r.paddingData.length := byte_toNat r.padding_fits

theorem Record.header_length_pos_iff (r : Record) :
    0 < r.header.length ↔ r.contentData ≠ [] := by
  rw [UInt16.lt_iff_toNat_lt, r.header_length, UInt16.toNat_zero, List.length_pos_iff]

theorem Record.header_length_eq_zero_iff (r : Record) :
    r.header.length = 0 ↔ r.contentData = [] := by
  rw [← UInt16.toNat_inj, r.header_length, UInt16.toNat_zero, List.length_eq_zero_iff]

/-- Eight readable bytes are read as a header. -/
theorem readHeader_of_bytes {buf : Buffer}
    {version type id0 id1 length0 length1 padding unused : UInt8} {rest : Bytes}
    (view : buf.readable =
      version :: type :: id0 :: id1 :: length0 :: length1 :: padding :: unused :: rest) :
    readHeader buf = .ok
      { version := version
        type := type
        id := ntoh16 (loadUInt16 id0 id1)
        length := ntoh16 (loadUInt16 length0 length1)
        padding := padding
        unused := unused } := by
  have inside : 0 + kRecordHeader ≤ buf.readable.length := by
    rw [view]
    simp only [kRecordHeader, List.length_cons]
    omega
  unfold readHeader
  rw [buf.bytesAt_eq 0 kRecordHeader inside, view]
  rfl

/-- In front of a complete record stands its header. -/
theorem readHeader_of_record {buf : Buffer} {r : Record} {rest : Bytes}
    (view : buf.readable = r.encode ++ rest) : readHeader buf = .ok r.header := by
  simp only [Record.encode, List.cons_append] at view
  rw [readHeader_of_bytes view]
  have length : ntoh16 (loadUInt16 (UInt8.ofNat (r.contentData.length / 2 ^ 8))
      (UInt8.ofNat (r.contentData.length % 2 ^ 8))) = UInt16.ofNat r.contentData.length := by
    rw [← UInt16.toNat_inj, ntoh16_loadUInt16, contentLength_decode r.content_fits,
      UInt16.toNat_ofNat', Nat.mod_eq_of_lt r.content_fits]
  rw [length]
  rfl

/-- Looking at a slice of a complete record's content. -/
theorem bytesAt_content {buf : Buffer} {r : Record} {rest : Bytes}
    (view : buf.readable = r.encode ++ rest) (offset len : Nat)
    (inside : offset + len ≤ r.contentData.length) :
    buf.bytesAt (kRecordHeader + offset) len = .ok ((r.contentData.drop offset).take len) := by
  have size : kRecordHeader + offset + len ≤ buf.readable.length := by
    rw [view, List.length_append, r.length_encode]
    unfold kRecordHeader
    omega
  have tail : buf.readable.drop kRecordHeader = r.contentData ++ (r.paddingData ++ rest) := by
    rw [view, ← List.append_assoc]
    rfl
  rw [buf.bytesAt_eq _ _ size, ← List.drop_drop, tail,
    List.drop_append_of_le_length (by omega),
    List.take_append_of_le_length (by rw [List.length_drop]; omega)]

/-- Looking at the whole content. -/
theorem bytesAt_wholeContent {buf : Buffer} {r : Record} {rest : Bytes}
    (view : buf.readable = r.encode ++ rest) :
    buf.bytesAt kRecordHeader r.header.length.toNat = .ok r.contentData := by
  have whole := bytesAt_content view 0 r.contentData.length (by omega)
  simpa [r.header_length] using whole

/-! ### The three handlers -/

/-- The two role bytes are read as the responder's number exactly when they
are zero and one. -/
theorem role_eq_responder_iff (b0 b1 : UInt8) :
    ntoh16 (loadUInt16 b0 b1) = FcgiRole.kFcgiResponder.code ↔ b0 = 0 ∧ b1 = 1 := by
  have code : FcgiRole.kFcgiResponder.code.toNat = 1 := rfl
  have bound := b1.toNat_lt
  rw [← UInt16.toNat_inj, ntoh16_loadUInt16, code, ← UInt8.toNat_inj, ← UInt8.toNat_inj,
    UInt8.toNat_zero, UInt8.toNat_one]
  omega

theorem onBeginRequest_view {c : FastCgiCodec} {r : Record} {rest : Bytes}
    (view : c.buf.readable = r.encode ++ rest)
    (type : r.type = FcgiType.kFcgiBeginRequest.code) :
    ∃ c', c.onBeginRequest r.header = .ok (r.acceptsBegin, c') ∧ c'.buf = c.buf ∧
      c'.request = if r.acceptsBegin then
        { c.request with keepConn := r.beginFlags = kFcgiKeepConn } else c.request := by
  have received : r.header.length.toNat ≤ c.buf.readableBytes := by
    rw [← Buffer.length_readable, view, List.length_append, r.length_encode, r.header_length]
    omega
  unfold FastCgiCodec.onBeginRequest
  simp only [check_true received, ok_bind, check_true (show r.header.type = _ from type)]
  by_cases long : 8 ≤ r.contentData.length
  · -- the role and the flags lie inside the content
    obtain ⟨b0, b1, role⟩ : ∃ b0 b1, r.contentData.take 2 = [b0, b1] :=
      List.length_eq_two.mp (by rw [List.length_take]; omega)
    obtain ⟨flags, flag⟩ : ∃ flags, (r.contentData.drop 2).take 1 = [flags] :=
      List.length_eq_one_iff.mp (by rw [List.length_take, List.length_drop]; omega)
    have roleBytes : c.buf.bytesAt kRecordHeader 2 = .ok [b0, b1] := by
      rw [← role]
      exact bytesAt_content view 0 2 (by omega)
    have flagsByte : c.buf.bytesAt (kRecordHeader + 2) 1 = .ok [flags] := by
      rw [← flag]
      exact bytesAt_content view 2 1 (by omega)
    have first : r.beginFlags = flags := by
      cases tail : r.contentData.drop 2 with
      | nil => simp [tail] at flag
      | cons byte bytes => simpa [Record.beginFlags, tail] using flag
    have enough : kRecordHeader ≤ r.header.length.toNat := by rwa [r.header_length]
    simp only [if_pos enough, readInt16, byteAt, roleBytes, flagsByte, ok_bind]
    by_cases responder : b0 = 0 ∧ b1 = 1
    · have accepted : r.acceptsBegin = true := by simp [Record.acceptsBegin, long, role, responder]
      refine ⟨{ c with keepConn := flags = kFcgiKeepConn }, ?_, rfl, ?_⟩
      · rw [accepted]
        simp only [pure, Except.pure, ok_bind, if_pos ((role_eq_responder_iff b0 b1).mpr responder)]
      · rw [accepted, if_pos rfl, first]
        rfl
    · have refused : r.acceptsBegin = false := by simp [Record.acceptsBegin, role, responder]
      refine ⟨c, ?_, rfl, ?_⟩
      · rw [refused]
        simp only [pure, Except.pure, ok_bind,
          if_neg (mt (role_eq_responder_iff b0 b1).mp responder)]
      · rw [refused]
        rfl
  · have short : ¬ kRecordHeader ≤ r.header.length.toNat := by rwa [r.header_length]
    have refused : r.acceptsBegin = false := by simp [Record.acceptsBegin, long]
    rw [if_neg short, refused]
    exact ⟨c, rfl, rfl, rfl⟩

theorem onParams_view {c : FastCgiCodec} {r : Record} {rest : Bytes}
    (view : c.buf.readable = r.encode ++ rest) (type : FcgiType.ofCode r.type = some .kFcgiParams) :
    ∃ accepted c', c.onParams r.header.length = .ok (accepted, c') ∧
      .params (r.header.length = 0) accepted = c.request.event r ∧ c'.buf = c.buf ∧
      c'.request = c.request.handle r := by
  unfold FastCgiCodec.onParams
  by_cases empty : r.contentData = []
  · have none : ¬ 0 < r.header.length := by simp [r.header_length_pos_iff, empty]
    obtain ⟨stream', parsed, left⟩ := parseAllParams_view c.paramsStream c.params
    simp only [if_neg none, parsed, ok_bind]
    refine ⟨_, _, rfl, ?_, rfl, ?_⟩
    · simp only [RequestState.event, type, r.header_length_eq_zero_iff, empty, decide_true]
      rfl
    · simp [RequestState.handle, type, empty, FastCgiCodec.request, left]
  · have some : 0 < r.header.length := r.header_length_pos_iff.mpr empty
    obtain ⟨stream', appended, joined⟩ := c.paramsStream.append_view r.contentData
    simp only [if_pos some, bytesAt_wholeContent view, appended, ok_bind]
    refine ⟨_, _, rfl, ?_, rfl, ?_⟩
    · simp [RequestState.event, type, empty, r.header_length_eq_zero_iff]
    · simp [RequestState.handle, type, empty, FastCgiCodec.request, joined]

theorem onStdin_view {c : FastCgiCodec} {r : Record} {rest : Bytes}
    (view : c.buf.readable = r.encode ++ rest) (type : FcgiType.ofCode r.type = some .kFcgiStdin) :
    ∃ c', c.onStdin r.header.length = .ok c' ∧
      .stdin (r.header.length = 0) = c.request.event r ∧ c'.buf = c.buf ∧
      c'.request = c.request.handle r := by
  unfold FastCgiCodec.onStdin
  by_cases empty : r.contentData = []
  · have none : ¬ 0 < r.header.length := by simp [r.header_length_pos_iff, empty]
    simp only [if_neg none]
    refine ⟨_, rfl, ?_, rfl, ?_⟩
    · simp [RequestState.event, type, empty, r.header_length_eq_zero_iff]
    · simp [RequestState.handle, type, empty, FastCgiCodec.request]
  · have some : 0 < r.header.length := r.header_length_pos_iff.mpr empty
    obtain ⟨stdin', appended, joined⟩ := c.stdin.append_view r.contentData
    simp only [if_pos some, bytesAt_wholeContent view, appended, ok_bind]
    refine ⟨_, rfl, ?_, rfl, ?_⟩
    · simp [RequestState.event, type, empty, r.header_length_eq_zero_iff]
    · simp [RequestState.handle, type, empty, FastCgiCodec.request, joined]

/-- A chain of tests answers with its first test or with the rest of it. -/
theorem of_ite_eq_some {α : Type} {test : Prop} [Decidable test] {answer result : α}
    {rest : Option α} (found : (if test then some answer else rest) = some result) :
    (test ∧ answer = result) ∨ rest = some result := by
  by_cases holds : test
  · rw [if_pos holds] at found
    exact Or.inl ⟨holds, Option.some.inj found⟩
  · rw [if_neg holds] at found
    exact Or.inr found

/-- A type byte that is known is the value of its enumerator. -/
theorem FcgiType.code_of_ofCode {code : UInt8} {type : FcgiType}
    (known : FcgiType.ofCode code = some type) : code = type.code := by
  unfold FcgiType.ofCode at known
  iterate 11
    rcases of_ite_eq_some known with ⟨rfl, rfl⟩ | known
    · rfl
  cases known

/-- The switch acts on the request state as the record does, answers as the
record does, and leaves the input buffer to the loop. -/
theorem handleRecord_view {c : FastCgiCodec} {r : Record} {rest : Bytes}
    (view : c.buf.readable = r.encode ++ rest) :
    ∃ c', c.handleRecord r.header = .ok (c.request.event r, c') ∧ c'.buf = c.buf ∧
      c'.request = c.request.handle r := by
  have kind : FcgiType.ofCode r.header.type = FcgiType.ofCode r.type := rfl
  unfold FastCgiCodec.handleRecord
  rw [kind]
  -- three types have a handler; every other type falls through the switch
  have ignored (event : c.request.event r = .ignored) (handle : c.request.handle r = c.request) :
      ∃ c', (Except.ok (RecordEvent.ignored, c) : Except Fault _) =
        .ok (c.request.event r, c') ∧ c'.buf = c.buf ∧ c'.request = c.request.handle r :=
    ⟨c, by rw [event], rfl, handle.symm⟩
  cases type : FcgiType.ofCode r.type with
  | none => exact ignored (by rw [RequestState.event, type]) (by rw [RequestState.handle, type])
  | some known =>
      cases known with
      | kFcgiBeginRequest =>
          obtain ⟨c', began, same, request⟩ :=
            onBeginRequest_view view (FcgiType.code_of_ofCode type)
          refine ⟨c', ?_, same, ?_⟩
          · simp only [began, ok_bind, RequestState.event, type]
            rfl
          · simp only [request, RequestState.handle, type]
      | kFcgiParams =>
          obtain ⟨accepted, c', ran, event, same, request⟩ := onParams_view view type
          exact ⟨c', by simp only [ran, ok_bind, event]; rfl, same, request⟩
      | kFcgiStdin =>
          obtain ⟨c', ran, event, same, request⟩ := onStdin_view view type
          exact ⟨c', by simp only [ran, ok_bind, event]; rfl, same, request⟩
      | _ => exact ignored (by rw [RequestState.event, type]) (by rw [RequestState.handle, type])

/-! ### The record loop -/

/-- Without a complete record the loop ends. -/
theorem recordTurn_of_none {c : FastCgiCodec} {events : List RecordEvent}
    (waits : nextRecord c.buf.readable = none) :
    FastCgiCodec.recordTurn (c, events) = .ok (.leave (c, events)) := by
  unfold FastCgiCodec.recordTurn
  by_cases header : kRecordHeader ≤ c.buf.readableBytes
  · -- the header is there, so some of the content or padding is missing
    have long : 8 ≤ c.buf.readable.length := by rwa [Buffer.length_readable]
    obtain ⟨version, type, idB1, idB0, lengthB1, lengthB0, padding, reserved, rest, view⟩ :=
      header_of_length long
    have size : rest.length + 8 = c.buf.readableBytes := by
      rw [← Buffer.length_readable, view]
      simp only [List.length_cons]
    have missing : ¬ 2 ^ 8 * lengthB1.toNat + lengthB0.toNat + padding.toNat ≤ rest.length := by
      intro there
      rw [view] at waits
      simp only [nextRecord, if_pos there] at waits
      cases waits
    have incomplete : ¬ kRecordHeader + (ntoh16 (loadUInt16 lengthB1 lengthB0)).toNat +
        padding.toNat ≤ c.buf.readableBytes := by
      rw [ntoh16_loadUInt16, kRecordHeader]
      omega
    simp only [if_pos header, readHeader_of_bytes view, ok_bind, if_neg incomplete]
    rfl
  · simp only [if_neg header]
    rfl

/-- A complete record is handled and removed. -/
theorem recordTurn_of_some {c : FastCgiCodec} (events : List RecordEvent) {r : Record}
    {rest : Bytes} (cut : nextRecord c.buf.readable = some (r, rest)) :
    ∃ c', FastCgiCodec.recordTurn (c, events) =
        .ok (.again (c', events ++ [c.request.event r])) ∧
      c'.buf.readable = rest ∧ c'.request = c.request.handle r := by
  have view := nextRecord_eq_some_iff.mp cut
  have size : c.buf.readableBytes =
      8 + r.contentData.length + r.paddingData.length + rest.length := by
    rw [← Buffer.length_readable, view, List.length_append, r.length_encode]
  obtain ⟨c', handled, same, request⟩ := handleRecord_view view
  obtain ⟨buf', retrieved, left⟩ :=
    c.buf.retrieve_view r.encode.length (by rw [view, List.length_append]; omega)
  have total : kRecordHeader + r.header.length.toNat + r.header.padding.toNat =
      r.encode.length := by
    rw [r.header_length, r.header_padding, r.length_encode, kRecordHeader]
  have header : kRecordHeader ≤ c.buf.readableBytes := by rw [kRecordHeader]; omega
  have complete : r.encode.length ≤ c.buf.readableBytes := by rw [r.length_encode]; omega
  refine ⟨{ c' with buf := buf' }, ?_, by rw [left, view, List.drop_left], request⟩
  unfold FastCgiCodec.recordTurn
  simp only [if_pos header, readHeader_of_record view, ok_bind, total, if_pos complete, handled,
    same, retrieved]
  rfl

/-- The loop invariant: what is still to come completes what the whole buffer
holds from the start. -/
def RecordsToCome (start : FastCgiCodec) (state : FastCgiCodec × List RecordEvent) : Prop :=
  (recordFraming.drain state.1.buf.readable).2 = (recordFraming.drain start.buf.readable).2 ∧
    state.1.request.handleAll (recordFraming.drain state.1.buf.readable).1 =
      start.request.handleAll (recordFraming.drain start.buf.readable).1 ∧
    state.2 ++ state.1.request.events (recordFraming.drain state.1.buf.readable).1 =
      start.request.events (recordFraming.drain start.buf.readable).1

/-- The result of the loop. -/
def RecordsHandled (start : FastCgiCodec) (result : FastCgiCodec × List RecordEvent) : Prop :=
  result.1.buf.readable = (recordFraming.drain start.buf.readable).2 ∧
    result.1.request = start.request.handleAll (recordFraming.drain start.buf.readable).1 ∧
    result.2 = start.request.events (recordFraming.drain start.buf.readable).1

/-- Every turn either finishes or keeps the invariant on a shorter buffer. -/
theorem recordTurn_keeps {start : FastCgiCodec} (state : FastCgiCodec × List RecordEvent)
    (toCome : RecordsToCome start state) :
    (∃ result, FastCgiCodec.recordTurn state = .ok (.leave result) ∧
        RecordsHandled start result) ∨
      ∃ next, FastCgiCodec.recordTurn state = .ok (.again next) ∧ RecordsToCome start next ∧
        next.1.buf.readable.length < state.1.buf.readable.length := by
  obtain ⟨c, events⟩ := state
  obtain ⟨pending, request, answers⟩ := toCome
  simp only at pending request answers
  cases cut : nextRecord c.buf.readable with
  | some taken =>
      obtain ⟨r, rest⟩ := taken
      obtain ⟨c', turned, left, handled⟩ := recordTurn_of_some events cut
      subst left
      rw [recordFraming.drain_of_next_some cut] at pending request answers
      refine Or.inr ⟨_, turned, ⟨pending, ?_, ?_⟩, recordFraming.shrinks cut⟩
      · rw [← request, RequestState.handleAll_cons, handled]
      · rw [← answers, RequestState.events, handled, List.append_assoc, List.singleton_append]
  | none =>
      rw [recordFraming.drain_of_next_none cut] at pending request answers
      refine Or.inl ⟨_, recordTurn_of_none cut, pending, request, ?_⟩
      rw [← answers, RequestState.events, List.append_nil]

/-- The record loop ends without a fault, handles exactly the complete records
at the front of its buffer, in order, and leaves what follows them. -/
theorem parseRecords_view (c : FastCgiCodec) :
    ∃ c', c.parseRecords =
        .ok (c', c.request.events (recordFraming.drain c.buf.readable).1) ∧
      c'.buf.readable = (recordFraming.drain c.buf.readable).2 ∧
      c'.request = c.request.handleAll (recordFraming.drain c.buf.readable).1 := by
  have handled : ∃ result, c.parseRecords = .ok result ∧ RecordsHandled c result :=
    runLoop_total (RecordsToCome c) (fun state => state.1.buf.readable.length)
      (RecordsHandled c) recordTurn_keeps ⟨rfl, rfl, rfl⟩
      (by simp only [c.buf.length_readable]; omega)
  obtain ⟨⟨c', events⟩, ran, left, request, answers⟩ := handled
  simp only at left request answers
  exact ⟨c', by rw [ran, answers], left, request⟩

/-- After a hand-over only `keepConn` is left of the request. -/
@[simp] theorem clearRequest_request (c : FastCgiCodec) :
    c.clearRequest.request = .idle c.keepConn := by
  simp [FastCgiCodec.clearRequest, FastCgiCodec.request, RequestState.idle]

end FastCgi
