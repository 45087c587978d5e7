/-
Module: FastCgi.Proofs.FcgxRecords
Layer: Proofs
Purpose: The bytes that `FCGX_GetChar` gives, one after the other to the end, are
  the delivery of the records.
Trusted boundary: none
Main exports: Fcgx.Yields, Fcgx.AtRecord, Fcgx.yields_carries
-/
import FastCgi.Proofs.FcgxInput
import FastCgi.Spec.FcgxRequest

namespace FastCgi

namespace Fcgx

open Library (Turn runLoop Agrees)

/-- `FCGX_GetChar` gives these bytes and then no more. -/
inductive Yields : Cursor → Bytes → Cursor → Prop
  | ended {c c' : Cursor} (last : c.getChar Cursor.fill = .ok (none, c')) : Yields c [] c'
  | byte {c c' c'' : Cursor} {byte : UInt8} {bytes : Bytes}
      (next : c.getChar Cursor.fill = .ok (some byte, c')) (later : Yields c' bytes c'') :
      Yields c (byte :: bytes) c''

theorem getChar_running {c : Cursor} (running : c.isClosed = false) :
    c.getChar Cursor.fill =
      c.fill >>= fun c => if c.isClosed then .ok (none, c) else c.pop := by
  rw [Cursor.getChar, running, if_neg Bool.false_ne_true]
  rfl

theorem yields_of_closed {c c' : Cursor} (running : c.isClosed = false)
    (filled : c.fill = .ok c') (closed : c'.isClosed = true) : Yields c [] c' := by
  refine .ended ?_
  rw [getChar_running running, filled, ok_bind, if_pos closed]

/-- Two places from which `FillBuffProc` goes to the same. -/
theorem yields_of_fill_eq {c c' last : Cursor} {bytes : Bytes} (running : c.isClosed = false)
    (running' : c'.isClosed = false) (same : c.fill = c'.fill) (yields : Yields c' bytes last) :
    Yields c bytes last := by
  have chars : c.getChar Cursor.fill = c'.getChar Cursor.fill := by
    rw [getChar_running running, getChar_running running', same]
  cases yields with
  | ended none => exact .ended (chars.trans none)
  | byte next later => exact .byte (chars.trans next) later

/-- The content of a record. -/
theorem yields_content {m : Nat} {c last : Cursor} {bytes : Bytes} (running : c.isClosed = false)
    (skip : c.skip = false) (content : m ≤ c.content) (length : m ≤ c.rest.length)
    (yields : Yields { c with rest := c.rest.drop m, content := c.content - m } bytes last) :
    Yields c (c.rest.take m ++ bytes) last := by
  induction m generalizing c with
  | zero => exact yields
  | succ m inductionHypothesis =>
      have ready : c.Ready := ⟨by omega, skip, List.length_pos_iff.mp (by omega)⟩
      obtain ⟨byte, rest, shape, popped⟩ := Cursor.pop_ready ready
      have sub : c.content - 1 - m = c.content - (m + 1) := by omega
      have filled : c.fill = .ok c := Cursor.fillWith_ready _ ready
      rw [shape, List.take_succ_cons]
      have next : c.getChar Cursor.fill =
          .ok (some byte, { c with rest := rest, content := c.content - 1 }) := by
        rw [getChar_running running, filled, ok_bind, if_neg (Bool.eq_false_iff.mp running), popped]
      refine .byte next ?_
      · refine inductionHypothesis running skip (by simp only; omega)
          (by simp only [shape, List.length_cons] at length ⊢; omega) ?_
        simpa only [shape, List.drop_succ_cons, sub] using yields

/-! ### The next record -/

/-- Behind the content of a record. -/
theorem Cursor.approach_eq_atPadding {c : Cursor} (content : c.content = 0)
    (eorStop : c.eorStop = false) (padding : c.padding ≤ c.rest.length) :
    c.approach = c.atPadding := by
  by_cases empty : c.rest = []
  · have none : c.padding = 0 := by
      rw [empty, List.length_nil] at padding
      omega
    rw [Cursor.approach_eq_atHeader content none eorStop, Cursor.atPadding,
      Cursor.passPadding_none none, if_neg (by omega)]
  · rw [Cursor.approach, if_neg empty, Cursor.atContent_none content]

theorem length_recordHeader (r : Record) : (recordHeader r).length = headerLen := by
  rw [recordHeader, List.length_take, r.length_encode, headerLen]
  omega

theorem encode_eq (r : Record) :
    r.encode = recordHeader r ++ (r.contentData ++ r.paddingData) := by
  rw [recordHeader]
  exact (List.take_append_drop headerLen r.encode).symm

/-- The fields of a header. -/
def recordFields (r : Record) : HeaderFields where
  version := r.version
  type := r.type
  requestId := r.requestId
  contentLength := r.contentData.length
  paddingLength := r.paddingData.length

theorem headerFields_recordHeader (r : Record) :
    headerFields (recordHeader r) = some (recordFields r) := by
  have length := contentLength_decode r.content_fits
  have padding := byte_toNat r.padding_fits
  simp only [recordHeader, Record.encode, headerLen, List.take_succ_cons, List.take_zero,
    headerFields, recordFields, Record.requestId, padding]
  rw [Nat.mul_comm] at length
  rw [length, Nat.mul_comm]

/-- Behind the content of a record, with these bytes behind its padding. -/
structure BeforeHeader (bytes : Bytes) (c : Cursor) : Prop where
  content : c.content = 0
  behind : ∃ padding, c.rest = padding ++ bytes ∧ padding.length = c.padding
  eorStop : c.eorStop = false

/-- There, with a request that has begun. -/
structure AtRecord (type : UInt8) (requestId : Nat) (skip : Bool) (bytes : Bytes) (c : Cursor) :
    Prop extends BeforeHeader bytes c where
  skip : c.skip = skip
  running : c.isClosed = false
  type : c.type = type
  begun : c.request.isBeginProcessed = true
  request : c.request.requestId = requestId
  accepting : c.link.Accepting

theorem BeforeHeader.approach_eq {bytes : Bytes} {c : Cursor} (here : BeforeHeader bytes c) :
    c.approach = Cursor.atHeader { c with rest := bytes, padding := 0 } := by
  obtain ⟨padding, rest, length⟩ := here.behind
  have passed : c.passPadding = { c with rest := bytes, padding := 0 } := by
    have dropped : c.rest.drop c.padding = bytes := by
      rw [rest, ← length, List.drop_left]
    have none : c.padding - c.rest.length = 0 := by
      rw [rest, List.length_append]
      omega
    rw [Cursor.passPadding, dropped, none]
  rw [Cursor.approach_eq_atPadding here.content here.eorStop
    (by rw [rest, List.length_append]; omega), Cursor.atPadding, passed,
    if_neg (Nat.lt_irrefl 0)]

theorem BeforeHeader.approach {header bytes : Bytes} {c : Cursor}
    (here : BeforeHeader (header ++ bytes) c) (length : header.length = headerLen) :
    c.approach = .header header { c with rest := bytes, padding := 0 } := by
  have enough : ¬ (header ++ bytes).length < headerLen := by
    rw [List.length_append]
    omega
  rw [here.approach_eq, Cursor.atHeader, if_neg (by simp [here.eorStop])]
  simp only [if_neg enough]
  rw [← length, List.take_left, List.drop_left]

/-- The place behind the header of a record. -/
def behindHeader (c : Cursor) (r : Record) (bytes : Bytes) : Cursor :=
  { c with
    rest := bytes
    content := r.contentData.length
    padding := r.paddingData.length }

/-- The place that `ProcessHeader` finds. -/
def atFields (c : Cursor) (r : Record) (bytes : Bytes) : Cursor :=
  { behindHeader c r bytes with eorStop := true }

section Record

variable {type : UInt8} {requestId : Nat} {skip : Bool} {r : Record} {bytes : Bytes} {c : Cursor}

/-- What `FillBuffProc` does with the next record. -/
theorem BeforeHeader.fill_of_status (here : BeforeHeader (recordHeader r ++ bytes) c)
    (version : r.version = 1) {status : Status} {c' : Cursor}
    (processed : Cursor.processRecord (recordFields r) (atFields c r bytes) =
      .ok (status, c')) :
    c.fill = match Cursor.onStatus status { c' with eorStop := false, isClosed := false } with
      | .leave result => .ok result
      | .again next => Cursor.fill next := by
  have known : ¬ (recordFields r).version ≠ 1 := not_not.mpr version
  rw [Cursor.fill, fillWith_eq_resume Cursor.processHeader_shortens,
    here.approach (length_recordHeader r), resume, Cursor.processHeader,
    headerFields_recordHeader]
  simp only [Cursor.processFields, if_neg known]
  exact congrArg (fun result => result >>= _) processed

/-! ### What a record does -/

/-- The stream came to an end. -/
structure StreamEnded (c : Cursor) (errno : Int) (rest : Bytes) (replies : List Record)
    (c' : Cursor) : Prop where
  isClosed : c'.isClosed = true
  rest : c'.rest = rest
  fcgiErrno : c'.fcgiErrno = if c.fcgiErrno = 0 then errno else c.fcgiErrno
  eorStop : c'.eorStop = false
  request : c'.request = c.request
  took : c.link.Took (replies.flatMap Record.encode) c'.link

/-- The stream gave some content and stands at another place. -/
structure Leads (c : Cursor) (content : Bytes) (replies : List Record) (c' : Cursor) : Prop where
  yields : ∀ bytes last, Yields c' bytes last → Yields c (content ++ bytes) last
  fcgiErrno : c'.fcgiErrno = c.fcgiErrno
  request : c'.request = c.request
  took : c.link.Took (replies.flatMap Record.encode) c'.link

/-- Behind the header of a record, with these bytes to come. -/
structure InRecord (type : UInt8) (requestId : Nat) (r : Record) (bytes : Bytes) (c : Cursor) :
    Prop where
  rest : c.rest = bytes
  content : c.content = r.contentData.length
  padding : c.padding = r.paddingData.length
  eorStop : c.eorStop = false
  running : c.isClosed = false
  type : c.type = type
  begun : c.request.isBeginProcessed = true
  request : c.request.requestId = requestId
  accepting : c.link.Accepting

/-- The place behind the content. -/
def behindContent (c : Cursor) (r : Record) (bytes : Bytes) (skip : Bool) : Cursor :=
  { c with rest := r.paddingData ++ bytes, content := 0, skip := skip }

theorem InRecord.atRecord {rest : Bytes} (inside : InRecord type requestId r rest c)
    (skip : Bool) : AtRecord type requestId skip bytes (behindContent c r bytes skip) where
  content := rfl
  behind := ⟨r.paddingData, rfl, inside.padding.symm⟩
  skip := rfl
  eorStop := inside.eorStop
  running := inside.running
  type := inside.type
  begun := inside.begun
  request := inside.request
  accepting := inside.accepting

/-- Content that is not skipped reaches the client. -/
theorem InRecord.delivers
    (inside : InRecord type requestId r (r.contentData ++ (r.paddingData ++ bytes)) c)
    (skip : c.skip = false) {more : Bytes} {last : Cursor}
    (yields : Yields (behindContent c r bytes false) more last) :
    Yields c (r.contentData ++ more) last := by
  have taken : c.rest.take r.contentData.length = r.contentData := by
    rw [inside.rest, List.take_left]
  have dropped : c.rest.drop r.contentData.length = r.paddingData ++ bytes := by
    rw [inside.rest, List.drop_left]
  have none : c.content - r.contentData.length = 0 := by
    rw [inside.content, Nat.sub_self]
  rw [← taken]
  refine yields_content inside.running skip (Nat.le_of_eq inside.content.symm) ?_ ?_
  · rw [inside.rest, List.length_append]
    omega
  · rw [dropped, none]
    rw [behindContent, ← skip] at yields
    exact yields

/-- Content that is skipped ends the skipping, unless there is none. -/
theorem InRecord.skips
    (inside : InRecord type requestId r (r.contentData ++ (r.paddingData ++ bytes)) c)
    (skip : c.skip = true) :
    c.fill = (behindContent c r bytes r.contentData.isEmpty).fill := by
  rw [Cursor.fill, fillWith_eq_resume Cursor.processHeader_shortens,
    fillWith_eq_resume Cursor.processHeader_shortens]
  congr 1
  by_cases empty : r.contentData = []
  · have same : behindContent c r bytes r.contentData.isEmpty = c := by
      have rest := inside.rest
      have content := inside.content
      rw [empty, List.nil_append] at rest
      rw [empty, List.length_nil] at content
      rw [behindContent, ← rest, ← content, empty, List.isEmpty_nil, ← skip]
    rw [same]
  · have some : c.rest ≠ [] := by
      rw [inside.rest]
      simp [empty]
    have positive : 0 < c.content := by
      rw [inside.content]
      exact List.length_pos_iff.mpr empty
    have length : c.content ≤ c.rest.length := by
      rw [inside.content, inside.rest, List.length_append]
      omega
    have passed : c.passContent = behindContent c r bytes r.contentData.isEmpty := by
      have dropped : c.rest.drop c.content = r.paddingData ++ bytes := by
        rw [inside.rest, inside.content, List.drop_left]
      rw [Cursor.passContent, if_pos positive, dropped, if_pos length,
        Nat.sub_eq_zero_of_le length, behindContent, List.isEmpty_eq_false_iff.mpr empty]
    have way : c.approach = (behindContent c r bytes r.contentData.isEmpty).atPadding := by
      rw [Cursor.approach, if_neg some, Cursor.atContent, if_neg (by simp [skip]), passed,
        if_neg (show ¬ 0 < (behindContent c r bytes r.contentData.isEmpty).content from
          Nat.lt_irrefl 0)]
    rw [way]
    refine (Cursor.approach_eq_atPadding
      (c := behindContent c r bytes r.contentData.isEmpty) rfl inside.eorStop ?_).symm
    simp only [behindContent, inside.padding, List.length_append]
    omega

/-- The header of a record that passes was read. -/
structure Enters (type : UInt8) (requestId : Nat) (r : Record) (bytes delivered : Bytes)
    (replies : List Record) (skip : Bool) (c c' : Cursor) : Prop
    extends InRecord type requestId r bytes c' where
  started : c.isClosed = false
  fill : c.fill = c'.fill
  fcgiErrno : c'.fcgiErrno = c.fcgiErrno
  same : c'.request = c.request
  took : c.link.Took (replies.flatMap Record.encode) c'.link
  gives : delivered = if c'.skip then [] else r.contentData
  skipping : skip = (c'.skip && r.contentData.isEmpty)

/-- The rest of the record is there. -/
theorem Enters.leads {content : Bytes} {replies : List Record} {c' : Cursor}
    (enters : Enters type requestId r (r.contentData ++ (r.paddingData ++ bytes)) content replies
      skip c c') :
    ∃ next, Leads c content replies next ∧ AtRecord type requestId skip bytes next := by
  refine ⟨behindContent c' r bytes skip,
    ⟨fun more last yields => ?_, enters.fcgiErrno, enters.same, enters.took⟩,
    enters.toInRecord.atRecord _⟩
  have gives := enters.gives
  rw [enters.skipping] at yields
  cases skipped : c'.skip with
  | true =>
      rw [skipped, if_pos rfl] at gives
      rw [skipped, Bool.true_and] at yields
      rw [gives, List.nil_append]
      have running : (behindContent c' r bytes r.contentData.isEmpty).isClosed = false :=
        enters.running
      exact yields_of_fill_eq enters.started running
        (enters.fill.trans (enters.toInRecord.skips skipped)) yields
  | false =>
      rw [skipped, if_neg Bool.false_ne_true] at gives
      rw [skipped, Bool.false_and] at yields
      rw [gives]
      exact yields_of_fill_eq enters.started enters.running enters.fill
        (enters.toInRecord.delivers skipped yields)

theorem AtRecord.inRecord (here : AtRecord type requestId skip (recordHeader r ++ bytes) c)
    (skip' : Bool) {link : Ipc} (accepting : link.Accepting) :
    InRecord type requestId r bytes
      { behindHeader c r bytes with skip := skip', link := link, eorStop := false,
                                    isClosed := false } where
  rest := rfl
  content := rfl
  padding := rfl
  eorStop := rfl
  running := rfl
  type := here.type
  begun := here.begun
  request := here.request
  accepting := accepting

theorem reply_accepting {c : Cursor} (accepting : c.link.Accepting) (reply : Record)
    (status : Status) :
    ∃ link, c.reply reply.encode status = (status, { c with link := link }) ∧
      c.link.Took ([reply].flatMap Record.encode) link ∧ link.Accepting := by
  obtain ⟨link, wrote, took⟩ := writeItAll_accepting accepting reply.encode
  refine ⟨link, by simp only [Cursor.reply, wrote], ?_, took.accepting accepting⟩
  simpa using took

/-- A second BEGIN record is answered and its content skipped. -/
theorem AtRecord.begins (here : AtRecord type requestId skip (recordHeader r ++ bytes) c)
    (version : r.version = 1) (begins : r.type = FcgiType.kFcgiBeginRequest.code)
    (right : ¬ (r.requestId = 0 ∨ r.contentData.length ≠ 8)) :
    ∃ next, Enters type requestId r bytes [] [cantMpxRecord r.requestId] false c next := by
  obtain ⟨link, replied, took, accepting⟩ := reply_accepting
    (show (atFields c r bytes).link.Accepting from here.accepting) (cantMpxRecord r.requestId) .skip
  have processed : Cursor.processRecord (recordFields r) (atFields c r bytes) =
      .ok (.skip, { atFields c r bytes with link := link }) := by
    have begun : (atFields c r bytes).request.isBeginProcessed = true := here.begun
    rw [← replied, Cursor.processRecord, if_pos (by exact begins), Cursor.processBeginRecord,
      if_neg (by exact right), if_pos begun]
    rfl
  have filled := here.fill_of_status version processed
  have some : r.contentData.isEmpty = false := by
    rw [List.isEmpty_eq_false_iff]
    intro empty
    exact right (.inr (by rw [empty]; decide))
  refine ⟨_, here.inRecord true accepting, here.running, filled, rfl, rfl, took, rfl, ?_⟩
  rw [some, Bool.and_false]

/-- A management record that is not known is answered; its content is the
client's. -/
theorem AtRecord.manages (here : AtRecord type requestId skip (recordHeader r ++ bytes) c)
    (version : r.version = 1) (other : r.type ≠ FcgiType.kFcgiBeginRequest.code)
    (management : r.requestId = 0) (unknown : r.type ≠ FcgiType.kFcgiGetValues.code) :
    ∃ next, Enters type requestId r bytes (if skip then [] else r.contentData)
      [unknownTypeRecord r.type] (skip && r.contentData.isEmpty) c next := by
  obtain ⟨link, replied, took, accepting⟩ := reply_accepting
    (show (atFields c r bytes).link.Accepting from here.accepting) (unknownTypeRecord r.type)
    .mgmtRecord
  have processed : Cursor.processRecord (recordFields r) (atFields c r bytes) =
      .ok (.mgmtRecord, { atFields c r bytes with link := link }) := by
    rw [← replied, Cursor.processRecord, if_neg (by exact other), if_pos (by exact management),
      Cursor.processManagementRecord, if_neg (by exact unknown)]
    rfl
  have filled := here.fill_of_status version processed
  simp only [Cursor.onStatus] at filled
  obtain rfl := here.skip
  exact ⟨_, here.inRecord c.skip accepting, here.running, filled, rfl, rfl, took, rfl, rfl⟩

/-- The content of a record of another request is skipped; if there is none, the
next record's is. -/
theorem AtRecord.foreign (here : AtRecord type requestId skip (recordHeader r ++ bytes) c)
    (version : r.version = 1) (other : r.type ≠ FcgiType.kFcgiBeginRequest.code)
    (addressed : r.requestId ≠ 0) (foreign : r.requestId ≠ requestId) :
    ∃ next, Enters type requestId r bytes [] [] r.contentData.isEmpty c next := by
  have processed : Cursor.processRecord (recordFields r) (atFields c r bytes) =
      .ok (.skip, atFields c r bytes) := by
    rw [Cursor.processRecord, if_neg (by exact other), if_neg (by exact addressed), if_pos]
    rw [show (atFields c r bytes).request.requestId = requestId from here.request]
    exact foreign
  have filled := here.fill_of_status version processed
  exact ⟨_, here.inRecord true here.accepting, here.running, filled, rfl, rfl, c.link.took_nil,
    rfl, rfl⟩

theorem AtRecord.processRecord_own
    (here : AtRecord type requestId skip (recordHeader r ++ bytes) c)
    (other : r.type ≠ FcgiType.kFcgiBeginRequest.code) (addressed : r.requestId ≠ 0)
    (own : r.requestId = requestId) (stream : r.type = type) :
    Cursor.processRecord (recordFields r) (atFields c r bytes) =
      .ok (.streamRecord, atFields c r bytes) := by
  rw [Cursor.processRecord, if_neg (by exact other), if_neg (by exact addressed), if_neg, if_neg]
  · rw [show (atFields c r bytes).type = type from here.type]
    exact fun different => different stream
  · rw [show (atFields c r bytes).request.requestId = requestId from here.request]
    exact fun different => different own

/-- A record of the stream. -/
theorem AtRecord.own (here : AtRecord type requestId skip (recordHeader r ++ bytes) c)
    (version : r.version = 1) (other : r.type ≠ FcgiType.kFcgiBeginRequest.code)
    (addressed : r.requestId ≠ 0) (own : r.requestId = requestId) (stream : r.type = type)
    (some : r.contentData ≠ []) :
    ∃ next, Enters type requestId r bytes (if skip then [] else r.contentData) [] false c next := by
  have filled := here.fill_of_status version (here.processRecord_own other addressed own stream)
  have content : ¬ (atFields c r bytes).content = 0 := fun empty =>
    some (List.length_eq_zero_iff.mp empty)
  simp only [Cursor.onStatus, if_neg content] at filled
  obtain rfl := here.skip
  have empty : r.contentData.isEmpty = false := List.isEmpty_eq_false_iff.mpr some
  refine ⟨_, here.inRecord c.skip here.accepting, here.running, filled, rfl, rfl,
    c.link.took_nil, rfl, ?_⟩
  rw [empty, Bool.and_false]

/-- A record that passes. -/
theorem AtRecord.passes (here : AtRecord type requestId skip (recordHeader r ++ bytes) c)
    (described : Described r) {content : Bytes} {replies : List Record} {skip' : Bool}
    (delivered : deliverRecord type requestId skip r = .passes content replies skip') :
    ∃ next, Enters type requestId r bytes content replies skip' c next := by
  unfold deliverRecord at delivered
  split at delivered
  · cases delivered
  rename_i version
  have version : r.version = 1 := not_not.mp version
  split at delivered
  · rename_i begins
    split at delivered
    · cases delivered
    · rename_i right
      cases delivered
      exact here.begins version begins right
  rename_i other
  split at delivered
  · rename_i management
    cases delivered
    exact here.manages version other management fun known => described known management
  rename_i addressed
  split at delivered
  · rename_i foreign
    cases delivered
    exact here.foreign version other addressed foreign
  rename_i own
  split at delivered
  · cases delivered
  rename_i stream
  split at delivered
  · cases delivered
  · rename_i some
    cases delivered
    exact here.own version other addressed (not_not.mp own) (not_not.mp stream) some

/-- A record that ends the stream. -/
theorem AtRecord.ends (here : AtRecord type requestId skip (recordHeader r ++ bytes) c)
    {errno : Int} (delivered : deliverRecord type requestId skip r = .ends errno) :
    ∃ last, Yields c [] last ∧ StreamEnded c errno bytes [] last := by
  unfold deliverRecord at delivered
  split at delivered
  · rename_i version
    cases delivered
    have unsupported : (recordFields r).version ≠ 1 := version
    have filled : c.fill = .ok (Cursor.setError { c with
        rest := bytes
        padding := 0, eorStop := false, isClosed := false } fcgxUnsupportedVersion) := by
      rw [Cursor.fill, fillWith_eq_resume Cursor.processHeader_shortens,
        here.approach (length_recordHeader r), resume, Cursor.processHeader,
        headerFields_recordHeader]
      simp only [Cursor.processFields, if_pos unsupported]
      rfl
    exact ⟨_, yields_of_closed here.running filled rfl,
      ⟨rfl, rfl, rfl, rfl, rfl, c.link.took_nil⟩⟩
  rename_i version
  have version : r.version = 1 := not_not.mp version
  split at delivered
  · rename_i begins
    split at delivered
    · rename_i wrong
      cases delivered
      have processed : Cursor.processRecord (recordFields r) (atFields c r bytes) =
          .ok (.error fcgxProtocolError, atFields c r bytes) := by
        rw [Cursor.processRecord, if_pos (by exact begins), Cursor.processBeginRecord,
          if_pos (by exact wrong)]
        rfl
      have filled := here.fill_of_status version processed
      exact ⟨_, yields_of_closed here.running filled rfl,
        ⟨rfl, rfl, rfl, rfl, rfl, c.link.took_nil⟩⟩
    · cases delivered
  rename_i other
  split at delivered
  · cases delivered
  rename_i addressed
  split at delivered
  · cases delivered
  rename_i own
  split at delivered
  · rename_i stream
    cases delivered
    have processed : Cursor.processRecord (recordFields r) (atFields c r bytes) =
        .ok (.error fcgxProtocolError, atFields c r bytes) := by
      rw [Cursor.processRecord, if_neg (by exact other), if_neg (by exact addressed), if_neg,
        if_pos]
      · rw [show (atFields c r bytes).type = type from here.type]
        exact stream
      · rw [show (atFields c r bytes).request.requestId = requestId from here.request]
        exact own
    have filled := here.fill_of_status version processed
    exact ⟨_, yields_of_closed here.running filled rfl,
      ⟨rfl, rfl, rfl, rfl, rfl, c.link.took_nil⟩⟩
  rename_i stream
  split at delivered
  · rename_i empty
    cases delivered
    have filled := here.fill_of_status version
      (here.processRecord_own other addressed (not_not.mp own) (not_not.mp stream))
    have content : (atFields c r bytes).content = 0 := List.length_eq_zero_iff.mpr empty
    simp only [Cursor.onStatus, if_pos content] at filled
    refine ⟨_, yields_of_closed here.running filled rfl, ⟨rfl, rfl, ?_, rfl, rfl, c.link.took_nil⟩⟩
    split
    · assumption
    · rfl
  · cases delivered

end Record

/-! ### A sequence of records -/

theorem Leads.refl (c : Cursor) : Leads c [] [] c :=
  ⟨fun _ _ yields => yields, rfl, rfl, c.link.took_nil⟩

theorem Leads.trans {first second third : Cursor} {content content' : Bytes}
    {replies replies' : List Record} (one : Leads first content replies second)
    (two : Leads second content' replies' third) :
    Leads first (content ++ content') (replies ++ replies') third where
  yields := by
    intro bytes last yields
    rw [List.append_assoc]
    exact one.yields _ _ (two.yields _ _ yields)
  fcgiErrno := two.fcgiErrno.trans one.fcgiErrno
  request := two.request.trans one.request
  took := by
    rw [List.flatMap_append]
    exact one.took.append two.took

theorem Leads.ended {c c' last : Cursor} {content bytes rest : Bytes} {replies later : List Record}
    {errno : Int} (leads : Leads c content replies c') (yields : Yields c' bytes last)
    (ended : StreamEnded c' errno rest later last) :
    Yields c (content ++ bytes) last ∧ StreamEnded c errno rest (replies ++ later) last := by
  refine ⟨leads.yields _ _ yields, ended.isClosed, ended.rest, ?_, ended.eorStop,
    ended.request.trans leads.request, ?_⟩
  · rw [ended.fcgiErrno, leads.fcgiErrno]
  · rw [List.flatMap_append]
    exact leads.took.append ended.took

variable {type : UInt8} {requestId : Nat}

/-- Records that all pass. -/
theorem leads_deliver {skip : Bool} {records : List Record} {passed : Delivery} {more : Bytes}
    {c : Cursor} (here : AtRecord type requestId skip (records.flatMap Record.encode ++ more) c)
    (described : ∀ r ∈ records, Described r)
    (delivers : deliver type requestId skip records = some passed) :
    ∃ next, Leads c passed.content passed.replies next ∧
      AtRecord type requestId passed.skip more next := by
  induction records generalizing skip c passed with
  | nil =>
      cases delivers
      exact ⟨c, .refl c, here⟩
  | cons r later inductionHypothesis =>
      rw [List.flatMap_cons, encode_eq, List.append_assoc, List.append_assoc,
        List.append_assoc] at here
      rw [deliver] at delivers
      cases delivered : deliverRecord type requestId skip r with
      | ends errno =>
          rw [delivered] at delivers
          cases delivers
      | passes content replies skip₁ =>
          rw [delivered] at delivers
          obtain ⟨rest, remaining, rfl⟩ := Option.map_eq_some_iff.mp delivers
          obtain ⟨inside, enters⟩ := here.passes (described r (by simp)) delivered
          obtain ⟨next, leads, there⟩ := enters.leads
          obtain ⟨last, further, at_last⟩ := inductionHypothesis there
            (fun r member => described r (by simp [member])) remaining
          exact ⟨last, leads.trans further, at_last⟩

/-! ### The end of the connection -/

/-- Behind a record or inside a header. -/
theorem AtRecord.cut {skip : Bool} {piece : Bytes} {c : Cursor}
    (here : AtRecord type requestId skip piece c) (short : piece.length < headerLen) :
    ∃ last, Yields c [] last ∧ StreamEnded c c.link.endError [] [] last := by
  have filled : c.fill = .ok ({ c with rest := [], padding := 0 } : Cursor).exhausted := by
    rw [Cursor.fill, fillWith_eq_resume Cursor.processHeader_shortens, here.approach_eq,
      Cursor.atHeader, if_neg (by simp [here.eorStop]), if_pos short]
    rfl
  exact ⟨_, yields_of_closed here.running filled rfl,
    ⟨rfl, rfl, rfl, here.eorStop, rfl, c.link.took_nil⟩⟩

theorem Cursor.atPadding_torn {c : Cursor} (short : c.rest.length < c.padding) :
    c.atPadding = .done (Cursor.exhausted
      { c with rest := [], padding := c.padding - c.rest.length }) := by
  have dropped : c.rest.drop c.padding = [] := List.drop_eq_nil_of_le (Nat.le_of_lt short)
  have passed : c.passPadding = { c with rest := [], padding := c.padding - c.rest.length } := by
    rw [Cursor.passPadding, dropped]
  rw [Cursor.atPadding, passed, if_pos (show 0 < c.padding - c.rest.length by omega)]

/-- The way ends inside a record, if nothing more of its content is for the
client. -/
theorem Cursor.approach_torn {c : Cursor}
    (short : c.rest = [] ∨ c.rest.length < c.content + c.padding)
    (none : c.rest = [] ∨ c.content = 0 ∨ c.skip = true) :
    ∃ content padding skip, c.approach = .done (Cursor.exhausted
      { c with rest := [], content := content, padding := padding, skip := skip }) := by
  by_cases empty : c.rest = []
  · refine ⟨c.content, c.padding, c.skip, ?_⟩
    rw [Cursor.approach, if_pos empty, ← empty]
  have short : c.rest.length < c.content + c.padding := short.resolve_left empty
  have passes : ¬ (0 < c.content ∧ c.skip = false) := by
    rintro ⟨some, kept⟩
    rcases none.resolve_left empty with zero | skipped
    · omega
    · rw [kept] at skipped
      cases skipped
  rw [Cursor.approach, if_neg empty, Cursor.atContent, if_neg passes]
  by_cases zero : c.content = 0
  · rw [Cursor.passContent_none zero, if_neg (by omega), Cursor.atPadding_torn (by omega)]
    exact ⟨_, _, _, rfl⟩
  · have passed : c.passContent = { c with
        rest := c.rest.drop c.content
        content := c.content - c.rest.length
        skip := if c.content ≤ c.rest.length then false else c.skip } := by
      rw [Cursor.passContent, if_pos (Nat.pos_of_ne_zero zero)]
    rw [passed]
    by_cases inside : c.rest.length < c.content
    · have dropped : c.rest.drop c.content = [] := List.drop_eq_nil_of_le (Nat.le_of_lt inside)
      rw [if_pos (show 0 < c.content - c.rest.length by omega), dropped]
      exact ⟨_, _, _, rfl⟩
    · rw [if_neg (show ¬ 0 < c.content - c.rest.length by omega),
        Cursor.atPadding_torn (by simp only [List.length_drop]; omega)]
      exact ⟨_, _, _, rfl⟩

theorem ended_torn {c : Cursor} (running : c.isClosed = false) (eorStop : c.eorStop = false)
    (short : c.rest = [] ∨ c.rest.length < c.content + c.padding)
    (none : c.rest = [] ∨ c.content = 0 ∨ c.skip = true) :
    ∃ last, Yields c [] last ∧ StreamEnded c c.link.endError [] [] last := by
  obtain ⟨content, padding, skip, torn⟩ := Cursor.approach_torn short none
  have filled : c.fill = .ok (Cursor.exhausted
      { c with rest := [], content := content, padding := padding, skip := skip }) := by
    rw [Cursor.fill, fillWith_eq_resume Cursor.processHeader_shortens, torn]
    rfl
  exact ⟨_, yields_of_closed running filled rfl,
    ⟨rfl, rfl, rfl, eorStop, rfl, c.link.took_nil⟩⟩

/-- Inside a record. -/
theorem Enters.torn {r : Record} {piece content : Bytes} {replies : List Record} {skip : Bool}
    {c c' : Cursor} (enters : Enters type requestId r piece content replies skip c c')
    (short : piece.length < r.contentData.length + r.paddingData.length) :
    ∃ last, Yields c (piece.take content.length) last ∧
      StreamEnded c c.link.endError [] replies last := by
  have inside := enters.toInRecord
  have same : c'.link.endError = c.link.endError := by
    obtain ⟨writes, link⟩ := enters.took
    rw [link]
    rfl
  have ends : ∀ {last : Cursor}, StreamEnded c' c'.link.endError [] [] last →
      StreamEnded c c.link.endError [] replies last := by
    intro last ended
    refine ⟨ended.isClosed, ended.rest, ?_, ended.eorStop, ended.request.trans enters.same, ?_⟩
    · rw [ended.fcgiErrno, enters.fcgiErrno, same]
    · rw [← List.append_nil (replies.flatMap Record.encode)]
      exact enters.took.append ended.took
  have short : c'.rest.length < c'.content + c'.padding := by
    rw [inside.rest, inside.content, inside.padding]
    exact short
  have gives := enters.gives
  cases skipped : c'.skip with
  | true =>
      rw [skipped, if_pos rfl] at gives
      obtain ⟨last, yields, ended⟩ := ended_torn inside.running inside.eorStop (.inr short)
        (.inr (.inr skipped))
      refine ⟨last, ?_, ends ended⟩
      rw [gives, List.length_nil, List.take_zero]
      exact yields_of_fill_eq enters.started inside.running enters.fill yields
  | false =>
      rw [skipped, if_neg Bool.false_ne_true] at gives
      have content_eq : content.length = c'.content := by rw [gives, inside.content]
      obtain ⟨m, m_eq⟩ : ∃ m, m = min c'.content c'.rest.length := ⟨_, rfl⟩
      obtain ⟨last, yields, ended⟩ := ended_torn
        (c := { c' with rest := c'.rest.drop m, content := c'.content - m })
        inside.running inside.eorStop
        (by
          simp only [List.drop_eq_nil_iff, List.length_drop]
          omega)
        (by
          simp only [List.drop_eq_nil_iff]
          omega)
      refine ⟨last, ?_, ends ⟨ended.isClosed, ended.rest, ended.fcgiErrno, ended.eorStop,
        ended.request, ended.took⟩⟩
      have whole := yields_content inside.running skipped (by omega) (by omega) yields
      have taken : c'.rest.take m = piece.take content.length := by
        rw [content_eq, inside.rest, m_eq, inside.rest, List.take_eq_take_iff]
        omega
      rw [List.append_nil, taken] at whole
      exact yields_of_fill_eq enters.started inside.running enters.fill whole

/-- The client gets the stream that the bytes carry. -/
theorem yields_carries {bytes : Bytes} {c : Cursor} {stream : WholeStream}
    (here : AtRecord type requestId false bytes c)
    (carries : Carries type requestId c.link.endError bytes stream) :
    ∃ last, Yields c stream.content last ∧
      StreamEnded c stream.errno stream.rest stream.replies last := by
  have same : ∀ {content : Bytes} {replies : List Record} {next : Cursor},
      Leads c content replies next → next.link.endError = c.link.endError := by
    intro content replies next leads
    obtain ⟨writes, link⟩ := leads.took
    rw [link]
    rfl
  cases carries with
  | ended described delivers ends =>
      obtain ⟨next, leads, there⟩ := leads_deliver here described delivers
      obtain ⟨last, yields, ended⟩ := there.ends ends
      have whole := leads.ended yields ended
      rw [List.append_nil, List.append_nil] at whole
      exact ⟨last, whole⟩
  | torn described described_torn delivers passes short =>
      obtain ⟨next, leads, there⟩ := leads_deliver here described delivers
      obtain ⟨inside, enters⟩ := there.passes described_torn passes
      obtain ⟨last, yields, ended⟩ := enters.torn short
      rw [same leads] at ended
      exact ⟨last, leads.ended yields ended⟩
  | cut described delivers short =>
      obtain ⟨next, leads, there⟩ := leads_deliver here described delivers
      obtain ⟨last, yields, ended⟩ := there.cut short
      rw [same leads] at ended
      have whole := leads.ended yields ended
      rw [List.append_nil, List.append_nil] at whole
      exact ⟨last, whole⟩

end Fcgx

end FastCgi
