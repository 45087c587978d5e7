/-
Module: FastCgi.Spec.WellFormed
Layer: Spec
Purpose: Well-formed responder requests.  A request is a list of records: an
  accepted BEGIN_REQUEST, the PARAMS stream that carries its pairs, the STDIN
  stream that carries its body, and records of other types anywhere; the
  chunking of the streams, their interleaving, the request ids and the padding
  are arbitrary.
Trusted boundary: human-reviewed spec
Main exports: Record.isOf, Record.closes, WellFormedRequest,
  WellFormedRequest.encode, WellFormedRequest.invocation,
  WellFormedRequest.plain
-/
import FastCgi.Spec.Requests

namespace FastCgi

open Library (assignAll)

/-- The type byte is this enumerator's. -/
def Record.isOf (type : FcgiType) (r : Record) : Bool :=
  FcgiType.ofCode r.type = some type

/-- The switch passes over the record. -/
def Record.isIgnored (r : Record) : Bool :=
  !r.isOf .kFcgiBeginRequest && !r.isOf .kFcgiParams && !r.isOf .kFcgiStdin

/-- The empty STDIN record, which completes a request. -/
def Record.closes (r : Record) : Bool :=
  r.isOf .kFcgiStdin && decide (r.contentData = [])

/-- The contents of one stream, record by record. -/
def contentsOf (type : FcgiType) (records : List Record) : List Bytes :=
  (records.filter (Record.isOf type)).map Record.contentData

/-- A well-formed responder request: the records up to the empty STDIN record,
that record, and ignored records behind it. -/
structure WellFormedRequest where
  pairs : List WirePair
  body : Bytes
  lead : List Record
  closing : Record
  trail : List Record
  opening : Record
  middle : List Record
  paramsChunks : List Bytes
  /-- But for ignored records, the request starts with its BEGIN_REQUEST. -/
  lead_shape : lead.filter (fun r => !r.isIgnored) = opening :: middle
  opening_begins : opening.isOf .kFcgiBeginRequest = true
  opening_accepted : opening.acceptsBegin = true
  /-- The two streams follow, interleaved in any way. -/
  middle_streams : ∀ r ∈ middle, r.isOf .kFcgiParams = true ∨ r.isOf .kFcgiStdin = true
  /-- Non-empty PARAMS records carry the pairs, cut anywhere; an empty one
  ends the stream. -/
  params_shape : contentsOf .kFcgiParams middle = paramsChunks ++ [[]]
  params_nonempty : ∀ chunk ∈ paramsChunks, chunk ≠ []
  params_carry : paramsChunks.flatten = pairs.flatMap WirePair.encode
  /-- Non-empty STDIN records carry the body, cut anywhere. -/
  stdin_nonempty : ∀ chunk ∈ contentsOf .kFcgiStdin middle, chunk ≠ []
  stdin_carry : (contentsOf .kFcgiStdin middle).flatten = body
  closing_closes : closing.closes = true
  trail_ignored : ∀ r ∈ trail, r.isIgnored = true

namespace WellFormedRequest

/-- The records of a request, in order. -/
def records (request : WellFormedRequest) : List Record :=
  request.lead ++ request.closing :: request.trail

/-- The bytes of a request. -/
def encode (request : WellFormedRequest) : Bytes :=
  request.records.flatMap Record.encode

/-- What the handler must be called with: the last value of each name, and
the body. -/
def invocation (request : WellFormedRequest) : Invocation where
  params := assignAll ∅ (request.pairs.map WirePair.entry)
  stdin := request.body

end WellFormedRequest

/-! ### Plain requests -/

theorem begin_content_fits : ([0, 1, 1, 0, 0, 0, 0, 0] : Bytes).length < 2 ^ 16 := by decide

/-- A version-one record with request id one and no padding. -/
def plainRecord (type : FcgiType) (content : Bytes) (fits : content.length < 2 ^ 16) : Record where
  version := 1
  type := type.code
  requestIdB1 := 0
  requestIdB0 := 1
  reserved := 0
  contentData := content
  paddingData := []
  content_fits := fits
  padding_fits := nil_padding_fits

/-- The content of a record that belongs to a stream and does not end it. -/
abbrev Chunk := { content : Bytes // content ≠ [] ∧ content.length < 2 ^ 16 }

/-- A plain record for each chunk of a stream. -/
def plainStream (type : FcgiType) (chunks : List Chunk) : List Record :=
  chunks.map fun chunk => plainRecord type chunk.1 chunk.2.2

theorem FcgiType.ofCode_code (type : FcgiType) : FcgiType.ofCode type.code = some type := by
  cases type <;> rfl

theorem isOf_plainRecord (type type' : FcgiType) (content : Bytes) (fits) :
    (plainRecord type content fits).isOf type' = decide (type = type') := by
  simp [Record.isOf, plainRecord, FcgiType.ofCode_code]

theorem contentsOf_append (type : FcgiType) (first second : List Record) :
    contentsOf type (first ++ second) = contentsOf type first ++ contentsOf type second := by
  simp [contentsOf]

theorem contentsOf_singleton (type : FcgiType) (r : Record) :
    contentsOf type [r] = if r.isOf type then [r.contentData] else [] := by
  by_cases same : r.isOf type = true
  · simp [contentsOf, same]
  · simp [contentsOf, same]

theorem contentsOf_plainRecord (type type' : FcgiType) (content : Bytes) (fits) :
    contentsOf type' [plainRecord type content fits] = if type = type' then [content] else [] := by
  rw [contentsOf_singleton, isOf_plainRecord]
  simp [plainRecord]

/-- A plain stream has its own chunks, and none of another type's. -/
theorem contentsOf_plainStream (type type' : FcgiType) (chunks : List Chunk) :
    contentsOf type' (plainStream type chunks) =
      if type = type' then chunks.map Subtype.val else [] := by
  induction chunks with
  | nil => simp [contentsOf, plainStream]
  | cons chunk chunks inductionHypothesis =>
      have head : plainStream type (chunk :: chunks) =
          [plainRecord type chunk.1 chunk.2.2] ++ plainStream type chunks := rfl
      rw [head, contentsOf_append, inductionHypothesis, contentsOf_plainRecord]
      by_cases same : type = type'
      · simp [same]
      · simp [same]

/-- The streams of plain records behind one another. -/
theorem contentsOf_plainMiddle (type : FcgiType) (paramsChunks bodyChunks : List Chunk) :
    contentsOf type (plainStream .kFcgiParams paramsChunks ++
        plainRecord .kFcgiParams [] nil_content_fits :: plainStream .kFcgiStdin bodyChunks) =
      (if .kFcgiParams = type then paramsChunks.map Subtype.val ++ [[]] else []) ++
        if .kFcgiStdin = type then bodyChunks.map Subtype.val else [] := by
  rw [← List.singleton_append, contentsOf_append, contentsOf_append, contentsOf_plainStream,
    contentsOf_plainStream, contentsOf_plainRecord]
  by_cases params : FcgiType.kFcgiParams = type
  · simp [params]
  · simp [params]

theorem closes_plainRecord : (plainRecord .kFcgiStdin [] nil_content_fits).closes = true := rfl

theorem nil_ignored : ∀ r ∈ ([] : List Record), r.isIgnored = true := List.forall_mem_nil _

theorem nil_carries : (([] : List Chunk).map Subtype.val).flatten =
    ([] : List WirePair).flatMap WirePair.encode := rfl

/-- A request in plain records: the PARAMS stream, then the STDIN stream. -/
def WellFormedRequest.plain (pairs : List WirePair) (paramsChunks bodyChunks : List Chunk)
    (carry : (paramsChunks.map Subtype.val).flatten = pairs.flatMap WirePair.encode) :
    WellFormedRequest where
  pairs := pairs
  body := (bodyChunks.map Subtype.val).flatten
  lead := plainRecord .kFcgiBeginRequest [0, 1, 1, 0, 0, 0, 0, 0] begin_content_fits ::
    (plainStream .kFcgiParams paramsChunks ++ plainRecord .kFcgiParams [] nil_content_fits ::
      plainStream .kFcgiStdin bodyChunks)
  closing := plainRecord .kFcgiStdin [] nil_content_fits
  trail := []
  opening := plainRecord .kFcgiBeginRequest [0, 1, 1, 0, 0, 0, 0, 0] begin_content_fits
  middle := plainStream .kFcgiParams paramsChunks ++ plainRecord .kFcgiParams [] nil_content_fits ::
    plainStream .kFcgiStdin bodyChunks
  paramsChunks := paramsChunks.map Subtype.val
  lead_shape := by
    rw [List.filter_eq_self]
    intro r member
    simp only [List.mem_cons, List.mem_append, plainStream, List.mem_map] at member
    rcases member with rfl | ⟨chunk, _, rfl⟩ | rfl | ⟨chunk, _, rfl⟩
    all_goals simp [Record.isIgnored, isOf_plainRecord]
  opening_begins := rfl
  opening_accepted := by decide
  middle_streams := by
    intro r member
    simp only [List.mem_cons, List.mem_append, plainStream, List.mem_map] at member
    rcases member with ⟨chunk, _, rfl⟩ | rfl | ⟨chunk, _, rfl⟩
    all_goals simp [isOf_plainRecord]
  params_shape := by
    rw [contentsOf_plainMiddle]
    simp
  params_nonempty := by
    intro chunk member
    obtain ⟨chunk, _, rfl⟩ := List.mem_map.mp member
    exact chunk.2.1
  params_carry := carry
  stdin_nonempty := by
    intro chunk member
    rw [contentsOf_plainMiddle] at member
    obtain ⟨chunk, _, rfl⟩ := List.mem_map.mp member
    exact chunk.2.1
  stdin_carry := by
    rw [contentsOf_plainMiddle]
    simp
  closing_closes := rfl
  trail_ignored := by simp

end FastCgi
