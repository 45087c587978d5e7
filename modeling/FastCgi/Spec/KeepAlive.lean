/-
Module: FastCgi.Spec.KeepAlive
Layer: Spec
Purpose: When a connection ends after a request.  The requests here have any
  role and any flags byte in their BEGIN_REQUEST, which is the only one, and
  any contents in their streams; the protocol asks that the connection ends
  exactly when the keep-alive bit of those flags is clear.
Trusted boundary: human-reviewed spec
Main exports: BegunRequest, BegunRequest.keepBit, OwnBitDecides,
  RequestState.endings, View.endings
-/
import FastCgi.Spec.WellFormed

namespace FastCgi

/-- A request of any role: a BEGIN_REQUEST of at least eight bytes, stream
records of any contents, the empty STDIN record that completes the request, and
ignored records anywhere. -/
structure BegunRequest where
  lead : List Record
  closing : Record
  trail : List Record
  opening : Record
  middle : List Record
  /-- But for ignored records, the request starts with its BEGIN_REQUEST. -/
  lead_shape : lead.filter (fun r => !r.isIgnored) = opening :: middle
  opening_begins : opening.isOf .kFcgiBeginRequest = true
  opening_long : 8 ≤ opening.contentData.length
  middle_streams : ∀ r ∈ middle, r.isOf .kFcgiParams = true ∨ r.isOf .kFcgiStdin = true
  middle_stays : ∀ r ∈ middle, r.closes = false
  closing_closes : closing.closes = true
  trail_ignored : ∀ r ∈ trail, r.isIgnored = true

namespace BegunRequest

/-- The records of a request, in order. -/
def records (request : BegunRequest) : List Record :=
  request.lead ++ request.closing :: request.trail

/-- The bytes of a request. -/
def encode (request : BegunRequest) : Bytes := request.records.flatMap Record.encode

/-- The role field holds the responder's number. -/
def isResponder (request : BegunRequest) : Bool :=
  decide (request.opening.contentData.take 2 = [0, 1])

/-- The flags byte. -/
def flags (request : BegunRequest) : UInt8 := request.opening.beginFlags

/-- `flags & FCGI_KEEP_CONN` is not zero. -/
def keepBit (request : BegunRequest) : Bool := request.flags &&& kFcgiKeepConn ≠ 0

/-- One BEGIN_REQUEST with this role and these flags, and an empty body. -/
def bare (role flags : UInt8) : BegunRequest where
  lead := [plainRecord .kFcgiBeginRequest [0, role, flags, 0, 0, 0, 0, 0] begin_content_fits]
  closing := plainRecord .kFcgiStdin [] nil_content_fits
  trail := []
  opening := plainRecord .kFcgiBeginRequest [0, role, flags, 0, 0, 0, 0, 0] begin_content_fits
  middle := []
  lead_shape := rfl
  opening_begins := rfl
  opening_long := Nat.le_refl 8
  middle_streams := List.forall_mem_nil _
  middle_stays := List.forall_mem_nil _
  closing_closes := closes_plainRecord
  trail_ignored := nil_ignored

end BegunRequest

/-- The flags byte of the last responder request. -/
def lastResponderFlags (requests : List BegunRequest) : Option UInt8 :=
  (requests.filter BegunRequest.isResponder).getLast?.map BegunRequest.flags

/-- When the connection ends by the request's own bit.  A responder request
must not set the keep-alive bit together with others; a request of another
role must have the bit of the last responder request before it, which must not
have set others either, and have none if there was no such request. -/
def OwnBitDecides (earlier : List BegunRequest) (request : BegunRequest) : Prop :=
  if request.isResponder then request.keepBit = true → request.flags = kFcgiKeepConn
  else request.keepBit = true ↔ lastResponderFlags earlier = some kFcgiKeepConn
deriving Decidable

/-! ### The end of a connection, on records and on bytes -/

namespace RequestState

/-- A hand-over in this state ends the connection. -/
def ends (s : RequestState) : Bool := s.gotRequest && !s.keepConn

/-- Whether the hand-over after each batch ends the connection. -/
def endings : RequestState → List (List Record) → List Bool
  | _, [] => []
  | s, batch :: batches =>
      (s.handleAll batch).ends :: endings (s.handleAll batch).settle batches

end RequestState

namespace View

/-- Whether each read ends the connection. -/
def endings : View → List Bytes → List Bool
  | _, [] => []
  | v, data :: reads => (v.receive data).request.ends :: endings (v.step data) reads

/-- The reads matter only through the batches of records they complete. -/
theorem endings_eq (v : View) (reads : List Bytes) :
    v.endings reads = v.request.endings (recordFraming.batches v.pending reads).1 := by
  induction reads generalizing v with
  | nil => rfl
  | cons data reads inductionHypothesis =>
      simp only [endings, inductionHypothesis]
      rfl

end View

end FastCgi
