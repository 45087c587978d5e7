/-
Module: FastCgi.Proofs.FcgxLoss
Layer: Proofs
Purpose: Requests that libfcgi accepts without the parameters that were sent: the
  padding of the BEGIN record is taken for a record, and an empty record of
  another request takes the content of the next record with it.
Trusted boundary: none
Main exports: Fcgx.readRequest_padded_begin, Fcgx.readRequest_skipped_record
-/
import FastCgi.Proofs.FcgxRequest

namespace FastCgi

namespace Fcgx

/-! ### The padding of the BEGIN record -/

/-- Any eight bytes are the header of some record. -/
theorem exists_recordHeader {header : Bytes} (length : header.length = headerLen) :
    ∃ r, recordHeader r = header ∧ header.head? = some r.version := by
  obtain ⟨version, type, b1, b0, high, low, pad, reserved, rest, rfl⟩ :=
    header_of_length (Nat.le_of_eq length.symm)
  obtain rfl : rest = [] := by
    simp only [List.length_cons, headerLen] at length
    exact List.length_eq_zero_iff.mp (by omega)
  have content_fits : (List.replicate (2 ^ 8 * high.toNat + low.toNat) (0 : UInt8)).length <
      2 ^ 16 := by
    have := high.toNat_lt
    have := low.toNat_lt
    rw [List.length_replicate]
    omega
  have padding_fits : (List.replicate pad.toNat (0 : UInt8)).length < 2 ^ 8 := by
    rw [List.length_replicate]
    exact pad.toNat_lt
  refine ⟨⟨version, type, b1, b0, reserved, _, _, content_fits, padding_fits⟩, ?_, rfl⟩
  have high_eq : (2 ^ 8 * high.toNat + low.toNat) / 2 ^ 8 = high.toNat := by
    have := low.toNat_lt
    omega
  have low_eq : (2 ^ 8 * high.toNat + low.toNat) % 2 ^ 8 = low.toNat := by
    have := low.toNat_lt
    omega
  simp only [recordHeader, Record.encode, headerLen, List.take_succ_cons, List.take_zero,
    List.length_replicate, high_eq, low_eq, UInt8.ofNat_toNat]

/-- A stream that begins with a header of another version is empty. -/
theorem carries_unsupported {type : UInt8} {requestId : Nat} {endError : Int} {bytes : Bytes}
    (enough : headerLen ≤ bytes.length) (version : bytes.head? ≠ some 1) :
    Carries type requestId endError bytes
      ⟨[], [], fcgxUnsupportedVersion, bytes.drop headerLen⟩ := by
  have length : (bytes.take headerLen).length = headerLen := by
    rw [List.length_take]
    omega
  obtain ⟨r, header, first⟩ := exists_recordHeader length
  have other : r.version ≠ 1 := by
    intro one
    rw [one, List.head?_take, if_neg (by decide)] at first
    exact version first
  have ends : deliverRecord type requestId false r = .ends fcgxUnsupportedVersion := by
    rw [deliverRecord, if_pos other]
  have carried : Carries type requestId endError
      (([] : List Record).flatMap Record.encode ++ (recordHeader r ++ bytes.drop headerLen))
      ⟨[], [], fcgxUnsupportedVersion, bytes.drop headerLen⟩ :=
    @Carries.ended _ _ _ [] ⟨[], [], false⟩ r _ _ (by simp) rfl ends
  rwa [header, List.flatMap_nil, List.nil_append, List.take_append_drop] at carried

/-- `SetReaderType` forgets the padding of the BEGIN record, so that it is read as
the next header.  If there are eight bytes to read as one, and the first of them is
not the version of the protocol, a request of a known role is accepted without any
of its parameters. -/
theorem readRequest_padded_begin {r : Record} {role : Nat} {keepConnection : Bool}
    (begins : Begins r role keepConnection) {entry : Bytes} (known : roleStr role = some entry)
    {bytes : Bytes} {ipc : Ipc} (incoming : ipc.incoming = r.encode ++ bytes)
    (accepting : ipc.Accepting) (padded : r.paddingData ≠ [])
    (unlike : r.paddingData.head? ≠ some 1)
    (enough : headerLen ≤ (r.paddingData ++ bytes).length) (misaligned : Bool)
    (request : Request) :
    ∃ (params : Params) (result : Reading),
      readRequest misaligned request ipc = .ok (some params, result) ∧
      params.vec = [entry] ∧
      result.stream.fcgiErrno = fcgxUnsupportedVersion ∧
      result.ipc.received = ipc.received := by
  have version : (r.paddingData ++ bytes).head? ≠ some 1 := by
    rwa [List.head?_append_of_ne_nil _ padded]
  obtain ⟨params, result, read, vec, same, took, rest, errno⟩ := readRequest_took begins known
    incoming accepting (carries_unsupported enough version) pairs_nil misaligned request
  refine ⟨params, result, read, vec, errno rfl, ?_⟩
  have received := took.received
  rwa [List.flatMap_nil, List.append_nil] at received

theorem readRequest_padded_begin_zeros :
    ∃ (params : Params) (result : Reading),
      readRequest false ⟨0, 0, false, false, 0, 0⟩ (plainIpc
        ((responderBegin [0, 0, 0, 0, 0, 0, 0, 0] (by decide)).encode ++ samplePairs.encode)) =
          .ok (some params, result) ∧
      params.vec = [ascii "FCGI_ROLE=RESPONDER"] ∧
      result.stream.fcgiErrno = fcgxUnsupportedVersion ∧
      result.ipc.received = [] := by
  have role : roleStr 1 = some (ascii "FCGI_ROLE=RESPONDER") := rfl
  exact readRequest_padded_begin (responderBegin_begins _ _) role rfl (plainIpc_accepting _)
    (by simp [responderBegin]) (by simp [responderBegin]) (by decide) false
    ⟨0, 0, false, false, 0, 0⟩

/-! ### An empty record of another request -/

/-- A record of another request without content, such as the end of one of its
streams. -/
structure EmptyForeign (requestId : Nat) (r : Record) : Prop where
  version : r.version = 1
  type : r.type ≠ FcgiType.kFcgiBeginRequest.code
  addressed : r.requestId ≠ 0
  foreign : r.requestId ≠ requestId
  empty : r.contentData = []

/-- A record of this stream with content. -/
structure StreamContent (type : UInt8) (requestId : Nat) (r : Record) : Prop where
  version : r.version = 1
  type : r.type = type
  requestId : r.requestId = requestId
  some : r.contentData ≠ []

theorem deliver_skipped {type : UInt8} {requestId : Nat} {foreign own : Record}
    (other : type ≠ FcgiType.kFcgiBeginRequest.code) (addressed : requestId ≠ 0)
    (isForeign : EmptyForeign requestId foreign) (isOwn : StreamContent type requestId own)
    (later : List Record) :
    deliver type requestId false (foreign :: own :: later) =
      deliver type requestId false later := by
  have first : deliverRecord type requestId false foreign = .passes [] [] true := by
    rw [deliverRecord, if_neg (not_not.mpr isForeign.version), if_neg isForeign.type,
      if_neg isForeign.addressed, if_pos isForeign.foreign, isForeign.empty]
    rfl
  have second : deliverRecord type requestId true own = .passes [] [] false := by
    rw [deliverRecord, if_neg (not_not.mpr isOwn.version), if_neg (by rw [isOwn.type]; exact other),
      if_neg (by rw [isOwn.requestId]; exact addressed), if_neg (not_not.mpr isOwn.requestId),
      if_neg (not_not.mpr isOwn.type), if_neg isOwn.some]
    rfl
  rw [deliver, first]
  simp only [deliver, second, List.nil_append, Option.map_map]
  cases deliver type requestId false later with
  | none => rfl
  | some passed => rfl

/-- Both records are as if they had not been sent. -/
theorem carries_skipped {type : UInt8} {requestId : Nat} {endError : Int} {foreign own : Record}
    {bytes : Bytes} {stream : WholeStream}
    (other : type ≠ FcgiType.kFcgiBeginRequest.code) (addressed : requestId ≠ 0)
    (isForeign : EmptyForeign requestId foreign) (isOwn : StreamContent type requestId own)
    (carries : Carries type requestId endError bytes stream) :
    Carries type requestId endError (foreign.encode ++ (own.encode ++ bytes)) stream := by
  have skipped := deliver_skipped other addressed isForeign isOwn
  have described : ∀ {records : List Record}, (∀ r ∈ records, Described r) →
      ∀ r ∈ foreign :: own :: records, Described r := by
    intro records described r member
    rcases List.mem_cons.mp member with rfl | member
    · exact fun _ => isForeign.addressed
    rcases List.mem_cons.mp member with rfl | member
    · intro _
      rw [isOwn.requestId]
      exact addressed
    · exact described r member
  have shape : ∀ (records : List Record) (more : Bytes),
      foreign.encode ++ (own.encode ++ (records.flatMap Record.encode ++ more)) =
        (foreign :: own :: records).flatMap Record.encode ++ more := by
    intro records more
    simp only [List.flatMap_cons, List.append_assoc]
  cases carries with
  | @ended records passed _ _ _ known delivers ends =>
      rw [shape]
      exact .ended (described known) ((skipped records).trans delivers) ends
  | @torn records passed _ _ _ _ _ known known_torn delivers passes short =>
      rw [shape]
      exact .torn (described known) known_torn ((skipped records).trans delivers) passes short
  | @cut records passed _ known delivers short =>
      rw [shape]
      exact .cut (described known) ((skipped records).trans delivers) short

/-- An empty record of another request between the BEGIN record and the first PARAMS
record: the request is accepted without the content of that PARAMS record, if the
stream behind it consists of complete pairs. -/
theorem readRequest_skipped_record {r foreign own : Record} {role : Nat} {keepConnection : Bool}
    (begins : Begins r role keepConnection) (unpadded : r.paddingData = [])
    {entry : Bytes} (known : roleStr role = some entry)
    (isForeign : EmptyForeign r.requestId foreign)
    (isOwn : StreamContent FcgiType.kFcgiParams.code r.requestId own)
    {bytes : Bytes} {ipc : Ipc}
    (incoming : ipc.incoming = r.encode ++ (foreign.encode ++ (own.encode ++ bytes)))
    (accepting : ipc.Accepting) {stream : WholeStream}
    (carries : Carries FcgiType.kFcgiParams.code r.requestId ipc.endError bytes stream)
    {pairs : List WirePair} (parsed : Pairs stream.content pairs [])
    (misaligned : Bool) (request : Request) :
    ∃ (params : Params) (result : Reading),
      readRequest misaligned request ipc = .ok (some params, result) ∧
      params.vec = entry :: pairs.map envEntry ∧
      result.stream.fcgiErrno = stream.errno := by
  have whole := carries_skipped (by decide) begins.requestId isForeign isOwn carries
  rw [← List.nil_append (foreign.encode ++ (own.encode ++ bytes)), ← unpadded] at whole
  obtain ⟨params, result, read, vec, same, took, rest, errno⟩ := readRequest_took begins known
    incoming accepting whole parsed misaligned request
  exact ⟨params, result, read, vec, errno rfl⟩

/-- The end of a stream of request 2. -/
def otherEnd : Record where
  version := 1
  type := FcgiType.kFcgiStdin.code
  requestIdB1 := 0
  requestIdB0 := 2
  reserved := 0
  contentData := []
  paddingData := []
  content_fits := nil_content_fits
  padding_fits := nil_padding_fits

theorem readRequest_skipped_record_pair :
    ∃ (params : Params) (result : Reading),
      readRequest false ⟨0, 0, false, false, 0, 0⟩ (plainIpc
        ((responderBegin [] nil_padding_fits).encode ++ (otherEnd.encode ++
          (samplePairs.encode ++ sampleEnd.encode)))) = .ok (some params, result) ∧
      params.vec = [ascii "FCGI_ROLE=RESPONDER"] ∧
      result.stream.fcgiErrno = 0 := by
  have carries : Carries FcgiType.kFcgiParams.code 1 fcgxProtocolError sampleEnd.encode
      ⟨[], [], 0, []⟩ :=
    @Carries.ended _ _ _ [] ⟨[], [], false⟩ sampleEnd 0 [] (by simp) rfl (by decide)
  have role : roleStr 1 = some (ascii "FCGI_ROLE=RESPONDER") := rfl
  have isForeign : EmptyForeign 1 otherEnd := ⟨rfl, by decide, by decide, by decide, rfl⟩
  have isOwn : StreamContent FcgiType.kFcgiParams.code 1 samplePairs :=
    ⟨rfl, rfl, rfl, by decide⟩
  exact readRequest_skipped_record (responderBegin_begins _ _) rfl role isForeign isOwn rfl
    (plainIpc_accepting _) carries pairs_nil false ⟨0, 0, false, false, 0, 0⟩

end Fcgx

end FastCgi
