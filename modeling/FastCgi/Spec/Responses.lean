/-
Module: FastCgi.Spec.Responses
Layer: Spec
Purpose: The records of a response: the output cut into STDOUT records, an
  empty STDOUT record and an END_REQUEST record.
Trusted boundary: human-reviewed spec
Main exports: stdoutRecord, stdoutContents, sentOutput, responseRecords,
  responseBytes, WellFramed, WellFormedRequest.AddressedBy
-/
import FastCgi.Model.Respond
import FastCgi.Spec.WellFormed

namespace FastCgi

/-- A STDOUT record of request one, padded with zeros to a multiple of eight
bytes.  A content that does not fit is cut off. -/
def stdoutRecord (content : Bytes) : Record where
  version := 1
  type := FcgiType.kFcgiStdout.code
  requestIdB1 := 0
  requestIdB0 := 1
  reserved := 0
  contentData := content.take fcgiMaxLength
  paddingData := List.replicate ((8 - content.length % 8) % 8) 0
  content_fits := by
    rw [List.length_take, fcgiMaxLength]
    omega
  padding_fits := by
    rw [List.length_replicate]
    omega

/-- The END_REQUEST record of request one: status zero, protocol status
zero. -/
def endRequestRecord : Record where
  version := 1
  type := FcgiType.kFcgiEndRequest.code
  requestIdB1 := 0
  requestIdB0 := 1
  reserved := 0
  contentData := [0, 0, 0, 0, 0, 0, 0, 0]
  paddingData := []
  content_fits := by decide
  padding_fits := nil_padding_fits

/-- The pieces of an output that does not fit into one record. -/
def substrings (out : Bytes) : List Bytes :=
  (List.range (out.length / fcgiMaxLength)).map
      (fun i => (out.drop (i * fcgiMaxLength)).take fcgiMaxLength) ++
    if out.length % fcgiMaxLength ≠ 0 then
      [out.drop (fcgiMaxLength * (out.length / fcgiMaxLength))]
    else []

/-- The contents of the STDOUT records in which an output is sent. -/
def stdoutContents (out : Bytes) : List Bytes :=
  if out.length ≤ fcgiMaxLength then [out] else substrings out

/-- The output that is sent: an empty one is replaced by a page. -/
def sentOutput (out : Bytes) : Bytes := if out = [] then emptyResult else out

/-- The records of a response. -/
def responseRecords (out : Bytes) : List Record :=
  (stdoutContents (sentOutput out)).map stdoutRecord ++ [stdoutRecord [], endRequestRecord]

/-- The bytes of a response. -/
def responseBytes (out : Bytes) : Bytes := (responseRecords out).flatMap Record.encode

/-- The records of a response of any length: STDOUT records of one to 65535
bytes each, as many as needed, that carry the output, then one empty STDOUT
record, then one END_REQUEST record of eight zero bytes; every record takes a
multiple of eight bytes and is padded with zeros. -/
structure WellFramed (out : Bytes) (records data : List Record) (closing ending : Record) :
    Prop where
  order : records = data ++ [closing, ending]
  data_stdout : ∀ r ∈ data, r.isOf .kFcgiStdout = true
  data_sizes : ∀ r ∈ data, 1 ≤ r.contentData.length ∧ r.contentData.length ≤ 65535
  data_carry : (data.map Record.contentData).flatten = out
  data_count : data.length = (out.length + 65534) / 65535
  closing_stdout : closing.isOf .kFcgiStdout = true
  closing_empty : closing.contentData = []
  ending_type : ending.isOf .kFcgiEndRequest = true
  ending_zero : ending.contentData = List.replicate 8 0
  aligned : ∀ r ∈ records, 8 ∣ r.encode.length
  padded : ∀ r ∈ records, ∀ byte ∈ r.paddingData, byte = 0

/-- Every record of the response has the id of the request's records. -/
def WellFormedRequest.AddressedBy (request : WellFormedRequest) (response : Bytes) : Prop :=
  ∀ sent ∈ (recordFraming.drain response).1, ∀ received ∈ request.records,
    sent.requestId = received.requestId

end FastCgi
