/-
Module: FastCgi.Proofs.ResponseRecords
Layer: Proofs
Purpose: The records of a response, as a receiver reads them back: data
  records that carry the output, the empty STDOUT record and the END_REQUEST
  record, each padded to a multiple of eight bytes.
Trusted boundary: none
Main exports: drain_responseBytes, stdoutContents_flatten,
  stdoutContents_sizes, length_stdoutContents, respond_framing
-/
import FastCgi.Proofs.RespondRefinement

namespace FastCgi

/-- A response reads back as its records, with nothing behind them. -/
theorem drain_responseBytes (out : Bytes) :
    recordFraming.drain (responseBytes out) = (responseRecords out, []) :=
  recordFraming.drain_encoded recordFraming_encodes (responseRecords out)

/-! ### The pieces of an output -/

/-- Pieces of one size, taken from the front. -/
theorem flatten_pieces (out : Bytes) (size count : Nat) :
    ((List.range count).map fun i => (out.drop (i * size)).take size).flatten =
      out.take (count * size) := by
  induction count with
  | zero => simp
  | succ count inductionHypothesis =>
      rw [List.range_succ, List.map_append, List.flatten_append, inductionHypothesis,
        Nat.succ_mul, List.take_add]
      simp

theorem substrings_flatten (out : Bytes) : (substrings out).flatten = out := by
  have parts := Nat.div_add_mod out.length fcgiMaxLength
  rw [substrings, List.flatten_append, flatten_pieces, Nat.mul_comm]
  by_cases more : out.length % fcgiMaxLength ≠ 0
  · rw [if_pos more, List.flatten_singleton, List.take_append_drop]
  · rw [if_neg more, List.flatten_nil, List.append_nil]
    exact List.take_of_length_le (by omega)

/-- The contents of the data records make up the output. -/
theorem stdoutContents_flatten (out : Bytes) : (stdoutContents out).flatten = out := by
  unfold stdoutContents
  split
  · exact List.flatten_singleton
  · exact substrings_flatten out

theorem substrings_sizes {out content : Bytes} (member : content ∈ substrings out) :
    1 ≤ content.length ∧ content.length ≤ fcgiMaxLength := by
  have parts := Nat.div_add_mod out.length fcgiMaxLength
  have below := Nat.mod_lt out.length (show fcgiMaxLength > 0 by decide)
  have positive : 1 ≤ fcgiMaxLength := by decide
  rcases List.mem_append.mp member with full | rest
  · obtain ⟨i, inside, rfl⟩ := List.mem_map.mp full
    have room : (i + 1) * fcgiMaxLength ≤ out.length :=
      (Nat.le_div_iff_mul_le (by decide)).mp (List.mem_range.mp inside)
    rw [Nat.succ_mul] at room
    rw [List.length_take, List.length_drop]
    omega
  · by_cases more : out.length % fcgiMaxLength ≠ 0
    · rw [if_pos more, List.mem_singleton] at rest
      rw [rest, List.length_drop]
      omega
    · rw [if_neg more] at rest
      cases rest

/-- No data record is empty, and none is too long for its length field. -/
theorem stdoutContents_sizes {out content : Bytes} (nonempty : out ≠ [])
    (member : content ∈ stdoutContents out) :
    1 ≤ content.length ∧ content.length ≤ fcgiMaxLength := by
  unfold stdoutContents at member
  split at member
  · rename_i fits
    rw [List.mem_singleton] at member
    rw [member]
    exact ⟨List.length_pos_iff.mpr nonempty, fits⟩
  · exact substrings_sizes member

/-- As many data records as the output needs. -/
theorem length_stdoutContents {out : Bytes} (nonempty : out ≠ []) :
    (stdoutContents out).length = (out.length + (fcgiMaxLength - 1)) / fcgiMaxLength := by
  have positive := List.length_pos_iff.mpr nonempty
  -- the constant is unfolded only where the arithmetic needs its value
  unfold stdoutContents
  by_cases fits : out.length ≤ fcgiMaxLength
  · rw [if_pos fits, List.length_singleton]
    simp only [fcgiMaxLength] at fits ⊢
    omega
  · rw [if_neg fits, substrings, List.length_append, List.length_map, List.length_range]
    by_cases more : out.length % fcgiMaxLength ≠ 0
    · rw [if_pos more, List.length_singleton]
      simp only [fcgiMaxLength] at more ⊢
      omega
    · rw [if_neg more, List.length_nil]
      simp only [fcgiMaxLength] at more ⊢
      omega

/-! ### The records -/

theorem sentOutput_ne_nil (out : Bytes) : sentOutput out ≠ [] := by
  unfold sentOutput
  split
  · decide
  · assumption

theorem contentData_stdoutRecord {content : Bytes} (fits : content.length ≤ fcgiMaxLength) :
    (stdoutRecord content).contentData = content := List.take_of_length_le fits

theorem encode_stdoutRecord_aligned {content : Bytes} (fits : content.length ≤ fcgiMaxLength) :
    8 ∣ (stdoutRecord content).encode.length := by
  rw [Record.length_encode, contentData_stdoutRecord fits]
  simp only [stdoutRecord, List.length_replicate]
  omega

/-- What `responseRecords` sends is a well-framed response. -/
theorem responseRecords_wellFramed (out : Bytes) :
    WellFramed (sentOutput out) (responseRecords out)
      ((stdoutContents (sentOutput out)).map stdoutRecord) (stdoutRecord []) endRequestRecord := by
  have sizes (content : Bytes) (member : content ∈ stdoutContents (sentOutput out)) :=
    stdoutContents_sizes (sentOutput_ne_nil out) member
  have carried : ((stdoutContents (sentOutput out)).map stdoutRecord).map Record.contentData =
      stdoutContents (sentOutput out) := by
    rw [List.map_map]
    exact (List.map_congr_left fun content member =>
      contentData_stdoutRecord (sizes content member).2).trans (List.map_id _)
  have cases_record {r : Record} (member : r ∈ responseRecords out) :
      (∃ content, content.length ≤ fcgiMaxLength ∧ r = stdoutRecord content) ∨
        r = endRequestRecord := by
    rcases List.mem_append.mp member with data | behind
    · obtain ⟨content, inside, rfl⟩ := List.mem_map.mp data
      exact Or.inl ⟨content, (sizes content inside).2, rfl⟩
    · simp only [List.mem_cons, List.not_mem_nil, or_false] at behind
      rcases behind with rfl | rfl
      · exact Or.inl ⟨[], by decide, rfl⟩
      · exact Or.inr rfl
  constructor
  · rfl
  · intro r member
    obtain ⟨content, _, rfl⟩ := List.mem_map.mp member
    rfl
  · intro r member
    obtain ⟨content, inside, rfl⟩ := List.mem_map.mp member
    rw [contentData_stdoutRecord (sizes content inside).2]
    exact sizes content inside
  · rw [carried, stdoutContents_flatten]
  · rw [List.length_map]
    exact length_stdoutContents (sentOutput_ne_nil out)
  · rfl
  · rfl
  · rfl
  · rfl
  · intro r member
    rcases cases_record member with ⟨content, fits, rfl⟩ | rfl
    · exact encode_stdoutRecord_aligned fits
    · decide
  · intro r member byte padding
    rcases cases_record member with ⟨content, _, rfl⟩ | rfl
    · exact (List.mem_replicate.mp padding).2
    · cases padding

/-- For every output and every buffer, `respond` leaves what the buffer holds
and appends exactly one well-framed response. -/
theorem respond_framing (out : Bytes) (response : Buffer) :
    ∃ response' appended records data closing ending, respond out response = .ok response' ∧
      response'.readable = response.readable ++ appended ∧
      recordFraming.drain appended = (records, []) ∧
      WellFramed (sentOutput out) records data closing ending := by
  obtain ⟨response', responded, view⟩ := respond_view out response
  exact ⟨response', _, _, _, _, _, responded, view, drain_responseBytes out,
    responseRecords_wellFramed out⟩

end FastCgi
