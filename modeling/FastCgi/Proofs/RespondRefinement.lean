/-
Module: FastCgi.Proofs.RespondRefinement
Layer: Proofs
Purpose: `respond` never fails, and appends exactly the records of the
  response to its buffer.
Trusted boundary: none
Main exports: appendStdout_view, respond_view
-/
import FastCgi.Proofs.CgiccRefinement
import FastCgi.Spec.Responses

namespace FastCgi

/-! ### Header fields -/

/-- A length in network order, as it stands in memory. -/
theorem storeUInt16_hton16 {n : Nat} (small : n < 2 ^ 16) :
    storeUInt16 (hton16 (UInt16.ofNat n)) =
      [UInt8.ofNat (n / 2 ^ 8), UInt8.ofNat (n % 2 ^ 8)] := by
  have swapped : (hton16 (UInt16.ofNat n)).toNat = n / 2 ^ 8 + n % 2 ^ 8 * 2 ^ 8 := by
    rw [hton16_toNat, UInt16.toNat_ofNat', Nat.mod_eq_of_lt small]
  have high : (hton16 (UInt16.ofNat n)).toUInt8 = UInt8.ofNat (n / 2 ^ 8) := by
    apply UInt8.toNat_inj.mp
    rw [UInt16.toNat_toUInt8, swapped, UInt8.toNat_ofNat', Nat.add_mul_mod_self_right]
  have low : (hton16 (UInt16.ofNat n) >>> 8).toUInt8 = UInt8.ofNat (n % 2 ^ 8) := by
    apply UInt8.toNat_inj.mp
    have below : n / 2 ^ 8 < 2 ^ 8 := by omega
    rw [UInt16.toNat_toUInt8, UInt16.toNat_shiftRight, swapped, UInt8.toNat_ofNat',
      show UInt16.toNat 8 % 16 = 8 from rfl, Nat.shiftRight_eq_div_pow,
      Nat.add_mul_div_right _ _ (by decide), Nat.div_eq_of_lt below, Nat.zero_add]
  rw [storeUInt16, high, low]

/-- The padding completes a multiple of eight. -/
theorem paddingOf_toNat (length : Nat) : (paddingOf length).toNat = (8 - length % 8) % 8 := by
  have mask (value : Nat) : value &&& 7 = value % 8 := Nat.and_two_pow_sub_one_eq_mod value 3
  have seven : (7 : UInt64).toNat = 7 := rfl
  have negated : (-(UInt64.ofNat length)).toNat = (2 ^ 64 - length % 2 ^ 64) % 2 ^ 64 := by
    rw [UInt64.toNat_neg, UInt64.toNat_ofNat']
    rfl
  rw [paddingOf, UInt64.toNat_toUInt8, UInt64.toNat_and, seven, mask, negated]
  omega

/-! ### The pieces of a response -/

/-- One STDOUT record is appended. -/
theorem appendStdout_view (response : Buffer) {content : Bytes}
    (fits : content.length ≤ fcgiMaxLength) :
    ∃ response', appendStdout response content.length content = .ok response' ∧
      response'.readable = response.readable ++ (stdoutRecord content).encode := by
  have whole : content.take fcgiMaxLength = content := List.take_of_length_le fits
  have small : content.length < 2 ^ 16 := by
    rw [fcgiMaxLength] at fits
    omega
  have padding : paddingOf content.length = UInt8.ofNat ((8 - content.length % 8) % 8) :=
    byte_eq_ofNat _ (paddingOf_toNat content.length)
  unfold appendStdout
  obtain ⟨response₁, appended₁, view₁⟩ := response.append_view (stdoutHeader content.length).memory
  obtain ⟨response₂, appended₂, view₂⟩ := response₁.append_view content
  obtain ⟨response₃, appended₃, view₃⟩ := response₂.append_view
    (List.replicate (stdoutHeader content.length).padding.toNat 0)
  simp only [appended₁, appended₂, appended₃, ok_bind]
  refine ⟨response₃, rfl, ?_⟩
  rw [view₃, view₂, view₁, show (stdoutHeader content.length).padding.toNat = _ from
    paddingOf_toNat content.length]
  simp only [RecordHeader.memory, stdoutHeader, storeUInt16_hton16 small, padding, stdoutRecord,
    Record.encode, whole, List.length_replicate, List.append_assoc]
  rfl

theorem endStdout_view (response : Buffer) :
    ∃ response', endStdout response = .ok response' ∧
      response'.readable = response.readable ++ (stdoutRecord []).encode :=
  response.append_view _

theorem endRequest_view (response : Buffer) :
    ∃ response', endRequest response = .ok response' ∧
      response'.readable = response.readable ++ endRequestRecord.encode := by
  unfold endRequest
  obtain ⟨response₁, appended₁, view₁⟩ := response.append_view endRequestHeader.memory
  obtain ⟨response₂, appended₂, view₂⟩ := response₁.append_view (storeUInt32 (hton32 0))
  obtain ⟨response₃, appended₃, view₃⟩ := response₂.append_view (storeUInt32 (hton32 0))
  simp only [Buffer.appendInt32, appended₁, appended₂, appended₃, ok_bind]
  refine ⟨response₃, rfl, ?_⟩
  rw [view₃, view₂, view₁, List.append_assoc, List.append_assoc]
  rfl

/-- Statements that each append their bytes append them one after the
other. -/
theorem foldlM_append_view {α : Type} {statement : Buffer → α → Except Fault Buffer}
    {bytes : α → Bytes} (items : List α)
    (appends : ∀ item ∈ items, ∀ response, ∃ response', statement response item = .ok response' ∧
      response'.readable = response.readable ++ bytes item) (response : Buffer) :
    ∃ response', items.foldlM statement response = .ok response' ∧
      response'.readable = response.readable ++ items.flatMap bytes := by
  induction items generalizing response with
  | nil => exact ⟨response, rfl, by simp⟩
  | cons item items inductionHypothesis =>
      obtain ⟨response₁, appended₁, view₁⟩ := appends item List.mem_cons_self response
      obtain ⟨response₂, appended₂, view₂⟩ := inductionHypothesis
        (fun other member => appends other (List.mem_cons_of_mem item member)) response₁
      refine ⟨response₂, ?_, ?_⟩
      · rw [List.foldlM_cons, appended₁, ok_bind, appended₂]
      · rw [view₂, view₁, List.flatMap_cons, List.append_assoc]

/-- The `i`-th full piece is cut out and appended. -/
theorem fullPiece_view {out : Bytes} {i : Nat} (inside : i < out.length / fcgiMaxLength)
    (response : Buffer) :
    ∃ response', (do
        let outSubString ← substr out (i * fcgiMaxLength) (some fcgiMaxLength)
        appendStdout response fcgiMaxLength outSubString) = .ok response' ∧
      response'.readable = response.readable ++
        (stdoutRecord ((out.drop (i * fcgiMaxLength)).take fcgiMaxLength)).encode := by
  have room : (i + 1) * fcgiMaxLength ≤ out.length :=
    (Nat.le_div_iff_mul_le (by decide)).mp inside
  rw [Nat.succ_mul] at room
  have size : ((out.drop (i * fcgiMaxLength)).take fcgiMaxLength).length = fcgiMaxLength := by
    rw [List.length_take, List.length_drop]
    omega
  have cut : substr out (i * fcgiMaxLength) (some fcgiMaxLength) =
      .ok ((out.drop (i * fcgiMaxLength)).take fcgiMaxLength) :=
    if_pos (Nat.le_of_add_right_le room)
  have appended := appendStdout_view response (Nat.le_of_eq size)
  rw [size] at appended
  simpa only [cut, ok_bind] using appended

/-- The pieces of an output that needs more than one record. -/
theorem appendSubstrings_view (response : Buffer) (out : Bytes) :
    ∃ response', appendSubstrings response out = .ok response' ∧
      response'.readable =
        response.readable ++ ((substrings out).map stdoutRecord).flatMap Record.encode := by
  obtain ⟨response₁, appended₁, view₁⟩ := foldlM_append_view
    (List.range (out.length / fcgiMaxLength))
    (fun i member => fullPiece_view (List.mem_range.mp member)) response
  have start : fcgiMaxLength * (out.length / fcgiMaxLength) ≤ out.length :=
    Nat.mul_div_le out.length fcgiMaxLength
  unfold appendSubstrings substrings
  by_cases more : out.length % fcgiMaxLength ≠ 0
  · have fits : (out.drop (fcgiMaxLength * (out.length / fcgiMaxLength))).length ≤
        fcgiMaxLength := by
      have below := Nat.mod_lt out.length (show fcgiMaxLength > 0 by decide)
      have parts := Nat.div_add_mod out.length fcgiMaxLength
      rw [List.length_drop]
      omega
    obtain ⟨response₂, appended₂, view₂⟩ := appendStdout_view response₁ fits
    refine ⟨response₂, ?_, ?_⟩
    · simp only [appended₁, ok_bind, if_pos more, substr_rest start, appended₂]
    · simp [view₂, view₁, more, List.flatMap_map]
  · refine ⟨response₁, ?_, ?_⟩
    · simp only [appended₁, ok_bind, if_neg more]
      rfl
    · simp [view₁, more, List.flatMap_map]

theorem appendOutput_view (response : Buffer) (out : Bytes) :
    ∃ response', appendOutput response out = .ok response' ∧
      response'.readable =
        response.readable ++ ((stdoutContents out).map stdoutRecord).flatMap Record.encode := by
  unfold appendOutput stdoutContents
  by_cases fits : out.length ≤ fcgiMaxLength
  · simpa only [if_pos fits, List.map_singleton, List.flatMap_singleton] using
      appendStdout_view response fits
  · simpa only [if_neg fits] using appendSubstrings_view response out

/-- `respond` never fails: it leaves what the buffer holds and appends the
records of the response. -/
theorem respond_view (out : Bytes) (response : Buffer) :
    ∃ response', respond out response = .ok response' ∧
      response'.readable = response.readable ++ responseBytes out := by
  obtain ⟨response₁, appended₁, view₁⟩ :=
    appendOutput_view response (if out = [] then emptyResult else out)
  obtain ⟨response₂, appended₂, view₂⟩ := endStdout_view response₁
  obtain ⟨response₃, appended₃, view₃⟩ := endRequest_view response₂
  refine ⟨response₃, ?_, ?_⟩
  · unfold respond
    simp only [appended₁, appended₂, appended₃, ok_bind]
  · simp [view₃, view₂, view₁, responseBytes, responseRecords, sentOutput]

end FastCgi
