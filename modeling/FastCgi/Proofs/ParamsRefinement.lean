/-
Module: FastCgi.Proofs.ParamsRefinement
Layer: Proofs
Purpose: `readLen` and `parseAllParams` against the name-value grammar.  A
  length that is read is below `2 ^ 31`, so neither the error value nor a
  wrapped 32-bit sum can be mistaken for one; the loop always ends, takes
  exactly the complete pairs off the stream and assigns them in order.
Trusted boundary: none
Main exports: readLen_of_none, readLen_of_some, lengths_sum,
  parseAllParams_view, parseAllParams_grammar
-/
import FastCgi.Proofs.BufferView
import FastCgi.Spec.Requests

namespace FastCgi

open Library (Turn runLoop runLoop_total assignAll getElem?_assignAll lastValue Framing)

/-- A decidable fact about bytes holds of every byte if it holds of the 256
values. -/
theorem forall_byte (property : UInt8 → Prop)
    (all : ∀ n : Fin 256, property (UInt8.ofNat n.val)) (byte : UInt8) : property byte := by
  have bound : byte.toNat < 256 := byte.toNat_lt
  have here := all ⟨byte.toNat, bound⟩
  rwa [UInt8.ofNat_toNat] at here

/-- `byte & 0x80` tests the form of a length. -/
theorem topBit_iff (byte : UInt8) : byte &&& 0x80 ≠ 0 ↔ ¬ byte.toNat < 2 ^ 7 :=
  forall_byte (fun byte => byte &&& 0x80 ≠ 0 ↔ ¬ byte.toNat < 2 ^ 7) (by decide +kernel) byte

/-- Sign extension does nothing to a one-byte length. -/
theorem signExtend_of_lt {byte : UInt8} (short : byte.toNat < 2 ^ 7) :
    byte.toInt8.toInt32.toUInt32 = UInt32.ofNat byte.toNat :=
  forall_byte
    (fun byte =>
      byte.toNat < 2 ^ 7 → byte.toInt8.toInt32.toUInt32 = UInt32.ofNat byte.toNat)
    (by decide +kernel) byte short

/-- The mask removes the form bit of a four-byte length. -/
theorem mask_of_not_lt {b0 b1 b2 b3 : UInt8} (long : ¬ b0.toNat < 2 ^ 7) :
    ntoh32 (loadUInt32 b0 b1 b2 b3) &&& 0x7fffffff =
      UInt32.ofNat (2 ^ 24 * (b0.toNat - 2 ^ 7) + 2 ^ 16 * b1.toNat + 2 ^ 8 * b2.toNat +
        b3.toNat) := by
  have bound0 := b0.toNat_lt
  have bound1 := b1.toNat_lt
  have bound2 := b2.toNat_lt
  have bound3 := b3.toNat_lt
  apply UInt32.toNat_inj.mp
  have mask : (0x7fffffff : UInt32).toNat = 2 ^ 31 - 1 := rfl
  rw [UInt32.toNat_and, ntoh32_loadUInt32, mask, Nat.and_two_pow_sub_one_eq_mod,
    UInt32.toNat_ofNat', Nat.mod_eq_of_lt (b := 2 ^ 32) (by omega)]
  omega

/-- A length the decoder yields fits its form. -/
theorem nextLength_fits {stream : Bytes} {form : LengthForm} {length : Nat} {rest : Bytes}
    (cut : nextLength stream = some ((form, length), rest)) : form.Fits length :=
  (nextLength_eq_some_iff.mp cut).1

/-- Without a complete length `readLen` returns its error value and consumes
nothing. -/
theorem readLen_of_none {stream : Buffer} (waits : nextLength stream.readable = none) :
    readLen stream = .ok (lenError, stream) := by
  have size := stream.length_readable
  cases view : stream.readable with
  | nil =>
      rw [view, List.length_nil] at size
      have short : ¬ 1 ≤ stream.readableBytes := by omega
      simp only [readLen, if_neg short]
      rfl
  | cons b0 rest =>
      rw [view] at waits size
      simp only [List.length_cons] at size
      have some : 1 ≤ stream.readableBytes := by omega
      simp only [nextLength] at waits
      split at waits
      · cases waits
      · rename_i long
        -- the four-byte form with fewer than four bytes left
        have few : ¬ 4 ≤ stream.readableBytes := by
          intro enough
          rcases rest with _ | ⟨b1, _ | ⟨b2, _ | ⟨b3, rest⟩⟩⟩
          · simp only [List.length_nil] at size
            omega
          · simp only [List.length_cons, List.length_nil] at size
            omega
          · simp only [List.length_cons, List.length_nil] at size
            omega
          · cases waits
        simp only [readLen, if_pos some, Buffer.peekInt8_view view, ok_bind,
          if_pos ((topBit_iff b0).mpr long), if_neg few]
        rfl

/-- A complete length is read and consumed. -/
theorem readLen_of_some {stream : Buffer} {form : LengthForm} {length : Nat} {rest : Bytes}
    (cut : nextLength stream.readable = some ((form, length), rest)) :
    ∃ stream', readLen stream = .ok (UInt32.ofNat length, stream') ∧
      stream'.readable = rest := by
  have size := stream.length_readable
  cases view : stream.readable with
  | nil => rw [view] at cut; cases cut
  | cons b0 tail =>
      rw [view] at cut size
      simp only [List.length_cons] at size
      have some : 1 ≤ stream.readableBytes := by omega
      simp only [nextLength] at cut
      split at cut
      · rename_i short
        cases cut
        obtain ⟨stream', read, left⟩ := Buffer.readInt8_view view
        refine ⟨stream', ?_, left⟩
        have clear : ¬ (b0 &&& 0x80 ≠ 0) := by
          rw [topBit_iff]
          omega
        simp only [readLen, if_pos some, Buffer.peekInt8_view view, ok_bind, if_neg clear, read,
          signExtend_of_lt short]
        rfl
      · rename_i long
        split at cut
        · rename_i b1 b2 b3 last
          cases cut
          simp only [List.length_cons] at size
          have enough : 4 ≤ stream.readableBytes := by omega
          obtain ⟨stream', read, left⟩ := Buffer.readInt32_view view
          refine ⟨stream', ?_, left⟩
          simp only [readLen, if_pos some, Buffer.peekInt8_view view, ok_bind,
            if_pos ((topBit_iff b0).mpr long), if_pos enough, read, mask_of_not_lt long]
          rfl
        · cases cut

/-- A decoded length survives the conversion to `uint32_t`. -/
theorem length_toNat {form : LengthForm} {length : Nat} (fits : form.Fits length) :
    (UInt32.ofNat length).toNat = length := by
  have small := fits.lt
  rw [UInt32.toNat_ofNat', Nat.mod_eq_of_lt (by omega)]

/-- A decoded length is never the error value. -/
theorem length_ne_lenError {form : LengthForm} {length : Nat} (fits : form.Fits length) :
    UInt32.ofNat length ≠ lenError := by
  intro same
  have value := length_toNat fits
  have small := fits.lt
  have error : lenError.toNat = 2 ^ 32 - 1 := rfl
  rw [same, error] at value
  omega

/-- The sum of two decoded lengths does not wrap. -/
theorem lengths_sum {nameForm valueForm : LengthForm} {nameLen valueLen : Nat}
    (name : nameForm.Fits nameLen) (value : valueForm.Fits valueLen) :
    (UInt32.ofNat nameLen + UInt32.ofNat valueLen).toNat = nameLen + valueLen := by
  have nameSmall := name.lt
  have valueSmall := value.lt
  rw [UInt32.toNat_add, length_toNat name, length_toNat value, Nat.mod_eq_of_lt (by omega)]

/-- One turn on an empty stream: the whole stream was accepted. -/
theorem parseAllParamsTurn_nil {stream : Buffer} {params : ParamMap}
    (view : stream.readable = []) :
    parseAllParamsTurn (stream, params) = .ok (.leave (true, stream, params)) := by
  have size := stream.length_readable
  rw [view, List.length_nil] at size
  have done : ¬ 0 < stream.readableBytes := by omega
  simp only [parseAllParamsTurn, if_neg done]
  rfl

/-- One turn on a complete pair: it is taken off the stream and assigned. -/
theorem parseAllParamsTurn_of_some {stream : Buffer} (params : ParamMap) {pair : WirePair}
    {rest : Bytes} (cut : nextPair stream.readable = some (pair, rest)) :
    ∃ stream', parseAllParamsTurn (stream, params) =
        .ok (.again (stream', params.insert pair.name pair.value)) ∧
      stream'.readable = rest := by
  have view := nextPair_eq_some_iff.mp cut
  have size := stream.length_readable
  have positive := pair.encode_length_pos
  have more : 0 < stream.readableBytes := by
    rw [view, List.length_append] at size
    omega
  simp only [WirePair.encode, List.append_assoc] at view
  obtain ⟨stream₁, readName, view₁⟩ :=
    readLen_of_some (by rw [view]; exact nextLength_encode pair.name_fits _)
  obtain ⟨stream₂, readValue, view₂⟩ :=
    readLen_of_some (by rw [view₁]; exact nextLength_encode pair.value_fits _)
  have size₂ := stream₂.length_readable
  rw [view₂] at size₂
  simp only [List.length_append] at size₂
  have room : (UInt32.ofNat pair.name.length + UInt32.ofNat pair.value.length).toNat ≤
      stream₂.readableBytes := by
    rw [lengths_sum pair.name_fits pair.value_fits]
    omega
  obtain ⟨stream₃, takeName, view₃⟩ :=
    stream₂.retrieveAsString_view pair.name.length (by rw [view₂]; simp)
  rw [view₂, List.drop_left] at view₃
  obtain ⟨stream₄, takeValue, view₄⟩ :=
    stream₃.retrieveAsString_view pair.value.length (by rw [view₃]; simp)
  rw [view₂, List.take_left] at takeName
  rw [view₃, List.take_left] at takeValue
  rw [view₃, List.drop_left] at view₄
  refine ⟨stream₄, ?_, view₄⟩
  simp only [parseAllParamsTurn, if_pos more, readName, ok_bind,
    if_neg (length_ne_lenError pair.name_fits), readValue,
    if_neg (length_ne_lenError pair.value_fits), if_pos room, length_toNat pair.name_fits,
    takeName, length_toNat pair.value_fits, takeValue]
  rfl

/-- One turn on an incomplete pair: the stream is rejected, and the lengths
that could be read are gone from it. -/
theorem parseAllParamsTurn_of_none {stream : Buffer} (params : ParamMap)
    (waits : nextPair stream.readable = none) (nonempty : stream.readable ≠ []) :
    ∃ stream', parseAllParamsTurn (stream, params) = .ok (.leave (false, stream', params)) ∧
      stream'.readable = stuckTail stream.readable := by
  have size := stream.length_readable
  have more : 0 < stream.readableBytes := by
    rw [← size]
    exact List.length_pos_iff.mpr nonempty
  cases nameCut : nextLength stream.readable with
  | none =>
      refine ⟨stream, ?_, by simp only [stuckTail, nameCut]⟩
      simp only [parseAllParamsTurn, if_pos more, readLen_of_none nameCut, ok_bind, if_true]
      rfl
  | some cutName =>
      obtain ⟨⟨nameForm, nameLen⟩, rest₁⟩ := cutName
      have nameFits := nextLength_fits nameCut
      obtain ⟨stream₁, readName, view₁⟩ := readLen_of_some nameCut
      subst view₁
      cases valueCut : nextLength stream₁.readable with
      | none =>
          refine ⟨stream₁, ?_, by simp only [stuckTail, nameCut, valueCut]⟩
          simp only [parseAllParamsTurn, if_pos more, readName, ok_bind,
            if_neg (length_ne_lenError nameFits), readLen_of_none valueCut, if_true]
          rfl
      | some cutValue =>
          obtain ⟨⟨valueForm, valueLen⟩, rest₂⟩ := cutValue
          have valueFits := nextLength_fits valueCut
          obtain ⟨stream₂, readValue, view₂⟩ := readLen_of_some valueCut
          subst view₂
          refine ⟨stream₂, ?_, by simp only [stuckTail, nameCut, valueCut]⟩
          have short : ¬ (UInt32.ofNat nameLen + UInt32.ofNat valueLen).toNat ≤
              stream₂.readableBytes := by
            rw [lengths_sum nameFits valueFits]
            intro room
            simp only [nextPair, nameCut, valueCut] at waits
            rw [dif_pos ⟨nameFits, valueFits, by rw [stream₂.length_readable]; exact room⟩] at waits
            cases waits
          simp only [parseAllParamsTurn, if_pos more, readName, ok_bind,
            if_neg (length_ne_lenError nameFits), readValue,
            if_neg (length_ne_lenError valueFits), if_neg short]
          rfl

theorem stuckTail_nil : stuckTail [] = [] := rfl

/-- The loop invariant: what is still to come completes the result that the
whole stream has from the start. -/
def ParamsToCome (stream : Bytes) (params : ParamMap) (state : Buffer × ParamMap) : Prop :=
  (pairFraming.drain state.1.readable).2 = (pairFraming.drain stream).2 ∧
    assignAll state.2 ((pairFraming.drain state.1.readable).1.map WirePair.entry) =
      assignAll params ((pairFraming.drain stream).1.map WirePair.entry)

/-- The result of the loop over a stream. -/
def ParamsParsed (stream : Bytes) (params : ParamMap) (result : Bool × Buffer × ParamMap) :
    Prop :=
  result.1 = decide ((pairFraming.drain stream).2 = []) ∧
    result.2.1.readable = stuckTail (pairFraming.drain stream).2 ∧
    result.2.2 = assignAll params ((pairFraming.drain stream).1.map WirePair.entry)

/-- Every turn either finishes or keeps the invariant on a shorter stream. -/
theorem parseAllParamsTurn_keeps {stream : Bytes} {params : ParamMap}
    (state : Buffer × ParamMap) (toCome : ParamsToCome stream params state) :
    (∃ result, parseAllParamsTurn state = .ok (.leave result) ∧
        ParamsParsed stream params result) ∨
      ∃ next, parseAllParamsTurn state = .ok (.again next) ∧ ParamsToCome stream params next ∧
        next.1.readable.length < state.1.readable.length := by
  obtain ⟨current, assigned⟩ := state
  obtain ⟨rest, complete⟩ := toCome
  simp only at rest complete
  cases cut : nextPair current.readable with
  | some taken =>
      obtain ⟨pair, left⟩ := taken
      obtain ⟨current', turned, view⟩ := parseAllParamsTurn_of_some assigned cut
      subst view
      rw [pairFraming.drain_of_next_some cut] at rest complete
      exact Or.inr ⟨_, turned, ⟨rest, complete⟩, pairFraming.shrinks cut⟩
  | none =>
      rw [pairFraming.drain_of_next_none cut] at rest complete
      by_cases empty : current.readable = []
      · refine Or.inl ⟨_, parseAllParamsTurn_nil empty, ?_, ?_, complete⟩
        · simp [← rest, empty]
        · rw [← rest, empty, stuckTail_nil]
      · obtain ⟨current', turned, view⟩ := parseAllParamsTurn_of_none assigned cut empty
        refine Or.inl ⟨_, turned, ?_, ?_, complete⟩
        · simp [← rest, empty]
        · rw [view, ← rest]

/-- `parseAllParams` ends without a fault, accepts exactly the streams that
are made of complete pairs, and assigns every complete pair at the front. -/
theorem parseAllParams_view (stream : Buffer) (params : ParamMap) :
    ∃ stream', parseAllParams stream params =
        .ok (decide ((pairFraming.drain stream.readable).2 = []), stream',
          assignAll params ((pairFraming.drain stream.readable).1.map WirePair.entry)) ∧
      stream'.readable = stuckTail (pairFraming.drain stream.readable).2 := by
  have parsed : ∃ result, parseAllParams stream params = .ok result ∧
      ParamsParsed stream.readable params result :=
    runLoop_total (ParamsToCome stream.readable params) (fun state => state.1.readable.length)
      (ParamsParsed stream.readable params) parseAllParamsTurn_keeps ⟨rfl, rfl⟩
      (by simp only [stream.length_readable]; omega)
  obtain ⟨⟨accepted, stream', params'⟩, ran, decided, view, assigned⟩ := parsed
  simp only at decided view assigned
  exact ⟨stream', by rw [ran, decided, assigned], view⟩

/-! ### The grammar -/

theorem longestPairs_drain (stream : Bytes) :
    LongestPairs stream (pairFraming.drain stream).1 where
  start := ⟨_, pairFraming.drain_flatMap pairFraming_inverts stream⟩
  longest := fun _ start => pairFraming.flatMap_length_le_drain pairFraming_inverts start

/-- The map holds the last value of each name. -/
theorem getElem?_assigned (pairs : List WirePair) (name : Bytes) :
    (assignAll ∅ (pairs.map WirePair.entry) : ParamMap)[name]? =
      lastValue name (pairs.map WirePair.entry) := by
  rw [getElem?_assignAll, Std.ExtTreeMap.getElem?_empty, Option.or_none]

/-- `parseAllParams` on any stream, from an empty map: it returns true exactly
if the stream is made of complete pairs, which are then determined by it, the
stream is left empty and the map has the last value of each name; if it returns
false, the map has the last values of the longest beginning that is made of
complete pairs. -/
theorem parseAllParams_grammar (stream : Buffer) :
    ∃ accepted stream' params, parseAllParams stream ∅ = .ok (accepted, stream', params) ∧
      (accepted = true ↔
        ∃ pairs : List WirePair, stream.readable = pairs.flatMap WirePair.encode) ∧
      (∀ pairs : List WirePair, stream.readable = pairs.flatMap WirePair.encode →
        (∀ other : List WirePair, stream.readable = other.flatMap WirePair.encode →
            other = pairs) ∧
          stream'.readable = [] ∧
          ∀ name : Bytes, params[name]? = lastValue name (pairs.map WirePair.entry)) ∧
      (accepted = false → ∃ pairs, LongestPairs stream.readable pairs ∧
        ∀ name : Bytes, params[name]? = lastValue name (pairs.map WirePair.entry)) := by
  obtain ⟨stream', parsed, left⟩ := parseAllParams_view stream ∅
  refine ⟨_, stream', _, parsed, ?_, ?_, ?_⟩
  · rw [decide_eq_true_eq]
    exact pairFraming.drain_rest_eq_nil_iff pairFraming_inverts stream.readable
  · intro pairs whole
    have drained : pairFraming.drain stream.readable = (pairs, []) := by
      rw [whole, pairFraming.drain_encoded pairFraming_encodes]
    refine ⟨?_, ?_, ?_⟩
    · intro other same
      rw [same, pairFraming.drain_encoded pairFraming_encodes] at drained
      exact (Prod.mk.inj drained).1
    · rw [left, drained, stuckTail_nil]
    · intro name
      rw [drained, getElem?_assigned]
  · intro _
    exact ⟨_, longestPairs_drain stream.readable, getElem?_assigned _⟩

end FastCgi
