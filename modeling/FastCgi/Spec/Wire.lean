/-
Module: FastCgi.Spec.Wire
Layer: Spec
Purpose: The two grammars of the wire, each with an encoder and a decoder that
  are inverse to one another: FastCGI records (the struct quoted at the top of
  cocgi/cocgi_lib/fastcgi.cpp) and name-value pairs with one-byte and
  four-byte lengths (the four structs quoted above `parseAllParams`).
Trusted boundary: human-reviewed spec
Main exports: Record, Record.encode, nextRecord_eq_some_iff, recordFraming,
  LongestRecords, LengthForm, WirePair, WirePair.encode, nextPair_eq_some_iff, pairFraming,
  LongestPairs
-/
import FastCgi.Library.Framing
import FastCgi.Model.Endian

namespace FastCgi

open Library (Framing)

/-! ### Records -/

/-- `FCGI_Record`.  The two length fields of the header are determined by the
data they measure, which therefore fits them. -/
structure Record where
  version : UInt8
  type : UInt8
  requestIdB1 : UInt8
  requestIdB0 : UInt8
  reserved : UInt8
  contentData : Bytes
  paddingData : Bytes
  content_fits : contentData.length < 2 ^ 16
  padding_fits : paddingData.length < 2 ^ 8
deriving DecidableEq

theorem nil_content_fits : ([] : Bytes).length < 2 ^ 16 := by decide

theorem nil_padding_fits : ([] : Bytes).length < 2 ^ 8 := by decide

/-- The request a record belongs to. -/
def Record.requestId (r : Record) : Nat := 2 ^ 8 * r.requestIdB1.toNat + r.requestIdB0.toNat

/-- The bytes of a record. -/
def Record.encode (r : Record) : Bytes :=
  r.version :: r.type :: r.requestIdB1 :: r.requestIdB0 ::
    UInt8.ofNat (r.contentData.length / 2 ^ 8) :: UInt8.ofNat (r.contentData.length % 2 ^ 8) ::
      UInt8.ofNat r.paddingData.length :: r.reserved :: (r.contentData ++ r.paddingData)

/-- The next complete record of a byte stream. -/
def nextRecord : Bytes → Option (Record × Bytes)
  | version :: type :: idB1 :: idB0 :: lengthB1 :: lengthB0 :: padding :: reserved :: rest =>
      let length := 2 ^ 8 * lengthB1.toNat + lengthB0.toNat
      if length + padding.toNat ≤ rest.length then
        some
          ({ version := version
             type := type
             requestIdB1 := idB1
             requestIdB0 := idB0
             reserved := reserved
             contentData := rest.take length
             paddingData := (rest.drop length).take padding.toNat
             content_fits := by
              have high := lengthB1.toNat_lt
              have low := lengthB0.toNat_lt
              rw [List.length_take]
              omega
             padding_fits := by
              have small := padding.toNat_lt
              rw [List.length_take]
              omega },
            rest.drop (length + padding.toNat))
      else
        none
  | _ => none

/-- Cutting a list at two places and joining the three pieces. -/
theorem take_take_drop {α : Type} (items : List α) (first second : Nat) :
    items.take first ++ ((items.drop first).take second ++ items.drop (first + second)) =
      items := by
  rw [← List.drop_drop, List.take_append_drop, List.take_append_drop]

theorem byte_toNat {n : Nat} (small : n < 2 ^ 8) : (UInt8.ofNat n).toNat = n := by
  rw [UInt8.toNat_ofNat', Nat.mod_eq_of_lt small]

/-- The length field of a record reads back as the content's length. -/
theorem contentLength_decode {length : Nat} (fits : length < 2 ^ 16) :
    2 ^ 8 * (UInt8.ofNat (length / 2 ^ 8)).toNat + (UInt8.ofNat (length % 2 ^ 8)).toNat =
      length := by
  rw [byte_toNat (by omega), byte_toNat (by omega)]
  omega

theorem nextRecord_encode (r : Record) (more : Bytes) :
    nextRecord (r.encode ++ more) = some (r, more) := by
  have length := contentLength_decode r.content_fits
  have padding := byte_toNat r.padding_fits
  have room : r.contentData.length + r.paddingData.length ≤
      ((r.contentData ++ r.paddingData) ++ more).length := by
    simp only [List.length_append]
    omega
  have rest : ((r.contentData ++ r.paddingData) ++ more).drop
      (r.contentData.length + r.paddingData.length) = more := by
    rw [← List.length_append, List.drop_left]
  simp only [Record.encode, List.cons_append, nextRecord, length, padding, if_pos room, rest]
  simp

/-- The decoder's byte of a length that was read back. -/
theorem byte_eq_ofNat (byte : UInt8) {n : Nat} (same : byte.toNat = n) :
    byte = UInt8.ofNat n := by
  rw [← same, UInt8.ofNat_toNat]

/-- The decoder accepts exactly the encodings. -/
theorem nextRecord_eq_some_iff {stream : Bytes} {r : Record} {rest : Bytes} :
    nextRecord stream = some (r, rest) ↔ stream = r.encode ++ rest := by
  constructor
  · intro cut
    unfold nextRecord at cut
    split at cut
    · rename_i version type idB1 idB0 lengthB1 lengthB0 padding reserved tail
      simp only at cut
      split at cut
      · rename_i room
        have high := lengthB1.toNat_lt
        have low := lengthB0.toNat_lt
        cases cut
        have content : (tail.take (2 ^ 8 * lengthB1.toNat + lengthB0.toNat)).length =
            2 ^ 8 * lengthB1.toNat + lengthB0.toNat := by
          rw [List.length_take]
          omega
        have pad : ((tail.drop (2 ^ 8 * lengthB1.toNat + lengthB0.toNat)).take
            padding.toNat).length = padding.toNat := by
          rw [List.length_take, List.length_drop]
          omega
        have byte1 : lengthB1 =
            UInt8.ofNat ((2 ^ 8 * lengthB1.toNat + lengthB0.toNat) / 2 ^ 8) :=
          byte_eq_ofNat lengthB1 (by omega)
        have byte0 : lengthB0 =
            UInt8.ofNat ((2 ^ 8 * lengthB1.toNat + lengthB0.toNat) % 2 ^ 8) :=
          byte_eq_ofNat lengthB0 (by omega)
        simp only [Record.encode, content, pad, ← byte1, ← byte0, UInt8.ofNat_toNat,
          List.cons_append]
        rw [List.append_assoc, take_take_drop]
      · cases cut
    · cases cut
  · rintro rfl
    exact nextRecord_encode r rest

/-- A stream of at least eight bytes starts with a header. -/
theorem header_of_length {stream : Bytes} (long : 8 ≤ stream.length) :
    ∃ version type idB1 idB0 lengthB1 lengthB0 padding reserved rest, stream =
      version :: type :: idB1 :: idB0 :: lengthB1 :: lengthB0 :: padding :: reserved :: rest := by
  rcases stream with
    _ | ⟨b0, _ | ⟨b1, _ | ⟨b2, _ | ⟨b3, _ | ⟨b4, _ | ⟨b5, _ | ⟨b6, _ | ⟨b7, rest⟩⟩⟩⟩⟩⟩⟩⟩
  case cons.cons.cons.cons.cons.cons.cons.cons =>
    exact ⟨b0, b1, b2, b3, b4, b5, b6, b7, rest, rfl⟩
  all_goals
    simp only [List.length_cons, List.length_nil] at long
    omega

theorem Record.length_encode (r : Record) :
    r.encode.length = 8 + r.contentData.length + r.paddingData.length := by
  simp only [Record.encode, List.length_cons, List.length_append]
  omega

/-- Records delimit themselves. -/
def recordFraming : Framing UInt8 Record where
  next := nextRecord
  shrinks := by
    intro stream r rest cut
    rw [nextRecord_eq_some_iff] at cut
    rw [cut, List.length_append, r.length_encode]
    omega
  stable := by
    intro stream r rest more cut
    rw [nextRecord_eq_some_iff] at cut ⊢
    rw [cut, List.append_assoc]

theorem recordFraming_inverts : recordFraming.Inverts Record.encode :=
  fun _ _ _ => nextRecord_eq_some_iff

theorem recordFraming_encodes : recordFraming.Encodes Record.encode := recordFraming_inverts.encodes

/-- The longest beginning of a stream that is made of complete records. -/
structure LongestRecords (stream : Bytes) (records : List Record) : Prop where
  start : records.flatMap Record.encode <+: stream
  longest : ∀ other : List Record, other.flatMap Record.encode <+: stream →
    (other.flatMap Record.encode).length ≤ (records.flatMap Record.encode).length

theorem longestRecords_drain (stream : Bytes) :
    LongestRecords stream (recordFraming.drain stream).1 where
  start := ⟨_, recordFraming.drain_flatMap recordFraming_inverts stream⟩
  longest := fun _ start => recordFraming.flatMap_length_le_drain recordFraming_inverts start

/-! ### Name-value pairs -/

/-- The two forms of a length: one byte with the top bit clear, or four bytes
with the top bit set. -/
inductive LengthForm where
  | short
  | long
deriving Repr, DecidableEq

/-- The lengths a form can carry.  A four-byte length may be small. -/
def LengthForm.Fits : LengthForm → Nat → Prop
  | .short, length => length < 2 ^ 7
  | .long, length => length < 2 ^ 31

instance (form : LengthForm) (length : Nat) : Decidable (form.Fits length) :=
  match form with
  | .short => inferInstanceAs (Decidable (length < 2 ^ 7))
  | .long => inferInstanceAs (Decidable (length < 2 ^ 31))

theorem LengthForm.Fits.lt {form : LengthForm} {length : Nat} (fits : form.Fits length) :
    length < 2 ^ 31 := by
  cases form with
  | short =>
      simp only [LengthForm.Fits] at fits
      omega
  | long => exact fits

/-- The bytes of a length. -/
def LengthForm.encode : LengthForm → Nat → Bytes
  | .short, length => [UInt8.ofNat length]
  | .long, length =>
      [UInt8.ofNat (2 ^ 7 + length / 2 ^ 24), UInt8.ofNat (length / 2 ^ 16 % 2 ^ 8),
        UInt8.ofNat (length / 2 ^ 8 % 2 ^ 8), UInt8.ofNat (length % 2 ^ 8)]

/-- The next complete length of a stream. -/
def nextLength : Bytes → Option ((LengthForm × Nat) × Bytes)
  | [] => none
  | b0 :: rest =>
      if b0.toNat < 2 ^ 7 then
        some ((.short, b0.toNat), rest)
      else
        match rest with
        | b1 :: b2 :: b3 :: rest =>
            some ((.long, 2 ^ 24 * (b0.toNat - 2 ^ 7) + 2 ^ 16 * b1.toNat + 2 ^ 8 * b2.toNat +
              b3.toNat), rest)
        | _ => none

theorem nextLength_encode {form : LengthForm} {length : Nat} (fits : form.Fits length)
    (more : Bytes) :
    nextLength (form.encode length ++ more) = some ((form, length), more) := by
  cases form with
  | short =>
      simp only [LengthForm.Fits] at fits
      have byte : (UInt8.ofNat length).toNat = length := byte_toNat (by omega)
      have top : length < 128 := fits
      simp [LengthForm.encode, nextLength, byte, top]
  | long =>
      simp only [LengthForm.Fits] at fits
      have byte0 : (UInt8.ofNat (2 ^ 7 + length / 2 ^ 24)).toNat = 2 ^ 7 + length / 2 ^ 24 :=
        byte_toNat (by omega)
      have byte1 : (UInt8.ofNat (length / 2 ^ 16 % 2 ^ 8)).toNat = length / 2 ^ 16 % 2 ^ 8 :=
        byte_toNat (by omega)
      have byte2 : (UInt8.ofNat (length / 2 ^ 8 % 2 ^ 8)).toNat = length / 2 ^ 8 % 2 ^ 8 :=
        byte_toNat (by omega)
      have byte3 : (UInt8.ofNat (length % 2 ^ 8)).toNat = length % 2 ^ 8 := byte_toNat (by omega)
      have top : ¬ 2 ^ 7 + length / 2 ^ 24 < 2 ^ 7 := by omega
      simp only [LengthForm.encode, List.cons_append, List.nil_append, nextLength, byte0, byte1,
        byte2, byte3, if_neg top, Option.some.injEq, Prod.mk.injEq, true_and, and_true]
      omega

/-- The decoder of lengths accepts exactly the encodings. -/
theorem nextLength_eq_some_iff {stream : Bytes} {form : LengthForm} {length : Nat}
    {rest : Bytes} :
    nextLength stream = some ((form, length), rest) ↔
      form.Fits length ∧ stream = form.encode length ++ rest := by
  constructor
  · intro cut
    unfold nextLength at cut
    split at cut
    · cases cut
    · rename_i b0 tail
      have bound0 := b0.toNat_lt
      split at cut
      · rename_i short
        cases cut
        exact ⟨short, by simp [LengthForm.encode]⟩
      · rename_i long
        split at cut
        · rename_i b1 b2 b3 last
          have bound1 := b1.toNat_lt
          have bound2 := b2.toNat_lt
          have bound3 := b3.toNat_lt
          cases cut
          refine ⟨?_, ?_⟩
          · simp only [LengthForm.Fits]
            omega
          · simp only [LengthForm.encode, List.cons_append, List.nil_append]
            rw [← byte_eq_ofNat b0 (by omega), ← byte_eq_ofNat b1 (by omega),
              ← byte_eq_ofNat b2 (by omega), ← byte_eq_ofNat b3 (by omega)]
        · cases cut
  · rintro ⟨fits, rfl⟩
    exact nextLength_encode fits rest

/-- A name-value pair as it stands on the wire. -/
structure WirePair where
  nameForm : LengthForm
  valueForm : LengthForm
  name : Bytes
  value : Bytes
  name_fits : nameForm.Fits name.length
  value_fits : valueForm.Fits value.length
deriving DecidableEq

/-- The pair that is meant. -/
def WirePair.entry (pair : WirePair) : Bytes × Bytes := (pair.name, pair.value)

/-- Both lengths, then the name, then the value. -/
def WirePair.encode (pair : WirePair) : Bytes :=
  pair.nameForm.encode pair.name.length ++ pair.valueForm.encode pair.value.length ++
    pair.name ++ pair.value

/-- The next complete pair of a stream. -/
def nextPair (stream : Bytes) : Option (WirePair × Bytes) :=
  match nextLength stream with
  | none => none
  | some ((nameForm, nameLen), stream) =>
      match nextLength stream with
      | none => none
      | some ((valueForm, valueLen), stream) =>
          if fits : nameForm.Fits nameLen ∧ valueForm.Fits valueLen ∧
              nameLen + valueLen ≤ stream.length then
            some
              ({ nameForm := nameForm
                 valueForm := valueForm
                 name := stream.take nameLen
                 value := (stream.drop nameLen).take valueLen
                 name_fits := by
                  rw [List.length_take, Nat.min_eq_left (by omega)]
                  exact fits.1
                 value_fits := by
                  rw [List.length_take, List.length_drop, Nat.min_eq_left (by omega)]
                  exact fits.2.1 },
                stream.drop (nameLen + valueLen))
          else
            none

/-- The decoder of pairs accepts exactly the encodings. -/
theorem nextPair_eq_some_iff {stream : Bytes} {pair : WirePair} {rest : Bytes} :
    nextPair stream = some (pair, rest) ↔ stream = pair.encode ++ rest := by
  constructor
  · intro cut
    unfold nextPair at cut
    split at cut
    · cases cut
    · rename_i nameForm nameLen stream₁ nameCut
      split at cut
      · cases cut
      · rename_i valueForm valueLen stream₂ valueCut
        split at cut
        · rename_i fits
          cases cut
          have name : (stream₂.take nameLen).length = nameLen := by
            rw [List.length_take]
            omega
          have value : ((stream₂.drop nameLen).take valueLen).length = valueLen := by
            rw [List.length_take, List.length_drop]
            omega
          rw [(nextLength_eq_some_iff.mp nameCut).2, (nextLength_eq_some_iff.mp valueCut).2]
          simp only [WirePair.encode, name, value, List.append_assoc]
          rw [take_take_drop]
        · cases cut
  · rintro rfl
    have nameCut := nextLength_encode pair.name_fits
      (pair.valueForm.encode pair.value.length ++ (pair.name ++ (pair.value ++ rest)))
    have valueCut := nextLength_encode pair.value_fits (pair.name ++ (pair.value ++ rest))
    have fits : pair.nameForm.Fits pair.name.length ∧ pair.valueForm.Fits pair.value.length ∧
        pair.name.length + pair.value.length ≤ (pair.name ++ (pair.value ++ rest)).length := by
      refine ⟨pair.name_fits, pair.value_fits, ?_⟩
      simp only [List.length_append]
      omega
    have tail : (pair.name ++ (pair.value ++ rest)).drop
        (pair.name.length + pair.value.length) = rest := by
      rw [← List.append_assoc, ← List.length_append, List.drop_left]
    simp only [nextPair, WirePair.encode, List.append_assoc, nameCut, valueCut]
    rw [dif_pos fits]
    simp [tail]

theorem WirePair.encode_length_pos (pair : WirePair) : 0 < pair.encode.length := by
  simp only [WirePair.encode, List.length_append]
  cases pair.nameForm with
  | short => simp only [LengthForm.encode, List.length_cons]; omega
  | long => simp only [LengthForm.encode, List.length_cons]; omega

/-- Pairs delimit themselves. -/
def pairFraming : Framing UInt8 WirePair where
  next := nextPair
  shrinks := by
    intro stream pair rest cut
    have positive := pair.encode_length_pos
    rw [nextPair_eq_some_iff] at cut
    rw [cut, List.length_append]
    omega
  stable := by
    intro stream pair rest more cut
    rw [nextPair_eq_some_iff] at cut ⊢
    rw [cut, List.append_assoc]

theorem pairFraming_inverts : pairFraming.Inverts WirePair.encode :=
  fun _ _ _ => nextPair_eq_some_iff

theorem pairFraming_encodes : pairFraming.Encodes WirePair.encode := pairFraming_inverts.encodes

/-- The longest beginning of a stream that is made of complete pairs. -/
structure LongestPairs (stream : Bytes) (pairs : List WirePair) : Prop where
  start : pairs.flatMap WirePair.encode <+: stream
  longest : ∀ other : List WirePair, other.flatMap WirePair.encode <+: stream →
    (other.flatMap WirePair.encode).length ≤ (pairs.flatMap WirePair.encode).length

end FastCgi
