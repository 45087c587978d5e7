/-
Module: FastCgi.Proofs.FcgxRequest
Layer: Proofs
Purpose: From the bytes that the web server sends to the parameters of a
  request: `ReadParams` on the content of a stream, and one turn of
  `FCGX_Accept_r` on a connection.
Trusted boundary: none
Main exports: Fcgx.readParams_pairs, Fcgx.readRequest_carries
-/
import FastCgi.Proofs.FcgxRecords
import FastCgi.Proofs.ParamsRefinement

namespace FastCgi

namespace Fcgx

open Library (Turn runLoop Agrees bind_eq_ok)

/-! ### Strings of a stream -/

theorem Yields.getChar_nil {c last : Cursor} (yields : Yields c [] last) :
    c.getChar Cursor.fill = .ok (none, last) := by
  cases yields with
  | ended none => exact none

theorem Yields.getChar_cons {c last : Cursor} {byte : UInt8} {bytes : Bytes}
    (yields : Yields c (byte :: bytes) last) :
    ∃ next, c.getChar Cursor.fill = .ok (some byte, next) ∧ Yields next bytes last := by
  cases yields with
  | byte next later => exact ⟨_, next, later⟩

theorem Yields.getStr {c last : Cursor} {str bytes : Bytes}
    (yields : Yields c (str ++ bytes) last) :
    ∃ next, c.getStr Cursor.fill str.length = .ok (str, next) ∧ Yields next bytes last := by
  induction str generalizing c with
  | nil => exact ⟨c, rfl, yields⟩
  | cons byte str inductionHypothesis =>
      obtain ⟨next, got, later⟩ := yields.getChar_cons
      obtain ⟨last', others, rest⟩ := inductionHypothesis later
      refine ⟨last', ?_, rest⟩
      simp only [List.length_cons, Cursor.getStr, got, ok_bind, others, pure_ok]

/-- A string that is cut short by the end. -/
theorem Yields.getStr_short {c last : Cursor} {bytes : Bytes} (yields : Yields c bytes last)
    {n : Nat} (short : bytes.length < n) :
    c.getStr Cursor.fill n = .ok (bytes, last) := by
  induction bytes generalizing c n with
  | nil =>
      obtain ⟨n, rfl⟩ : ∃ m, n = m + 1 := ⟨n - 1, by simp only [List.length_nil] at short; omega⟩
      simp only [Cursor.getStr, yields.getChar_nil, ok_bind, pure_ok]
  | cons byte bytes inductionHypothesis =>
      rw [List.length_cons] at short
      obtain ⟨n, rfl⟩ : ∃ m, n = m + 1 := ⟨n - 1, by omega⟩
      obtain ⟨next, got, later⟩ := yields.getChar_cons
      have others := inductionHypothesis later (show bytes.length < n by omega)
      simp only [Cursor.getStr, got, ok_bind, others, pure_ok]

/-- A byte that was got is not left to read. -/
theorem getChar_shorter {c next : Cursor} {byte : UInt8} (eorStop : c.eorStop = false)
    (got : c.getChar Cursor.fill = .ok (some byte, next)) :
    next.rest.length < c.rest.length ∧ next.eorStop = false := by
  unfold Cursor.getChar at got
  split at got
  · cases got
  · obtain ⟨moved, filled, got⟩ := bind_eq_ok.mp got
    have within := Cursor.fill_filled eorStop filled
    have length := within.rest.length_le
    split at got
    · cases got
    · unfold Cursor.pop at got
      split at got
      · rename_i shape
        split at got
        · cases got
          rw [shape, List.length_cons] at length
          exact ⟨length, within.eorStop⟩
        · cases got
      · cases got

theorem Yields.length {c last : Cursor} {bytes : Bytes} (yields : Yields c bytes last)
    (eorStop : c.eorStop = false) : bytes.length ≤ c.rest.length := by
  induction yields with
  | ended => exact Nat.zero_le _
  | byte next later inductionHypothesis =>
      obtain ⟨shorter, eorStop⟩ := getChar_shorter eorStop next
      have rest := inductionHypothesis eorStop
      rw [List.length_cons]
      omega

/-! ### Pairs -/

theorem lowBits (byte : UInt8) : (byte &&& 0x7f).toNat = byte.toNat % 2 ^ 7 :=
  forall_byte (fun byte => (byte &&& 0x7f).toNat = byte.toNat % 2 ^ 7) (by decide +kernel) byte

/-- A length in either form. -/
theorem readLength_yields {form : LengthForm} {length : Nat} (fits : form.Fits length)
    {first : UInt8} {others : Bytes} (encoded : form.encode length = first :: others)
    {c last : Cursor} {bytes : Bytes} (yields : Yields c (others ++ bytes) last) :
    ∃ next, readLength (Cursor.source Cursor.fill) first c = .ok (some length, next) ∧
      Yields next bytes last := by
  cases form with
  | short =>
      simp only [LengthForm.encode, List.cons.injEq] at encoded
      obtain ⟨rfl, rfl⟩ := encoded
      have small : length < 2 ^ 7 := fits
      have byte := byte_toNat (show length < 2 ^ 8 by omega)
      have clear : ¬ (UInt8.ofNat length &&& 0x80 ≠ 0) := by
        rw [topBit_iff, byte, not_not]
        exact small
      exact ⟨c, by rw [readLength, if_neg clear, byte], yields⟩
  | long =>
      simp only [LengthForm.encode, List.cons.injEq] at encoded
      obtain ⟨rfl, rfl⟩ := encoded
      have small : length < 2 ^ 31 := fits
      have byte0 := byte_toNat (show 2 ^ 7 + length / 2 ^ 24 < 2 ^ 8 by omega)
      have byte1 := byte_toNat (show length / 2 ^ 16 % 2 ^ 8 < 2 ^ 8 by omega)
      have byte2 := byte_toNat (show length / 2 ^ 8 % 2 ^ 8 < 2 ^ 8 by omega)
      have byte3 := byte_toNat (show length % 2 ^ 8 < 2 ^ 8 by omega)
      have set : UInt8.ofNat (2 ^ 7 + length / 2 ^ 24) &&& 0x80 ≠ 0 := by
        rw [topBit_iff, byte0]
        omega
      obtain ⟨next, got, later⟩ := yields.getStr
      refine ⟨next, ?_, later⟩
      have got : (Cursor.source Cursor.fill).getStr 3 c = _ := got
      rw [readLength, if_pos set, got]
      simp only [ok_bind, pure_ok, lowBits, byte0, byte1, byte2, byte3, Except.ok.injEq,
        Prod.mk.injEq, Option.some.injEq, and_true]
      omega

theorem encode_cons (form : LengthForm) (length : Nat) :
    ∃ first others, form.encode length = first :: others := by
  cases form with
  | short => exact ⟨_, _, rfl⟩
  | long => exact ⟨_, _, rfl⟩

theorem mallocInt_small {n : Nat} (small : n < 2 ^ 31) : mallocInt n = .ok n := by
  have same : n % 2 ^ 32 = n := Nat.mod_eq_of_lt (by omega)
  rw [mallocInt, same, if_pos small]

theorem inside_of_le {size offset : Nat} (fits : offset ≤ size) : inside size offset = .ok () :=
  if_pos fits

theorem readNameValue_yields {name value bytes : Bytes} {c last : Cursor}
    (modest : name.length + value.length + 2 < 2 ^ 31)
    (yields : Yields c (name ++ (value ++ bytes)) last) :
    ∃ next, readNameValue (Cursor.source Cursor.fill) name.length value.length c =
        .ok (some (name ++ 61 :: value), next) ∧ Yields next bytes last := by
  obtain ⟨middle, gotName, later⟩ := yields.getStr
  obtain ⟨next, gotValue, rest⟩ := later.getStr
  have gotName : (Cursor.source Cursor.fill).getStr name.length c = _ := gotName
  have gotValue : (Cursor.source Cursor.fill).getStr value.length middle = _ := gotValue
  refine ⟨next, ?_, rest⟩
  simp only [readNameValue, mallocInt_small modest, ok_bind, gotName, gotValue,
    inside_of_le (show name.length ≤ name.length + value.length + 2 by omega),
    inside_of_le (show name.length + 1 ≤ name.length + value.length + 2 by omega),
    inside_of_le (show name.length + 1 + value.length ≤ name.length + value.length + 2 by omega),
    inside_of_le (Nat.le_refl (name.length + value.length + 2)), ne_eq, not_true_eq_false,
    if_false, pure_ok]

/-- A pair that is cut short in its name or its value. -/
theorem readNameValue_short {nameLen valueLen : Nat} {bytes : Bytes} {c last : Cursor}
    (modest : nameLen + valueLen + 2 < 2 ^ 31) (yields : Yields c bytes last)
    (short : bytes.length < nameLen + valueLen) :
    readNameValue (Cursor.source Cursor.fill) nameLen valueLen c = .ok (none, last) := by
  unfold readNameValue
  rw [mallocInt_small modest, ok_bind]
  by_cases named : bytes.length < nameLen
  · have got : (Cursor.source Cursor.fill).getStr nameLen c = _ := yields.getStr_short named
    rw [got, ok_bind]
    simp only [inside_of_le (show bytes.length ≤ nameLen + valueLen + 2 by omega), ok_bind,
      if_pos (Nat.ne_of_lt named), pure_ok]
  · obtain ⟨name, rest, rfl, length⟩ : ∃ name rest, bytes = name ++ rest ∧ name.length = nameLen :=
      ⟨bytes.take nameLen, bytes.drop nameLen, (List.take_append_drop _ _).symm, by
        rw [List.length_take]; omega⟩
    subst length
    rw [List.length_append] at short
    obtain ⟨middle, gotName, later⟩ := yields.getStr
    have gotName : (Cursor.source Cursor.fill).getStr name.length c = _ := gotName
    have missing : rest.length < valueLen := by omega
    have gotValue : (Cursor.source Cursor.fill).getStr valueLen middle = _ :=
      later.getStr_short missing
    simp only [gotName, gotValue, ok_bind, ne_eq, not_true_eq_false, if_false,
      inside_of_le (show name.length ≤ name.length + valueLen + 2 by omega),
      inside_of_le (show name.length + 1 ≤ name.length + valueLen + 2 by omega),
      inside_of_le (show name.length + 1 + rest.length ≤ name.length + valueLen + 2 by omega),
      if_pos (Nat.ne_of_lt missing), pure_ok]

/-- One turn of `ReadParams` on a complete pair. -/
theorem readPair_yields (pair : WirePair)
    (modest : pair.name.length + pair.value.length + 2 < 2 ^ 31) {bytes : Bytes}
    {c last : Cursor} (yields : Yields c (pair.encode ++ bytes) last) :
    ∃ first middle next, c.getChar Cursor.fill = .ok (some first, middle) ∧
      readPair (Cursor.source Cursor.fill) first middle = .ok (some (envEntry pair), next) ∧
      Yields next bytes last := by
  obtain ⟨first, others, nameShape⟩ := encode_cons pair.nameForm pair.name.length
  obtain ⟨second, others', valueShape⟩ := encode_cons pair.valueForm pair.value.length
  have shape : pair.encode ++ bytes =
      first :: (others ++ (second :: (others' ++ (pair.name ++ (pair.value ++ bytes))))) := by
    simp only [WirePair.encode, nameShape, valueShape, List.cons_append, List.append_assoc]
  rw [shape] at yields
  obtain ⟨middle, gotFirst, yields⟩ := yields.getChar_cons
  obtain ⟨named, nameLength, yields⟩ := readLength_yields pair.name_fits nameShape yields
  obtain ⟨behind, gotSecond, yields⟩ := yields.getChar_cons
  obtain ⟨valued, valueLength, yields⟩ := readLength_yields pair.value_fits valueShape yields
  obtain ⟨next, entry, yields⟩ := readNameValue_yields modest yields
  have gotSecond : (Cursor.source Cursor.fill).getChar named = _ := gotSecond
  refine ⟨first, middle, next, gotFirst, ?_, yields⟩
  simp only [readPair, nameLength, ok_bind, gotSecond, valueLength, entry, envEntry]

/-- A length that is cut short. -/
theorem readLength_short {first : UInt8} {bytes : Bytes}
    (short : nextLength (first :: bytes) = none)
    {c last : Cursor} (yields : Yields c bytes last) :
    readLength (Cursor.source Cursor.fill) first c = .ok (none, last) := by
  have long : ¬ first.toNat < 2 ^ 7 := by
    intro small
    simp only [nextLength, if_pos small] at short
    cases short
  have few : bytes.length < 3 := by
    simp only [nextLength, if_neg long] at short
    rcases bytes with _ | ⟨b1, _ | ⟨b2, _ | ⟨b3, rest⟩⟩⟩
    case cons.cons.cons => cases short
    all_goals
      simp only [List.length_cons, List.length_nil]
      decide
  have got : (Cursor.source Cursor.fill).getStr 3 c = _ := yields.getStr_short few
  rw [readLength, if_pos ((topBit_iff first).mpr long), got, ok_bind]
  rcases bytes with _ | ⟨b1, _ | ⟨b2, _ | ⟨b3, rest⟩⟩⟩
  case cons.cons.cons =>
    simp only [List.length_cons] at few
    omega
  all_goals rfl

/-- One turn of `ReadParams` on a pair that is cut short. -/
theorem readPair_short {first : UInt8} {bytes : Bytes} (short : nextPair (first :: bytes) = none)
    (modest : ∀ nameForm nameLen valueForm valueLen rest rest',
      nextLength (first :: bytes) = some ((nameForm, nameLen), rest) →
        nextLength rest = some ((valueForm, valueLen), rest') → nameLen + valueLen + 2 < 2 ^ 31)
    {c last : Cursor} (yields : Yields c bytes last) :
    readPair (Cursor.source Cursor.fill) first c = .ok (none, last) := by
  unfold readPair
  cases named : nextLength (first :: bytes) with
  | none => rw [readLength_short named yields, ok_bind]; rfl
  | some cut =>
      obtain ⟨⟨nameForm, nameLen⟩, rest⟩ := cut
      obtain ⟨fits, shape⟩ := nextLength_eq_some_iff.mp named
      obtain ⟨head, others, encoded⟩ := encode_cons nameForm nameLen
      rw [encoded, List.cons_append, List.cons.injEq] at shape
      obtain ⟨rfl, rfl⟩ := shape
      obtain ⟨middle, nameLength, yields⟩ := readLength_yields fits encoded yields
      rw [nameLength, ok_bind]
      cases rest with
      | nil =>
          have got : (Cursor.source Cursor.fill).getChar middle = _ := yields.getChar_nil
          simp only [got, ok_bind, pure_ok]
      | cons second rest =>
          obtain ⟨behind, got, yields⟩ := yields.getChar_cons
          have got : (Cursor.source Cursor.fill).getChar middle = _ := got
          simp only [got, ok_bind]
          cases valued : nextLength (second :: rest) with
          | none => rw [readLength_short valued yields, ok_bind]; rfl
          | some cut =>
              obtain ⟨⟨valueForm, valueLen⟩, rest'⟩ := cut
              have small := modest _ _ _ _ _ _ named valued
              obtain ⟨fits', shape⟩ := nextLength_eq_some_iff.mp valued
              obtain ⟨head, others', encoded'⟩ := encode_cons valueForm valueLen
              rw [encoded', List.cons_append, List.cons.injEq] at shape
              obtain ⟨rfl, rfl⟩ := shape
              obtain ⟨next, valueLength, yields⟩ := readLength_yields fits' encoded' yields
              simp only [valueLength, ok_bind]
              refine readNameValue_short small yields ?_
              by_contra enough
              rw [nextPair, named] at short
              simp only [valued] at short
              rw [dif_pos ⟨fits, fits', by omega⟩] at short
              cases short

/-! ### `ReadParams` -/

/-- `PutParam` finds room and leaves some. -/
theorem putParam_room {params : Params} (room : params.vec.length < params.length)
    (nameValue : Bytes) :
    ∃ params', putParam params nameValue = .ok params' ∧
      params'.vec = params.vec ++ [nameValue] ∧ params'.vec.length < params'.length := by
  have more : params.vec.length + 1 <
      if params.length ≤ params.vec.length + 1 then params.length * 2 else params.length := by
    split
    · omega
    · omega
  refine ⟨⟨params.vec ++ [nameValue],
    if params.length ≤ params.vec.length + 1 then params.length * 2 else params.length⟩,
    ?_, rfl, ?_⟩
  · rw [putParam, if_pos room]
    exact if_pos more
  · simpa using more

theorem readParamsTurn_pair (pair : WirePair)
    (modest : pair.name.length + pair.value.length + 2 < 2 ^ 31) {bytes : Bytes}
    {c last : Cursor} (yields : Yields c (pair.encode ++ bytes) last) {params : Params}
    (room : params.vec.length < params.length) :
    ∃ params' next, readParamsTurn (Cursor.source Cursor.fill) (params, c) =
        .ok (.again (params', next)) ∧
      params'.vec = params.vec ++ [envEntry pair] ∧ params'.vec.length < params'.length ∧
      Yields next bytes last := by
  obtain ⟨first, middle, next, gotFirst, entry, yields⟩ := readPair_yields pair modest yields
  obtain ⟨params', put, vec, room'⟩ := putParam_room room (envEntry pair)
  have gotFirst : (Cursor.source Cursor.fill).getChar c = _ := gotFirst
  refine ⟨params', next, ?_, vec, room', yields⟩
  simp only [readParamsTurn, gotFirst, ok_bind, entry, put, pure_ok]

theorem readParamsTurn_tail {content tail : Bytes} {pairs : List WirePair}
    (parsed : Pairs content pairs tail) {c last : Cursor} (yields : Yields c tail last)
    (params : Params) :
    readParamsTurn (Cursor.source Cursor.fill) (params, c) =
      .ok (.leave (decide (tail = []), params,
        if tail = [] then last else last.setError fcgxParamsError)) := by
  cases tail with
  | nil =>
      have got : (Cursor.source Cursor.fill).getChar c = _ := yields.getChar_nil
      simp only [readParamsTurn, got, ok_bind, pure_ok, decide_true, if_true]
  | cons first tail =>
      obtain ⟨middle, got, yields⟩ := yields.getChar_cons
      have got : (Cursor.source Cursor.fill).getChar c = _ := got
      have short := readPair_short parsed.incomplete parsed.tail_modest yields
      simp only [readParamsTurn, got, ok_bind, short, pure_ok, reduceCtorEq, decide_false, if_false]
      rfl

theorem readParamsLoop_pairs {content tail : Bytes} {pairs : List WirePair}
    (parsed : Pairs content pairs tail) {later : List WirePair}
    (modest : ∀ pair ∈ later, pair.name.length + pair.value.length + 2 < 2 ^ 31)
    {c last : Cursor} (yields : Yields c (later.flatMap WirePair.encode ++ tail) last)
    {params : Params} (room : params.vec.length < params.length) {fuel : Nat}
    (enough : later.length < fuel) :
    ∃ params', runLoop .diverged (readParamsTurn (Cursor.source Cursor.fill)) fuel (params, c) =
        .ok (decide (tail = []), params',
          if tail = [] then last else last.setError fcgxParamsError) ∧
      params'.vec = params.vec ++ later.map envEntry := by
  induction later generalizing c params fuel with
  | nil =>
      obtain ⟨fuel, rfl⟩ : ∃ n, fuel = n + 1 :=
        ⟨fuel - 1, by simp only [List.length_nil] at enough; omega⟩
      have turn := readParamsTurn_tail parsed yields params
      exact ⟨params, by simp only [runLoop, turn], by simp⟩
  | cons pair later inductionHypothesis =>
      rw [List.length_cons] at enough
      obtain ⟨fuel, rfl⟩ : ∃ n, fuel = n + 1 := ⟨fuel - 1, by omega⟩
      rw [List.flatMap_cons, List.append_assoc] at yields
      obtain ⟨params', next, turn, vec, room', yields⟩ :=
        readParamsTurn_pair pair (modest pair (by simp)) yields room
      obtain ⟨params'', ran, vec'⟩ := inductionHypothesis
        (fun other member => modest other (by simp [member])) yields room'
        (show later.length < fuel by omega)
      refine ⟨params'', by simp only [runLoop, turn, ran], ?_⟩
      rw [vec', vec, List.map_cons, List.append_assoc]
      rfl

theorem length_le_flatMap_encode (pairs : List WirePair) :
    pairs.length ≤ (pairs.flatMap WirePair.encode).length := by
  induction pairs with
  | nil => exact Nat.zero_le _
  | cons pair pairs inductionHypothesis =>
      have positive := pair.encode_length_pos
      rw [List.length_cons, List.flatMap_cons, List.length_append]
      omega

/-- `ReadParams` takes the complete pairs, and fails exactly if something is left
behind them.  How the stream ended does not matter to it. -/
theorem readParams_pairs {content tail : Bytes} {pairs : List WirePair}
    (parsed : Pairs content pairs tail) {c last : Cursor} (yields : Yields c content last)
    (eorStop : c.eorStop = false) {params : Params} (room : params.vec.length < params.length) :
    ∃ params', readParams (Cursor.source Cursor.fill) params c =
        .ok (decide (tail = []), params',
          if tail = [] then last else last.setError fcgxParamsError) ∧
      params'.vec = params.vec ++ pairs.map envEntry := by
  have length := yields.length eorStop
  have pairs_length := length_le_flatMap_encode pairs
  rw [parsed.content] at yields length
  rw [List.length_append] at length
  exact readParamsLoop_pairs parsed parsed.modest yields room
    (show pairs.length < c.rest.length + 1 by omega)

/-! ### `FCGX_Accept_r` -/

/-- The place behind the BEGIN record: its padding is not passed. -/
def behindBegin (c : Cursor) (r : Record) (role : Nat) (keepConnection : Bool) (bytes : Bytes) :
    Cursor :=
  { c with
    rest := r.paddingData ++ bytes
    padding := r.paddingData.length
    request := { c.request with
      requestId := r.requestId
      keepConnection := keepConnection
      role := role
      isBeginProcessed := true } }

/-- The first record of a connection. -/
theorem fill_begins {r : Record} {role : Nat} {keepConnection : Bool}
    (begins : Begins r role keepConnection) {bytes : Bytes} {c : Cursor}
    (here : BeforeHeader (r.encode ++ bytes) c) (fresh : c.request.isBeginProcessed = false)
    (skip : c.skip = false) (running : c.isClosed = false) :
    c.fill = .ok (behindBegin c r role keepConnection bytes) := by
  obtain ⟨body, body_eq⟩ : ∃ body, body = r.contentData ++ (r.paddingData ++ bytes) := ⟨_, rfl⟩
  have here : BeforeHeader (recordHeader r ++ body) c := by
    rw [body_eq]
    rwa [encode_eq, List.append_assoc, List.append_assoc] at here
  have eight : r.contentData.length = 8 := by
    have body := begins.body
    unfold beginBody at body
    split at body
    · rename_i shape
      rw [shape]
      rfl
    · cases body
  -- the body is read like the content of a stream
  have got : Cursor.getStr Cursor.fillRecord 8 { atFields c r body with
      request := { c.request with requestId := r.requestId } } = .ok (r.contentData,
        { atFields c r body with
          rest := r.paddingData ++ bytes
          content := 0
          request := { c.request with requestId := r.requestId } }) := by
    have advanced := getStr_advance fillRecord_agrees 0 (m := r.contentData.length)
      (c := { atFields c r body with request := { c.request with requestId := r.requestId } })
      running skip (Nat.le_refl _) (by
        simp only [atFields, behindHeader, body_eq, List.length_append]
        omega)
    rw [Nat.add_zero, eight] at advanced
    rw [advanced]
    simp only [atFields, behindHeader, body_eq, Cursor.getStr, Except.map, ← eight,
      List.take_left, List.drop_left, List.append_nil, Nat.sub_self]
  have processed : Cursor.processRecord (recordFields r) (atFields c r body) =
      .ok (.beginRecord, { behindBegin c r role keepConnection bytes with eorStop := true }) := by
    have right : ¬ ((recordFields r).requestId = 0 ∨ (atFields c r body).content ≠ 8) := by
      rintro (none | other)
      · exact begins.requestId none
      · exact other eight
    have unbegun : ¬ (atFields c r body).request.isBeginProcessed = true :=
      Bool.eq_false_iff.mp fresh
    rw [Cursor.processRecord, if_pos (by exact begins.type), Cursor.processBeginRecord,
      if_neg right, if_neg unbegun]
    refine (congrArg (fun result => result >>= _) got).trans ?_
    simp only [ok_bind, begins.body, pure_ok]
    rw [behindBegin, ← here.content]
    rfl
  have filled := here.fill_of_status begins.version processed
  have opened : ({ behindBegin c r role keepConnection bytes with
      eorStop := false, isClosed := false } : Cursor) =
        behindBegin c r role keepConnection bytes := by
    simp only [behindBegin, here.eorStop, running]
  rw [filled]
  simp only [Cursor.onStatus]
  exact congrArg Except.ok opened

/-- The request that a BEGIN record makes of the one before. -/
def beginRequest (request : Request) (r : Record) (role : Nat) (keepConnection : Bool) : Request :=
  { request with
    requestId := r.requestId
    keepConnection := keepConnection
    role := role
    isBeginProcessed := true }

theorem cursor_readRequest {r : Record} {role : Nat} {keepConnection : Bool}
    (begins : Begins r role keepConnection) {entry : Bytes} (known : roleStr role = some entry)
    {bytes : Bytes} {ipc : Ipc} (incoming : ipc.incoming = r.encode ++ bytes)
    (accepting : ipc.Accepting) {stream : WholeStream}
    (carries : Carries FcgiType.kFcgiParams.code r.requestId ipc.endError
      (r.paddingData ++ bytes) stream)
    {pairs : List WirePair} {tail : Bytes} (parsed : Pairs stream.content pairs tail)
    (request : Request) :
    ∃ (params : Params) (last : Cursor), Cursor.readRequest request ipc =
        .ok (if tail = [] then some params else none,
          if tail = [] then last.setReaderType FcgiType.kFcgiStdin.code
          else last.setError fcgxParamsError) ∧
      params.vec = entry :: pairs.map envEntry ∧
      last.rest = stream.rest ∧ last.fcgiErrno = stream.errno ∧
      last.request = beginRequest request r role keepConnection ∧
      ipc.link.Took (stream.replies.flatMap Record.encode) last.link := by
  have filled := fill_begins begins (c := Cursor.start request ipc)
    ⟨rfl, ⟨[], incoming, rfl⟩, rfl⟩ rfl rfl rfl
  obtain ⟨c, c_eq⟩ : ∃ c, c = (behindBegin (Cursor.start request ipc) r role keepConnection
    bytes).setReaderType FcgiType.kFcgiParams.code := ⟨_, rfl⟩
  have here : AtRecord FcgiType.kFcgiParams.code r.requestId false (r.paddingData ++ bytes) c := by
    rw [c_eq]
    exact ⟨⟨rfl, ⟨[], rfl, rfl⟩, rfl⟩, rfl, rfl, rfl, rfl, rfl, accepting⟩
  have same : c.link.endError = ipc.endError := by rw [c_eq]; rfl
  rw [← same] at carries
  obtain ⟨last, yields, ended⟩ := yields_carries here carries
  obtain ⟨params, read, vec⟩ := readParams_pairs parsed yields here.eorStop
    (show (⟨[entry], 30⟩ : Params).vec.length < 30 by simp)
  refine ⟨params, last, ?_, vec, ended.rest, ?_, ?_, ?_⟩
  · have known' : roleStr (behindBegin (Cursor.start request ipc) r role keepConnection
        bytes).request.role = some entry := known
    have put : putParam (newParams 30) entry = .ok ⟨[entry], 30⟩ := rfl
    rw [Cursor.readRequest, filled, ok_bind, if_neg (by simp [behindBegin]), known']
    simp only [put, ok_bind, ← c_eq, read]
    by_cases all : tail = []
    · simp only [all, decide_true, if_true, pure_ok]
    · simp only [all, decide_false, if_false, pure_ok, Bool.false_eq_true]
  · rw [ended.fcgiErrno, c_eq]
    rfl
  · rw [ended.request, c_eq]
    rfl
  · have took := ended.took
    rw [c_eq] at took
    exact took

theorem readRequest_took {r : Record} {role : Nat} {keepConnection : Bool}
    (begins : Begins r role keepConnection) {entry : Bytes} (known : roleStr role = some entry)
    {bytes : Bytes} {ipc : Ipc} (incoming : ipc.incoming = r.encode ++ bytes)
    (accepting : ipc.Accepting) {stream : WholeStream}
    (carries : Carries FcgiType.kFcgiParams.code r.requestId ipc.endError
      (r.paddingData ++ bytes) stream)
    {pairs : List WirePair} {tail : Bytes} (parsed : Pairs stream.content pairs tail)
    (misaligned : Bool) (request : Request) :
    ∃ (params : Params) (result : Reading), readRequest misaligned request ipc =
        .ok (if tail = [] then some params else none, result) ∧
      params.vec = entry :: pairs.map envEntry ∧
      result.request = beginRequest request r role keepConnection ∧
      ipc.link.Took (stream.replies.flatMap Record.encode) result.ipc.link ∧
      result.unread = stream.rest ∧
      (tail = [] → result.stream.fcgiErrno = stream.errno) := by
  obtain ⟨params, last, read, vec, rest, errno, same, took⟩ :=
    cursor_readRequest begins known incoming accepting carries parsed request
  have agree := readRequest_agrees misaligned request ipc
  rw [read] at agree
  obtain ⟨⟨accepted, result⟩, ran, same', valid, cursor⟩ := agree.to_ok
  simp only at same' cursor
  subst same'
  -- both ways out leave the request, the connection and what is unread alike
  have alike : result.request = last.request ∧ result.ipc.link = last.link ∧
      result.unread = last.rest := by
    split at cursor
    · exact ⟨congrArg Cursor.request cursor, congrArg Cursor.link cursor,
        congrArg Cursor.rest cursor⟩
    · exact ⟨congrArg Cursor.request cursor, congrArg Cursor.link cursor,
        congrArg Cursor.rest cursor⟩
  refine ⟨params, result, ran, vec, alike.1.trans same, ?_, alike.2.2.trans rest, ?_⟩
  · rw [alike.2.1]
    exact took
  · intro all
    rw [if_pos all] at cursor
    exact (congrArg Cursor.fcgiErrno cursor).trans errno

/-- One turn of `FCGX_Accept_r` on a request of a known role, without GET_VALUES
records and with lengths that do not overflow: the request is accepted exactly if
the content of its PARAMS stream consists of complete pairs, however that stream
ends, and then its parameters are these pairs. -/
theorem readRequest_carries {r : Record} {role : Nat} {keepConnection : Bool}
    (begins : Begins r role keepConnection) {entry : Bytes} (known : roleStr role = some entry)
    {bytes : Bytes} {ipc : Ipc} (incoming : ipc.incoming = r.encode ++ bytes)
    (accepting : ipc.Accepting) {stream : WholeStream}
    (carries : Carries FcgiType.kFcgiParams.code r.requestId ipc.endError
      (r.paddingData ++ bytes) stream)
    {pairs : List WirePair} {tail : Bytes} (parsed : Pairs stream.content pairs tail)
    (misaligned : Bool) (request : Request) :
    ∃ (params : Params) (result : Reading), readRequest misaligned request ipc =
        .ok (if tail = [] then some params else none, result) ∧
      params.vec = entry :: pairs.map envEntry ∧
      result.request = beginRequest request r role keepConnection ∧
      result.ipc.received = ipc.received ++ stream.replies.flatMap Record.encode ∧
      result.unread = stream.rest ∧
      (tail = [] → result.stream.fcgiErrno = stream.errno) := by
  obtain ⟨params, result, read, vec, same, took, rest, errno⟩ :=
    readRequest_took begins known incoming accepting carries parsed misaligned request
  exact ⟨params, result, read, vec, same, took.received, rest, errno⟩

/-! ### A small request -/

/-- The BEGIN record of a responder, not kept. -/
def responderBegin (padding : Bytes) (fits : padding.length < 2 ^ 8) : Record where
  version := 1
  type := FcgiType.kFcgiBeginRequest.code
  requestIdB1 := 0
  requestIdB0 := 1
  reserved := 0
  contentData := [0, 1, 0, 0, 0, 0, 0, 0]
  paddingData := padding
  content_fits := eight_fits
  padding_fits := fits

theorem responderBegin_begins (padding : Bytes) (fits : padding.length < 2 ^ 8) :
    Begins (responderBegin padding fits) 1 false where
  version := rfl
  type := rfl
  requestId := by
    simp only [responderBegin, Record.requestId]
    decide
  body := rfl

/-- One pair, `A=B`. -/
def samplePairs : Record where
  version := 1
  type := FcgiType.kFcgiParams.code
  requestIdB1 := 0
  requestIdB0 := 1
  reserved := 0
  contentData := [1, 1, 65, 66]
  paddingData := []
  content_fits := by decide
  padding_fits := nil_padding_fits

/-- The end of the PARAMS stream. -/
def sampleEnd : Record :=
  { samplePairs with contentData := [], content_fits := nil_content_fits }

/-- A connection on which everything is read and written byte by byte. -/
def plainIpc (incoming : Bytes) : Ipc where
  incoming := incoming
  pieces := fun _ => 0
  reads := 0
  ending := none
  answer := fun _ => .ok 0
  writes := 0
  received := []

theorem plainIpc_accepting (incoming : Bytes) : (plainIpc incoming).Accepting := fun _ => ⟨0, rfl⟩

theorem sample_carries :
    Carries FcgiType.kFcgiParams.code 1 fcgxProtocolError
      (samplePairs.encode ++ sampleEnd.encode) ⟨[1, 1, 65, 66], [], 0, []⟩ :=
  @Carries.ended _ _ _ [samplePairs] ⟨[1, 1, 65, 66], [], false⟩ sampleEnd 0 []
    (by simp [Described, samplePairs]; decide) (by decide) (by decide)

theorem sample_pairs :
    Pairs [1, 1, 65, 66] [⟨.short, .short, [65], [66], by decide, by decide⟩] [] :=
  ⟨rfl, rfl, by simp, by simp [nextLength]⟩

theorem pairs_nil : Pairs [] [] [] := ⟨rfl, rfl, by simp, by simp [nextLength]⟩

theorem readRequest_carries_pair :
    ∃ (params : Params) (result : Reading),
      readRequest true ⟨0, 0, false, false, 0, 0⟩ (plainIpc
        ((responderBegin [] nil_padding_fits).encode ++
          (samplePairs.encode ++ sampleEnd.encode))) = .ok (some params, result) ∧
      params.vec = [ascii "FCGI_ROLE=RESPONDER", ascii "A=B"] ∧
      result.request = ⟨1, 1, true, false, 0, 0⟩ ∧
      result.ipc.received = [] ∧ result.unread = [] ∧ result.stream.fcgiErrno = 0 := by
  have role : roleStr 1 = some (ascii "FCGI_ROLE=RESPONDER") := rfl
  obtain ⟨params, result, read, vec, same, received, unread, errno⟩ :=
    readRequest_carries (responderBegin_begins [] nil_padding_fits) role rfl
      (plainIpc_accepting ((responderBegin [] nil_padding_fits).encode ++
        (samplePairs.encode ++ sampleEnd.encode))) sample_carries sample_pairs true
      ⟨0, 0, false, false, 0, 0⟩
  exact ⟨params, result, read, vec, same, received, unread, errno rfl⟩

/-- How the bytes of a connection are cut into pieces, and where the buffer lies,
makes no difference to what `FCGX_Accept_r` reads, answers and leaves unread. -/
theorem readRequest_pieces (misaligned misaligned' : Bool) (request : Request) (ipc : Ipc)
    (pieces : Nat → Nat) (reads : Nat) :
    (readRequest misaligned request ipc).map (fun result => (result.1, result.2.cursor)) =
      (readRequest misaligned' request { ipc with pieces := pieces, reads := reads }).map
        (fun result => (result.1, result.2.cursor)) := by
  have whole : ∀ (misaligned : Bool) (ipc : Ipc),
      Agrees (fun result b => (result.1, result.2.cursor) = b)
        (readRequest misaligned request ipc) (Cursor.readRequest request ipc) := by
    intro misaligned ipc
    refine (readRequest_agrees misaligned request ipc).mono ?_
    rintro ⟨params, r⟩ ⟨params', c⟩ ⟨same, _, cursor⟩
    exact Prod.ext same cursor
  exact Agrees.map_eq (whole misaligned ipc)
    (whole misaligned' { ipc with pieces := pieces, reads := reads })

end Fcgx

end FastCgi
