/-
Module: FastCgi.Proofs.FcgxCursor
Layer: Proofs
Purpose: Facts about the cursors of Spec.FcgxInput on their own: what the way to
  the next header can come to, that reading only ever shortens what is left, and
  that the parameter reader gives the same on two streams that give the same.
Trusted boundary: none
Main exports: Fcgx.SourceAgrees, Fcgx.readParams_agrees, Fcgx.Cursor.Ready,
  Fcgx.Cursor.Within, Fcgx.Cursor.processHeader_processed,
  Fcgx.Cursor.fillWith_unfold, Fcgx.Cursor.fill_filled
-/
import FastCgi.Library.Simulation
import FastCgi.Proofs.FcgxOutput
import FastCgi.Spec.FcgxInput

namespace FastCgi

namespace Fcgx

open Library (Turn runLoop Agrees bind_eq_ok runLoop_lockstep runLoop_partial runLoop_unfold)

/-! ### Streams that give the same -/

section Source

variable {σ σ' : Type} {related : σ → σ' → Prop} {ended : σ → Prop}

/-- The same first component, and related states. -/
def Same (related : σ → σ' → Prop) {α : Type} (a : α × σ) (b : α × σ') : Prop :=
  a.1 = b.1 ∧ related a.2 b.2

/-- The same, and nothing only at an end. -/
def SameOrEnd (related : σ → σ' → Prop) (ended : σ → Prop) {α : Type} (a : Option α × σ)
    (b : Option α × σ') : Prop :=
  Same related a b ∧ (a.1 = none → ended a.2)

/-- Every operation gives the same on related states, and falls short only at an
end. -/
structure SourceAgrees (related : σ → σ' → Prop) (ended : σ → Prop) (source : Source σ)
    (source' : Source σ') : Prop where
  getChar : ∀ r c, related r c →
    Agrees (SameOrEnd related ended) (source.getChar r) (source'.getChar c)
  getStr : ∀ n r c, related r c →
    Agrees (fun a b => Same related a b ∧ (a.1.length ≠ n → ended a.2))
      (source.getStr n r) (source'.getStr n c)
  setError : ∀ r c, related r c → ended r →
    related (source.setError r fcgxParamsError) (source'.setError c fcgxParamsError) ∧
      ended (source.setError r fcgxParamsError)
  size : ∀ r c, related r c → source.size r = source'.size c

variable {source : Source σ} {source' : Source σ'} 
  (agrees : SourceAgrees related ended source source')
include agrees

theorem readLength_agrees (first : UInt8) {r : σ} {c : σ'} (states : related r c) :
    Agrees (SameOrEnd related ended) (readLength source first r)
      (readLength source' first c) := by
  unfold readLength
  split
  · refine (agrees.getStr 3 r c states).bind ?_
    rintro ⟨bytes, r⟩ ⟨_, c⟩ ⟨⟨same, states⟩, short⟩
    cases same
    dsimp only
    split
    · exact .ok ⟨⟨rfl, states⟩, nofun⟩
    · rename_i other
      refine .ok ⟨⟨rfl, states⟩, fun _ => short fun length => ?_⟩
      obtain ⟨b0, b1, b2, shape⟩ := List.length_eq_three.mp length
      exact other b0 b1 b2 shape
  · exact .ok ⟨⟨rfl, states⟩, nofun⟩

theorem readNameValue_agrees (nameLen valueLen : Nat) {r : σ} {c : σ'} (states : related r c) :
    Agrees (SameOrEnd related ended) (readNameValue source nameLen valueLen r)
      (readNameValue source' nameLen valueLen c) := by
  unfold readNameValue
  refine .bind_same fun size => ?_
  refine (agrees.getStr nameLen r c states).bind ?_
  rintro ⟨name, r⟩ ⟨_, c⟩ ⟨⟨same, states⟩, short⟩
  cases same
  refine .bind_same fun _ => ?_
  by_cases missing : name.length ≠ nameLen
  · simp only [if_pos missing]
    exact .ok ⟨⟨rfl, states⟩, fun _ => short missing⟩
  · simp only [if_neg missing]
    refine .bind_same fun _ => ?_
    refine (agrees.getStr valueLen r c states).bind ?_
    rintro ⟨value, r⟩ ⟨_, c⟩ ⟨⟨same, states⟩, short⟩
    cases same
    refine .bind_same fun _ => ?_
    by_cases missing : value.length ≠ valueLen
    · simp only [if_pos missing]
      exact .ok ⟨⟨rfl, states⟩, fun _ => short missing⟩
    · simp only [if_neg missing]
      exact .bind_same fun _ => .ok ⟨⟨rfl, states⟩, nofun⟩

theorem readPair_agrees (first : UInt8) {r : σ} {c : σ'} (states : related r c) :
    Agrees (SameOrEnd related ended) (readPair source first r) (readPair source' first c) := by
  unfold readPair
  refine (readLength_agrees agrees first states).bind ?_
  rintro ⟨nameLen, r⟩ ⟨_, c⟩ ⟨⟨same, states⟩, short⟩
  cases same
  cases nameLen with
  | none => exact .ok ⟨⟨rfl, states⟩, fun _ => short rfl⟩
  | some nameLen =>
      refine (agrees.getChar r c states).bind ?_
      rintro ⟨second, r⟩ ⟨_, c⟩ ⟨⟨same, states⟩, short⟩
      cases same
      cases second with
      | none => exact .ok ⟨⟨rfl, states⟩, fun _ => short rfl⟩
      | some second =>
          refine (readLength_agrees agrees second states).bind ?_
          rintro ⟨valueLen, r⟩ ⟨_, c⟩ ⟨⟨same, states⟩, short⟩
          cases same
          cases valueLen with
          | none => exact .ok ⟨⟨rfl, states⟩, fun _ => short rfl⟩
          | some valueLen => exact readNameValue_agrees agrees nameLen valueLen states

/-- The same results of `ReadParams`, at an end. -/
def SameParams (related : σ → σ' → Prop) (ended : σ → Prop) (a : Bool × Params × σ)
    (b : Bool × Params × σ') : Prop :=
  a.1 = b.1 ∧ Same related a.2 b.2 ∧ ended a.2.2

theorem readParamsTurn_agrees (params : Params) {r : σ} {c : σ'} (states : related r c) :
    Agrees (Turn.Related (Same related) (SameParams related ended))
      (readParamsTurn source (params, r)) (readParamsTurn source' (params, c)) := by
  unfold readParamsTurn
  refine (agrees.getChar r c states).bind ?_
  rintro ⟨first, r⟩ ⟨_, c⟩ ⟨⟨same, states⟩, short⟩
  cases same
  cases first with
  | none => exact .ok (.leave ⟨rfl, ⟨rfl, states⟩, short rfl⟩)
  | some first =>
      refine (readPair_agrees agrees first states).bind ?_
      rintro ⟨nameValue, r⟩ ⟨_, c⟩ ⟨⟨same, states⟩, short⟩
      cases same
      cases nameValue with
      | none =>
          obtain ⟨states, ends⟩ := agrees.setError _ _ states (short rfl)
          exact .ok (.leave ⟨rfl, ⟨rfl, states⟩, ends⟩)
      | some nameValue => exact .bind_same fun _ => .ok (.again ⟨rfl, states⟩)

/-- `ReadParams` gives the same on two streams that give the same. -/
theorem readParams_agrees (params : Params) {r : σ} {c : σ'} (states : related r c) :
    Agrees (SameParams related ended) (readParams source params r)
      (readParams source' params c) := by
  unfold readParams
  rw [agrees.size r c states]
  refine runLoop_lockstep ?_ (show Same related (params, r) (params, c) from ⟨rfl, states⟩)
  rintro ⟨params, r⟩ ⟨_, c⟩ ⟨same, states⟩
  cases same
  exact readParamsTurn_agrees agrees params states

end Source

namespace Cursor

/-! ### The way to the next header -/

/-- The client can get a byte of this record. -/
structure Ready (c : Cursor) : Prop where
  content : 0 < c.content
  skip : c.skip = false
  rest : c.rest ≠ []

/-- The place is further on or the same, and the request and the connection are
the same. -/
structure Within (c c' : Cursor) : Prop where
  rest : c'.rest <:+ c.rest
  eorStop : c'.eorStop = c.eorStop
  type : c'.type = c.type
  request : c'.request = c.request
  link : c'.link = c.link

theorem Within.refl (c : Cursor) : c.Within c := ⟨List.suffix_refl _, rfl, rfl, rfl, rfl⟩

theorem Within.trans {first second third : Cursor} (one : first.Within second)
    (two : second.Within third) : first.Within third :=
  ⟨two.rest.trans one.rest, two.eorStop.trans one.eorStop, two.type.trans one.type,
    two.request.trans one.request, two.link.trans one.link⟩

theorem Within.length {c c' : Cursor} (within : c.Within c') : c'.rest.length ≤ c.rest.length :=
  within.rest.length_le

theorem within_setError (c : Cursor) (errno : Int) : c.Within (c.setError errno) :=
  ⟨List.suffix_refl _, rfl, rfl, rfl, rfl⟩

theorem within_passPadding (c : Cursor) : c.Within c.passPadding :=
  ⟨List.drop_suffix _ _, rfl, rfl, rfl, rfl⟩

theorem within_passContent (c : Cursor) : c.Within c.passContent := by
  unfold passContent
  split
  · exact ⟨List.drop_suffix _ _, rfl, rfl, rfl, rfl⟩
  · exact .refl c

/-- What the way to the next header comes to. -/
inductive Approached (c : Cursor) : Approach → Prop
  | ready (ready : c.Ready) : Approached c (.done c)
  | closed {c' : Cursor} (within : c.Within c') (closed : c'.isClosed = true) :
      Approached c (.done c')
  | header {header : Bytes} {c' : Cursor} (running : c.eorStop = false)
      (length : header.length = headerLen) (content : c'.content = 0) (padding : c'.padding = 0)
      (within : c.Within c') (shorter : c'.rest.length < c.rest.length)
      (isClosed : c'.isClosed = c.isClosed) : Approached c (.header header c')

theorem approached_atHeader {c c' : Cursor} (within : c.Within c') (content : c'.content = 0)
    (padding : c'.padding = 0) (isClosed : c'.isClosed = c.isClosed) :
    c.Approached c'.atHeader := by
  unfold atHeader
  split
  · exact .closed (within.trans ⟨List.suffix_refl _, rfl, rfl, rfl, rfl⟩) rfl
  · rename_i running
    have same := within.length
    split
    · refine .closed (within.trans ⟨List.nil_suffix, rfl, rfl, rfl, rfl⟩) rfl
    · rename_i enough
      rw [headerLen] at enough
      refine .header (within.eorStop ▸ (Bool.not_eq_true _).mp running) ?_ content padding
        (within.trans ⟨List.drop_suffix _ _, rfl, rfl, rfl, rfl⟩) ?_ isClosed
      · rw [List.length_take, headerLen]
        omega
      · rw [List.length_drop, headerLen]
        omega

theorem approached_atPadding {c c' : Cursor} (within : c.Within c') (content : c'.content = 0)
    (isClosed : c'.isClosed = c.isClosed) : c.Approached c'.atPadding := by
  unfold atPadding
  have further := within.trans (within_passPadding c')
  split
  · exact .closed (further.trans (within_setError _ _)) rfl
  · exact approached_atHeader further content (by omega) isClosed

theorem passContent_isClosed (c : Cursor) : c.passContent.isClosed = c.isClosed := by
  unfold passContent
  split <;> rfl

theorem approached (c : Cursor) : c.Approached c.approach := by
  unfold approach atContent
  split
  · exact .closed (within_setError _ _) rfl
  · rename_i some
    split
    · rename_i ready
      exact .ready ⟨ready.1, ready.2, some⟩
    · have within := within_passContent c
      split
      · exact .closed (within.trans (within_setError _ _)) rfl
      · exact approached_atPadding within (by omega) (passContent_isClosed c)

theorem approach_ready {c : Cursor} (ready : c.Ready) : c.approach = .done c := by
  simp only [approach, if_neg ready.rest, atContent, ready.content, ready.skip, and_self, if_true]

theorem fillWith_ready (processHeader : Bytes → Cursor → Except Fault (Status × Cursor))
    {c : Cursor} (ready : c.Ready) : fillWith processHeader c = .ok c := by
  simp only [fillWith, runLoop, fillTurn, approach_ready ready]

/-! ### Reading one record -/

/-- For `ProcessHeader` the way never comes to a header. -/
theorem fillRecord_cases {c : Cursor} (eorStop : c.eorStop = true) :
    (c.Ready ∧ fillRecord c = .ok c) ∨
      ∃ c', fillRecord c = .ok c' ∧ c.Within c' ∧ c'.isClosed = true := by
  have found := c.approached
  unfold fillRecord fillWith
  simp only [runLoop, fillTurn]
  generalize c.approach = approach at found
  cases found with
  | ready ready => exact .inl ⟨ready, rfl⟩
  | closed within closed => exact .inr ⟨_, rfl, within, closed⟩
  | header running => rw [eorStop] at running; cases running

theorem pop_ready {c : Cursor} (ready : c.Ready) :
    ∃ byte rest, c.rest = byte :: rest ∧
      c.pop = .ok (some byte, { c with rest := rest, content := c.content - 1 }) := by
  obtain ⟨byte, rest, shape⟩ := List.exists_cons_of_ne_nil ready.rest
  exact ⟨byte, rest, shape, by simp only [pop, shape, if_pos ready.content]⟩

/-- A byte of the record, or its end. -/
theorem getChar_record {c : Cursor} (eorStop : c.eorStop = true) :
    (∃ byte rest, getChar fillRecord c =
        .ok (some byte, { c with rest := rest, content := c.content - 1 }) ∧
      c.rest = byte :: rest ∧ 0 < c.content) ∨
    ∃ c', getChar fillRecord c = .ok (none, c') ∧ c.Within c' ∧ c'.isClosed = true := by
  unfold getChar
  split
  · rename_i closed
    exact .inr ⟨c, rfl, .refl c, closed⟩
  · rename_i open_
    rcases fillRecord_cases eorStop with ⟨ready, filled⟩ | ⟨c', filled, within, closed⟩
    · obtain ⟨byte, rest, shape, popped⟩ := pop_ready ready
      refine .inl ⟨byte, rest, ?_, shape, ready.content⟩
      simp only [filled, open_, popped, ok_bind, Bool.false_eq_true, if_false]
    · refine .inr ⟨c', ?_, within, closed⟩
      simp only [filled, closed, ok_bind, if_true, pure_ok]

theorem getChar_record_within {c : Cursor} (eorStop : c.eorStop = true) :
    ∃ byte c', getChar fillRecord c = .ok (byte, c') ∧ c.Within c' := by
  rcases getChar_record eorStop with ⟨byte, rest, got, shape, _⟩ | ⟨c', got, within, _⟩
  · exact ⟨_, _, got, ⟨shape ▸ List.suffix_cons _ _, rfl, rfl, rfl, rfl⟩⟩
  · exact ⟨_, _, got, within⟩

/-- All the bytes asked for, or an end of the record. -/
theorem getStr_record (n : Nat) {c : Cursor} (eorStop : c.eorStop = true) :
    ∃ bytes c', getStr fillRecord n c = .ok (bytes, c') ∧ c.Within c' ∧
      (bytes.length = n ∧ c'.content = c.content - n ∧ c'.isClosed = c.isClosed ∨
        bytes.length < n ∧ c'.isClosed = true) := by
  induction n generalizing c with
  | zero => exact ⟨[], c, rfl, .refl c, .inl ⟨rfl, rfl, rfl⟩⟩
  | succ n inductionHypothesis =>
      rcases getChar_record eorStop with ⟨byte, rest, got, shape, _⟩ | ⟨c', got, within, closed⟩
      · have step : c.Within { c with rest := rest, content := c.content - 1 } :=
          ⟨shape ▸ List.suffix_cons _ _, rfl, rfl, rfl, rfl⟩
        obtain ⟨bytes, c', ran, within, ends⟩ := inductionHypothesis
          (show ({ c with rest := rest, content := c.content - 1 } : Cursor).eorStop = true
            from eorStop)
        refine ⟨byte :: bytes, c', ?_, step.trans within, ?_⟩
        · simp only [getStr, got, ran, ok_bind, pure_ok]
        · simp only [List.length_cons]
          rcases ends with ⟨length, content, same⟩ | ⟨short, closed⟩
          · exact .inl ⟨by omega, by rw [content]; simp only; omega, same⟩
          · exact .inr ⟨by omega, closed⟩
      · refine ⟨[], c', ?_, within, .inr ⟨by simp, closed⟩⟩
        simp only [getStr, got, ok_bind, pure_ok]

/-- Reading the record keeps inside what was left. -/
theorem record_agrees {c : Cursor} (eorStop : c.eorStop = true) :
    SourceAgrees (fun a b => a = b ∧ c.Within a) (fun _ => True) (source fillRecord)
      (source fillRecord) where
  getChar := by
    rintro a _ ⟨rfl, within⟩
    obtain ⟨byte, a', got, further⟩ := getChar_record_within (within.eorStop.trans eorStop)
    simp only [source, got]
    exact .ok ⟨⟨rfl, rfl, within.trans further⟩, fun _ => trivial⟩
  getStr := by
    rintro n a _ ⟨rfl, within⟩
    obtain ⟨bytes, a', got, further, _⟩ := getStr_record n (within.eorStop.trans eorStop)
    simp only [source, got]
    exact .ok ⟨⟨rfl, rfl, within.trans further⟩, fun _ => trivial⟩
  setError := by
    rintro a _ ⟨rfl, within⟩ _
    exact ⟨⟨rfl, within.trans (within_setError _ _)⟩, trivial⟩
  size := by
    rintro a _ ⟨rfl, _⟩
    rfl

theorem readParams_within {c c' : Cursor} (eorStop : c.eorStop = true) {params params' : Params}
    {done : Bool} (ran : readParams (source fillRecord) params c = .ok (done, params', c')) :
    c.Within c' := by
  have agrees := readParams_agrees (record_agrees eorStop) params ⟨rfl, Within.refl c⟩
  rw [ran] at agrees
  cases agrees with
  | ok results => exact results.2.1.2.2

/-! ### `ProcessHeader` -/

/-- What a header leaves of the place. -/
structure Processed (c : Cursor) (status : Status) (c' : Cursor) : Prop where
  rest : c'.rest <:+ c.rest
  type : c'.type = c.type
  /-- A second BEGIN record of a connection is answered and skipped. -/
  begun : c.request.isBeginProcessed = true → c'.request = c.request ∧ status ≠ .beginRecord

theorem Within.processed {c c' : Cursor} (within : c.Within c') {status : Status}
    (other : status ≠ .beginRecord) : c.Processed status c' :=
  ⟨within.rest, within.type, fun _ => ⟨within.request, other⟩⟩

theorem reply_processed {c read c' : Cursor} {bytes : Bytes} {status status' : Status}
    (replied : read.reply bytes status = (status', c')) (within : c.Within read)
    (other : status ≠ .beginRecord) : c.Processed status' c' := by
  unfold reply at replied
  generalize writeItAll read.link bytes = answer at replied
  obtain ⟨_ | _, link⟩ := answer
  · cases replied
    exact ⟨within.rest, within.type, fun _ => ⟨within.request, by simp⟩⟩
  · cases replied
    exact ⟨within.rest, within.type, fun _ => ⟨within.request, other⟩⟩

theorem processBeginRecord_processed {requestId : Nat} {c c' : Cursor} {status : Status}
    (ran : c.processBeginRecord requestId = .ok (status, c')) (eorStop : c.eorStop = true) :
    c.Processed status c' := by
  unfold processBeginRecord at ran
  split at ran
  · cases ran
    exact (Within.refl c).processed (by simp)
  split at ran
  · obtain ⟨header, _, ran⟩ := bind_eq_ok.mp ran
    exact reply_processed (Except.ok.inj ran) (.refl c) (by simp)
  · rename_i fresh
    obtain ⟨⟨body, read⟩, got, ran⟩ := bind_eq_ok.mp ran
    obtain ⟨body', read', got', within, _⟩ := getStr_record 8
      (show ({ c with request := { c.request with requestId := requestId } } : Cursor).eorStop =
        true from eorStop)
    rw [got] at got'
    cases got'
    dsimp only at ran
    split at ran
    · cases ran
      exact ⟨within.rest, within.type, fun begun => absurd begun fresh⟩
    · cases ran
      exact ⟨within.rest, within.type, fun begun => absurd begun fresh⟩

theorem processManagementRecord_processed {type : UInt8} {c c' : Cursor} {status : Status}
    (ran : c.processManagementRecord type = .ok (status, c')) (eorStop : c.eorStop = true) :
    c.Processed status c' := by
  unfold processManagementRecord at ran
  split at ran
  · obtain ⟨⟨done, params, read⟩, got, ran⟩ := bind_eq_ok.mp ran
    have within := readParams_within eorStop got
    dsimp only at ran
    split at ran
    · cases ran
      exact within.processed (by simp)
    · obtain ⟨body, _, ran⟩ := bind_eq_ok.mp ran
      obtain ⟨header, _, ran⟩ := bind_eq_ok.mp ran
      obtain ⟨_, _, ran⟩ := bind_eq_ok.mp ran
      exact reply_processed (Except.ok.inj ran) within (by simp)
  · obtain ⟨header, _, ran⟩ := bind_eq_ok.mp ran
    exact reply_processed (Except.ok.inj ran) (.refl c) (by simp)

theorem processHeader_processed {header : Bytes} {c c' : Cursor} {status : Status}
    (ran : c.processHeader header = .ok (status, c')) (eorStop : c.eorStop = true) :
    c.Processed status c' := by
  unfold processHeader at ran
  cases fields : headerFields header with
  | none =>
      rw [fields] at ran
      cases ran
  | some header =>
      rw [fields] at ran
      simp only [processFields, processRecord] at ran
      split at ran
      · cases ran
        exact (Within.refl c).processed (by simp)
      split at ran
      · have processed := processBeginRecord_processed ran eorStop
        exact ⟨processed.rest, processed.type, processed.begun⟩
      split at ran
      · have processed := processManagementRecord_processed ran eorStop
        exact ⟨processed.rest, processed.type, processed.begun⟩
      split at ran
      · cases ran
        exact ⟨List.suffix_refl _, rfl, fun _ => ⟨rfl, by simp⟩⟩
      split at ran
      · cases ran
        exact ⟨List.suffix_refl _, rfl, fun _ => ⟨rfl, by simp⟩⟩
      · cases ran
        exact ⟨List.suffix_refl _, rfl, fun _ => ⟨rfl, by simp⟩⟩

/-! ### `FillBuffProc` -/

/-- A header only shortens what is left. -/
def Shortens (processHeader : Bytes → Cursor → Except Fault (Status × Cursor)) : Prop :=
  ∀ header c status c', c.eorStop = true → processHeader header c = .ok (status, c') →
    c'.rest.length ≤ c.rest.length

theorem processHeader_shortens : Shortens processHeader := fun _ _ _ _ eorStop ran =>
  (processHeader_processed ran eorStop).rest.length_le

/-- What the loop goes on with, or leaves with. -/
theorem onStatus_cases (status : Status) (c : Cursor) :
    (∃ skip, onStatus status c = .again { c with skip := skip }) ∨
    (∃ errno, onStatus status c = .leave { c with isClosed := true, fcgiErrno := errno }) ∨
      status = .beginRecord ∧ onStatus status c = .leave c := by
  cases status with
  | streamRecord =>
      by_cases empty : c.content = 0
      · exact .inr (.inl ⟨c.fcgiErrno, by simp only [onStatus, if_pos empty]⟩)
      · exact .inl ⟨c.skip, by simp only [onStatus, if_neg empty]⟩
  | skip => exact .inl ⟨true, rfl⟩
  | mgmtRecord => exact .inl ⟨c.skip, rfl⟩
  | beginRecord => exact .inr (.inr ⟨rfl, rfl⟩)
  | error code => exact .inr (.inl ⟨_, rfl⟩)

section Fill

variable {ph : Bytes → Cursor → Except Fault (Status × Cursor)} (shortens : Shortens ph)
include shortens

theorem fillTurn_shorter (c next : Cursor) (again : fillTurn ph c = .ok (.again next)) :
    next.rest.length < c.rest.length := by
  have found := c.approached
  unfold fillTurn at again
  generalize c.approach = approach at found again
  cases found with
  | ready => cases again
  | closed => cases again
  | header running length content padding within shorter =>
      obtain ⟨⟨status, processed⟩, ran, again⟩ := bind_eq_ok.mp again
      have less := shortens _ _ _ _ rfl ran
      have turn := Except.ok.inj again
      rcases onStatus_cases status { processed with eorStop := false, isClosed := false } with
        ⟨skip, goes⟩ | ⟨errno, leaves⟩ | ⟨_, leaves⟩
      · rw [goes] at turn
        cases turn
        exact Nat.lt_of_le_of_lt less shorter
      · rw [leaves] at turn
        cases turn
      · rw [leaves] at turn
        cases turn

/-- `FillBuffProc` is one way to a header, and itself again. -/
theorem fillWith_unfold (c : Cursor) :
    fillWith ph c = match fillTurn ph c with
      | .error fault => .error fault
      | .ok (.leave result) => .ok result
      | .ok (.again next) => fillWith ph next := by
  rw [fillWith, runLoop_unfold (fun c : Cursor => c.rest.length) (fillTurn_shorter shortens)]
  generalize fillTurn ph c = turn
  rcases turn with _ | (_ | _)
  · rfl
  · rfl
  · rfl

end Fill

/-- Between two headers. -/
structure Moved (c c' : Cursor) : Prop where
  rest : c'.rest <:+ c.rest
  eorStop : c'.eorStop = false
  type : c'.type = c.type
  request : c.request.isBeginProcessed = true → c'.request = c.request

/-- What `FillBuffProc` keeps; within a request, it finds a byte for the client
or an end. -/
structure Filled (c c' : Cursor) : Prop extends Moved c c' where
  ready : c.request.isBeginProcessed = true → c'.isClosed = false → c'.Ready

theorem Moved.trans {first second third : Cursor} (one : first.Moved second)
    (two : second.Moved third) : first.Moved third where
  rest := two.rest.trans one.rest
  eorStop := two.eorStop
  type := two.type.trans one.type
  request := fun begun => by
    have same := one.request begun
    rw [two.request (by rw [same, begun]), same]

theorem Moved.filled {first second third : Cursor} (one : first.Moved second)
    (two : second.Filled third) : first.Filled third where
  toMoved := one.trans two.toMoved
  ready := fun begun => two.ready (by rw [one.request begun, begun])

theorem Within.moved {c c' : Cursor} (within : c.Within c') (eorStop : c.eorStop = false) :
    c.Moved c' :=
  ⟨within.rest, within.eorStop.trans eorStop, within.type, fun _ => within.request⟩

/-- One turn of the loop. -/
theorem fillTurn_moved {c : Cursor} (eorStop : c.eorStop = false) {turn : Turn Cursor Cursor}
    (ran : fillTurn processHeader c = .ok turn) :
    (∃ next, turn = .again next ∧ c.Moved next) ∨
      ∃ result, turn = .leave result ∧ c.Filled result := by
  have found := c.approached
  unfold fillTurn at ran
  generalize c.approach = approach at found ran
  cases found with
  | ready ready =>
      cases ran
      exact .inr ⟨c, rfl, (Within.refl c).moved eorStop, fun _ _ => ready⟩
  | closed within closed =>
      cases ran
      refine .inr ⟨_, rfl, within.moved eorStop, fun _ opened => ?_⟩
      rw [closed] at opened
      cases opened
  | header _ _ _ _ within =>
      obtain ⟨⟨status, processed⟩, ran, turned⟩ := bind_eq_ok.mp ran
      have kept := processHeader_processed ran rfl
      have moved : ∀ skip isClosed errno, c.Moved { processed with
          eorStop := false, skip := skip, isClosed := isClosed, fcgiErrno := errno } := by
        intro skip isClosed errno
        refine ⟨kept.rest.trans within.rest, rfl, kept.type.trans within.type, fun begun => ?_⟩
        exact (kept.begun (by simp only [within.request, begun])).1.trans within.request
      have turned := Except.ok.inj turned
      rcases onStatus_cases status { processed with eorStop := false, isClosed := false } with
        ⟨skip, goes⟩ | ⟨errno, leaves⟩ | ⟨begins, leaves⟩
      · exact .inl ⟨_, turned.symm.trans goes, moved _ _ _⟩
      · exact .inr ⟨_, turned.symm.trans leaves, moved _ _ _, fun _ opened => by cases opened⟩
      · refine .inr ⟨_, turned.symm.trans leaves, moved _ _ _, fun begun => ?_⟩
        exact absurd begins (kept.begun (by simp only [within.request, begun])).2

theorem fill_filled {c c' : Cursor} (eorStop : c.eorStop = false) (ran : fill c = .ok c') :
    c.Filled c' := by
  refine runLoop_partial (fun state => c.Moved state) (fun result => c.Filled result) ?_ ?_
    ((Within.refl c).moved eorStop) ran
  · intro state next moved again
    rcases fillTurn_moved moved.eorStop again with ⟨_, same, further⟩ | ⟨_, same, _⟩
    · cases same
      exact moved.trans further
    · cases same
  · intro state result moved left
    rcases fillTurn_moved moved.eorStop left with ⟨_, same, _⟩ | ⟨_, same, filled⟩
    · cases same
    · cases same
      exact moved.filled filled

end Cursor

end Fcgx

end FastCgi
