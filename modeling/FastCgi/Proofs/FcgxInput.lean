/-
Module: FastCgi.Proofs.FcgxInput
Layer: Proofs
Purpose: An input stream of libfcgi is a cursor: `FillBuffProc`, `FCGX_GetChar`,
  `FCGX_GetStr`, `ProcessHeader` and one turn of `FCGX_Accept_r` do on the
  buffer what Spec.FcgxInput does on the bytes, whatever pieces they come in.
Trusted boundary: none
Main exports: Fcgx.Reading.Valid, Fcgx.fillWith_agrees, Fcgx.stream_agrees,
  Fcgx.processHeader_agrees, Fcgx.readRequest_agrees
-/
import FastCgi.Proofs.FcgxCursor

namespace FastCgi

namespace Fcgx

open Library (Turn runLoop Agrees bind_eq_ok runLoop_agrees)

namespace Reading

/-- The client has got all that was delivered. -/
def Settled (r : Reading) : Prop := r.stream.stop = r.stream.rdNext

/-- A stream between two calls. -/
structure Valid (r : Reading) : Prop where
  next : r.stream.rdNext ≤ r.stream.buff.length
  room : 0 < r.stream.bufflen
  opened : r.stream.isClosed = false →
    r.stream.rdNext ≤ r.stream.stop ∧ r.stream.stop ≤ r.stream.buff.length
  delivered : r.stream.isClosed = false → r.stream.rdNext < r.stream.stop → r.stream.skip = false
  ended : r.stream.isClosed = true → r.stream.fcgiErrno = 0 → r.Settled

/-- A stream inside the loop of `FillBuffProc`, with a part of a header. -/
structure Filling (r : Reading) (header : Bytes) : Prop where
  next : r.stream.rdNext ≤ r.stream.buff.length
  room : 0 < r.stream.bufflen
  running : r.stream.isClosed = false
  short : header.length < headerLen
  behind : header ≠ [] →
    r.stream.contentLen = 0 ∧ r.stream.paddingLen = 0 ∧ r.stream.eorStop = false

/-- The place of such a stream: the part of the header is read again. -/
def place (r : Reading) (header : Bytes) : Cursor :=
  r.view (header ++ r.unread) r.stream.contentLen

theorem unread_advance (r : Reading) {k : Nat}
    (inside : k ≤ r.stream.buff.length - r.stream.rdNext) :
    (r.advance k).unread = r.unread.drop k := by
  simp only [unread, advance]
  rw [List.drop_append_of_le_length (by rw [List.length_drop]; exact inside),
    List.drop_drop]

theorem length_unread (r : Reading) :
    r.unread.length = r.stream.buff.length - r.stream.rdNext + r.ipc.incoming.length := by
  rw [unread, List.length_append, List.length_drop]

/-! ### `OS_Read` -/

/-- The same place, with bytes in the buffer. -/
structure Refilled (r r' : Reading) : Prop where
  view : ∀ rest content, r'.view rest content = r.view rest content
  unread : r'.unread = r.unread
  contentLen : r'.stream.contentLen = r.stream.contentLen
  room : 0 < r'.stream.bufflen
  some : r'.stream.rdNext < r'.stream.buff.length

theorem refill_cases {r : Reading} (next : r.stream.rdNext ≤ r.stream.buff.length)
    (room : 0 < r.stream.bufflen) :
    (r.unread = [] ∧ ∃ ipc, ipc.link = r.ipc.link ∧ ipc.incoming = [] ∧
      refill r = (false, { r with ipc := ipc }.setError r.ipc.endError)) ∨
    ∃ r', refill r = (true, r') ∧ r.Refilled r' := by
  by_cases consumed : r.stream.rdNext = r.stream.buff.length
  · have empty : r.stream.buff.drop r.stream.rdNext = [] := by rw [consumed, List.drop_length]
    rw [refill, if_pos consumed, osRead]
    by_cases nothing : r.ipc.incoming = []
    · rw [if_pos nothing]
      exact .inl ⟨by rw [unread, empty, nothing]; rfl,
        { r.ipc with reads := r.ipc.reads + 1 }, rfl, nothing, rfl⟩
    · rw [if_neg nothing]
      refine .inr ⟨_, rfl, fun _ _ => rfl, ?_, rfl, room, ?_⟩
      · simp only [unread, List.drop_zero, List.take_append_drop, empty, List.nil_append]
      · have positive := List.length_pos_iff.mpr nothing
        simp only [List.length_take]
        omega
  · rw [refill, if_neg consumed]
    exact .inr ⟨r, rfl, fun _ _ => rfl, rfl, rfl, room, by omega⟩

end Reading

namespace Cursor

/-! ### The way to the next header, in pieces -/

theorem passContent_none {c : Cursor} (content : c.content = 0) : c.passContent = c := by
  rw [passContent, if_neg (by omega)]

theorem passPadding_none {c : Cursor} (padding : c.padding = 0) : c.passPadding = c := by
  obtain ⟨rest, content, _, skip, eorStop, isClosed, errno, type, request, link⟩ := c
  subst padding
  simp [passPadding]

theorem atContent_none {c : Cursor} (content : c.content = 0) : c.atContent = c.atPadding := by
  rw [atContent, if_neg (by omega), passContent_none content, if_neg (by omega)]

/-- Behind a record the way is the header's. -/
theorem approach_eq_atHeader {c : Cursor} (content : c.content = 0) (padding : c.padding = 0)
    (running : c.eorStop = false) : c.approach = c.atHeader := by
  by_cases empty : c.rest = []
  · have erased : { c with rest := [] } = c := by rw [← empty]
    rw [approach, if_pos empty, atHeader, if_neg (by simp [running]),
      if_pos (by simp [empty, headerLen]), erased]
  · rw [approach, if_neg empty, atContent_none content, atPadding, passPadding_none padding,
      if_neg (by omega)]

/-- A part of the padding, and the rest of it. -/
theorem approach_padding {c : Cursor} (content : c.content = 0) {k : Nat} (part : k < c.padding)
    (inside : k ≤ c.rest.length) :
    ({ c with rest := c.rest.drop k, padding := c.padding - k } : Cursor).approach =
      c.atPadding := by
  have sum : k + (c.padding - k) = c.padding := by omega
  have rest_sub : c.padding - k - (c.rest.length - k) = c.padding - c.rest.length := by omega
  by_cases empty : c.rest.drop k = []
  · have length := congrArg List.length empty
    rw [List.length_drop, List.length_nil] at length
    have all : c.rest.drop c.padding = c.rest.drop k := by
      rw [empty, List.drop_of_length_le (by omega)]
    have left : c.padding - c.rest.length = c.padding - k := by omega
    simp only [approach, if_pos empty, atPadding, passPadding, all, left]
    rw [if_pos (by omega)]
  · have further :
        ({ c with rest := c.rest.drop k, padding := c.padding - k } : Cursor).passPadding =
          c.passPadding := by
      simp only [passPadding, List.drop_drop, List.length_drop, sum, rest_sub]
    rw [approach, if_neg empty]
    refine (atContent_none (by exact content)).trans ?_
    simp only [atPadding, further]

/-- A part of content that is skipped, and the rest of it. -/
theorem approach_skip {c : Cursor} (skip : c.skip = true) (some : c.rest ≠ []) {k : Nat}
    (part : k < c.content) (inside : k ≤ c.rest.length) :
    ({ c with rest := c.rest.drop k, content := c.content - k } : Cursor).approach =
      c.approach := by
  have sum : k + (c.content - k) = c.content := by omega
  have rest_sub : c.content - k - (c.rest.length - k) = c.content - c.rest.length := by omega
  have positive : 0 < c.content := by omega
  by_cases empty : c.rest.drop k = []
  · have length := congrArg List.length empty
    rw [List.length_drop, List.length_nil] at length
    have all : c.rest.drop c.content = c.rest.drop k := by
      rw [empty, List.drop_of_length_le (by omega)]
    have left : c.content - c.rest.length = c.content - k := by omega
    have short : ¬ c.content ≤ c.rest.length := by omega
    simp only [approach, if_pos empty, if_neg some, atContent, passContent, if_pos positive, all,
      left, if_neg short, skip]
    simp [show 0 < c.content - k by omega]
  · have still : 0 < c.content - k := by omega
    have ends : c.content - k ≤ c.rest.length - k ↔ c.content ≤ c.rest.length := by omega
    simp only [approach, if_neg empty, if_neg some, atContent, passContent, if_pos positive,
      if_pos still, List.drop_drop, List.length_drop, sum, rest_sub, ends, skip]
    simp

end Cursor

/-! ### One turn of `FillBuffProc` -/

/-- What `FillBuffProc` leaves to the client. -/
def Found (r : Reading) (c : Cursor) : Prop :=
  r.Valid ∧ r.cursor = c ∧
    (r.stream.isClosed = false → 0 < c.content → r.stream.rdNext < r.stream.stop)

/-- What `ProcessHeader` leaves to `FillBuffProc`. -/
structure HeaderRead (a : Status × Reading) (b : Status × Cursor) : Prop where
  status : a.1 = b.1
  valid : a.2.Valid
  cursor : a.2.cursor = b.2
  settled : a.2.Settled ∨ a.2.stream.isClosed = true ∧ ∃ code, a.1 = .error code
  error : ∀ code, a.1 = .error code → code ≠ 0
  begins : a.1 = .beginRecord → a.2.stream.contentLen = 0

/-- Two interpretations of a header agree on a stream at the end of one. -/
structure HeaderAgrees (ph : Bytes → Reading → Except Fault (Status × Reading))
    (ph' : Bytes → Cursor → Except Fault (Status × Cursor)) : Prop where
  shortens : Cursor.Shortens ph'
  agrees : ∀ header r, r.Valid → r.Settled → r.stream.isClosed = false →
    r.stream.eorStop = true → Agrees HeaderRead (ph header r) (ph' header r.cursor)

section Turn

variable {ph : Bytes → Reading → Except Fault (Status × Reading)}
  {ph' : Bytes → Cursor → Except Fault (Status × Cursor)}

/-- `FillBuffProc` from the end of the way. -/
def resume (ph' : Bytes → Cursor → Except Fault (Status × Cursor)) :
    Cursor.Approach → Except Fault Cursor
  | .done c => .ok c
  | .header header c => do
      let (status, c) ← ph' header { c with eorStop := true }
      match Cursor.onStatus status { c with eorStop := false, isClosed := false } with
      | .leave result => .ok result
      | .again next => Cursor.fillWith ph' next

theorem fillWith_eq_resume (shortens : Cursor.Shortens ph') (c : Cursor) :
    Cursor.fillWith ph' c = resume ph' c.approach := by
  rw [Cursor.fillWith_unfold shortens, Cursor.fillTurn]
  cases c.approach with
  | done c => rfl
  | header header c =>
      simp only [resume]
      cases ph' header { c with eorStop := true } with
      | error fault => rfl
      | ok result =>
          simp only [ok_bind, pure_ok]
          cases Cursor.onStatus result.1 { result.2 with eorStop := false, isClosed := false } with
          | leave result => rfl
          | again next => rfl

/-- A turn is a part of what `meaning` says, and reads below `bound`. -/
def Unfolds (ph' : Bytes → Cursor → Except Fault (Status × Cursor)) (bound : Nat)
    (turn : Except Fault (Turn (Reading × Bytes) Reading)) (meaning : Except Fault Cursor) : Prop :=
  (∃ result, turn = .ok (.leave result) ∧ Agrees Found (.ok result) meaning) ∨
  (∃ fault, turn = .error fault ∧ meaning = .error fault) ∨
    ∃ next, turn = .ok (.again next) ∧ next.1.Filling next.2 ∧ next.1.unread.length < bound ∧
      meaning = Cursor.fillWith ph' (next.1.place next.2)

theorem Unfolds.found {bound : Nat} {r : Reading} {c : Cursor} (found : Found r c) :
    Unfolds ph' bound (.ok (.leave r)) (.ok c) :=
  .inl ⟨r, rfl, .ok found⟩

/-- A closed stream needs no more than to know why it was closed. -/
theorem found_of_closed {r : Reading} {c : Cursor}
    (next : r.stream.rdNext ≤ r.stream.buff.length) (room : 0 < r.stream.bufflen)
    (closed : r.stream.isClosed = true) (ended : r.stream.fcgiErrno = 0 → r.Settled)
    (cursor : r.cursor = c) : Found r c := by
  have never {p : Prop} (opened : r.stream.isClosed = false) : p := by
    rw [closed] at opened
    cases opened
  exact ⟨⟨next, room, never, never, fun _ => ended⟩, cursor, never⟩

theorem found_close {r : Reading} {header : Bytes} (filling : r.Filling header) :
    Found r.close { r.place [] with isClosed := true } :=
  found_of_closed filling.next filling.room rfl (fun _ => rfl) rfl

theorem setError_errno {r : Reading} {errno : Int} (failed : errno ≠ 0) :
    (r.setError errno).stream.fcgiErrno ≠ 0 := by
  simp only [Reading.setError]
  split
  · exact failed
  · assumption

theorem found_setError {r : Reading} {header : Bytes} (filling : r.Filling header) {errno : Int}
    (failed : errno ≠ 0) : Found (r.setError errno) ((r.place []).setError errno) :=
  found_of_closed filling.next filling.room rfl
    (fun none => absurd none (setError_errno failed)) rfl

/-- What `FillBuffProc` does with a header. -/
theorem onStatus_unfolds {bound : Nat} {status : Status} {r : Reading} {c : Cursor}
    (read : HeaderRead (status, r) (status, c)) (less : r.unread.length < bound) :
    Unfolds ph' bound (.ok (onStatus status r.leaveRecord))
      (match Cursor.onStatus status { c with eorStop := false, isClosed := false } with
        | .leave result => .ok result
        | .again next => Cursor.fillWith ph' next) := by
  have filling : r.leaveRecord.Filling [] :=
    ⟨read.valid.next, read.valid.room, rfl, by decide, fun some => absurd rfl some⟩
  -- nothing was delivered and not got
  have here : ({ c with eorStop := false, isClosed := false } : Cursor) =
      r.leaveRecord.place [] := by
    have cursor := read.cursor
    simp only at cursor
    rw [← cursor]
    have none : (if r.stream.isClosed = true then 0 else r.stream.stop - r.stream.rdNext) = 0 := by
      rcases read.settled with settled | ⟨closed, _⟩
      · have same : r.stream.stop = r.stream.rdNext := settled
        simp [same]
      · simp only at closed
        simp [closed]
    simp only [Reading.cursor, none, Nat.add_zero]
    rfl
  rw [here]
  cases status with
  | streamRecord =>
      simp only [onStatus, Cursor.onStatus]
      have length : (r.leaveRecord.place []).content = r.leaveRecord.stream.contentLen := rfl
      rw [length]
      split
      · exact .found (found_close filling)
      · exact .inr (.inr ⟨_, rfl, filling, less, rfl⟩)
  | skip => exact .inr (.inr ⟨_, rfl, ⟨filling.next, filling.room, rfl, filling.short,
      fun some => absurd rfl some⟩, less, rfl⟩)
  | mgmtRecord => exact .inr (.inr ⟨_, rfl, filling, less, rfl⟩)
  | error code => exact .found (found_setError filling (read.error code rfl))
  | beginRecord =>
      have settled : r.stream.stop = r.stream.rdNext := by
        rcases read.settled with settled | ⟨_, code, other⟩
        · exact settled
        · cases other
      have empty : r.stream.contentLen = 0 := read.begins rfl
      have next := read.valid.next
      have none : r.leaveRecord.stream.contentLen = 0 := empty
      refine .found ⟨⟨read.valid.next, read.valid.room, fun _ => ?_, fun _ behind => ?_,
        fun closed => by cases closed⟩, ?_, fun _ some => ?_⟩
      · exact ⟨Nat.le_of_eq settled.symm, settled ▸ next⟩
      · exact absurd behind (by simp only [Reading.leaveRecord]; omega)
      · simp only [Reading.cursor, Reading.leaveRecord, settled, Nat.sub_self, ite_self]
        rfl
      · exact absurd some (by simp only [Reading.place, Reading.view]; omega)

variable (agrees : HeaderAgrees ph ph')
include agrees

/-- The bytes that a turn has passed, or can pass. -/
def Ahead (r : Reading) (bound : Nat) : Prop :=
  r.unread.length < bound ∨ r.unread.length ≤ bound ∧ r.stream.rdNext < r.stream.buff.length

omit agrees in
theorem Ahead.passes {r : Reading} {bound k : Nat} (ahead : Ahead r bound)
    (some : 0 < r.stream.buff.length - r.stream.rdNext → 0 < k) :
    (r.unread.drop k).length < bound := by
  have length := r.length_unread
  rw [List.length_drop]
  rcases ahead with less | ⟨less, inside⟩
  · omega
  · have positive := some (by omega)
    omega

theorem headerTurn_unfolds {bound : Nat} {r : Reading} {header : Bytes}
    (filling : r.Filling header) (ahead : Ahead r bound) (content : r.stream.contentLen = 0)
    (padding : r.stream.paddingLen = 0) (running : r.stream.eorStop = false) :
    Unfolds ph' bound (headerTurn ph r header) (resume ph' (r.place header).atHeader) := by
  obtain ⟨count, count_eq⟩ : ∃ count, count =
    min (headerLen - header.length) (r.stream.buff.length - r.stream.rdNext) := ⟨_, rfl⟩
  obtain ⟨header', header_eq⟩ : ∃ header', header' =
    header ++ (r.stream.buff.drop r.stream.rdNext).take count := ⟨_, rfl⟩
  have short := filling.short
  have next := filling.next
  have advanced := r.unread_advance (show count ≤ r.stream.buff.length - r.stream.rdNext by omega)
  have inside : r.stream.rdNext + count ≤ r.stream.buff.length := by omega
  -- what was moved to the header is read again
  have moved : header' ++ (r.advance count).unread = header ++ r.unread := by
    simp only [header_eq, Reading.unread, Reading.advance, ← List.drop_drop, List.append_assoc]
    rw [← List.append_assoc (List.take _ _), List.take_append_drop]
  have less : (r.advance count).unread.length < bound := by
    rw [advanced]
    exact ahead.passes (by omega)
  have length : header'.length = header.length + count := by
    rw [header_eq, List.length_append, List.length_take, List.length_drop]
    omega
  unfold headerTurn
  simp only [← count_eq, ← header_eq]
  by_cases partly : header'.length < headerLen
  · simp only [if_pos partly, pure_ok]
    refine .inr (.inr ⟨_, rfl, ⟨inside, filling.room, filling.running, partly,
      fun _ => ⟨content, padding, running⟩⟩, less, ?_⟩)
    have same : (r.advance count).place header' = r.place header := by
      rw [Reading.place, moved]
      rfl
    rw [fillWith_eq_resume agrees.shortens, same,
      Cursor.approach_eq_atHeader content padding running]
  · have complete : header'.length = headerLen := by omega
    have found : (r.place header).atHeader =
        .header header' { r.place header with rest := (r.advance count).unread } := by
      have whole : (r.place header).rest = header' ++ (r.advance count).unread := moved.symm
      have running : ¬ (r.place header).eorStop = true := Bool.eq_false_iff.mp running
      have enough : ¬ (r.place header).rest.length < headerLen := by
        rw [whole, List.length_append]
        omega
      rw [Cursor.atHeader, if_neg running, if_neg enough, whole, ← complete, List.take_left,
        List.drop_left]
    have here : (r.advance count).enterRecord.cursor =
        { r.place header with rest := (r.advance count).unread, eorStop := true } := by
      simp only [Reading.cursor, Reading.enterRecord, Nat.sub_self, ite_self]
      rfl
    have valid : (r.advance count).enterRecord.Valid :=
      ⟨inside, filling.room, fun _ => ⟨Nat.le_refl _, inside⟩,
        fun _ behind => absurd behind (Nat.lt_irrefl _), fun _ _ => rfl⟩
    have agree := agrees.agrees header' _ valid rfl filling.running rfl
    rw [here] at agree
    simp only [if_neg partly, found, resume]
    generalize ph header' (r.advance count).enterRecord = first at agree
    generalize interpreted : ph' header' _ = second at agree
    cases agree with
    | error fault => exact .inr (.inl ⟨fault, rfl, rfl⟩)
    | @ok result result' read =>
        obtain ⟨status, r'⟩ := result
        obtain ⟨status', c'⟩ := result'
        have shorter := agrees.shortens _ _ _ _ rfl interpreted
        have unread : r'.unread = c'.rest := congrArg Cursor.rest read.cursor
        obtain rfl : status = status' := read.status
        simp only [ok_bind, pure_ok]
        exact onStatus_unfolds read (by rw [unread]; exact Nat.lt_of_le_of_lt shorter less)

theorem paddingTurn_unfolds {bound : Nat} {r : Reading} {header : Bytes}
    (filling : r.Filling header) (ahead : Ahead r bound) (content : r.stream.contentLen = 0) :
    Unfolds ph' bound (paddingTurn ph r header) (resume ph' (r.place header).atPadding) := by
  obtain ⟨count, count_eq⟩ : ∃ count, count =
    min r.stream.paddingLen (r.stream.buff.length - r.stream.rdNext) := ⟨_, rfl⟩
  obtain ⟨r', r_eq⟩ : ∃ r', r' = r.skipPadding := ⟨_, rfl⟩
  have next := filling.next
  have length := r.length_unread
  have unread : r'.unread = r.unread.drop count := by
    rw [r_eq, count_eq]
    exact r.unread_advance (Nat.min_le_right _ _)
  have place (header : Bytes) (rest : Bytes) (same : header ++ r'.unread = rest) :
      r'.place header = { r.place header with
        rest := rest, padding := r.stream.paddingLen - count } := by
    rw [Reading.place, same, r_eq, count_eq]
    rfl
  -- a header is only read behind the padding
  have started : header = [] ∨ r.stream.paddingLen = 0 := by
    by_cases empty : header = []
    · exact .inl empty
    · exact .inr (filling.behind empty).2.1
  have filling' : r'.Filling header := by
    refine ⟨?_, ?_, ?_, filling.short, fun some => ⟨?_, ?_, ?_⟩⟩
    · simp only [r_eq, Reading.skipPadding]
      omega
    · rw [r_eq]; exact filling.room
    · rw [r_eq]; exact filling.running
    · rw [r_eq]; exact content
    · have none := (filling.behind some).2.1
      simp only [r_eq, Reading.skipPadding, none]
      omega
    · rw [r_eq]; exact (filling.behind some).2.2
  have padding : r'.stream.paddingLen = r.stream.paddingLen - count := by rw [r_eq, count_eq]; rfl
  have running : r'.stream.eorStop = r.stream.eorStop := by rw [r_eq]; rfl
  unfold paddingTurn
  simp only [← r_eq]
  by_cases partly : 0 < r'.stream.paddingLen
  · obtain rfl : header = [] := by
      rcases started with empty | none
      · exact empty
      · omega
    rw [if_pos partly]
    refine .inr (.inr ⟨_, rfl, filling', unread ▸ ahead.passes (by omega), ?_⟩)
    have there := place [] (r.unread.drop count) unread
    rw [fillWith_eq_resume agrees.shortens, there]
    refine congrArg (resume ph') (Cursor.approach_padding content ?_ ?_).symm
    · simp only [Reading.place, Reading.view]
      omega
    · simp only [Reading.place, Reading.view, List.nil_append]
      omega
  · have all : count = r.stream.paddingLen := by omega
    have there : r'.place header = (r.place header).passPadding := by
      rw [place header ((header ++ r.unread).drop r.stream.paddingLen)]
      · have none : r.stream.paddingLen - count =
            r.stream.paddingLen - (header ++ r.unread).length := by
          rw [List.length_append]
          omega
        rw [none]
        rfl
      · rcases started with empty | none
        · rw [empty, unread, all]
          rfl
        · rw [unread, all, none]
          rfl
    have none : ¬ 0 < (r.place header).passPadding.padding := there ▸ partly
    rw [if_neg partly, Cursor.atPadding, if_neg none, ← there]
    by_cases stops : r'.stream.eorStop = true
    · rw [if_pos stops, Cursor.atHeader, if_pos (show (r'.place header).eorStop = true from stops)]
      obtain rfl : header = [] := by
        by_contra some
        rw [(filling'.behind some).2.2] at stops
        cases stops
      exact .found (found_close filling')
    · rw [if_neg stops]
      refine headerTurn_unfolds agrees filling' ?_ ?_ (by omega) ((Bool.not_eq_true _).mp stops)
      · rcases ahead with less | ⟨less, inside⟩
        · refine .inl ?_
          rw [unread, List.length_drop]
          omega
        · by_cases padded : r.stream.paddingLen = 0
          · refine .inr ⟨by rw [unread, List.length_drop]; omega, ?_⟩
            simp only [r_eq, Reading.skipPadding, padded]
            omega
          · refine .inl ?_
            rw [unread, List.length_drop]
            omega
      · rw [r_eq]
        exact content

theorem contentTurn_unfolds {bound : Nat} {r : Reading} {header : Bytes}
    (filling : r.Filling header) (some : r.stream.rdNext < r.stream.buff.length)
    (bounded : r.unread.length ≤ bound) :
    Unfolds ph' bound (contentTurn ph r header) (resume ph' (r.place header).approach) := by
  have length := r.length_unread
  have rest : (r.place header).rest ≠ [] := by
    intro empty
    have none := congrArg List.length empty
    simp only [Reading.place, Reading.view, List.length_append, List.length_nil] at none
    omega
  unfold contentTurn
  by_cases content : 0 < r.stream.contentLen
  · -- a header is only read behind the content
    obtain rfl : header = [] := by
      by_contra started
      have none := (filling.behind started).1
      omega
    rw [if_pos content]
    by_cases skip : r.stream.skip = false
    · have ready : (r.place []).Ready := ⟨content, skip, rest⟩
      rw [if_pos skip, Cursor.approach_ready ready]
      refine .found ⟨⟨filling.next, filling.room, fun _ => ?_, fun _ _ => skip, ?_⟩, ?_, ?_⟩
      · simp only [Reading.deliver]
        omega
      · intro closed
        rw [show r.deliver.stream.isClosed = r.stream.isClosed from rfl, filling.running] at closed
        cases closed
      · have sum : r.deliver.stream.contentLen +
            (r.deliver.stream.stop - r.deliver.stream.rdNext) = r.stream.contentLen := by
          simp only [Reading.deliver]
          omega
        rw [Reading.cursor, if_neg (by simp [Reading.deliver, filling.running]), sum]
        rfl
      · intro _ _
        simp only [Reading.deliver]
        omega
    · obtain ⟨count, count_eq⟩ : ∃ count, count =
        min r.stream.contentLen (r.stream.buff.length - r.stream.rdNext) := ⟨_, rfl⟩
      obtain ⟨r', r_eq⟩ : ∃ r', r' = r.skipContent := ⟨_, rfl⟩
      have unread : r'.unread = r.unread.drop count := by
        rw [r_eq, count_eq]
        exact r.unread_advance (Nat.min_le_right _ _)
      have left : r'.stream.contentLen = r.stream.contentLen - count := by
        rw [r_eq, count_eq]
        rfl
      have less : r'.unread.length < bound := by
        rw [unread, List.length_drop]
        omega
      have filling' : r'.Filling [] := by
        refine ⟨?_, ?_, ?_, filling.short, fun started => absurd rfl started⟩
        · simp only [r_eq, Reading.skipContent]
          omega
        · rw [r_eq]; exact filling.room
        · rw [r_eq]; exact filling.running
      have place : r'.place [] = { r.place [] with
          rest := r.unread.drop count
          content := r.stream.contentLen - count
          skip := if 0 < r.stream.contentLen - count then r.stream.skip else false } := by
        rw [Reading.place, unread, left, r_eq, count_eq]
        rfl
      have skipping : r.stream.skip = true := (Bool.not_eq_false _).mp skip
      rw [if_neg skip]
      simp only [← r_eq]
      by_cases partly : 0 < r'.stream.contentLen
      · rw [if_pos partly]
        refine .inr (.inr ⟨_, rfl, filling', less, ?_⟩)
        rw [fillWith_eq_resume agrees.shortens, place, if_pos (left ▸ partly)]
        refine congrArg (resume ph') (Cursor.approach_skip skipping rest ?_ ?_).symm
        · simp only [Reading.place, Reading.view]
          omega
        · simp only [Reading.place, Reading.view, List.nil_append]
          omega
      · have all : count = r.stream.contentLen := by omega
        have there : r'.place [] = (r.place []).passContent := by
          have enough : r.stream.contentLen ≤ r.unread.length := by omega
          have none : r.stream.contentLen - r.unread.length = 0 := by omega
          rw [place, Cursor.passContent, if_pos (show 0 < (r.place []).content from content), all,
            Nat.sub_self, if_neg (Nat.lt_irrefl 0)]
          simp [Reading.place, Reading.view, enough, none]
        have behind : (r.place []).approach = (r'.place []).atPadding := by
          rw [Cursor.approach, if_neg rest, Cursor.atContent, if_neg, ← there,
            if_neg (show ¬ 0 < (r'.place []).content from partly)]
          rintro ⟨_, unskipped⟩
          exact skip unskipped
        rw [if_neg partly, behind]
        exact paddingTurn_unfolds agrees filling' (.inl less) (by omega)
  · have none : r.stream.contentLen = 0 := by omega
    rw [if_neg content, Cursor.approach, if_neg rest, Cursor.atContent_none (by exact none)]
    exact paddingTurn_unfolds agrees filling (.inr ⟨bounded, some⟩) none

omit agrees in
theorem endError_ne_zero (ipc : Ipc) : ipc.endError ≠ 0 := by
  unfold Ipc.endError
  split
  · decide
  · rename_i errno _
    exact errno.property

theorem fillTurn_unfolds {r : Reading} {header : Bytes} (filling : r.Filling header) :
    Unfolds ph' r.unread.length (fillTurn ph (r, header))
      (Cursor.fillWith ph' (r.place header)) := by
  rw [fillWith_eq_resume agrees.shortens, fillTurn]
  rcases Reading.refill_cases filling.next filling.room with
    ⟨empty, ipc, link, incoming, failed⟩ | ⟨r', refilled, same⟩
  · simp only [failed]
    have ended : (r.place header).approach =
        .done ({ r.place header with rest := [] } : Cursor).exhausted := by
      by_cases started : header = []
      · have none : (r.place header).rest = [] := by
          simp only [Reading.place, Reading.view, started, empty, List.append_nil]
        rw [Cursor.approach, if_pos none, ← none]
      · obtain ⟨content, padding, running⟩ := filling.behind started
        have short : (r.place header).rest.length < headerLen := by
          simp only [Reading.place, Reading.view, empty, List.append_nil]
          exact filling.short
        rw [Cursor.approach_eq_atHeader content padding running, Cursor.atHeader,
          if_neg (by simp [Reading.place, Reading.view, running]), if_pos short]
    rw [ended]
    refine .found ?_
    have filling' : ({ r with ipc := ipc } : Reading).Filling [] :=
      ⟨filling.next, filling.room, filling.running, by decide, fun some => absurd rfl some⟩
    have unread : ({ r with ipc := ipc } : Reading).unread = [] := by
      have buffered := empty
      simp only [Reading.unread, List.append_eq_nil_iff] at buffered
      simp only [Reading.unread, buffered.1, incoming, List.append_nil]
    have place : ({ r with ipc := ipc } : Reading).place [] =
        { r.place header with rest := [] } := by
      simp only [Reading.place, unread, List.append_nil, Reading.view, link]
    have found := found_setError filling' (endError_ne_zero r.ipc)
    rw [place] at found
    exact found
  · simp only [refilled]
    have place : r.place header = r'.place header := by
      rw [Reading.place, Reading.place, same.unread, same.contentLen, same.view]
    have filling' : r'.Filling header := by
      refine ⟨Nat.le_of_lt same.some, same.room, ?_, filling.short, fun some => ⟨?_, ?_, ?_⟩⟩
      · exact (congrArg Cursor.isClosed (same.view [] 0)).trans filling.running
      · exact same.contentLen.trans (filling.behind some).1
      · exact (congrArg Cursor.padding (same.view [] 0)).trans (filling.behind some).2.1
      · exact (congrArg Cursor.eorStop (same.view [] 0)).trans (filling.behind some).2.2
    rw [place]
    exact contentTurn_unfolds agrees filling' same.some
      (Nat.le_of_eq (congrArg List.length same.unread))

/-- `FillBuffProc` goes to the same place, whatever pieces the bytes come in. -/
theorem fillWith_agrees {r : Reading} (valid : r.Valid) (running : r.stream.isClosed = false)
    (settled : r.Settled) : Agrees Found (fillWith ph r) (Cursor.fillWith ph' r.cursor) := by
  have here : r.cursor = r.place [] := by
    have same : r.stream.stop = r.stream.rdNext := settled
    simp only [Reading.cursor, same, Nat.sub_self, ite_self]
    rfl
  rw [here]
  refine runLoop_agrees (fun state : Reading × Bytes => state.1.Filling state.2)
    (fun state => state.1.unread.length)
    (fun state => Cursor.fillWith ph' (state.1.place state.2)) ?_ ?_ (Nat.lt_succ_self _)
  · rintro ⟨r, header⟩ filling
    exact fillTurn_unfolds agrees filling
  · exact ⟨valid.next, valid.room, running, Nat.zero_lt_succ 7, fun some => absurd rfl some⟩

end Turn

/-! ### `FCGX_GetChar` and `FCGX_GetStr` -/

/-- A way to fill the buffer and one to move the cursor, on places with a
property that reading keeps. -/
structure FillAgrees (kept : Cursor → Prop) (fill : Reading → Except Fault Reading)
    (fill' : Cursor → Except Fault Cursor) : Prop where
  agrees : ∀ r, r.Valid → kept r.cursor → r.stream.isClosed = false → r.Settled →
    Agrees Found (fill r) (fill' r.cursor)
  ready : ∀ c, c.Ready → fill' c = .ok c
  finds : ∀ c c', kept c → fill' c = .ok c' →
    kept c' ∧ c'.rest.length ≤ c.rest.length ∧ (c'.isClosed = false → c'.Ready)
  pops : ∀ c rest content, kept c → kept { c with rest := rest, content := content }
  fails : ∀ c errno, kept c → kept (c.setError errno)

/-- A stream and its place. -/
def At (kept : Cursor → Prop) (r : Reading) (c : Cursor) : Prop :=
  r.Valid ∧ r.cursor = c ∧ kept c

namespace Reading

variable {r : Reading} (valid : r.Valid) (running : r.stream.isClosed = false)
include valid running

theorem cursor_ready (delivered : r.stream.rdNext < r.stream.stop) : r.cursor.Ready := by
  obtain ⟨_, inside⟩ := valid.opened running
  have length := r.length_unread
  refine ⟨?_, valid.delivered running delivered, ?_⟩
  · simp only [cursor, view, running, Bool.false_eq_true, if_false]
    omega
  · intro empty
    rw [show r.cursor.rest = r.unread from rfl] at empty
    rw [empty, List.length_nil] at length
    omega

/-- Getting bytes that were delivered. -/
theorem cursor_advance {m : Nat} (enough : m ≤ r.stream.stop - r.stream.rdNext) :
    (r.advance m).Valid ∧ (r.advance m).cursor =
      { r.cursor with rest := r.cursor.rest.drop m, content := r.cursor.content - m } ∧
    (r.stream.buff.drop r.stream.rdNext).take m = r.cursor.rest.take m ∧
    m ≤ r.cursor.content ∧ m ≤ r.cursor.rest.length := by
  obtain ⟨behind, inside⟩ := valid.opened running
  have length := r.length_unread
  have here : r.cursor.rest = r.unread := rfl
  have content : r.cursor.content = r.stream.contentLen + (r.stream.stop - r.stream.rdNext) := by
    simp only [cursor, view, running, Bool.false_eq_true, if_false]
  refine ⟨⟨?_, valid.room, fun _ => ?_, fun _ further => ?_, fun closed => ?_⟩, ?_, ?_, ?_, ?_⟩
  · simp only [advance]
    omega
  · simp only [advance]
    omega
  · simp only [advance] at further
    exact valid.delivered running (by omega)
  · rw [show (r.advance m).stream.isClosed = r.stream.isClosed from rfl, running] at closed
    cases closed
  · have unread := r.unread_advance (show m ≤ r.stream.buff.length - r.stream.rdNext by omega)
    rw [here, ← unread, content]
    have left : (r.advance m).stream.contentLen +
        ((r.advance m).stream.stop - (r.advance m).stream.rdNext) =
          r.stream.contentLen + (r.stream.stop - r.stream.rdNext) - m := by
      simp only [advance]
      omega
    rw [cursor, if_neg (by simp [advance, running]), left]
    rfl
  · rw [here, unread, List.take_append_of_le_length]
    rw [List.length_drop]
    omega
  · omega
  · rw [here]
    omega

end Reading

section GetStr

variable {kept : Cursor → Prop} {fill : Reading → Except Fault Reading}
  {fill' : Cursor → Except Fault Cursor} (fills : FillAgrees kept fill fill')
include fills

/-- Where a byte was delivered. -/
theorem next_agrees {r : Reading} (valid : r.Valid) (running : r.stream.isClosed = false)
    (delivered : r.stream.rdNext < r.stream.stop) (known : kept r.cursor) :
    Agrees (Same (At kept)) r.next r.cursor.pop := by
  obtain ⟨valid', cursor, taken, content, length⟩ :=
    Reading.cursor_advance valid running (show 1 ≤ r.stream.stop - r.stream.rdNext by omega)
  obtain ⟨byte, rest, shape, popped⟩ :=
    Cursor.pop_ready (Reading.cursor_ready valid running delivered)
  have first : r.stream.buff[r.stream.rdNext]? = some byte := by
    rw [shape, List.take_succ_cons, List.take_zero] at taken
    have first := congrArg List.head? taken
    simpa [List.head?_take, List.head?_drop] using first
  rw [Reading.next, first, popped]
  refine .ok ⟨rfl, valid', ?_, fills.pops _ _ _ known⟩
  rw [cursor, shape, List.drop_succ_cons, List.drop_zero]

theorem getChar_agrees {r : Reading} {c : Cursor} (states : At kept r c) :
    Agrees (Same (At kept)) (getChar fill r) (Cursor.getChar fill' c) := by
  obtain ⟨valid, rfl, known⟩ := states
  by_cases closed : r.stream.isClosed = true
  · rw [getChar, if_pos closed, Cursor.getChar, if_pos (show r.cursor.isClosed = true from closed)]
    exact .ok ⟨rfl, valid, rfl, known⟩
  have running : r.stream.isClosed = false := (Bool.not_eq_true _).mp closed
  have behind := (valid.opened running).1
  rw [getChar, if_neg closed, Cursor.getChar,
    if_neg (show ¬ r.cursor.isClosed = true from closed)]
  by_cases settled : r.stream.rdNext = r.stream.stop
  · have agree := fills.agrees r valid known running settled.symm
    rw [if_neg (by simpa using settled)]
    generalize fill r = first at agree
    generalize moved : fill' r.cursor = second at agree
    cases agree with
    | error fault => exact .error fault
    | @ok r' c' found =>
        obtain ⟨valid', rfl, delivered⟩ := found
        obtain ⟨known', _, ready⟩ := fills.finds _ _ known moved
        simp only [ok_bind]
        by_cases closed' : r'.stream.isClosed = true
        · rw [if_pos closed', if_pos (show r'.cursor.isClosed = true from closed')]
          exact .ok ⟨rfl, valid', rfl, known'⟩
        · have running' : r'.stream.isClosed = false := (Bool.not_eq_true _).mp closed'
          have some := delivered running' (ready running').content
          rw [if_neg closed', if_pos (Nat.ne_of_lt some),
            if_neg (show ¬ r'.cursor.isClosed = true from closed')]
          exact next_agrees fills valid' running' some known'
  · have some : r.stream.rdNext < r.stream.stop := by omega
    rw [if_pos settled, fills.ready _ (Reading.cursor_ready valid running some)]
    simp only [ok_bind]
    rw [if_neg (show ¬ r.cursor.isClosed = true from closed)]
    exact next_agrees fills valid running some known

/-- Bytes of one record, and the rest. -/
theorem getStr_advance {m : Nat} (n : Nat) {c : Cursor} (running : c.isClosed = false)
    (skip : c.skip = false) (content : m ≤ c.content) (length : m ≤ c.rest.length) :
    Cursor.getStr fill' (m + n) c =
      (Cursor.getStr fill' n { c with rest := c.rest.drop m, content := c.content - m }).map
        fun a => (c.rest.take m ++ a.1, a.2) := by
  induction m generalizing c with
  | zero =>
      rw [Nat.zero_add]
      change _ = (Cursor.getStr fill' n c).map id
      rw [Except.map_id, id]
  | succ m inductionHypothesis =>
      have ready : c.Ready := ⟨by omega, skip, List.length_pos_iff.mp (by omega)⟩
      obtain ⟨byte, rest, shape, popped⟩ := Cursor.pop_ready ready
      have further := inductionHypothesis
        (c := { c with rest := rest, content := c.content - 1 }) running skip
        (by simp only; omega) (by simp only [shape, List.length_cons] at length ⊢; omega)
      have char : Cursor.getChar fill' c =
          .ok (some byte, { c with rest := rest, content := c.content - 1 }) := by
        rw [Cursor.getChar, running, if_neg Bool.false_ne_true, fills.ready c ready]
        simp only [ok_bind, running, Bool.false_eq_true, if_false, popped]
      have sub : c.content - 1 - m = c.content - (m + 1) := by omega
      rw [Nat.succ_add, Cursor.getStr, char]
      simp only [ok_bind, further, shape, List.drop_succ_cons, List.take_succ_cons, sub]
      cases Cursor.getStr fill' n
        { c with rest := rest.drop m, content := c.content - (m + 1) } with
      | error fault => rfl
      | ok result => rfl

/-- Between two records. -/
theorem getStr_fill {n : Nat} {c : Cursor} (running : c.isClosed = false) (known : kept c) :
    (∃ fault, fill' c = .error fault ∧ Cursor.getStr fill' (n + 1) c = .error fault) ∨
    ∃ c', fill' c = .ok c' ∧ Cursor.getStr fill' (n + 1) c =
      if c'.isClosed then .ok ([], c') else Cursor.getStr fill' (n + 1) c' := by
  have start : Cursor.getChar fill' c =
      fill' c >>= fun c => if c.isClosed then .ok (none, c) else c.pop := by
    rw [Cursor.getChar, running, if_neg Bool.false_ne_true]
    rfl
  cases moved : fill' c with
  | error fault => exact .inl ⟨fault, rfl, by rw [Cursor.getStr, start, moved]; rfl⟩
  | ok c' =>
      refine .inr ⟨c', rfl, ?_⟩
      rw [Cursor.getStr, start, moved]
      simp only [ok_bind]
      cases closed : c'.isClosed with
      | true => rfl
      | false =>
          have ready := (fills.finds _ _ known moved).2.2 closed
          have char : Cursor.getChar fill' c' = c'.pop := by
            rw [Cursor.getChar, closed, if_neg Bool.false_ne_true, fills.ready c' ready]
            simp only [ok_bind, closed, Bool.false_eq_true, if_false]
          simp only [Bool.false_eq_true, if_false, Cursor.getStr, char]

/-- What is left to do for `FCGX_GetStr` inside its loop. -/
def moreStr (fill' : Cursor → Except Fault Cursor) (n : Nat) (moved : Bytes) (c : Cursor) :
    Except Fault (Bytes × Cursor) :=
  (Cursor.getStr fill' (n - moved.length) c).map fun a => (moved ++ a.1, a.2)

/-- Bytes that were delivered are moved. -/
theorem moreStr_advance {n : Nat} {moved : Bytes} {r : Reading} (valid : r.Valid)
    (running : r.stream.isClosed = false) {m : Nat} (room : moved.length + m ≤ n)
    (enough : m ≤ r.stream.stop - r.stream.rdNext) :
    moreStr fill' n moved r.cursor =
      moreStr fill' n (moved ++ (r.stream.buff.drop r.stream.rdNext).take m)
        (r.advance m).cursor := by
  obtain ⟨valid', cursor, taken, content, length⟩ := Reading.cursor_advance valid running enough
  have moved_length : (r.cursor.rest.take m).length = m := by
    rw [List.length_take]
    omega
  obtain rfl | some := Nat.eq_zero_or_pos m
  · rw [List.take_zero, List.append_nil]
    rfl
  · have split : n - moved.length = m + (n - (moved ++ r.cursor.rest.take m).length) := by
      rw [List.length_append, moved_length]
      omega
    have skip := valid.delivered running (by omega)
    rw [moreStr, split, getStr_advance fills _ running skip content length, moreStr, taken, cursor]
    cases Cursor.getStr fill' (n - (moved ++ r.cursor.rest.take m).length)
        { r.cursor with rest := r.cursor.rest.drop m, content := r.cursor.content - m } with
    | error fault => rfl
    | ok result => simp only [Except.map, List.append_assoc]

/-- Inside the loop of `FCGX_GetStr`. -/
structure GettingStr (kept : Cursor → Prop) (n : Nat) (moved : Bytes) (r : Reading) : Prop where
  valid : r.Valid
  known : kept r.cursor
  running : r.stream.isClosed = false
  short : moved.length < n

/-- Every turn but the first starts with bytes that were delivered. -/
def strMeasure (r : Reading) : Nat :=
  r.unread.length + if r.stream.rdNext < r.stream.stop then 0 else 1

theorem getStrTurn_agrees {n : Nat} {moved : Bytes} {r : Reading}
    (getting : GettingStr kept n moved r) :
    (∃ result, getStrTurn fill n (moved, r) = .ok (.leave result) ∧
      Agrees (Same (At kept)) (.ok result) (moreStr fill' n moved r.cursor)) ∨
    (∃ fault, getStrTurn fill n (moved, r) = .error fault ∧
      moreStr fill' n moved r.cursor = .error fault) ∨
    ∃ next, getStrTurn fill n (moved, r) = .ok (.again next) ∧
      GettingStr kept n next.1 next.2 ∧ strMeasure next.2 < strMeasure r ∧
        moreStr fill' n moved r.cursor = moreStr fill' n next.1 next.2.cursor := by
  obtain ⟨valid, known, running, short⟩ := getting
  obtain ⟨m, m_eq⟩ : ∃ m, m = min (n - moved.length) (r.stream.stop - r.stream.rdNext) :=
    ⟨_, rfl⟩
  obtain ⟨valid', cursor, taken, content, length⟩ :=
    Reading.cursor_advance valid running (show m ≤ r.stream.stop - r.stream.rdNext by omega)
  have known' : kept (r.advance m).cursor := cursor ▸ fills.pops _ _ _ known
  have length' : (moved ++ (r.stream.buff.drop r.stream.rdNext).take m).length =
      moved.length + m := by
    rw [taken, List.length_append, List.length_take]
    omega
  have behind := (valid.opened running).1
  rw [moreStr_advance fills valid running (show moved.length + m ≤ n by omega) (by omega)]
  simp only [getStrTurn, copyOut, ← m_eq]
  generalize moved ++ (r.stream.buff.drop r.stream.rdNext).take m = moved' at length' ⊢
  by_cases done : moved'.length = n
  · rw [if_pos done]
    refine .inl ⟨_, rfl, ?_⟩
    rw [moreStr, done, Nat.sub_self]
    exact .ok ⟨by simp, valid', rfl, known'⟩
  have still : (r.advance m).stream.isClosed = false := running
  have settled : (r.advance m).Settled := by
    simp only [Reading.Settled, Reading.advance]
    omega
  rw [if_neg done, still, if_neg Bool.false_ne_true]
  have agree := fills.agrees _ valid' known' still settled
  obtain ⟨rest, rest_eq⟩ : ∃ rest, n - moved'.length = rest + 1 :=
    ⟨n - moved'.length - 1, by omega⟩
  rcases getStr_fill fills (n := rest) (c := (r.advance m).cursor) still known' with
    ⟨fault, failed, means⟩ | ⟨c', filled, means⟩
  · rw [failed] at agree
    generalize fill (r.advance m) = first at agree
    cases agree with
    | error =>
        refine .inr (.inl ⟨fault, rfl, ?_⟩)
        rw [moreStr, rest_eq, means]
        rfl
  · rw [filled] at agree
    obtain ⟨r', refilled, valid'', rfl, delivered⟩ := agree.to_ok
    obtain ⟨known'', shorter, ready⟩ := fills.finds _ _ known' filled
    rw [refilled]
    simp only [ok_bind, moreStr, rest_eq, means]
    cases closed : r'.stream.isClosed with
    | true =>
        refine .inl ⟨_, rfl, ?_⟩
        rw [if_pos (show r'.cursor.isClosed = true from closed)]
        exact .ok ⟨by simp, valid'', rfl, known''⟩
    | false =>
        have opened : ¬ r'.cursor.isClosed = true := Bool.eq_false_iff.mp closed
        have less : strMeasure r' < strMeasure r := by
          have fresh := delivered closed (ready closed).content
          have here : (r.advance m).cursor.rest.length = r.unread.length - m := by
            rw [cursor, List.length_drop]
            rfl
          have there : r'.cursor.rest = r'.unread := rfl
          have inside : m ≤ r.unread.length := length
          rw [here, there] at shorter
          rw [strMeasure, strMeasure, if_pos fresh]
          split
          · omega
          · omega
        have still_short : moved'.length < n := by omega
        refine .inr (.inr ⟨(moved', r'), rfl, ⟨valid'', known'', closed, still_short⟩, less, ?_⟩)
        rw [if_neg opened, rest_eq]

/-- The loop of `FCGX_GetStr`. -/
theorem getStrLoop_agrees {n : Nat} {r : Reading} (getting : GettingStr kept n [] r) :
    Agrees (Same (At kept))
      (runLoop .diverged (getStrTurn fill n) (r.unread.length + 2) ([], r))
      (moreStr fill' n [] r.cursor) := by
  refine runLoop_agrees (fun state : Bytes × Reading => GettingStr kept n state.1 state.2)
    (fun state => strMeasure state.2) (fun state => moreStr fill' n state.1 state.2.cursor)
    (fun state getting => getStrTurn_agrees fills getting) getting ?_
  simp only [strMeasure]
  split
  · omega
  · omega

theorem getStr_agrees (n : Nat) {r : Reading} {c : Cursor} (states : At kept r c) :
    Agrees (Same (At kept)) (getStr fill n r) (Cursor.getStr fill' n c) := by
  obtain ⟨valid, rfl, known⟩ := states
  unfold getStr
  by_cases none : r.stream.isClosed = true ∨ n = 0
  · rw [if_pos none]
    have same : Cursor.getStr fill' n r.cursor = .ok ([], r.cursor) := by
      rcases none with closed | rfl
      · cases n with
        | zero => rfl
        | succ n =>
            rw [Cursor.getStr, Cursor.getChar, if_pos (show r.cursor.isClosed = true from closed)]
            rfl
      · rfl
    rw [same]
    exact .ok ⟨rfl, valid, rfl, known⟩
  have running : r.stream.isClosed = false := by
    rw [← Bool.not_eq_true]
    exact fun closed => none (.inl closed)
  rw [if_neg none]
  by_cases enough : n ≤ r.stream.stop - r.stream.rdNext
  · rw [if_pos enough]
    obtain ⟨valid', cursor, taken, content, length⟩ :=
      Reading.cursor_advance valid running enough
    have skip := valid.delivered running (by omega)
    have got := getStr_advance fills 0 (c := r.cursor) running skip content length
    rw [Nat.add_zero] at got
    rw [got, copyOut, taken]
    refine .ok ⟨by simp, valid', cursor, fills.pops _ _ _ known⟩
  · have whole : Cursor.getStr fill' n r.cursor = moreStr fill' n [] r.cursor := by
      change _ = (Cursor.getStr fill' n r.cursor).map id
      rw [Except.map_id, id]
    rw [if_neg enough, whole]
    exact getStrLoop_agrees fills
      ⟨valid, known, running, Nat.pos_of_ne_zero fun zero => none (.inr zero)⟩

omit fills in
theorem getChar_none_closed {c c' : Cursor} (got : Cursor.getChar fill' c = .ok (none, c')) :
    c'.isClosed = true := by
  unfold Cursor.getChar at got
  split at got
  · rename_i closed
    cases got
    exact closed
  · obtain ⟨moved, _, got⟩ := bind_eq_ok.mp got
    split at got
    · rename_i closed
      cases got
      exact closed
    · unfold Cursor.pop at got
      split at got
      · split at got
        · cases got
        · cases got
      · cases got

omit fills in
theorem getStr_short_closed {n : Nat} {c c' : Cursor} {bytes : Bytes}
    (got : Cursor.getStr fill' n c = .ok (bytes, c')) (short : bytes.length ≠ n) :
    c'.isClosed = true := by
  induction n generalizing c bytes with
  | zero =>
      cases got
      exact absurd rfl short
  | succ n inductionHypothesis =>
      obtain ⟨⟨byte, moved⟩, first, got⟩ := bind_eq_ok.mp got
      cases byte with
      | none =>
          cases got
          exact getChar_none_closed first
      | some byte =>
          obtain ⟨⟨bytes, last⟩, others, got⟩ := bind_eq_ok.mp got
          cases got
          exact inductionHypothesis others fun length => short (by simpa using length)

/-- A stream and its cursor give the same. -/
theorem stream_agrees :
    SourceAgrees (At kept) (fun r => r.stream.isClosed = true) (readingSource fill)
      (Cursor.source fill') where
  getChar := by
    intro r c states
    refine ((getChar_agrees fills states).knowing
      (fun b => b.1 = none → b.2.isClosed = true) ?_).mono ?_
    · rintro ⟨byte, c'⟩ got rfl
      exact getChar_none_closed got
    · rintro ⟨byte, r'⟩ ⟨_, _⟩ ⟨⟨same, valid, cursor, known⟩, ends⟩
      cases same
      cases cursor
      exact ⟨⟨rfl, valid, rfl, known⟩, ends⟩
  getStr := by
    intro n r c states
    refine ((getStr_agrees fills n states).knowing
      (fun b => b.1.length ≠ n → b.2.isClosed = true) ?_).mono ?_
    · rintro ⟨bytes, c'⟩ got short
      exact getStr_short_closed got short
    · rintro ⟨bytes, r'⟩ ⟨_, _⟩ ⟨⟨same, valid, cursor, known⟩, ends⟩
      cases same
      cases cursor
      exact ⟨⟨rfl, valid, rfl, known⟩, ends⟩
  setError := by
    rintro r _ ⟨valid, rfl, known⟩ closed
    have closed : r.stream.isClosed = true := closed
    have found : Found (r.setError fcgxParamsError) (r.cursor.setError fcgxParamsError) := by
      refine found_of_closed valid.next valid.room rfl
        (fun none => absurd none (setError_errno (by decide))) ?_
      simp only [Reading.cursor, Reading.setError, closed]
      rfl
    exact ⟨⟨found.1, found.2.1, fills.fails _ _ known⟩, rfl⟩
  size := by
    rintro r _ ⟨_, rfl, _⟩
    rfl

end GetStr

/-! ### `ProcessHeader` -/

theorem headerAgrees_none :
    HeaderAgrees (fun _ _ => .error .diverged) (fun _ _ => .error .diverged) :=
  ⟨fun _ _ _ _ _ ran => (by cases ran), fun _ _ _ _ _ _ => .error _⟩

/-- Reading for `ProcessHeader`. -/
theorem fillRecord_agrees :
    FillAgrees (fun c => c.eorStop = true) fillRecord Cursor.fillRecord where
  agrees := fun _ valid _ running settled =>
    fillWith_agrees headerAgrees_none valid running settled
  ready := fun _ ready => Cursor.fillWith_ready _ ready
  finds := by
    intro c c' eorStop moved
    rcases Cursor.fillRecord_cases eorStop with ⟨ready, filled⟩ | ⟨found, filled, within, closed⟩
    · rw [moved] at filled
      cases filled
      exact ⟨eorStop, Nat.le_refl _, fun _ => ready⟩
    · rw [moved] at filled
      cases filled
      refine ⟨within.eorStop.trans eorStop, within.length, fun opened => ?_⟩
      rw [closed] at opened
      cases opened
  pops := fun _ _ _ known => known
  fails := fun _ _ known => known

/-- Writing does not touch what is to be read. -/
theorem writeItAll_link (ipc : Ipc) (buf : Bytes) :
    writeItAll ipc.link buf = ((writeItAll ipc buf).1, (writeItAll ipc buf).2.link) ∧
      (writeItAll ipc buf).2.incoming = ipc.incoming := by
  unfold writeItAll
  generalize buf.length = fuel
  induction fuel generalizing ipc buf with
  | zero => exact ⟨rfl, rfl⟩
  | succ fuel inductionHypothesis =>
      simp only [writeWith]
      by_cases empty : buf = []
      · rw [if_pos empty, if_pos empty]
        exact ⟨rfl, rfl⟩
      · rw [if_neg empty, if_neg empty]
        have same : ipc.link.answer ipc.link.writes = ipc.answer ipc.writes := rfl
        simp only [osWrite, same]
        cases ipc.answer ipc.writes with
        | error errno => exact ⟨rfl, rfl⟩
        | ok more =>
            exact inductionHypothesis
              { ipc with
                writes := ipc.writes + 1
                received := ipc.received ++ buf.take (more + 1) } _

/-- A stream whose client has got all that was delivered has the rest of the
content before it. -/
theorem Reading.Settled.content {r : Reading} (settled : r.Settled) :
    r.cursor.content = r.stream.contentLen := by
  have same : r.stream.stop = r.stream.rdNext := settled
  simp only [Reading.cursor, Reading.view, same, Nat.sub_self, ite_self, Nat.add_zero]

theorem Reading.Settled.cursor {r : Reading} (settled : r.Settled) :
    r.cursor = r.view r.unread r.stream.contentLen := by
  have content := settled.content
  rw [← content]
  rfl

theorem reply_agrees {r : Reading} (valid : r.Valid) (settled : r.Settled) (bytes : Bytes)
    {status : Status} (error : ∀ code, status ≠ .error code) (other : status ≠ .beginRecord) :
    HeaderRead (reply bytes status r) (r.cursor.reply bytes status) := by
  obtain ⟨link, incoming⟩ := writeItAll_link r.ipc bytes
  have here : r.cursor.link = r.ipc.link := rfl
  rw [reply, Cursor.reply, here, link]
  generalize writeItAll r.ipc bytes = answer at incoming
  obtain ⟨result, ipc⟩ := answer
  simp only at incoming
  have unread : ({ r with ipc := ipc } : Reading).unread = r.unread := by
    simp only [Reading.unread, incoming]
  cases result with
  | ok =>
      refine ⟨rfl, ⟨valid.next, valid.room, valid.opened, valid.delivered, valid.ended⟩, ?_,
        .inl settled, fun code same => absurd same (error code), fun same => absurd same other⟩
      simp only [Reading.cursor, unread]
      rfl
  | error errno =>
      have closed : Found (({ r with ipc := ipc } : Reading).setError errno)
          (({ r.cursor with link := ipc.link } : Cursor).setError errno) := by
        refine found_of_closed valid.next valid.room rfl (fun _ => settled) ?_
        have settled' : (({ r with ipc := ipc } : Reading).setError errno).Settled := settled
        have unread' : (({ r with ipc := ipc } : Reading).setError errno).unread = r.unread :=
          unread
        rw [settled'.cursor, settled.cursor, unread']
        rfl
      refine ⟨rfl, closed.1, closed.2.1, .inl settled, fun code same => ?_, fun same => ?_⟩
      · cases same
        decide
      · cases same

theorem processBeginRecord_agrees (requestId : Nat) {r : Reading} (valid : r.Valid)
    (settled : r.Settled) (running : r.stream.isClosed = false)
    (eorStop : r.stream.eorStop = true) :
    Agrees HeaderRead (processBeginRecord requestId r)
      (Cursor.processBeginRecord requestId r.cursor) := by
  unfold processBeginRecord Cursor.processBeginRecord
  have both : requestId = 0 ∨ r.cursor.content ≠ 8 ↔ requestId = 0 ∨ r.stream.contentLen ≠ 8 := by
    rw [settled.content]
  by_cases wrong : requestId = 0 ∨ r.stream.contentLen ≠ 8
  · rw [if_pos wrong, if_pos (both.mpr wrong)]
    refine .ok ⟨rfl, valid, rfl, .inl settled, fun code same => ?_, fun same => by cases same⟩
    cases same
    decide
  · rw [if_neg wrong, if_neg (both.not.mpr wrong)]
    have eight : r.stream.contentLen = 8 := by
      by_contra other
      exact wrong (.inr other)
    by_cases begun : r.request.isBeginProcessed = true
    · rw [if_pos begun, if_pos (show r.cursor.request.isBeginProcessed = true from begun)]
      exact .bind_same fun header => .ok (reply_agrees valid settled _ (by simp) (by simp))
    · rw [if_neg begun, if_neg (show ¬ r.cursor.request.isBeginProcessed = true from begun)]
      have states : At (fun c => c.eorStop = true)
          { r with request := { r.request with requestId := requestId } }
          { r.cursor with request := { r.cursor.request with requestId := requestId } } :=
        ⟨⟨valid.next, valid.room, valid.opened, valid.delivered, valid.ended⟩, rfl, eorStop⟩
      refine ((getStr_agrees fillRecord_agrees 8 states).knowing (fun b =>
        b.1.length = 8 ∧ b.2.content = 0 ∧ b.2.isClosed = false ∨
          b.1.length < 8 ∧ b.2.isClosed = true) ?_).bind ?_
      · rintro ⟨body, c'⟩ got
        obtain ⟨body', c'', got', _, ends⟩ := Cursor.getStr_record 8
          (show ({ r.cursor with request := { r.cursor.request with requestId := requestId } } :
            Cursor).eorStop = true from eorStop)
        rw [got] at got'
        cases got'
        rcases ends with ⟨length, content, same⟩ | short
        · exact .inl ⟨length, by rw [content, settled.content, eight], same.trans running⟩
        · exact .inr short
      · rintro ⟨body, r'⟩ ⟨_, c'⟩ ⟨⟨same, valid', rfl, _⟩, ends⟩
        cases same
        dsimp only at ends ⊢
        cases members : beginBody body with
        | some member =>
          have length : body.length = 8 := by
            unfold beginBody at members
            split at members
            · rfl
            · cases members
          rcases ends with ⟨_, content, opened⟩ | ⟨short, _⟩
          · have opened : r'.stream.isClosed = false := opened
            have behind := (valid'.opened opened).1
            simp only [Reading.cursor, Reading.view, opened, Bool.false_eq_true,
              if_false] at content
            have settled' : r'.Settled := Nat.le_antisymm (by omega) behind
            have none : r'.stream.contentLen = 0 := by omega
            exact .ok ⟨rfl, ⟨valid'.next, valid'.room, valid'.opened, valid'.delivered,
              valid'.ended⟩, rfl, .inl settled', fun code same => (by cases same), fun _ => none⟩
          · omega
        | none =>
          rcases ends with ⟨length, _⟩ | ⟨_, closed⟩
          · match body, length with
            | [_, _, _, _, _, _, _, _], _ => cases members
          · refine .ok ⟨rfl, valid', rfl, .inr ⟨closed, _, rfl⟩, fun code same => ?_,
              fun same => by cases same⟩
            cases same
            decide

theorem processManagementRecord_agrees (type : UInt8) {r : Reading} (valid : r.Valid)
    (settled : r.Settled) (eorStop : r.stream.eorStop = true) :
    Agrees HeaderRead (processManagementRecord type r)
      (Cursor.processManagementRecord type r.cursor) := by
  unfold processManagementRecord Cursor.processManagementRecord
  split
  · refine (readParams_agrees (stream_agrees fillRecord_agrees) (newParams 3)
      ⟨valid, rfl, eorStop⟩).bind ?_
    rintro ⟨done, params, r'⟩ ⟨_, _, c'⟩ ⟨same, ⟨same', valid', rfl, _⟩, closed⟩
    cases same
    cases same'
    have closed : r'.stream.isClosed = true := closed
    have content : r'.cursor.content = r'.stream.contentLen := by
      simp only [Reading.cursor, Reading.view, closed, if_true, Nat.add_zero]
    have errno : r'.cursor.fcgiErrno = r'.stream.fcgiErrno := rfl
    dsimp only
    rw [content, errno]
    by_cases wrong : r'.stream.fcgiErrno ≠ 0 ∨ r'.stream.contentLen ≠ 0
    · rw [if_pos wrong, if_pos wrong]
      refine .ok ⟨rfl, valid', rfl, .inr ⟨closed, _, rfl⟩, fun code same => ?_,
        fun same => by cases same⟩
      cases same
      decide
    · rw [if_neg wrong, if_neg wrong]
      have fine : r'.stream.fcgiErrno = 0 := by
        by_contra other
        exact wrong (.inl other)
      refine .bind_same fun body => .bind_same fun header => .bind_same fun _ => .ok ?_
      exact reply_agrees valid' (valid'.ended closed fine) _ (by simp) (by simp)
  · exact .bind_same fun header => .ok (reply_agrees valid settled _ (by simp) (by simp))

theorem headerRead_same {r : Reading} (valid : r.Valid) (settled : r.Settled) {status : Status}
    (error : ∀ code, status = .error code → code ≠ 0) (other : status ≠ .beginRecord) :
    HeaderRead (status, r) (status, r.cursor) :=
  ⟨rfl, valid, rfl, .inl settled, error, fun same => absurd same other⟩

theorem processRecord_agrees (header : HeaderFields) {r : Reading} (valid : r.Valid)
    (settled : r.Settled) (running : r.stream.isClosed = false)
    (eorStop : r.stream.eorStop = true) :
    Agrees HeaderRead (processRecord header r) (Cursor.processRecord header r.cursor) := by
  have request : r.cursor.request = r.request := rfl
  have type : r.cursor.type = r.stream.type := rfl
  unfold processRecord Cursor.processRecord
  rw [request, type]
  split
  · exact processBeginRecord_agrees _ valid settled running eorStop
  split
  · exact processManagementRecord_agrees _ valid settled eorStop
  split
  · exact .ok (headerRead_same valid settled (by simp) (by simp))
  split
  · exact .ok (headerRead_same valid settled (by simp [fcgxProtocolError]) (by simp))
  · exact .ok (headerRead_same valid settled (by simp) (by simp))

/-- `ProcessHeader` does the same on a stream and on its cursor. -/
theorem processHeader_agrees : HeaderAgrees processHeader Cursor.processHeader where
  shortens := Cursor.processHeader_shortens
  agrees := by
    intro header r valid settled running eorStop
    unfold processHeader Cursor.processHeader
    cases headerFields header with
    | none => exact .error _
    | some header =>
        simp only [processFields, Cursor.processFields]
        split
        · exact .ok (headerRead_same valid settled (by simp [fcgxUnsupportedVersion]) (by simp))
        · have settled' : Reading.Settled { r with stream := { r.stream with
              contentLen := header.contentLength
              paddingLen := header.paddingLength } } := settled
          have cursor : ({ r.cursor with
              content := header.contentLength
              padding := header.paddingLength } : Cursor) = Reading.cursor { r with stream :=
                { r.stream with
                  contentLen := header.contentLength
                  paddingLen := header.paddingLength } } := by
            rw [settled'.cursor]
            rfl
          rw [cursor]
          exact processRecord_agrees header
            ⟨valid.next, valid.room, valid.opened, valid.delivered, valid.ended⟩ settled' running
            eorStop

/-! ### `FCGX_Accept_r` -/

/-- Reading inside a request. -/
theorem fillBuffProc_agrees :
    FillAgrees (fun c => c.request.isBeginProcessed = true ∧ c.eorStop = false) fillBuffProc
      Cursor.fill where
  agrees := fun _ valid _ running settled =>
    fillWith_agrees processHeader_agrees valid running settled
  ready := fun _ ready => Cursor.fillWith_ready _ ready
  finds := by
    rintro c c' ⟨begun, eorStop⟩ moved
    have filled := Cursor.fill_filled eorStop moved
    exact ⟨⟨by rw [filled.request begun, begun], filled.eorStop⟩, filled.rest.length_le,
      filled.ready begun⟩
  pops := fun _ _ _ known => known
  fails := fun _ _ known => known

theorem setReaderType_cursor {r : Reading} (valid : r.Valid) (streamType : UInt8) :
    (r.setReaderType streamType).Valid ∧
      (r.setReaderType streamType).cursor = r.cursor.setReaderType streamType := by
  have settled : (r.setReaderType streamType).Settled := rfl
  refine ⟨⟨valid.next, valid.room, fun _ => ⟨Nat.le_refl _, valid.next⟩,
    fun _ _ => rfl, fun closed => (by cases closed)⟩, ?_⟩
  rw [settled.cursor]
  rfl

theorem newReader_room (misaligned : Bool) : 0 < (newReader 8192 misaligned 0).bufflen := by
  cases misaligned with
  | false => decide
  | true => decide

/-- The stream of `FCGX_Accept_r` before it reads. -/
theorem newReader_valid (misaligned : Bool) (request : Request) (ipc : Ipc) :
    (⟨newReader 8192 misaligned 0, request, ipc⟩ : Reading).Valid :=
  ⟨Nat.le_refl _, newReader_room misaligned, fun _ => ⟨Nat.le_refl _, Nat.le_refl _⟩,
    fun _ _ => rfl, fun closed => (by cases closed)⟩

/-- What `FCGX_Accept_r` makes of a connection depends on the bytes that come
over it, not on the pieces that they come in. -/
theorem readRequest_agrees (misaligned : Bool) (request : Request) (ipc : Ipc) :
    Agrees (fun a b => a.1 = b.1 ∧ a.2.Valid ∧ a.2.cursor = b.2)
      (readRequest misaligned request ipc) (Cursor.readRequest request ipc) := by
  unfold readRequest Cursor.readRequest
  refine (fillWith_agrees processHeader_agrees
    (newReader_valid misaligned { request with isBeginProcessed := false } ipc) rfl rfl).bind ?_
  rintro r _ ⟨valid, rfl, _⟩
  have here : r.cursor.request = r.request := rfl
  rw [here]
  split
  · exact .ok ⟨rfl, valid, rfl⟩
  · rename_i begun
    cases roleStr r.request.role with
    | none => exact .ok ⟨rfl, valid, rfl⟩
    | some role =>
        refine .bind_same fun params => ?_
        obtain ⟨valid', cursor⟩ := setReaderType_cursor valid FcgiType.kFcgiParams.code
        refine (readParams_agrees (stream_agrees fillBuffProc_agrees) params
          ⟨valid', cursor, (Bool.not_eq_false _).mp begun, rfl⟩).bind ?_
        rintro ⟨done, params, r'⟩ ⟨_, _, _⟩ ⟨same, ⟨same', valid'', rfl, _⟩, _⟩
        cases same
        cases same'
        cases done with
        | true =>
            obtain ⟨valid', cursor⟩ := setReaderType_cursor valid'' FcgiType.kFcgiStdin.code
            exact .ok ⟨rfl, valid', cursor⟩
        | false => exact .ok ⟨rfl, valid'', rfl⟩

end Fcgx

end FastCgi
