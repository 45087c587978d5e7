/-
Module: FastCgi.Proofs.FcgxOutput
Layer: Proofs
Purpose: One output stream of libfcgi.  While it is open, what the records on
  the wire carry and what its buffer holds are together what was put into it;
  a stream in raw mode passes bytes through.  `FCGX_PutStr` is proved once for
  both modes.
Trusted boundary: none
Main exports: Fcgx.Ipc.Took, Fcgx.writeItAll_accepting, Fcgx.PutRule.putStr,
  Fcgx.OutputStream.Open, Fcgx.Emitted, Fcgx.putStr_open, Fcgx.putChar_open,
  Fcgx.fFlush_open, Fcgx.fClose_open
-/
import FastCgi.Proofs.BufferView
import FastCgi.Spec.FcgxOutput

namespace FastCgi

namespace Fcgx

open Library (Turn runLoop runLoop_total)

theorem pure_ok {α : Type} (value : α) : (pure value : Except Fault α) = .ok value := rfl

/-! ### Writing -/

/-- The connection after it took these bytes. -/
def Ipc.Took (ipc : Ipc) (bytes : Bytes) (ipc' : Ipc) : Prop :=
  ∃ writes, ipc' = { ipc with writes := writes, received := ipc.received ++ bytes }

theorem Ipc.took_nil (ipc : Ipc) : ipc.Took [] ipc := ⟨ipc.writes, by simp⟩

theorem Ipc.Took.append {first second third : Ipc} {bytes more : Bytes}
    (took : first.Took bytes second) (tookMore : second.Took more third) :
    first.Took (bytes ++ more) third := by
  obtain ⟨_, rfl⟩ := took
  obtain ⟨writes, rfl⟩ := tookMore
  exact ⟨writes, by simp⟩

theorem Ipc.Took.accepting {ipc ipc' : Ipc} {bytes : Bytes} (took : ipc.Took bytes ipc')
    (accepting : ipc.Accepting) : ipc'.Accepting := by
  obtain ⟨_, rfl⟩ := took
  exact accepting

theorem Ipc.Took.received {ipc ipc' : Ipc} {bytes : Bytes} (took : ipc.Took bytes ipc') :
    ipc'.received = ipc.received ++ bytes := by
  obtain ⟨_, rfl⟩ := took
  rfl

theorem writeWith_accepting {fuel : Nat} {ipc : Ipc} {buf : Bytes} (accepting : ipc.Accepting)
    (enough : buf.length ≤ fuel) :
    ∃ ipc', writeWith fuel ipc buf = (.ok (), ipc') ∧ ipc.Took buf ipc' := by
  induction fuel generalizing ipc buf with
  | zero =>
      have empty : buf = [] := List.length_eq_zero_iff.mp (by omega)
      subst empty
      exact ⟨ipc, rfl, ipc.took_nil⟩
  | succ fuel inductionHypothesis =>
      by_cases empty : buf = []
      · subst empty
        exact ⟨ipc, by simp [writeWith], ipc.took_nil⟩
      · obtain ⟨more, answered⟩ := accepting ipc.writes
        have positive := List.length_pos_iff.mpr empty
        have dropped : (buf.drop (min (more + 1) buf.length)).length ≤ fuel := by
          rw [List.length_drop]
          omega
        have step : ipc.Took (buf.take (more + 1))
            { ipc with
              writes := ipc.writes + 1
              received := ipc.received ++ buf.take (more + 1) } := ⟨_, rfl⟩
        obtain ⟨ipc', wrote, took⟩ := inductionHypothesis (step.accepting accepting) dropped
        refine ⟨ipc', ?_, ?_⟩
        · simp only [writeWith, if_neg empty, osWrite, answered, wrote]
        · have whole := step.append took
          rwa [List.take_eq_take_min, List.take_append_drop] at whole

/-- A connection that takes what it is given gets all of it. -/
theorem writeItAll_accepting {ipc : Ipc} (accepting : ipc.Accepting) (buf : Bytes) :
    ∃ ipc', writeItAll ipc buf = (.ok (), ipc') ∧ ipc.Took buf ipc' :=
  writeWith_accepting accepting (Nat.le_refl _)

/-! ### The buffer -/

namespace OutputStream

/-- The part of the buffer that is filled. -/
def filled (stream : OutputStream) : Bytes := stream.buff.take stream.wrNext

/-- What the buffer holds behind the room for a header. -/
def pending (stream : OutputStream) : Bytes := stream.filled.drop headerLen

/-- A stream that was neither closed nor failed, with its buffer in
bounds. -/
structure Usable (stream : OutputStream) : Prop where
  notClosed : stream.isClosed = false
  notFinished : stream.wasFCloseCalled = false
  noError : stream.fcgiErrno = 0
  next_le_stop : stream.wrNext ≤ stream.stop
  stop_eq_size : stream.stop = stream.buff.length

/-- A usable stream that encapsulates its content in records of a type. -/
structure Open (type : UInt8) (stream : OutputStream) : Prop extends Usable stream where
  framing : stream.rawWrite = false
  records : stream.type = type
  header_room : headerLen ≤ stream.wrNext
  aligned : 8 ∣ stream.buff.length
  content_room : headerLen < stream.buff.length
  content_fits : stream.buff.length ≤ fcgiMaxLength + 1

theorem Usable.length_filled {stream : OutputStream} (usable : stream.Usable) :
    stream.filled.length = stream.wrNext := by
  have ordered := usable.next_le_stop
  have bounded := usable.stop_eq_size
  rw [filled, List.length_take]
  omega

/-- Only the contents of the buffer, `wrNext` and `isAnythingWritten` may
differ. -/
structure Keeps (stream stream' : OutputStream) : Prop where
  size : stream'.buff.length = stream.buff.length
  stop : stream'.stop = stream.stop
  isClosed : stream'.isClosed = stream.isClosed
  wasFCloseCalled : stream'.wasFCloseCalled = stream.wasFCloseCalled
  fcgiErrno : stream'.fcgiErrno = stream.fcgiErrno
  type : stream'.type = stream.type
  rawWrite : stream'.rawWrite = stream.rawWrite

theorem Keeps.trans {first second third : OutputStream} (keeps : first.Keeps second)
    (keepsOn : second.Keeps third) : first.Keeps third where
  size := keepsOn.size.trans keeps.size
  stop := keepsOn.stop.trans keeps.stop
  isClosed := keepsOn.isClosed.trans keeps.isClosed
  wasFCloseCalled := keepsOn.wasFCloseCalled.trans keeps.wasFCloseCalled
  fcgiErrno := keepsOn.fcgiErrno.trans keeps.fcgiErrno
  type := keepsOn.type.trans keeps.type
  rawWrite := keepsOn.rawWrite.trans keeps.rawWrite

theorem Keeps.usable {stream stream' : OutputStream} (keeps : stream.Keeps stream')
    (usable : stream.Usable) (next : stream'.wrNext ≤ stream'.stop) : stream'.Usable where
  notClosed := keeps.isClosed.trans usable.notClosed
  notFinished := keeps.wasFCloseCalled.trans usable.notFinished
  noError := keeps.fcgiErrno.trans usable.noError
  next_le_stop := next
  stop_eq_size := by rw [keeps.stop, keeps.size, usable.stop_eq_size]

theorem Keeps.opened {type : UInt8} {stream stream' : OutputStream}
    (keeps : stream.Keeps stream') (opened : stream.Open type)
    (next : stream'.wrNext ≤ stream'.stop) (room : headerLen ≤ stream'.wrNext) :
    stream'.Open type where
  toUsable := keeps.usable opened.toUsable next
  framing := keeps.rawWrite.trans opened.framing
  records := keeps.type.trans opened.records
  header_room := room
  aligned := keeps.size.symm ▸ opened.aligned
  content_room := keeps.size.symm ▸ opened.content_room
  content_fits := keeps.size.symm ▸ opened.content_fits

theorem Usable.store {stream : OutputStream} (usable : stream.Usable) {data : Bytes}
    (fits : stream.wrNext + data.length ≤ stream.stop) :
    ∃ stored, stream.store data = .ok stored ∧ stored.filled = stream.filled ++ data ∧
      stored.wrNext = stream.wrNext + data.length ∧
      stored.isAnythingWritten = stream.isAnythingWritten ∧ stream.Keeps stored := by
  have inside : stream.wrNext + data.length ≤ stream.buff.length := usable.stop_eq_size ▸ fits
  exact ⟨_, if_pos fits, Buffer.take_overwrite inside, rfl, rfl, Buffer.length_overwrite inside,
    rfl, rfl, rfl, rfl, rfl, rfl⟩

end OutputStream

/-! ### Putting a string

`holds stream ipc put` is what is known of a stream into which `put` was put
since some moment.  It survives a copy into the buffer and a call of
`EmptyBuffProc`, which makes room; so it survives `FCGX_PutStr`. -/

section PutStr

variable {requestId : Nat} {holds : OutputStream → Ipc → Bytes → Prop}

/-- What the loop of `FCGX_PutStr` needs to know of the two things it does. -/
structure PutRule (requestId : Nat) (holds : OutputStream → Ipc → Bytes → Prop) : Prop where
  usable : ∀ {stream ipc put}, holds stream ipc put → stream.Usable
  stores : ∀ {stream stored ipc put data}, holds stream ipc put →
    stored.filled = stream.filled ++ data → stored.wrNext = stream.wrNext + data.length →
    stored.isAnythingWritten = stream.isAnythingWritten → stream.Keeps stored →
    stored.wrNext ≤ stored.stop → holds stored ipc (put ++ data)
  empties : ∀ {stream ipc put}, holds stream ipc put →
    ∃ stream' ipc', emptyBuffProc requestId stream ipc = .ok (stream', ipc') ∧
      holds stream' ipc' put ∧ stream'.wrNext < stream'.stop

variable (rule : PutRule requestId holds)

include rule

theorem PutRule.store {stream : OutputStream} {ipc : Ipc} {put : Bytes}
    (known : holds stream ipc put) (data : Bytes)
    (fits : stream.wrNext + data.length ≤ stream.stop) :
    ∃ stored, stream.store data = .ok stored ∧ holds stored ipc (put ++ data) ∧
      stored.wrNext = stream.wrNext + data.length ∧ stored.stop = stream.stop := by
  obtain ⟨stored, ran, filled, next, written, keeps⟩ := (rule.usable known).store fits
  have stop := keeps.stop
  exact ⟨stored, ran, rule.stores known filled next written keeps (by omega), next, stop⟩

/-- One turn of the loop: the rest of the string fits, or the buffer is filled
up and emptied. -/
theorem PutRule.turn {stream : OutputStream} {ipc : Ipc} {put : Bytes}
    (known : holds stream ipc put) (str : Bytes) :
    (∃ stream', putStrTurn requestId (str, stream, ipc) = .ok (.leave (true, stream', ipc)) ∧
        holds stream' ipc (put ++ str)) ∨
      ∃ rest moved stream' ipc', str = moved ++ rest ∧
        putStrTurn requestId (str, stream, ipc) = .ok (.again (rest, stream', ipc')) ∧
        holds stream' ipc' (put ++ moved) ∧ stream'.wrNext < stream'.stop ∧
        (stream.wrNext < stream.stop → rest.length < str.length) := by
  have ordered := (rule.usable known).next_le_stop
  obtain ⟨room, room_eq⟩ : ∃ room, room = stream.stop - stream.wrNext := ⟨_, rfl⟩
  -- the copy, if there is any room
  obtain ⟨stored, ran, kept⟩ : ∃ stored,
      stream.fillUp (str.take (min str.length room)) = .ok stored ∧
      holds stored ipc (put ++ str.take (min str.length room)) := by
    by_cases full : stream.wrNext = stream.stop
    · have none : room = 0 := by omega
      refine ⟨stream, by simp [OutputStream.fillUp, full], ?_⟩
      simpa [none] using known
    · obtain ⟨stored, ran, kept, _, _⟩ := rule.store known
        (str.take (min str.length room)) (by rw [List.length_take]; omega)
      exact ⟨stored, (if_pos full).trans ran, kept⟩
  by_cases whole : min str.length room = str.length
  · left
    rw [whole, List.take_length] at kept
    refine ⟨stored, ?_, kept⟩
    simp only [putStrTurn, ← room_eq, ran, ok_bind, if_pos whole]
    rfl
  · right
    obtain ⟨stream', ipc', emptied, still, space⟩ := rule.empties kept
    have running := (rule.usable kept).notClosed
    refine ⟨str.drop (min str.length room), str.take (min str.length room), stream', ipc',
      (List.take_append_drop _ _).symm, ?_, still, space, ?_⟩
    · simp only [putStrTurn, ← room_eq, ran, ok_bind, if_neg whole, running, emptied]
      rfl
    · intro some_room
      rw [List.length_drop]
      omega

/-- The whole string is put, whatever room there was. -/
theorem PutRule.putStr {stream : OutputStream} {ipc : Ipc} {put : Bytes}
    (known : holds stream ipc put) (str : Bytes) :
    ∃ stream' ipc', Fcgx.putStr requestId str stream ipc = .ok (true, stream', ipc') ∧
      holds stream' ipc' (put ++ str) := by
  by_cases fits : str.length ≤ stream.stop - stream.wrNext
  · have ordered := (rule.usable known).next_le_stop
    obtain ⟨stored, ran, kept, _, _⟩ := rule.store known str (by omega)
    exact ⟨stored, ipc, by simp only [Fcgx.putStr, if_pos fits, ran, ok_bind]; rfl, kept⟩
  · -- every turn but the first starts with room, so that it moves a byte
    obtain ⟨result, ran, done, kept⟩ : ∃ result,
        runLoop .diverged (putStrTurn requestId) (str.length + 2) (str, stream, ipc) =
          .ok result ∧ result.1 = true ∧ holds result.2.1 result.2.2 (put ++ str) := by
      refine runLoop_total
        (fun state : Bytes × OutputStream × Ipc => ∃ moved,
          put ++ str = put ++ moved ++ state.1 ∧ holds state.2.1 state.2.2 (put ++ moved))
        (fun state => state.1.length + if state.2.1.wrNext < state.2.1.stop then 0 else 1)
        (fun result : Bool × OutputStream × Ipc =>
          result.1 = true ∧ holds result.2.1 result.2.2 (put ++ str)) ?_
        ⟨[], by simp, by simpa using known⟩ ?_
      · rintro ⟨rest, stream, ipc⟩ ⟨moved, split, known⟩
        rcases rule.turn known rest with
          ⟨stream', left, kept⟩ |
          ⟨rest', moved', stream', ipc', cut, again, kept, space, shorter⟩
        · refine Or.inl ⟨_, left, rfl, ?_⟩
          rw [split]
          exact kept
        · refine Or.inr ⟨_, again, ⟨moved ++ moved', ?_, ?_⟩, ?_⟩
          · simp only [split, cut, List.append_assoc]
          · rw [← List.append_assoc]
            exact kept
          · have length := congrArg List.length cut
            rw [List.length_append] at length
            simp only [if_pos space]
            split
            · rename_i some_room
              have less := shorter some_room
              omega
            · omega
      · simp only
        split
        · omega
        · omega
    obtain ⟨done', stream', ipc'⟩ := result
    simp only at done kept
    subst done
    exact ⟨stream', ipc', by simp only [Fcgx.putStr, if_neg fits, ran], kept⟩

end PutStr

/-! ### Emptying the buffer -/

theorem alignInt8_eq {n : Nat} (small : n + 7 < 2 ^ 32) : alignInt8 n = (n + 7) / 8 * 8 := by
  rw [alignInt8, Nat.mod_eq_of_lt small]
  apply Nat.eq_of_testBit_eq
  intro position
  have mask : (2 ^ 32 - 1 - 7 : Nat) = (2 ^ 29 - 1) <<< 3 := by decide
  rw [mask, Nat.testBit_and, Nat.testBit_shiftLeft, Nat.testBit_two_pow_sub_one,
    show (8 : Nat) = 2 ^ 3 from rfl, Nat.testBit_mul_two_pow, Nat.testBit_div_two_pow]
  by_cases low : 3 ≤ position
  · by_cases high : position - 3 < 29
    · simp [low, high]
    · have above : 2 ^ 32 ≤ 2 ^ position := Nat.pow_le_pow_right (by decide) (by omega)
      have clear : (n + 7).testBit position = false := Nat.testBit_lt_two_pow (by omega)
      simp [low, high, clear]
  · simp [low]

/-- Rounding up to a multiple of eight adds what is missing to it. -/
theorem alignInt8_sub {n : Nat} (small : n + 7 < 2 ^ 32) :
    alignInt8 n - n = (8 - n % 8) % 8 := by
  rw [alignInt8_eq small]
  omega

theorem ofNat_mod (n : Nat) : UInt8.ofNat (n % 2 ^ 8) = UInt8.ofNat n := by
  apply UInt8.toNat_inj.mp
  simp

/-- The header that `MakeHeader` builds, in front of a content and zeros, is a
record of the stream. -/
theorem makeHeader_streamRecord (type : UInt8) (requestId : Nat) {content : Bytes}
    (fits : content.length ≤ fcgiMaxLength) :
    ∃ header, makeHeader type requestId content.length ((8 - content.length % 8) % 8) =
        .ok header ∧ header.length = headerLen ∧
      header ++ content ++ List.replicate ((8 - content.length % 8) % 8) 0 =
        (streamRecord type requestId content).encode := by
  have padding : (8 - content.length % 8) % 8 ≤ 0xff := by omega
  refine ⟨[1, type, UInt8.ofNat (requestId / 2 ^ 8), UInt8.ofNat requestId,
    UInt8.ofNat (content.length / 2 ^ 8), UInt8.ofNat content.length,
    UInt8.ofNat ((8 - content.length % 8) % 8), 0], ?_, rfl, ?_⟩
  · simp only [makeHeader, check_true fits, check_true padding, ok_bind]
    rfl
  · simp only [Record.encode, streamRecord, List.take_of_length_le fits, List.length_replicate,
      ofNat_mod, List.cons_append, List.nil_append]

/-- A content in one piece, if there is any. -/
def onePiece (content : Bytes) : List Bytes := if content = [] then [] else [content]

@[simp] theorem flatten_onePiece (content : Bytes) : (onePiece content).flatten = content := by
  unfold onePiece
  split
  · simp [*]
  · simp

/-- The bytes of the records that carry these pieces. -/
def pieceBytes (type : UInt8) (requestId : Nat) (pieces : List Bytes) : Bytes :=
  pieces.flatMap fun piece => (streamRecord type requestId piece).encode

namespace OutputStream

theorem Open.length_pending {type : UInt8} {stream : OutputStream} (opened : stream.Open type) :
    stream.pending.length = stream.wrNext - headerLen := by
  rw [pending, List.length_drop, opened.length_filled]

/-- An open stream's content always fits into one record. -/
theorem Open.pending_fits {type : UInt8} {stream : OutputStream} (opened : stream.Open type) :
    stream.pending.length ≤ fcgiMaxLength := by
  have ordered := opened.next_le_stop
  have bounded := opened.stop_eq_size
  have fits := opened.content_fits
  rw [opened.length_pending]
  simp only [headerLen]
  omega

/-- The buffer of an open stream becomes the record of its content, or empty if
it has none. -/
theorem Open.encapsulate {type : UInt8} {stream : OutputStream} (opened : stream.Open type)
    (requestId : Nat) :
    ∃ closed, stream.encapsulate requestId = .ok closed ∧
      closed.filled = pieceBytes type requestId (onePiece stream.pending) ∧
      closed.wrNext ≤ closed.stop ∧ closed.isAnythingWritten = stream.isAnythingWritten ∧
      stream.Keeps closed := by
  have ordered := opened.next_le_stop
  have bounded := opened.stop_eq_size
  have header_room := opened.header_room
  have length := opened.length_pending
  by_cases content : headerLen < stream.wrNext
  · have pending_fits := opened.pending_fits
    have small : stream.pending.length + 7 < 2 ^ 32 := by
      rw [fcgiMaxLength] at pending_fits
      omega
    have missing := alignInt8_sub small
    -- the buffer is a multiple of eight bytes long, so the padding fits
    have fits : stream.wrNext + (List.replicate ((8 - stream.pending.length % 8) % 8)
        (0 : UInt8)).length ≤ stream.stop := by
      have aligned := opened.aligned
      rw [List.length_replicate, length]
      simp only [headerLen] at *
      omega
    obtain ⟨padded, stored, filled, next, written, keeps⟩ := opened.toUsable.store fits
    obtain ⟨header, made, header_length, encoded⟩ :=
      makeHeader_streamRecord type requestId pending_fits
    have size := keeps.size
    have nonempty : stream.pending ≠ [] := by
      intro empty
      rw [empty, List.length_nil] at length
      omega
    have behind : padded.filled.drop headerLen =
        stream.pending ++ List.replicate ((8 - stream.pending.length % 8) % 8) 0 := by
      rw [filled, List.drop_append_of_le_length (by rw [opened.length_filled]; omega)]
      rfl
    refine ⟨{ padded with buff := Buffer.overwrite padded.buff 0 header }, ?_, ?_, ?_, written,
      ?_⟩
    · rw [OutputStream.encapsulate, if_neg (by simp [opened.framing]), if_pos content]
      simp only [← length, missing, stored, ok_bind, keeps.type, opened.records, made]
      rfl
    · rw [onePiece, if_neg nonempty, pieceBytes, List.flatMap_singleton, ← encoded,
        List.append_assoc, ← behind]
      simp only [OutputStream.filled, Buffer.overwrite, List.take_zero, List.nil_append,
        Nat.zero_add, header_length]
      rw [List.take_append, List.take_of_length_le (by omega), header_length, List.drop_take]
    · simp only
      rw [next, keeps.stop]
      exact fits
    · exact { keeps with size := by rw [Buffer.length_overwrite (by omega), size] }
  · have empty : stream.pending = [] := List.length_eq_zero_iff.mp (by omega)
    refine ⟨{ stream with wrNext := 0 }, ?_, ?_, Nat.zero_le _, rfl, ?_⟩
    · rw [OutputStream.encapsulate, if_neg (by simp [opened.framing]), if_neg content]
    · rw [empty]
      rfl
    · exact ⟨rfl, rfl, rfl, rfl, rfl, rfl, rfl⟩

/-- What the buffer holds is written, and the buffer is empty then. -/
theorem writeBuff_accepting {stream : OutputStream} {ipc : Ipc} (accepting : ipc.Accepting)
    (next : stream.wrNext ≤ stream.buff.length) :
    ∃ written ipc', stream.writeBuff ipc = (written, ipc') ∧ stream.Keeps written ∧
      written.wrNext = (if stream.rawWrite then 0 else headerLen) ∧
      written.isAnythingWritten = (stream.isAnythingWritten || !stream.filled.isEmpty) ∧
      ipc.Took stream.filled ipc' := by
  have length : stream.filled.length = stream.wrNext := by
    rw [filled, List.length_take]
    omega
  have frame : stream.Keeps stream.emptied := ⟨rfl, rfl, rfl, rfl, rfl, rfl, rfl⟩
  by_cases empty : stream.wrNext = 0
  · have none : stream.filled = [] := List.length_eq_zero_iff.mp (by omega)
    refine ⟨stream.emptied, ipc, if_neg (by simp [empty]), frame, rfl, ?_, ?_⟩
    · simp [none, emptied]
    · rw [none]
      exact ipc.took_nil
  · have some : stream.filled ≠ [] := by
      intro none
      rw [none, List.length_nil] at length
      omega
    obtain ⟨ipc', wrote, took⟩ := writeItAll_accepting accepting stream.filled
    refine ⟨{ stream with isAnythingWritten := true }.emptied, ipc', ?_, ?_, rfl, ?_, took⟩
    · rw [writeBuff, if_pos empty]
      rw [filled] at wrote
      simp only [wrote]
    · exact ⟨rfl, rfl, rfl, rfl, rfl, rfl, rfl⟩
    · simp [some, emptied]

/-- `EmptyBuffProc` sends what an open stream holds in one record. -/
theorem Open.empties {type : UInt8} {stream : OutputStream} (opened : stream.Open type)
    (requestId : Nat) {ipc : Ipc} (accepting : ipc.Accepting) :
    ∃ stream' ipc', emptyBuffProc requestId stream ipc = .ok (stream', ipc') ∧
      stream'.Open type ∧ stream'.wrNext = headerLen ∧ stream'.pending = [] ∧
      stream'.isAnythingWritten = (stream.isAnythingWritten || !stream.pending.isEmpty) ∧
      ipc.Took (pieceBytes type requestId (onePiece stream.pending)) ipc' := by
  obtain ⟨closed, ran, filled, next, same, keeps⟩ := opened.encapsulate requestId
  have stop := keeps.stop
  have size := keeps.size
  have bounded := opened.stop_eq_size
  have room := opened.content_room
  obtain ⟨stream', ipc', wrote, keepsOn, start, written, took⟩ :=
    writeBuff_accepting accepting (show closed.wrNext ≤ closed.buff.length by omega)
  have size' := keepsOn.size
  have stop' := keepsOn.stop
  rw [keeps.rawWrite, opened.framing, if_neg (by decide)] at start
  have opened' : stream'.Open type :=
    (keeps.trans keepsOn).opened opened (by omega) (Nat.le_of_eq start.symm)
  refine ⟨stream', ipc', ?_, opened', start, ?_, ?_, filled ▸ took⟩
  · simp only [emptyBuffProc, ran, ok_bind, wrote]
    rfl
  · rw [← List.length_eq_zero_iff, opened'.length_pending, start, Nat.sub_self]
  · rw [written, same, filled, onePiece]
    split
    · simp [*, pieceBytes]
    · simp [*, pieceBytes, Record.encode]

end OutputStream

/-- Since some moment an open stream has put `put`: `pieces` of it went out in
records, the rest is in the buffer. -/
structure Emitted (type : UInt8) (requestId : Nat) (stream : OutputStream) (ipc : Ipc)
    (pieces : List Bytes) (stream' : OutputStream) (ipc' : Ipc) (put : Bytes) : Prop where
  opened : stream'.Open type
  took : ipc.Took (pieceBytes type requestId pieces) ipc'
  nonempty : ∀ piece ∈ pieces, piece ≠ []
  fits : ∀ piece ∈ pieces, piece.length ≤ fcgiMaxLength
  carried : pieces.flatten ++ stream'.pending = stream.pending ++ put
  written : stream'.isAnythingWritten = (stream.isAnythingWritten || !pieces.isEmpty)

section Open

variable {type : UInt8} {requestId : Nat} {stream : OutputStream} {ipc : Ipc}

theorem Emitted.start (opened : stream.Open type) :
    Emitted type requestId stream ipc [] stream ipc [] where
  opened := opened
  took := ipc.took_nil
  nonempty := by simp
  fits := by simp
  carried := by simp
  written := by simp

theorem mem_onePiece {content piece : Bytes} (member : piece ∈ onePiece content) :
    piece = content ∧ content ≠ [] := by
  unfold onePiece at member
  split at member
  · cases member
  · exact ⟨List.mem_singleton.mp member, by assumption⟩

variable (type requestId stream) in
/-- The rule for putting strings into an open stream. -/
theorem emitted_rule (accepting : ipc.Accepting) :
    PutRule requestId fun stream' ipc' put =>
      ∃ pieces, Emitted type requestId stream ipc pieces stream' ipc' put where
  usable := fun ⟨_, emitted⟩ => emitted.opened.toUsable
  stores := by
    rintro stream' stored ipc' put data ⟨pieces, emitted⟩ filled next written keeps inside
    have opened := emitted.opened
    have room := opened.header_room
    refine ⟨pieces, keeps.opened opened inside (by omega), emitted.took, emitted.nonempty,
      emitted.fits, ?_, written.trans emitted.written⟩
    rw [OutputStream.pending, filled,
      List.drop_append_of_le_length (by rw [opened.length_filled]; exact room),
      ← List.append_assoc, ← List.append_assoc, ← emitted.carried]
    rfl
  empties := by
    rintro stream' ipc' put ⟨pieces, emitted⟩
    obtain ⟨stream'', ipc'', ran, opened, next, empty, written, took⟩ :=
      emitted.opened.empties requestId (emitted.took.accepting accepting)
    have room := opened.content_room
    have bounded := opened.stop_eq_size
    refine ⟨stream'', ipc'', ran, ⟨pieces ++ onePiece stream'.pending, opened, ?_, ?_, ?_, ?_, ?_⟩,
      by omega⟩
    · rw [pieceBytes, List.flatMap_append]
      exact emitted.took.append took
    · intro piece member
      rcases List.mem_append.mp member with earlier | last
      · exact emitted.nonempty piece earlier
      · rw [(mem_onePiece last).1]
        exact (mem_onePiece last).2
    · intro piece member
      rcases List.mem_append.mp member with earlier | last
      · exact emitted.fits piece earlier
      · rw [(mem_onePiece last).1]
        exact emitted.opened.pending_fits
    · rw [empty, List.append_nil, List.flatten_append, flatten_onePiece]
      exact emitted.carried
    · rw [written, emitted.written]
      by_cases none : stream'.pending = []
      · simp [onePiece, none]
      · have some := List.isEmpty_eq_false_iff.mpr none
        cases pieces with
        | nil => simp [onePiece, none, some]
        | cons piece pieces => simp

variable (requestId)

/-- `FCGX_PutStr` on an open stream. -/
theorem putStr_open (opened : stream.Open type) (accepting : ipc.Accepting) (str : Bytes) :
    ∃ pieces stream' ipc', putStr requestId str stream ipc = .ok (true, stream', ipc') ∧
      Emitted type requestId stream ipc pieces stream' ipc' str := by
  obtain ⟨stream', ipc', ran, pieces, emitted⟩ :=
    (emitted_rule type requestId stream accepting).putStr ⟨[], Emitted.start opened⟩ str
  exact ⟨pieces, stream', ipc', ran, emitted⟩

/-- `FCGX_PutChar` does what `FCGX_PutStr` does with one byte. -/
theorem putChar_open (opened : stream.Open type) (accepting : ipc.Accepting) (c : UInt8) :
    ∃ pieces stream' ipc', putChar requestId c stream ipc = .ok (true, stream', ipc') ∧
      Emitted type requestId stream ipc pieces stream' ipc' [c] := by
  have rule := emitted_rule type requestId stream accepting
  have started : ∃ pieces, Emitted type requestId stream ipc pieces stream ipc [] :=
    ⟨[], Emitted.start opened⟩
  have ordered := opened.next_le_stop
  by_cases full : stream.wrNext = stream.stop
  · obtain ⟨emptied, ipc', ran, known, space⟩ := rule.empties started
    obtain ⟨stored, copied, ⟨pieces, emitted⟩, _, _⟩ := rule.store known [c] space
    refine ⟨pieces, stored, ipc', ?_, emitted⟩
    have different : emptied.wrNext ≠ emptied.stop := Nat.ne_of_lt space
    rw [putChar, if_neg (by simp [full]), if_neg (by simp [opened.notClosed]), ran]
    simp only [ok_bind, if_pos different, copied]
    rfl
  · obtain ⟨stored, copied, ⟨pieces, emitted⟩, _, _⟩ :=
      rule.store started [c] (by rw [List.length_singleton]; omega)
    refine ⟨pieces, stored, ipc, ?_, emitted⟩
    simp only [putChar, if_pos (show stream.wrNext ≠ stream.stop from full), copied, ok_bind]
    rfl

/-- `FCGX_FFlush` sends what the stream holds. -/
theorem fFlush_open (opened : stream.Open type) (accepting : ipc.Accepting) :
    ∃ pieces stream' ipc', fFlush requestId stream ipc = .ok (true, stream', ipc') ∧
      Emitted type requestId stream ipc pieces stream' ipc' [] := by
  obtain ⟨emptied, ipc', ran, ⟨pieces, emitted⟩, _⟩ :=
    (emitted_rule type requestId stream accepting).empties ⟨[], Emitted.start opened⟩
  refine ⟨pieces, emptied, ipc', ?_, emitted⟩
  simp only [fFlush, opened.notClosed, Bool.false_eq_true, if_false, ran, ok_bind,
    emitted.opened.notClosed, Bool.not_false]
  rfl

end Open

/-! ### Closing -/

/-- A stream in raw mode: bytes pass through its buffer. -/
structure OutputStream.Raw (stream : OutputStream) : Prop extends stream.Usable where
  raw : stream.rawWrite = true
  room : 0 < stream.stop

/-- Since some moment a stream in raw mode has passed on `put`, but for what its
buffer holds. -/
structure Passed (stream : OutputStream) (ipc : Ipc) (bytes : Bytes) (stream' : OutputStream)
    (ipc' : Ipc) (put : Bytes) : Prop where
  raw : stream'.Raw
  took : ipc.Took bytes ipc'
  carried : bytes ++ stream'.filled = stream.filled ++ put

section Raw

variable (requestId : Nat) {stream : OutputStream} {ipc : Ipc}

theorem passed_rule (accepting : ipc.Accepting) :
    PutRule requestId fun stream' ipc' put =>
      ∃ bytes, Passed stream ipc bytes stream' ipc' put where
  usable := fun ⟨_, passed⟩ => passed.raw.toUsable
  stores := by
    rintro stream' stored ipc' put data ⟨bytes, passed⟩ filled next written keeps inside
    have raw := passed.raw
    refine ⟨bytes, ⟨keeps.usable raw.toUsable inside, keeps.rawWrite.trans raw.raw, ?_⟩,
      passed.took, ?_⟩
    · rw [keeps.stop]
      exact raw.room
    · rw [filled, ← List.append_assoc, ← List.append_assoc, passed.carried]
  empties := by
    rintro stream' ipc' put ⟨bytes, passed⟩
    have raw := passed.raw
    have ordered := raw.next_le_stop
    have bounded := raw.stop_eq_size
    obtain ⟨stream'', ipc'', wrote, keeps, start, written, took⟩ :=
      OutputStream.writeBuff_accepting (passed.took.accepting accepting)
        (show stream'.wrNext ≤ stream'.buff.length by omega)
    rw [raw.raw, if_pos rfl] at start
    have stop := keeps.stop
    have room := raw.room
    have usable := keeps.usable raw.toUsable (by omega)
    have empty : stream''.filled = [] := by
      rw [← List.length_eq_zero_iff, usable.length_filled, start]
    refine ⟨stream'', ipc'', ?_, ⟨bytes ++ stream'.filled, ⟨usable, ?_, ?_⟩, ?_, ?_⟩, ?_⟩
    · have unframed : stream'.encapsulate requestId = .ok stream' := if_pos raw.raw
      simp only [emptyBuffProc, unframed, ok_bind, wrote]
      rfl
    · exact keeps.rawWrite.trans raw.raw
    · omega
    · exact passed.took.append took
    · rw [empty, List.append_nil, passed.carried]
    · omega

theorem putRecords_raw (accepting : ipc.Accepting) (records : List Bytes)
    {bytes : Bytes} {stream' : OutputStream} {ipc' : Ipc} {put : Bytes}
    (passed : Passed stream ipc bytes stream' ipc' put) :
    ∃ bytes' stream'' ipc'', putRecords requestId records stream' ipc' = .ok (stream'', ipc'') ∧
      Passed stream ipc bytes' stream'' ipc'' (put ++ records.flatten) := by
  induction records generalizing bytes stream' ipc' put with
  | nil => exact ⟨bytes, stream', ipc', rfl, by simpa using passed⟩
  | cons record records inductionHypothesis =>
      obtain ⟨stream'', ipc'', ran, bytes', passed'⟩ :=
        (passed_rule requestId accepting).putStr ⟨bytes, passed⟩ record
      obtain ⟨bytes'', last, ipcLast, ranLast, passedLast⟩ := inductionHypothesis passed'
      refine ⟨bytes'', last, ipcLast, ?_, ?_⟩
      · simp only [putRecords, ran, ok_bind, ranLast]
      · rwa [List.flatten_cons, ← List.append_assoc]

end Raw

/-- A stream after `FCGX_FClose`, when nothing failed. -/
structure OutputStream.Closed (stream : OutputStream) : Prop where
  isClosed : stream.isClosed = true
  wasFCloseCalled : stream.wasFCloseCalled = true
  noError : stream.fcgiErrno = 0
  noRoom : stream.stop = stream.wrNext

/-- The end of a stream, which only a STDERR stream that carried nothing does
without. -/
def endOfStream (requestId : Nat) (stream : OutputStream) : List Record :=
  if stream.type = FcgiType.kFcgiStderr.code ∧ stream.pending = [] ∧
      stream.isAnythingWritten = false then []
  else [streamRecord stream.type requestId []]

/-- The end of the request, from the last writer. -/
def endOfRequest (request : Request) : List Record :=
  if request.nWriters = 1 then [endRecord request.requestId request.appStatus] else []

theorem makeEndRequestBody_eq (appStatus : UInt32) :
    makeEndRequestBody appStatus fcgiRequestComplete = endBody appStatus := by
  have byte (value : UInt32) : value.toUInt8 = UInt8.ofNat value.toNat := by
    apply UInt8.toNat_inj.mp
    simp
  simp only [makeEndRequestBody, endBody, fcgiRequestComplete, byte, UInt32.toNat_shiftRight,
    Nat.shiftRight_eq_div_pow]
  rfl

theorem endRequestBytes_eq (request : Request) :
    endRequestBytes request = .ok (endRecord request.requestId request.appStatus).encode := by
  have length : (8 : Nat) ≤ fcgiMaxLength := by decide
  simp only [endRequestBytes, makeHeader, check_true length, check_true (Nat.zero_le 0xff),
    ok_bind, makeEndRequestBody_eq]
  rfl

theorem makeHeader_empty (type : UInt8) (requestId : Nat) :
    makeHeader type requestId 0 0 = .ok (streamRecord type requestId []).encode := by
  simp only [makeHeader, check_true (Nat.zero_le _), ok_bind]
  rfl

/-- What `WriteCloseRecords` puts behind the content of an open stream. -/
theorem closeRecords_eq {type : UInt8} {stream closed : OutputStream} (request : Request)
    (keeps : stream.Keeps closed)
    (filled : closed.filled = pieceBytes type request.requestId (onePiece stream.pending))
    (next : closed.wrNext ≤ closed.buff.length)
    (same : closed.isAnythingWritten = stream.isAnythingWritten) :
    closeRecords request { closed with rawWrite := true } =
      .ok ((endOfStream request.requestId stream ++ endOfRequest request).map Record.encode) := by
  -- nothing is in the buffer exactly if the stream holds nothing
  have empty : closed.wrNext = 0 ↔ stream.pending = [] := by
    have length : closed.filled.length = closed.wrNext := by
      rw [OutputStream.filled, List.length_take]
      omega
    rw [← length, filled, List.length_eq_zero_iff, onePiece]
    split
    · simp [*, pieceBytes]
    · simp [*, pieceBytes, Record.encode]
  simp only [closeRecords, endOfStream, endOfRequest, keeps.type, empty, same,
    makeHeader_empty, endRequestBytes_eq]
  by_cases skipped : stream.type = FcgiType.kFcgiStderr.code ∧ stream.pending = [] ∧
      stream.isAnythingWritten = false
  · by_cases last : request.nWriters = 1
    · simp [skipped, last, pure_ok]
    · simp [skipped, last, pure_ok]
  · by_cases last : request.nWriters = 1
    · simp [skipped, last, pure_ok]
    · simp [skipped, last, pure_ok]

/-- `FCGX_FClose` sends what an open stream holds, the end of the stream and, if
it is the last writer, the end of the request. -/
theorem fClose_open {type : UInt8} {stream : OutputStream} {ipc : Ipc} (request : Request)
    (opened : stream.Open type) (accepting : ipc.Accepting) :
    ∃ stream' ipc', fClose request stream ipc =
        .ok (true, { request with nWriters := request.nWriters - 1 }, stream', ipc') ∧
      stream'.Closed ∧
      ipc.Took (pieceBytes type request.requestId (onePiece stream.pending) ++
        (endOfStream request.requestId stream ++ endOfRequest request).flatMap Record.encode)
        ipc' := by
  obtain ⟨closed, ran, filled, next, same, keeps⟩ := opened.encapsulate request.requestId
  have stop := keeps.stop
  have size := keeps.size
  have bounded := opened.stop_eq_size
  have room := opened.content_room
  have usable := keeps.usable opened.toUsable next
  have records := closeRecords_eq request keeps filled (by omega) same
  -- in raw mode, the records go through the buffer behind the content
  have raw : ({ closed with rawWrite := true } : OutputStream).Raw :=
    ⟨⟨usable.notClosed, usable.notFinished, usable.noError, usable.next_le_stop,
      usable.stop_eq_size⟩, rfl, by simp only; omega⟩
  have started : Passed { closed with rawWrite := true } ipc []
      { closed with rawWrite := true } ipc [] := ⟨raw, ipc.took_nil, by simp⟩
  obtain ⟨bytes, passedStream, passedIpc, put, passed⟩ := putRecords_raw
    request.requestId accepting
    ((endOfStream request.requestId stream ++ endOfRequest request).map Record.encode) started
  have rawBounded := passed.raw.stop_eq_size
  have rawNext := passed.raw.next_le_stop
  obtain ⟨stream', ipc', wrote, keepsOn, start, written, took⟩ :=
    OutputStream.writeBuff_accepting (passed.took.accepting accepting)
      (show passedStream.wrNext ≤ passedStream.buff.length by omega)
  have noError : stream'.fcgiErrno = 0 := keepsOn.fcgiErrno.trans passed.raw.noError
  refine ⟨{ stream' with wasFCloseCalled := true, isClosed := true, stop := stream'.wrNext },
    ipc', ?_, ⟨rfl, rfl, noError, rfl⟩, ?_⟩
  · simp only [fClose, opened.notFinished, Bool.false_eq_true, if_false, emptyBuffProcClose, ran,
      pure_ok, ok_bind, writeCloseRecords, records, put, wrote, noError, decide_true]
  · have whole := passed.took.append took
    rw [passed.carried, List.nil_append, ← List.flatMap_def] at whole
    have same_filled : OutputStream.filled { closed with rawWrite := true } = closed.filled := rfl
    rwa [same_filled, filled] at whole

section Closed

variable {requestId : Nat} {stream : OutputStream} (closed : stream.Closed)

include closed

variable (requestId) in
/-- A closed stream takes no byte. -/
theorem putStr_closed (str : Bytes) (ipc : Ipc) :
    ∃ stream', putStr requestId str stream ipc = .ok (str.isEmpty, stream', ipc) ∧
      stream'.Closed := by
  have noRoom := closed.noRoom
  cases str with
  | nil =>
      refine ⟨{ stream with buff := Buffer.overwrite stream.buff stream.wrNext [] }, ?_,
        closed.isClosed, closed.wasFCloseCalled, closed.noError, noRoom⟩
      simp [putStr, OutputStream.store, noRoom, pure_ok]
  | cons c str =>
      refine ⟨stream, ?_, closed⟩
      have full (data : Bytes) : stream.fillUp data = .ok stream := if_neg (by simp [noRoom])
      have refused : putStrTurn requestId (c :: str, stream, ipc) =
          .ok (.leave (false, stream, ipc)) := by
        simp [putStrTurn, full, noRoom, closed.isClosed, pure_ok]
      rw [putStr, if_neg (by simp [noRoom])]
      simp only [runLoop, refused, List.isEmpty_cons]

theorem putChar_closed (c : UInt8) (ipc : Ipc) :
    putChar requestId c stream ipc = .ok (false, stream, ipc) := by
  simp [putChar, closed.noRoom, closed.isClosed, pure_ok]

theorem fFlush_closed (ipc : Ipc) : fFlush requestId stream ipc = .ok (true, stream, ipc) := by
  simp [fFlush, closed.isClosed, pure_ok]

theorem fClose_closed (request : Request) (ipc : Ipc) :
    fClose request stream ipc = .ok (true, request, stream, ipc) := by
  simp [fClose, closed.wasFCloseCalled, closed.noError, pure_ok]

end Closed

/-- A new stream is open. -/
theorem newWriter_open {bufflen : Nat} (misaligned : Bool) (type : UInt8) :
    (newWriter bufflen misaligned type).Open type := by
  have asked : min (max bufflen 32) (fcgiMaxLength + 1) + 7 < 2 ^ 32 := by
    rw [fcgiMaxLength]
    omega
  have size : (newWriter bufflen misaligned type).buff.length =
      (newWriter bufflen misaligned type).stop := List.length_replicate
  have stop : (newWriter bufflen misaligned type).stop =
      (min (max bufflen 32) (fcgiMaxLength + 1) + 7) / 8 * 8 - if misaligned then 8 else 0 := by
    simp only [newWriter, alignInt8_eq asked]
    split
    · rfl
    · rfl
  have next : (newWriter bufflen misaligned type).wrNext = 8 := rfl
  have bounds : 24 ≤ (newWriter bufflen misaligned type).stop ∧
      8 ∣ (newWriter bufflen misaligned type).stop ∧
      (newWriter bufflen misaligned type).stop ≤ fcgiMaxLength + 1 := by
    rw [stop]
    simp only [fcgiMaxLength]
    split
    · omega
    · omega
  obtain ⟨large, aligned, small⟩ := bounds
  refine ⟨⟨rfl, rfl, rfl, by omega, size.symm⟩, rfl, rfl, Nat.le_refl _, ?_, ?_, ?_⟩
  · rw [size]
    exact aligned
  · rw [size, headerLen]
    omega
  · rw [size]
    exact small

end Fcgx

end FastCgi
