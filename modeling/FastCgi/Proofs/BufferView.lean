/-
Module: FastCgi.Proofs.BufferView
Layer: Proofs
Purpose: `Buffer` refines a byte queue.  Every operation the codecs call
  succeeds whenever its guard holds, and acts on the readable bytes alone: the
  position of the indices and the size of the vector are invisible.
Trusted boundary: none
Main exports: Buffer.retrieve_view, Buffer.retrieveAsString_view,
  Buffer.append_view, Buffer.readFd_view, Buffer.peekInt8_view,
  Buffer.readInt32_view
-/
import FastCgi.Model.Buffer

namespace FastCgi

/-- Sequencing after a step that succeeded. -/
@[simp] theorem ok_bind {α β : Type} (value : α) (next : α → Except Fault β) :
    (Except.ok value >>= next) = next value := rfl

/-- A step whose result was mapped succeeded itself. -/
theorem ok_of_map {α β : Type} {f : α → β} {step : Except Fault α} {result : β}
    (mapped : step.map f = .ok result) : ∃ value, step = .ok value ∧ f value = result := by
  cases step with
  | error fault => cases mapped
  | ok value => exact ⟨value, rfl, Except.ok.inj mapped⟩

@[simp] theorem check_true {condition : Prop} [Decidable condition] {text : String}
    (holds : condition) : check condition text = .ok () := by
  simp [check, holds]

namespace Buffer

@[simp] theorem readable_empty : empty.readable = [] := by
  simp [readable, readableBytes, empty]

@[simp] theorem readable_retrieveAll (b : Buffer) : b.retrieveAll.readable = [] := by
  simp [readable, readableBytes, retrieveAll]

/-- Looking inside the readable bytes is a slice of them. -/
theorem bytesAt_eq (b : Buffer) (offset len : Nat)
    (inside : offset + len ≤ b.readable.length) :
    b.bytesAt offset len = .ok ((b.readable.drop offset).take len) := by
  rw [length_readable] at inside
  simp [bytesAt, inside]

/-- `retrieve` drops from the front of the queue. -/
theorem retrieve_view (b : Buffer) (len : Nat) (inside : len ≤ b.readable.length) :
    ∃ b', b.retrieve len = .ok b' ∧ b'.readable = b.readable.drop len := by
  rw [length_readable] at inside
  unfold retrieve
  simp only [check_true inside, ok_bind]
  by_cases strict : len < b.readableBytes
  · rw [dif_pos strict]
    refine ⟨_, rfl, ?_⟩
    simp only [readable, readableBytes] at strict ⊢
    rw [List.drop_take, List.drop_drop]
    congr 1
    omega
  · rw [dif_neg strict]
    refine ⟨_, rfl, ?_⟩
    rw [readable_retrieveAll, List.drop_eq_nil_of_le]
    rw [length_readable]
    omega

/-- `retrieveAsString` pops the first `len` bytes. -/
theorem retrieveAsString_view (b : Buffer) (len : Nat) (inside : len ≤ b.readable.length) :
    ∃ b', b.retrieveAsString len = .ok (b.readable.take len, b') ∧
      b'.readable = b.readable.drop len := by
  obtain ⟨b', retrieved, view⟩ := b.retrieve_view len inside
  refine ⟨b', ?_, view⟩
  have asserted : len ≤ b.readableBytes := by rwa [← length_readable]
  unfold retrieveAsString
  simp only [check_true asserted, ok_bind, retrieved,
    b.bytesAt_eq 0 len (by omega), List.drop_zero]
  rfl

/-- Taking everything empties the queue. -/
theorem retrieveAllAsString_view (b : Buffer) :
    ∃ b', b.retrieveAllAsString = .ok (b.readable, b') ∧ b'.readable = [] := by
  obtain ⟨b', popped, view⟩ :=
    b.retrieveAsString_view b.readableBytes (Nat.le_of_eq b.length_readable.symm)
  refine ⟨b', ?_, ?_⟩
  · rw [retrieveAllAsString, popped, ← length_readable, List.take_length]
  · rw [view, ← length_readable, List.drop_length]

/-- Overwriting behind the readable bytes leaves them alone. -/
theorem take_overwrite {vector : Bytes} {position : Nat} {data : Bytes}
    (fits : position + data.length ≤ vector.length) :
    (overwrite vector position data).take (position + data.length) =
      vector.take position ++ data := by
  have front : (vector.take position).length = position := by
    rw [List.length_take]
    omega
  have joined : (vector.take position ++ data).length = position + data.length := by
    rw [List.length_append, front]
  rw [overwrite, List.take_append_of_le_length (Nat.le_of_eq joined.symm),
    List.take_of_length_le (Nat.le_of_eq joined)]

/-- The readable bytes, read off the vector up to the writer index. -/
theorem readable_eq_drop_take (b : Buffer) :
    b.readable = (b.buffer.take b.writerIndex).drop b.readerIndex := by
  rw [readable, readableBytes, List.drop_take]

/-- Moving to the front keeps the readable bytes. -/
theorem readable_moveToFront (b : Buffer) : b.moveToFront.readable = b.readable := by
  have front := b.prepend_le_reader
  have ordered := b.reader_le_writer
  have bounded := b.writer_le_size
  have size := b.length_readable
  unfold readableBytes at size
  rw [readable_eq_drop_take b.moveToFront]
  simp only [moveToFront]
  rw [← length_readable, take_overwrite (by omega), List.drop_append_of_le_length,
    List.drop_eq_nil_of_le]
  · rfl
  · rw [List.length_take]
    omega
  · rw [List.length_take]
    omega

theorem readableBytes_moveToFront (b : Buffer) :
    b.moveToFront.readableBytes = b.readableBytes := by
  rw [← length_readable, readable_moveToFront, length_readable]

/-- `makeSpace` makes room, and both of its assertions hold where it is
called: the moved branch is only taken when the reader has left the front. -/
theorem makeSpace_view {b : Buffer} {len : Nat} (needed : b.writableBytes < len) :
    ∃ b', b.makeSpace len = .ok b' ∧ b'.readable = b.readable ∧ len ≤ b'.writableBytes := by
  have front := b.prepend_le_reader
  have ordered := b.reader_le_writer
  have bounded := b.writer_le_size
  unfold makeSpace
  by_cases grows : b.writableBytes + b.prependableBytes < len + kCheapPrepend
  · rw [if_pos grows]
    refine ⟨_, rfl, ?_, ?_⟩
    · simp only [writableBytes] at needed
      rw [readable_eq_drop_take, readable_eq_drop_take]
      simp only [resize]
      rw [List.take_append_of_le_length (by rw [List.length_take]; omega), List.take_take,
        Nat.min_eq_left (by omega)]
    · simp only [writableBytes, length_resize]
      omega
  · rw [if_neg grows]
    have moved : kCheapPrepend < b.readerIndex := by
      simp only [prependableBytes] at grows
      omega
    simp only [check_true moved, check_true (readableBytes_moveToFront b).symm, ok_bind]
    refine ⟨_, rfl, readable_moveToFront b, ?_⟩
    have size := b.length_readable
    simp only [writableBytes, prependableBytes, readableBytes] at grows size ⊢
    simp only [moveToFront]
    rw [length_overwrite (by omega)]
    simp only [readableBytes]
    omega

theorem ensureWritableBytes_view (b : Buffer) (len : Nat) :
    ∃ b', b.ensureWritableBytes len = .ok b' ∧ b'.readable = b.readable ∧
      len ≤ b'.writableBytes := by
  unfold ensureWritableBytes
  by_cases needed : b.writableBytes < len
  · obtain ⟨b', made, view, room⟩ := makeSpace_view needed
    refine ⟨b', ?_, view, room⟩
    simp only [if_pos needed, made, ok_bind, check_true room]
    rfl
  · refine ⟨b, ?_, rfl, by omega⟩
    have room : len ≤ b.writableBytes := by omega
    simp only [if_neg needed, pure_bind, check_true room, ok_bind]
    rfl

theorem copyToBeginWrite_fields (b : Buffer) (data : Bytes)
    (room : data.length ≤ b.writableBytes) :
    ∃ b', b.copyToBeginWrite data = .ok b' ∧
      b'.buffer = overwrite b.buffer b.writerIndex data ∧
      b'.readerIndex = b.readerIndex ∧ b'.writerIndex = b.writerIndex := by
  have bounded := b.writer_le_size
  have fits : b.writerIndex + data.length ≤ b.buffer.length := by
    unfold writableBytes at room
    omega
  rw [copyToBeginWrite, dif_pos fits]
  exact ⟨_, rfl, rfl, rfl, rfl⟩

theorem hasWritten_fields (b : Buffer) (len : Nat) (room : len ≤ b.writableBytes) :
    ∃ b', b.hasWritten len = .ok b' ∧ b'.buffer = b.buffer ∧
      b'.readerIndex = b.readerIndex ∧ b'.writerIndex = b.writerIndex + len := by
  rw [hasWritten, dif_pos room]
  exact ⟨_, rfl, rfl, rfl, rfl⟩

/-- Writing where there is room, then advancing the writer index, appends. -/
theorem copy_hasWritten_view (b : Buffer) (data : Bytes)
    (room : data.length ≤ b.writableBytes) :
    ∃ b₁ b₂, b.copyToBeginWrite data = .ok b₁ ∧ b₁.hasWritten data.length = .ok b₂ ∧
      b₂.readable = b.readable ++ data := by
  have ordered := b.reader_le_writer
  have bounded := b.writer_le_size
  have fits : b.writerIndex + data.length ≤ b.buffer.length := by
    unfold writableBytes at room
    omega
  obtain ⟨b₁, copied, buffer₁, reader₁, writer₁⟩ := b.copyToBeginWrite_fields data room
  obtain ⟨b₂, written, buffer₂, reader₂, writer₂⟩ := b₁.hasWritten_fields data.length (by
    rw [writableBytes, buffer₁, writer₁, length_overwrite fits]
    exact room)
  refine ⟨b₁, b₂, copied, written, ?_⟩
  rw [readable_eq_drop_take, readable_eq_drop_take, buffer₂, buffer₁, reader₂, reader₁,
    writer₂, writer₁, take_overwrite fits, List.drop_append_of_le_length]
  rw [List.length_take]
  omega

/-- `append` extends the queue at the back and never fails. -/
theorem append_view (b : Buffer) (data : Bytes) :
    ∃ b', b.append data = .ok b' ∧ b'.readable = b.readable ++ data := by
  obtain ⟨b₁, ensured, view₁, room⟩ := b.ensureWritableBytes_view data.length
  obtain ⟨b₂, b₃, copied, written, view₃⟩ := b₁.copy_hasWritten_view data room
  refine ⟨b₃, ?_, by rw [view₃, view₁]⟩
  unfold append
  simp only [ensured, copied, written, ok_bind]

/-- Whatever `readv` delivers ends up behind the bytes already there. -/
theorem readFd_view (b : Buffer) (data : Bytes) :
    ∃ b', b.readFd data = .ok b' ∧ b'.readable = b.readable ++ data := by
  unfold readFd
  by_cases fits : data.length ≤ b.writableBytes
  · obtain ⟨b₁, b₂, copied, written, view⟩ := b.copy_hasWritten_view data fits
    refine ⟨b₂, ?_, view⟩
    simp only [List.take_of_length_le fits, copied, ok_bind, if_pos fits, written]
  · have filled : (data.take b.writableBytes).length = b.writableBytes := by
      rw [List.length_take]
      omega
    obtain ⟨b₁, b₂, copied, written, view₂⟩ :=
      b.copy_hasWritten_view (data.take b.writableBytes) (Nat.le_of_eq filled)
    obtain ⟨b₃, appended, view₃⟩ := b₂.append_view (data.drop b.writableBytes)
    rw [filled] at written
    refine ⟨b₃, ?_, ?_⟩
    · simp only [copied, ok_bind, if_neg fits, written, appended]
    · rw [view₃, view₂, List.append_assoc, List.take_append_drop]

theorem peekInt8_view {b : Buffer} {first : UInt8} {rest : Bytes}
    (view : b.readable = first :: rest) : b.peekInt8 = .ok first := by
  have size := b.length_readable
  rw [view] at size
  simp only [List.length_cons] at size
  have asserted : 1 ≤ b.readableBytes := by omega
  unfold peekInt8
  simp only [check_true asserted, ok_bind, b.bytesAt_eq 0 1 (by simp [view]), view]
  rfl

theorem readInt8_view {b : Buffer} {first : UInt8} {rest : Bytes}
    (view : b.readable = first :: rest) :
    ∃ b', b.readInt8 = .ok (first, b') ∧ b'.readable = rest := by
  obtain ⟨b', retrieved, dropped⟩ := b.retrieve_view 1 (by simp [view])
  refine ⟨b', ?_, by simpa [view] using dropped⟩
  unfold readInt8
  simp only [peekInt8_view view, ok_bind, retrieved]
  rfl

theorem readInt32_view {b : Buffer} {b0 b1 b2 b3 : UInt8} {rest : Bytes}
    (view : b.readable = b0 :: b1 :: b2 :: b3 :: rest) :
    ∃ b', b.readInt32 = .ok (ntoh32 (loadUInt32 b0 b1 b2 b3), b') ∧ b'.readable = rest := by
  obtain ⟨b', retrieved, dropped⟩ := b.retrieve_view 4 (by simp [view])
  refine ⟨b', ?_, by simpa [view] using dropped⟩
  have size := b.length_readable
  rw [view] at size
  simp only [List.length_cons] at size
  have asserted : 4 ≤ b.readableBytes := by omega
  have looked : b.bytesAt 0 4 = .ok [b0, b1, b2, b3] := by
    rw [b.bytesAt_eq 0 4 (by simp [view])]
    simp [view]
  unfold readInt32 peekInt32
  simp only [check_true asserted, ok_bind, looked, retrieved]
  rfl

end Buffer

end FastCgi
