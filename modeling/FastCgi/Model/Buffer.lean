/-
Module: FastCgi.Model.Buffer
Layer: Model
Purpose: muduo's `Buffer` (mucgi/muduo_net/Buffer.h and cocgi's copy of it):
  the vector, its two indices, and the operations the codecs call.  An
  `assert` of the source is a checked step that fails with the asserted text,
  and an access through `peek()` fails outside the readable bytes.
Trusted boundary: sizes are unbounded naturals (the source's `size_t` values
  stay far below `2 ^ 64`)
Main exports: Fault, Buffer, Buffer.readable, Buffer.append, Buffer.retrieve,
  Buffer.retrieveAsString, Buffer.readFd
-/
import FastCgi.Model.Endian

namespace FastCgi

/-- The ways in which the modelled code can fail. -/
inductive Fault where
  /-- An `assert` whose condition is false; the asserts are live. -/
  | assertion (text : String)
  /-- A byte outside the readable bytes is looked at, or one outside the
  vector is written. -/
  | outOfBounds
  /-- A C++ exception that leaves the function. -/
  | exception (what : String)
  /-- A loop that did not end within its bound. -/
  | diverged
deriving Repr, DecidableEq

/-- `assert(condition)`. -/
def check (condition : Prop) [Decidable condition] (text : String) : Except Fault Unit :=
  if condition then .ok () else .error (.assertion text)

def kCheapPrepend : Nat := 8

def kInitialSize : Nat := 1024

/-- The class invariant of `Buffer` is carried by its last three fields:
`kCheapPrepend <= readerIndex_ <= writerIndex_ <= buffer_.size()`. -/
structure Buffer where
  buffer : Bytes
  readerIndex : Nat
  writerIndex : Nat
  prepend_le_reader : kCheapPrepend ≤ readerIndex
  reader_le_writer : readerIndex ≤ writerIndex
  writer_le_size : writerIndex ≤ buffer.length
deriving DecidableEq

namespace Buffer

/-- `Buffer(initialSize = kInitialSize)`. -/
def empty : Buffer where
  buffer := List.replicate (kCheapPrepend + kInitialSize) 0
  readerIndex := kCheapPrepend
  writerIndex := kCheapPrepend
  prepend_le_reader := Nat.le_refl _
  reader_le_writer := Nat.le_refl _
  writer_le_size := by
    rw [List.length_replicate]
    exact Nat.le_add_right _ _

def readableBytes (b : Buffer) : Nat := b.writerIndex - b.readerIndex

def writableBytes (b : Buffer) : Nat := b.buffer.length - b.writerIndex

def prependableBytes (b : Buffer) : Nat := b.readerIndex

/-- The readable bytes themselves: what the buffer stands for. -/
def readable (b : Buffer) : Bytes :=
  (b.buffer.drop b.readerIndex).take b.readableBytes

/-- Look at the bytes `peek() + offset .. peek() + offset + len`. -/
def bytesAt (b : Buffer) (offset len : Nat) : Except Fault Bytes :=
  if offset + len ≤ b.readableBytes then
    .ok ((b.readable.drop offset).take len)
  else
    .error .outOfBounds

def retrieveAll (b : Buffer) : Buffer where
  buffer := b.buffer
  readerIndex := kCheapPrepend
  writerIndex := kCheapPrepend
  prepend_le_reader := Nat.le_refl _
  reader_le_writer := Nat.le_refl _
  writer_le_size :=
    Nat.le_trans b.prepend_le_reader (Nat.le_trans b.reader_le_writer b.writer_le_size)

def retrieve (b : Buffer) (len : Nat) : Except Fault Buffer := do
  check (len ≤ b.readableBytes) "len <= readableBytes()"
  if inside : len < b.readableBytes then
    return {
      buffer := b.buffer
      readerIndex := b.readerIndex + len
      writerIndex := b.writerIndex
      prepend_le_reader := Nat.le_add_right_of_le b.prepend_le_reader
      reader_le_writer := by
        unfold readableBytes at inside
        omega
      writer_le_size := b.writer_le_size }
  else
    return b.retrieveAll

/-- The string is built from `peek()` before the bytes are retrieved. -/
def retrieveAsString (b : Buffer) (len : Nat) : Except Fault (Bytes × Buffer) := do
  check (len ≤ b.readableBytes) "len <= readableBytes()"
  let result ← b.bytesAt 0 len
  let b ← b.retrieve len
  return (result, b)

def retrieveAllAsString (b : Buffer) : Except Fault (Bytes × Buffer) :=
  b.retrieveAsString b.readableBytes

/-- `std::vector<char>::resize`. -/
def resize (vector : Bytes) (size : Nat) : Bytes :=
  vector.take size ++ List.replicate (size - vector.length) 0

theorem length_resize (vector : Bytes) (size : Nat) : (resize vector size).length = size := by
  simp only [resize, List.length_append, List.length_take, List.length_replicate]
  omega

/-- Overwrite the vector from `position` on. -/
def overwrite (vector : Bytes) (position : Nat) (data : Bytes) : Bytes :=
  vector.take position ++ data ++ vector.drop (position + data.length)

theorem length_overwrite {vector : Bytes} {position : Nat} {data : Bytes}
    (fits : position + data.length ≤ vector.length) :
    (overwrite vector position data).length = vector.length := by
  simp only [overwrite, List.length_append, List.length_take, List.length_drop]
  omega

theorem length_readable (b : Buffer) : b.readable.length = b.readableBytes := by
  have ordered := b.reader_le_writer
  have bounded := b.writer_le_size
  simp only [readable, readableBytes, List.length_take, List.length_drop]
  omega

/-- The move that `makeSpace` performs: the readable bytes go to the front. -/
def moveToFront (b : Buffer) : Buffer where
  buffer := overwrite b.buffer kCheapPrepend b.readable
  readerIndex := kCheapPrepend
  writerIndex := kCheapPrepend + b.readableBytes
  prepend_le_reader := Nat.le_refl _
  reader_le_writer := Nat.le_add_right _ _
  writer_le_size := by
    have front := b.prepend_le_reader
    have ordered := b.reader_le_writer
    have bounded := b.writer_le_size
    have size := b.length_readable
    rw [length_overwrite (by unfold readableBytes at size; omega)]
    unfold readableBytes
    omega

def makeSpace (b : Buffer) (len : Nat) : Except Fault Buffer := do
  if b.writableBytes + b.prependableBytes < len + kCheapPrepend then
    return {
      buffer := resize b.buffer (b.writerIndex + len)
      readerIndex := b.readerIndex
      writerIndex := b.writerIndex
      prepend_le_reader := b.prepend_le_reader
      reader_le_writer := b.reader_le_writer
      writer_le_size := by
        rw [length_resize]
        exact Nat.le_add_right _ _ }
  else
    check (kCheapPrepend < b.readerIndex) "kCheapPrepend < readerIndex_"
    let readable := b.readableBytes
    let b := b.moveToFront
    check (readable = b.readableBytes) "readable == readableBytes()"
    return b

def ensureWritableBytes (b : Buffer) (len : Nat) : Except Fault Buffer := do
  let b ← if b.writableBytes < len then b.makeSpace len else pure b
  check (len ≤ b.writableBytes) "writableBytes() >= len"
  return b

/-- `std::copy(data, data + len, beginWrite())`. -/
def copyToBeginWrite (b : Buffer) (data : Bytes) : Except Fault Buffer :=
  if fits : b.writerIndex + data.length ≤ b.buffer.length then
    .ok {
      buffer := overwrite b.buffer b.writerIndex data
      readerIndex := b.readerIndex
      writerIndex := b.writerIndex
      prepend_le_reader := b.prepend_le_reader
      reader_le_writer := b.reader_le_writer
      writer_le_size := by
        rw [length_overwrite fits]
        exact b.writer_le_size }
  else
    .error .outOfBounds

def hasWritten (b : Buffer) (len : Nat) : Except Fault Buffer :=
  if fits : len ≤ b.writableBytes then
    .ok {
      buffer := b.buffer
      readerIndex := b.readerIndex
      writerIndex := b.writerIndex + len
      prepend_le_reader := b.prepend_le_reader
      reader_le_writer := Nat.le_add_right_of_le b.reader_le_writer
      writer_le_size := by
        have bounded := b.writer_le_size
        unfold writableBytes at fits
        omega }
  else
    .error (.assertion "len <= writableBytes()")

def append (b : Buffer) (data : Bytes) : Except Fault Buffer := do
  let b ← b.ensureWritableBytes data.length
  let b ← b.copyToBeginWrite data
  b.hasWritten data.length

def appendInt32 (b : Buffer) (x : UInt32) : Except Fault Buffer :=
  b.append (storeUInt32 (hton32 x))

/-- The `int8_t` at `peek()`, as its bit pattern. -/
def peekInt8 (b : Buffer) : Except Fault UInt8 := do
  check (1 ≤ b.readableBytes) "readableBytes() >= sizeof(int8_t)"
  match ← b.bytesAt 0 1 with
  | [x] => return x
  | _ => throw .outOfBounds

/-- The `int32_t` at `peek()`, as its bit pattern. -/
def peekInt32 (b : Buffer) : Except Fault UInt32 := do
  check (4 ≤ b.readableBytes) "readableBytes() >= sizeof(int32_t)"
  match ← b.bytesAt 0 4 with
  | [b0, b1, b2, b3] => return ntoh32 (loadUInt32 b0 b1 b2 b3)
  | _ => throw .outOfBounds

def readInt8 (b : Buffer) : Except Fault (UInt8 × Buffer) := do
  let result ← b.peekInt8
  let b ← b.retrieve 1
  return (result, b)

def readInt32 (b : Buffer) : Except Fault (UInt32 × Buffer) := do
  let result ← b.peekInt32
  let b ← b.retrieve 4
  return (result, b)

/-- `readFd` when `readv` delivered `data`: what fits is already behind
`writerIndex_`, and the rest is appended from `extrabuf`.  The index is moved
through `hasWritten`, which checks what the source leaves to `readv`; that
`readv` fills at most the two vectors it is given is not used. -/
def readFd (b : Buffer) (data : Bytes) : Except Fault Buffer := do
  let writable := b.writableBytes
  let b ← b.copyToBeginWrite (data.take writable)
  if data.length ≤ writable then
    b.hasWritten data.length
  else
    let b ← b.hasWritten writable
    b.append (data.drop writable)

end Buffer

end FastCgi
