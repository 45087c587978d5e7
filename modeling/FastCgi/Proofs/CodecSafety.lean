/-
Module: FastCgi.Proofs.CodecSafety
Layer: Proofs
Purpose: Untrusted bytes cannot trip an assertion, read outside the received
  data or keep a loop running: whatever is read, in both servers only the
  request handler can fail.  The 32-bit arithmetic of the name-value parser
  never wraps.
Trusted boundary: none
Main exports: readLen_cases, lengths_never_wrap, untrusted_bytes_are_safe
-/
import FastCgi.Proofs.ServerRefinement

namespace FastCgi

/-- `readLen` succeeds on every stream, and returns either its error value,
exactly when no complete length is there, or a length below `2 ^ 31`. -/
theorem readLen_cases (stream : Buffer) :
    ∃ len stream', readLen stream = .ok (len, stream') ∧
      ((len = lenError ∧ nextLength stream.readable = none) ∨
        (len ≠ lenError ∧ len.toNat < 2 ^ 31 ∧
          ∃ form, nextLength stream.readable = some ((form, len.toNat), stream'.readable))) := by
  cases cut : nextLength stream.readable with
  | none => exact ⟨lenError, stream, readLen_of_none cut, Or.inl ⟨rfl, rfl⟩⟩
  | some taken =>
      obtain ⟨⟨form, length⟩, rest⟩ := taken
      have fits := nextLength_fits cut
      obtain ⟨stream', read, left⟩ := readLen_of_some cut
      refine ⟨UInt32.ofNat length, stream', read,
        Or.inr ⟨length_ne_lenError fits, ?_, form, ?_⟩⟩
      · rw [length_toNat fits]
        exact fits.lt
      · rw [length_toNat fits, left]

/-- The sum that `parseAllParams` compares with the readable bytes is exact. -/
theorem lengths_never_wrap {first second : Buffer} {nameLen valueLen : UInt32}
    {first' second' : Buffer} (name : readLen first = .ok (nameLen, first'))
    (named : nameLen ≠ lenError) (value : readLen second = .ok (valueLen, second'))
    (valued : valueLen ≠ lenError) :
    (nameLen + valueLen).toNat = nameLen.toNat + valueLen.toNat := by
  have below {stream stream' : Buffer} {len : UInt32} (read : readLen stream = .ok (len, stream'))
      (decoded : len ≠ lenError) : len.toNat < 2 ^ 31 := by
    obtain ⟨len', stream'', read', failed | ⟨_, small, _⟩⟩ := readLen_cases stream
    · cases read.symm.trans read'
      exact absurd failed.1 decoded
    · cases read.symm.trans read'
      exact small
  have nameSmall := below name named
  have valueSmall := below value valued
  rw [UInt32.toNat_add, Nat.mod_eq_of_lt (by omega)]

/-- Whatever bytes arrive in whatever reads, at whatever codec: a run of
either server ends normally, or in a fault that its request handler raised.
Every assertion on the way holds, every byte looked at is readable and every
loop ends; the lengths of the name-value stream never collide with the error
value and their sum never wraps. -/
theorem untrusted_bytes_are_safe {σ : Type} (cb : Mucgi.Callback σ)
    (doRequest : Cocgi.DoRequest σ) (errno : Cocgi.Errno) (c : FastCgiCodec) (world : σ)
    (reads : List Bytes) :
    ((∃ result, Mucgi.run cb c world reads = .ok result) ∨
        ∃ params stdin world' fault, cb params stdin world' = .error fault ∧
          Mucgi.run cb c world reads = .error fault) ∧
      ((∃ result, Cocgi.run doRequest errno c world reads = .ok result) ∨
        ∃ params stdin world' fault, doRequest params stdin world' = .error fault ∧
          Cocgi.run doRequest errno c world reads = .error fault) ∧
      (∀ stream : Buffer, ∃ len stream', readLen stream = .ok (len, stream') ∧
        (len = lenError ↔ nextLength stream.readable = none) ∧
        (len ≠ lenError → len.toNat < 2 ^ 31)) ∧
      ∀ (first second first' second' : Buffer) (nameLen valueLen : UInt32),
        readLen first = .ok (nameLen, first') → nameLen ≠ lenError →
        readLen second = .ok (valueLen, second') → valueLen ≠ lenError →
          (nameLen + valueLen).toNat = nameLen.toNat + valueLen.toNat := by
  refine ⟨?_, ?_, ?_, ?_⟩
  · rcases Mucgi.run_view cb c world reads with ⟨c', conn', ran, _⟩ | failed
    · exact Or.inl ⟨_, ran⟩
    · exact Or.inr failed
  · rcases Cocgi.run_view doRequest errno c world reads with
      ⟨c', world', ran, _⟩ | ⟨_, _, _, _, result, _, ran⟩ | failed
    · exact Or.inl ⟨_, ran⟩
    · exact Or.inl ⟨result, ran⟩
    · exact Or.inr failed
  · intro stream
    obtain ⟨len, stream', read, ⟨error, waits⟩ | ⟨decoded, small, form, cut⟩⟩ :=
      readLen_cases stream
    · exact ⟨len, stream', read, ⟨fun _ => waits, fun _ => error⟩, fun ne => absurd error ne⟩
    · refine ⟨len, stream', read, ⟨fun error => absurd error decoded, fun waits => ?_⟩,
        fun _ => small⟩
      rw [waits] at cut
      cases cut
  · intro first second first' second' nameLen valueLen name named value valued
    exact lengths_never_wrap name named value valued

end FastCgi
