/-
Module: FastCgi.Library.Framing
Layer: Library
Purpose: Self-delimiting frames in a stream that arrives in pieces.  A
  `Framing` cuts the next complete frame off the front of a stream; `drain`
  cuts off as many as there are, and `batches` does so after every read.  The
  laws say that neither the frames nor the unconsumed rest depend on where the
  reads were cut, that a stream of encoded frames drains to the frames, and that
  an exact decoder leaves nothing exactly of such a stream.
Trusted boundary: none
Main exports: Framing, Framing.drain, Framing.drain_append, Framing.batches,
  Framing.batches_flatten, Framing.seq, Framing.Encodes, Framing.drain_encodeAll,
  Framing.Inverts, Framing.drain_rest_eq_nil_iff
-/
import Mathlib.Init

namespace Library

universe u v

/-- A frame decoder over streams of `α`.  Decoding is decided by the frame's
own symbols: more input behind a complete frame does not change it. -/
structure Framing (α : Type u) (ρ : Type v) where
  next : List α → Option (ρ × List α)
  shrinks : ∀ {stream : List α} {frame : ρ} {rest : List α},
    next stream = some (frame, rest) → rest.length < stream.length
  stable : ∀ {stream : List α} {frame : ρ} {rest : List α} (more : List α),
    next stream = some (frame, rest) → next (stream ++ more) = some (frame, rest ++ more)

namespace Framing

variable {α : Type u} {ρ : Type v} (framing : Framing α ρ)

/-- Cut at most `fuel` frames off the front of a stream. -/
def drainWith : Nat → List α → List ρ × List α
  | 0, stream => ([], stream)
  | fuel + 1, stream =>
      match framing.next stream with
      | none => ([], stream)
      | some (frame, rest) =>
          (frame :: (drainWith fuel rest).1, (drainWith fuel rest).2)

/-- All complete frames at the front of a stream, and what follows them. -/
def drain (stream : List α) : List ρ × List α :=
  framing.drainWith stream.length stream

/-- A stream offers no frame when it is empty. -/
theorem next_nil : framing.next [] = none := by
  cases cut : framing.next [] with
  | none => rfl
  | some pair =>
      have shorter : pair.2.length < ([] : List α).length := framing.shrinks cut
      simp at shorter

theorem drainWith_eq_drain {fuel : Nat} {stream : List α}
    (enough : stream.length ≤ fuel) :
    framing.drainWith fuel stream = framing.drain stream := by
  unfold drain
  -- Strong induction on the stream; both fuels always cover what is left.
  induction size : stream.length using Nat.strongRecOn
    generalizing fuel stream with
  | _ bound inductionHypothesis =>
      subst size
      cases fuel with
      | zero =>
          have empty : stream = [] := List.length_eq_zero_iff.mp (by omega)
          subst empty
          rfl
      | succ fuel =>
          cases stream with
          | nil => simp [drainWith, framing.next_nil]
          | cons symbol symbols =>
              simp only [drainWith, List.length_cons]
              cases cut : framing.next (symbol :: symbols) with
              | none => rfl
              | some pair =>
                  obtain ⟨frame, rest⟩ := pair
                  have shorter := framing.shrinks cut
                  simp only [List.length_cons] at shorter enough
                  have covers : ∀ fuel, rest.length ≤ fuel →
                      framing.drainWith fuel rest =
                        framing.drainWith rest.length rest := fun fuel covered =>
                    inductionHypothesis rest.length (by simpa using shorter) covered rfl
                  simp only [covers fuel (by omega), covers symbols.length (by omega)]

/-- Without a complete frame nothing is drained. -/
theorem drain_of_next_none {stream : List α} (waits : framing.next stream = none) :
    framing.drain stream = ([], stream) := by
  cases stream with
  | nil => rfl
  | cons symbol symbols => simp only [drain, List.length_cons, drainWith, waits]

/-- A complete frame is drained first, then the rest. -/
theorem drain_of_next_some {stream : List α} {frame : ρ} {rest : List α}
    (cut : framing.next stream = some (frame, rest)) :
    framing.drain stream = (frame :: (framing.drain rest).1, (framing.drain rest).2) := by
  have shorter := framing.shrinks cut
  cases stream with
  | nil => rw [framing.next_nil] at cut; cases cut
  | cons symbol symbols =>
      simp only [List.length_cons] at shorter
      have covered : framing.drainWith symbols.length rest = framing.drain rest :=
        framing.drainWith_eq_drain (by omega)
      simp only [drain, List.length_cons, drainWith, cut] at covered ⊢
      simp only [covered]

/-- Induction along the frames of a stream. -/
theorem drain_induction {motive : List α → Prop}
    (waits : ∀ stream, framing.next stream = none → motive stream)
    (cuts : ∀ stream frame rest, framing.next stream = some (frame, rest) →
      motive rest → motive stream)
    (stream : List α) : motive stream := by
  induction size : stream.length using Nat.strongRecOn generalizing stream with
  | _ bound inductionHypothesis =>
      subst size
      cases cut : framing.next stream with
      | none => exact waits stream cut
      | some pair =>
          exact cuts stream pair.1 pair.2 cut
            (inductionHypothesis _ (framing.shrinks cut) pair.2 rfl)

/-- What is left after draining holds no complete frame. -/
theorem next_drain_rest (stream : List α) :
    framing.next (framing.drain stream).2 = none := by
  induction stream using framing.drain_induction with
  | waits stream empty =>
      rw [framing.drain_of_next_none empty]
      exact empty
  | cuts stream frame rest cut inductionHypothesis =>
      rw [framing.drain_of_next_some cut]
      exact inductionHypothesis

/-- Draining is insensitive to where the stream is cut: draining the first
piece, and then its rest together with the second piece, drains the whole. -/
theorem drain_append (stream more : List α) :
    framing.drain (stream ++ more) =
      ((framing.drain stream).1 ++ (framing.drain ((framing.drain stream).2 ++ more)).1,
        (framing.drain ((framing.drain stream).2 ++ more)).2) := by
  induction stream using framing.drain_induction with
  | waits stream empty =>
      rw [framing.drain_of_next_none empty]
      simp
  | cuts stream frame rest cut inductionHypothesis =>
      rw [framing.drain_of_next_some (framing.stable more cut), framing.drain_of_next_some cut,
        inductionHypothesis]
      simp

/-- Drain after every read: one batch of frames for each read, and the bytes
still pending after the last. -/
def batches : List α → List (List α) → List (List ρ) × List α
  | pending, [] => ([], pending)
  | pending, read :: reads =>
      let drained := framing.drain (pending ++ read)
      (drained.1 :: (batches drained.2 reads).1, (batches drained.2 reads).2)

/-- The batches of any split concatenate to the frames of the whole stream,
and leave the same rest. -/
theorem batches_flatten {pending : List α} (reads : List (List α))
    (waits : framing.next pending = none) :
    ((framing.batches pending reads).1.flatten, (framing.batches pending reads).2) =
      framing.drain (pending ++ reads.flatten) := by
  induction reads generalizing pending with
  | nil => simp [batches, framing.drain_of_next_none waits]
  | cons read reads inductionHypothesis =>
      have later := inductionHypothesis (framing.next_drain_rest (pending ++ read))
      rw [List.flatten_cons, ← List.append_assoc, framing.drain_append (pending ++ read), ← later]
      simp only [batches, List.flatten_cons]

/-- One frame of each of two decoders, one behind the other. -/
def seq {τ : Type v} (first : Framing α ρ) (second : Framing α τ) : Framing α (ρ × τ) where
  next := fun stream =>
    match first.next stream with
    | none => none
    | some (frame, rest) => (second.next rest).map fun cut => ((frame, cut.1), cut.2)
  shrinks := by
    intro stream frames rest cut
    cases front : first.next stream with
    | none => simp [front] at cut
    | some pair =>
        simp only [front, Option.map_eq_some_iff, Prod.mk.injEq] at cut
        obtain ⟨pair', back, _, rfl⟩ := cut
        exact Nat.lt_trans (second.shrinks back) (first.shrinks front)
  stable := by
    intro stream frames rest more cut
    cases front : first.next stream with
    | none => simp [front] at cut
    | some pair =>
        simp only [front, Option.map_eq_some_iff, Prod.mk.injEq] at cut
        obtain ⟨pair', back, rfl, rfl⟩ := cut
        simp only [first.stable more front, second.stable more back, Option.map_some]

/-- `encode` writes frames that the decoder reads back, whatever follows. -/
def Encodes (framing : Framing α ρ) (encode : ρ → List α) : Prop :=
  ∀ (frame : ρ) (more : List α), framing.next (encode frame ++ more) = some (frame, more)

/-- A stream of encoded frames drains to those frames. -/
theorem drain_encodeAll {encode : ρ → List α} (encodes : framing.Encodes encode)
    (frames : List ρ) (more : List α) :
    framing.drain (frames.flatMap encode ++ more) =
      (frames ++ (framing.drain more).1, (framing.drain more).2) := by
  induction frames with
  | nil => simp
  | cons frame frames inductionHypothesis =>
      rw [List.flatMap_cons, List.append_assoc, framing.drain_of_next_some (encodes frame _),
        inductionHypothesis]
      simp

/-- Nothing but encoded frames: they are drained, and nothing is left. -/
theorem drain_encoded {encode : ρ → List α} (encodes : framing.Encodes encode)
    (frames : List ρ) : framing.drain (frames.flatMap encode) = (frames, []) := by
  have drained := framing.drain_encodeAll encodes frames []
  rwa [List.append_nil, framing.drain_of_next_none framing.next_nil, List.append_nil] at drained

/-- The decoder reads exactly what `encode` writes. -/
def Inverts (framing : Framing α ρ) (encode : ρ → List α) : Prop :=
  ∀ (stream : List α) (frame : ρ) (rest : List α),
    framing.next stream = some (frame, rest) ↔ stream = encode frame ++ rest

section Inverts

variable {encode : ρ → List α}

theorem Inverts.encodes {framing : Framing α ρ} (inverts : framing.Inverts encode) :
    framing.Encodes encode := fun _ _ => (inverts _ _ _).mpr rfl

variable (inverts : framing.Inverts encode)

include inverts

/-- A stream is its frames and what is left. -/
theorem drain_flatMap (stream : List α) :
    (framing.drain stream).1.flatMap encode ++ (framing.drain stream).2 = stream := by
  induction stream using framing.drain_induction with
  | waits stream empty => rw [framing.drain_of_next_none empty, List.flatMap_nil, List.nil_append]
  | cuts stream frame rest cut inductionHypothesis =>
      rw [framing.drain_of_next_some cut, List.flatMap_cons, List.append_assoc,
        inductionHypothesis]
      exact ((inverts _ _ _).mp cut).symm

/-- A stream that starts with encoded frames drains to these first. -/
theorem prefix_drain {stream : List α} {frames : List ρ}
    (start : frames.flatMap encode <+: stream) : frames <+: (framing.drain stream).1 := by
  obtain ⟨more, rfl⟩ := start
  rw [framing.drain_encodeAll inverts.encodes]
  exact List.prefix_append _ _

/-- No beginning of a stream that is made of encoded frames is longer than the
frames that are drained from it. -/
theorem flatMap_length_le_drain {stream : List α} {frames : List ρ}
    (start : frames.flatMap encode <+: stream) :
    (frames.flatMap encode).length ≤ ((framing.drain stream).1.flatMap encode).length := by
  obtain ⟨more, split⟩ := framing.prefix_drain inverts start
  rw [← split, List.flatMap_append, List.length_append]
  exact Nat.le_add_right _ _

/-- Nothing is left exactly when the stream is made of encoded frames. -/
theorem drain_rest_eq_nil_iff (stream : List α) :
    (framing.drain stream).2 = [] ↔ ∃ frames : List ρ, stream = frames.flatMap encode := by
  constructor
  · intro empty
    have whole := framing.drain_flatMap inverts stream
    rw [empty, List.append_nil] at whole
    exact ⟨_, whole.symm⟩
  · rintro ⟨frames, rfl⟩
    rw [framing.drain_encoded inverts.encodes]

end Inverts

end Framing

end Library
