/-
Module: FastCgi.Library.Separators
Layer: Library
Purpose: Pieces of a stream that end at a separator.  Cutting at the first
  occurrence of a non-empty separator is a framing: the piece in front of it is
  the frame.
Trusted boundary: none
Main exports: eq_of_dropInfix?, dropInfix?_append, isSome_dropInfix?_iff,
  dropInfix?_of_notMem, separatorFraming
-/
import FastCgi.Library.Framing
import Mathlib.Data.List.Basic
import Mathlib.Data.Nat.Find

namespace Library

universe u

variable {α : Type u} [BEq α] [LawfulBEq α]

/-- The two pieces and the separator make up the whole. -/
theorem eq_of_dropInfix? {whole separator front back : List α}
    (cut : whole.dropInfix? separator = some (front, back)) :
    whole = front ++ separator ++ back := by
  obtain ⟨⟨found, split, same⟩, _⟩ := List.dropInfix?_eq_some_iff.mp cut
  rw [split, eq_of_beq same]

/-- A first occurrence stays the first when more is appended. -/
theorem dropInfix?_append {whole separator front back : List α} (more : List α)
    (cut : whole.dropInfix? separator = some (front, back)) :
    (whole ++ more).dropInfix? separator = some (front, back ++ more) := by
  have split := eq_of_dropInfix? cut
  obtain ⟨_, first⟩ := List.dropInfix?_eq_some_iff.mp cut
  rw [List.dropInfix?_eq_some_iff]
  refine ⟨⟨separator, by rw [split, List.append_assoc], BEq.rfl⟩, ?_⟩
  intro earlier found rest longer same
  by_contra shorter
  -- an earlier occurrence would end inside the old stream
  have size : found.length = separator.length := by rw [eq_of_beq same]
  have inside : (earlier ++ found).length ≤ whole.length := by
    rw [split]
    simp only [List.length_append]
    omega
  have start : whole.take (earlier ++ found).length = earlier ++ found := by
    rw [← List.take_append_of_le_length inside, longer, List.take_left]
  have occurs : whole = earlier ++ found ++ whole.drop (earlier ++ found).length := by
    nth_rewrite 1 [← List.take_append_drop (earlier ++ found).length whole]
    rw [start]
  exact shorter (first _ _ _ occurs same)

/-- A separator is found exactly when it occurs. -/
theorem isSome_dropInfix?_iff {whole separator : List α} :
    (whole.dropInfix? separator).isSome ↔ separator <:+: whole := by
  constructor
  · intro found
    obtain ⟨⟨front, back⟩, cut⟩ := Option.isSome_iff_exists.mp found
    exact ⟨front, back, (eq_of_dropInfix? cut).symm⟩
  · rintro ⟨front, back, split⟩
    -- take the occurrence with the shortest piece in front
    classical
    have occurs : ∃ n front back, front ++ separator ++ back = whole ∧ front.length = n :=
      ⟨front.length, front, back, split, rfl⟩
    obtain ⟨first, rest, split, size⟩ := Nat.find_spec occurs
    refine Option.isSome_iff_exists.mpr ⟨(first, rest), ?_⟩
    rw [List.dropInfix?_eq_some_iff]
    refine ⟨⟨separator, split.symm, BEq.rfl⟩, ?_⟩
    intro earlier found rest' split' same
    rw [size]
    exact Nat.find_min' occurs ⟨earlier, rest', by rw [split', eq_of_beq same], rfl⟩

/-- A single symbol that does not occur is not found. -/
theorem dropInfix?_eq_none_of_notMem {whole : List α} {symbol : α} (absent : symbol ∉ whole) :
    whole.dropInfix? [symbol] = none := by
  cases cut : whole.dropInfix? [symbol] with
  | none => rfl
  | some pieces =>
      refine absurd ?_ absent
      rw [eq_of_dropInfix? cut]
      simp

/-- A single symbol is found where it first occurs. -/
theorem dropInfix?_of_notMem {front : List α} {symbol : α} (absent : symbol ∉ front)
    (back : List α) : (front ++ symbol :: back).dropInfix? [symbol] = some (front, back) := by
  rw [List.dropInfix?_eq_some_iff]
  refine ⟨⟨[symbol], by simp, BEq.rfl⟩, ?_⟩
  intro earlier found rest split same
  by_contra shorter
  -- an occurrence in front of this one would lie inside the front piece
  rw [eq_of_beq same] at split
  have here : (front ++ symbol :: back)[earlier.length]? = some symbol := by
    rw [split]
    simp
  rw [List.getElem?_append_left (Nat.not_le.mp shorter)] at here
  exact absent (List.mem_of_getElem? here)

/-- Cut at a separator that is not empty. -/
def separatorFraming (separator : List α) (nonempty : separator ≠ []) :
    Framing α (List α) where
  next := fun stream => stream.dropInfix? separator
  shrinks := by
    intro stream piece rest cut
    have positive := List.length_pos_iff.mpr nonempty
    rw [eq_of_dropInfix? cut]
    simp only [List.length_append]
    omega
  stable := fun more cut => dropInfix?_append more cut

end Library
