/-
Module: FastCgi.Library.History
Layer: Library
Purpose: Properties of the elements of a list that look back at what stands in
  front of them, and the length of the streak that a list ends with.
Trusted boundary: none
Main exports: AtEach, atEach_cons, split_of_append, streak, streak_concat
-/
import Mathlib.Init

namespace Library

universe u

variable {α : Type u}

/-- Every element has a property that may look back. -/
def AtEach (property : List α → α → Prop) (items : List α) : Prop :=
  ∀ front item back, items = front ++ item :: back → property front item

section AtEach

variable {property : List α → α → Prop}

@[simp] theorem atEach_nil : AtEach property [] := by
  intro front item back split
  cases front with
  | nil => cases split
  | cons _ _ => cases split

theorem atEach_cons {item : α} {items : List α} :
    AtEach property (item :: items) ↔
      property [] item ∧ AtEach (fun front => property (item :: front)) items := by
  constructor
  · intro each
    refine ⟨each [] item items rfl, ?_⟩
    rintro front later back rfl
    exact each (item :: front) later back rfl
  · rintro ⟨first, later⟩ front other back split
    cases front with
    | nil =>
        cases split
        exact first
    | cons _ front =>
        cases split
        exact later front other back rfl

end AtEach

/-- An element that is not in the first of two lists is found in the second. -/
theorem split_of_append {first second front back : List α} {item : α}
    (absent : item ∉ first) (split : first ++ second = front ++ item :: back) :
    ∃ rest, front = first ++ rest ∧ second = rest ++ item :: back := by
  rcases List.append_eq_append_iff.mp split with ⟨rest, front, second⟩ | ⟨rest, first, second⟩
  · exact ⟨rest, front, second⟩
  · cases rest with
    | nil => exact ⟨[], by simpa using first.symm, by simpa using second.symm⟩
    | cons _ rest =>
        cases second
        exact absurd (by simp [first]) absent

/-- How many elements at the end of a list pass a test, one after the other. -/
def streak (test : α → Bool) (items : List α) : Nat := (items.reverse.takeWhile test).length

/-- One more element makes the streak longer or ends it. -/
theorem streak_concat (test : α → Bool) (items : List α) (item : α) :
    streak test (items ++ [item]) = if test item then streak test items + 1 else 0 := by
  unfold streak
  rw [List.reverse_append, List.reverse_singleton, List.singleton_append, List.takeWhile_cons]
  split
  · rw [List.length_cons]
  · rfl

end Library
