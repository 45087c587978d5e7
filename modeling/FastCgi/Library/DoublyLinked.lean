/-
Module: FastCgi.Library.DoublyLinked
Layer: Library
Purpose: Doubly linked segments: nodes that point to their neighbours, as a list, and
  what becomes of the list when the pointers at its ends are changed.
Trusted boundary: none
Main exports: Library.Linked, Library.linked_append, Library.Linked.congr,
  Library.Linked.splice
-/
import Mathlib.Data.List.Infix
import Mathlib.Data.List.Nodup

namespace Library

universe u

variable {α : Type u}

/-- The nodes point to each other in the order of the list, the first one back to
`before` and the last one on to `after`. -/
def Linked (prev next : α → Option α) : Option α → List α → Option α → Prop
  | _, [], _ => True
  | before, x :: xs, after =>
      prev x = before ∧ next x = xs.head?.or after ∧ Linked prev next (some x) xs after

variable {prev next prev' next' : α → Option α} {before after before' after' : Option α}
  {xs ys : List α}

theorem linked_append :
    Linked prev next before (xs ++ ys) after ↔
      Linked prev next before xs (ys.head?.or after) ∧
        Linked prev next (xs.getLast?.or before) ys after := by
  induction xs generalizing before with
  | nil => simp [Linked]
  | cons x xs inductionHypothesis =>
      have last : ((x :: xs).getLast?).or before = (xs.getLast?).or (some x) := by
        cases xs with
        | nil => rfl
        | cons y ys => simp [List.getLast?_cons]
      have first : (xs ++ ys).head?.or after = xs.head?.or (ys.head?.or after) := by
        cases xs <;> simp
      rw [List.cons_append, Linked, Linked, inductionHypothesis, last, first]
      tauto

/-- The pointers out of a segment may change; those within it may not. -/
theorem Linked.relink (linked : Linked prev next before xs after)
    (back : ∀ x ∈ xs.head?, prev' x = before') (prevs : ∀ x ∈ xs.tail, prev' x = prev x)
    (forth : ∀ x ∈ xs.getLast?, next' x = after')
    (nexts : ∀ x ∈ xs.dropLast, next' x = next x) :
    Linked prev' next' before' xs after' := by
  induction xs generalizing before before' with
  | nil => trivial
  | cons x xs inductionHypothesis =>
      obtain ⟨-, onward, rest⟩ := linked
      cases xs with
      | nil => exact ⟨back x rfl, forth x rfl, trivial⟩
      | cons y xs =>
          refine ⟨back x rfl, ?_, inductionHypothesis rest ?_ ?_ ?_ ?_⟩
          · rw [nexts x (by simp), onward]
            rfl
          · intro z first
            obtain rfl : y = z := by simpa using first
            rw [prevs y (by simp), rest.1]
          · exact fun z member => prevs z (List.mem_of_mem_tail member)
          · exact fun z last => forth z (by simpa [List.getLast?_cons] using last)
          · exact fun z member => nexts z (by simp [member])

theorem Linked.head_prev (linked : Linked prev next before xs after) {x : α}
    (first : x ∈ xs.head?) : prev x = before := by
  obtain ⟨ys, rfl⟩ := List.head?_eq_some_iff.mp first
  exact linked.1

theorem Linked.last_next (linked : Linked prev next before xs after) {x : α}
    (last : x ∈ xs.getLast?) : next x = after := by
  obtain ⟨ys, rfl⟩ := List.getLast?_eq_some_iff.mp last
  exact (linked_append.mp linked).2.2.1

/-- Only the pointers of its own nodes matter. -/
theorem Linked.congr (linked : Linked prev next before xs after)
    (same : ∀ x ∈ xs, prev' x = prev x ∧ next' x = next x) :
    Linked prev' next' before xs after := by
  refine linked.relink ?_ ?_ ?_ ?_
  · intro x first
    rw [(same x (List.mem_of_mem_head? first)).1, linked.head_prev first]
  · exact fun x member => (same x (List.mem_of_mem_tail member)).1
  · intro x last
    rw [(same x (List.mem_of_getLast? last)).2, linked.last_next last]
  · exact fun x member => (same x (List.mem_of_mem_dropLast member)).2

theorem not_head_of_mem_tail (nodup : xs.Nodup) {x : α} (member : x ∈ xs.tail) :
    x ∉ xs.head? := by
  intro first
  obtain ⟨ys, rfl⟩ := List.head?_eq_some_iff.mp first
  exact (List.nodup_cons.mp nodup).1 member

theorem not_last_of_mem_dropLast (nodup : xs.Nodup) {x : α} (member : x ∈ xs.dropLast) :
    x ∉ xs.getLast? := by
  intro last
  obtain ⟨ys, rfl⟩ := List.getLast?_eq_some_iff.mp last
  rw [List.dropLast_concat] at member
  exact (List.nodup_append.mp nodup).2.2 x member x List.mem_cons_self rfl

variable [DecidableEq α]

/-- Two segments become one when the ends that meet are pointed at each other. -/
theorem Linked.splice {a b : Option α} (front : Linked prev next before xs a)
    (back : Linked prev next b ys after) (nodup : (xs ++ ys).Nodup)
    (prevs : ∀ z ∈ xs ++ ys,
      prev' z = if z ∈ ys.head? then xs.getLast?.or before else prev z)
    (nexts : ∀ z ∈ xs ++ ys,
      next' z = if z ∈ xs.getLast? then ys.head?.or after else next z) :
    Linked prev' next' before (xs ++ ys) after := by
  obtain ⟨nodupFront, nodupBack, apart⟩ := List.nodup_append.mp nodup
  -- A node of one segment is not at the end of the other.
  have frontPrev : ∀ z ∈ xs, prev' z = prev z := by
    intro z member
    rw [prevs z (List.mem_append_left _ member), if_neg]
    exact fun first => apart z member z (List.mem_of_mem_head? first) rfl
  have backNext : ∀ z ∈ ys, next' z = next z := by
    intro z member
    rw [nexts z (List.mem_append_right _ member), if_neg]
    exact fun last => apart z (List.mem_of_getLast? last) z member rfl
  refine linked_append.mpr ⟨front.relink ?_ ?_ ?_ ?_, back.relink ?_ ?_ ?_ ?_⟩
  · intro z first
    rw [frontPrev z (List.mem_of_mem_head? first), front.head_prev first]
  · exact fun z member => frontPrev z (List.mem_of_mem_tail member)
  · intro z last
    rw [nexts z (List.mem_append_left _ (List.mem_of_getLast? last)), if_pos last]
  · intro z member
    rw [nexts z (List.mem_append_left _ (List.mem_of_mem_dropLast member)),
      if_neg (not_last_of_mem_dropLast nodupFront member)]
  · intro z first
    rw [prevs z (List.mem_append_right _ (List.mem_of_mem_head? first)), if_pos first]
  · intro z member
    rw [prevs z (List.mem_append_right _ (List.mem_of_mem_tail member)),
      if_neg (not_head_of_mem_tail nodupBack member)]
  · intro z last
    rw [backNext z (List.mem_of_getLast? last), back.last_next last]
  · exact fun z member => backNext z (List.mem_of_mem_dropLast member)

end Library
