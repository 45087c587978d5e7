/-
Module: FastCgi.Proofs.LibcoLinks
Layer: Proofs
Purpose: `RemoveFromLink`, `AddTail`, `PopHead` and `Join` do to the pointers what
  erasing, appending, taking the tail and concatenating do to the sequences.
Trusted boundary: none
Main exports: Libco.Links.Represents.removeFromLink, Libco.Links.Represents.addTail,
  Libco.Links.Represents.popHead, Libco.Links.Represents.join
-/
import FastCgi.Proofs.BufferView
import FastCgi.Spec.Libco

namespace FastCgi

namespace Libco

namespace Links

open Library (Linked linked_append Turn runLoop runLoop_total)

variable {T L : Type} {h h' : Links T L} {lists : L → List T} {x : T} {l l' : L} {xs ys : List T}

/-- A list is not concerned with what happens to other lists and nodes. -/
theorem Holds.frame (holds : h.Holds l xs) (head : h'.head l = h.head l)
    (tail : h'.tail l = h.tail l)
    (nodes : ∀ x ∈ xs, h'.pPrev x = h.pPrev x ∧ h'.pNext x = h.pNext x) : h'.Holds l xs where
  nodup := holds.nodup
  head := head.trans holds.head
  tail := tail.trans holds.tail
  linked := holds.linked.congr nodes

/-- A node is in one list only. -/
theorem Represents.apart (rep : h.Represents lists) (member : x ∈ lists l) (other : l' ≠ l) :
    x ∉ lists l' := by
  intro member'
  have here := (rep.link x l).mpr member
  rw [(rep.link x l').mpr member'] at here
  exact other (Option.some.inj here)

theorem Represents.free (rep : h.Represents lists) : h.pLink x = none ↔ ∀ l, x ∉ lists l := by
  constructor
  · intro free l member
    rw [(rep.link x l).mpr member] at free
    cases free
  · intro away
    cases linked : h.pLink x with
    | none => rfl
    | some l => exact absurd ((rep.link x l).mp linked) (away l)

theorem empty_represents [DecidableEq T] [DecidableEq L] :
    (empty : Links T L).Represents fun _ => [] where
  holds _ := ⟨List.nodup_nil, rfl, rfl, trivial⟩
  link _ _ := by simp [empty]

/-- The neighbours of a node in its list. -/
theorem Represents.neighbours (rep : h.Represents lists) (split : lists l = xs ++ x :: ys) :
    h.pPrev x = xs.getLast? ∧ h.pNext x = ys.head? := by
  have linked := (rep.holds l).linked
  rw [split, linked_append] at linked
  obtain ⟨-, back, forth, -⟩ := linked
  exact ⟨by simpa using back, by simpa using forth⟩

/-- Where a node is at the front of its list. -/
theorem Holds.front (holds : h.Holds l (xs ++ x :: ys)) :
    (h.head l = some x ↔ xs = []) ∧ (xs ≠ [] → h.head l = (xs ++ ys).head?) := by
  rw [holds.head]
  cases xs with
  | nil => simp
  | cons z zs =>
      have other : z ≠ x := by
        rintro rfl
        exact (List.nodup_cons.mp holds.nodup).1 (by simp)
      simp [other]

/-- Where a node is at the end of its list. -/
theorem Holds.back (holds : h.Holds l (xs ++ x :: ys)) :
    (h.tail l = some x ↔ ys = []) ∧ (ys ≠ [] → h.tail l = (xs ++ ys).getLast?) := by
  rw [holds.tail]
  rcases List.eq_nil_or_concat ys with rfl | ⟨zs, z, rfl⟩
  · simp
  · have other : z ≠ x := by
      rintro rfl
      exact (List.nodup_cons.mp (List.nodup_middle.mp holds.nodup)).1 (by simp)
    simp [← List.append_assoc, List.getLast?_append, List.getLast?_cons, other]

variable [DecidableEq T] [DecidableEq L]

/-- What is left when a node between `xs` and `ys` was taken out. -/
structure Removed (h h' : Links T L) (l : L) (x : T) (xs ys : List T) : Prop where
  head : ∀ l', h'.head l' = if l' = l then (xs ++ ys).head? else h.head l'
  tail : ∀ l', h'.tail l' = if l' = l then (xs ++ ys).getLast? else h.tail l'
  prevs : ∀ z, z ≠ x → h'.pPrev z = if z ∈ ys.head? then xs.getLast? else h.pPrev z
  nexts : ∀ z, z ≠ x → h'.pNext z = if z ∈ xs.getLast? then ys.head? else h.pNext z
  link : h'.pLink = Function.update h.pLink x none

theorem Represents.removed (rep : h.Represents lists) (split : lists l = xs ++ x :: ys)
    (removed : Removed h h' l x xs ys) : h'.Represents (Function.update lists l (xs ++ ys)) := by
  have holds := rep.holds l
  rw [split] at holds
  obtain ⟨away, rest⟩ := List.nodup_cons.mp (List.nodup_middle.mp holds.nodup)
  obtain ⟨front, -, -, back⟩ := linked_append.mp holds.linked
  have other : ∀ z ∈ xs ++ ys, z ≠ x := fun z member => ne_of_mem_of_not_mem member away
  refine ⟨fun l' => ?_, fun z l' => ?_⟩
  · by_cases same : l' = l
    · subst same
      rw [Function.update_self]
      refine ⟨rest, by rw [removed.head, if_pos rfl], by rw [removed.tail, if_pos rfl],
        front.splice back rest ?_ ?_⟩
      · intro z member
        rw [removed.prevs z (other z member), Option.or_none]
      · intro z member
        rw [removed.nexts z (other z member), Option.or_none]
    · rw [Function.update_of_ne same]
      refine (rep.holds l').frame ?_ ?_ ?_
      · rw [removed.head, if_neg same]
      · rw [removed.tail, if_neg same]
      · intro z member
        have outside : z ∉ xs ++ x :: ys := by
          rw [← split]
          exact fun inside => rep.apart inside same member
        simp only [List.mem_append, List.mem_cons, not_or] at outside
        rw [removed.prevs z outside.2.1, removed.nexts z outside.2.1, if_neg, if_neg]
        · exact ⟨rfl, rfl⟩
        · exact fun last => outside.1 (List.mem_of_getLast? last)
        · exact fun first => outside.2.2 (List.mem_of_mem_head? first)
  · rw [removed.link]
    by_cases node : z = x
    · subst node
      have gone : z ∉ Function.update lists l (xs ++ ys) l' := by
        by_cases same : l' = l
        · rwa [same, Function.update_self]
        · rw [Function.update_of_ne same]
          exact rep.apart (by simp [split]) same
      simp [gone]
    · rw [Function.update_of_ne node, rep.link]
      by_cases same : l' = l
      · subst same
        simp [split, node]
      · rw [Function.update_of_ne same]

theorem removeFromLink_removes (rep : h.Represents lists) (split : lists l = xs ++ x :: ys) :
    ∃ h', h.removeFromLink x = .ok h' ∧ Removed h h' l x xs ys := by
  obtain ⟨prev, next⟩ := rep.neighbours split
  have link : h.pLink x = some l := (rep.link x l).mpr (by simp [split])
  have holds := rep.holds l
  rw [split] at holds
  obtain ⟨atHead, head⟩ := holds.front
  obtain ⟨atTail, tail⟩ := holds.back
  have away := (List.nodup_cons.mp (List.nodup_middle.mp holds.nodup)).1
  have headed : check (h.head l ≠ none ∧ h.tail l ≠ none) "lst->head && lst->tail" = .ok () := by
    refine check_true ⟨?_, ?_⟩
    · rw [holds.head]
      cases xs <;> simp
    · rw [holds.tail]
      simp
  rw [removeFromLink, link]
  simp only [headed, ok_bind]
  -- The node is at the front or has a predecessor, and is at the end or has a successor.
  rcases List.eq_nil_or_concat xs with rfl | ⟨zs, w, rfl⟩ <;> rcases ys with _ | ⟨y, ys⟩
  · have front : h.unlinkFront x l = h.setHead l none := by simp_all [unlinkFront]
    have back : (h.setHead l none).unlinkBack x l = .ok ((h.setHead l none).setTail l none) := by
      simp_all [unlinkBack]
    refine ⟨_, by rw [front, back]; rfl, ?_, ?_, ?_, ?_, ?_⟩ <;>
      simp_all [Function.update_apply]
  · have other : y ≠ x := fun same => away (by simp [same])
    have front : h.unlinkFront x l = (h.setHead l (some y)).setPrev y none := by
      simp_all [unlinkFront]
    have back : ((h.setHead l (some y)).setPrev y none).unlinkBack x l =
        .ok (((h.setHead l (some y)).setPrev y none).setPrev y none) := by
      simp_all [unlinkBack]
    refine ⟨_, by rw [front, back]; rfl, ?_, ?_, ?_, ?_, ?_⟩ <;>
      simp_all [Function.update_apply, @eq_comm T y]
  · have other : w ≠ x := fun same => away (by simp [same])
    have front : h.unlinkFront x l = h.setNext w none := by simp_all [unlinkFront]
    have back : (h.setNext w none).unlinkBack x l =
        .ok (((h.setNext w none).setTail l (some w)).setNext w none) := by
      simp_all [unlinkBack]
    refine ⟨_, by rw [front, back]; rfl, ?_, ?_, ?_, ?_, ?_⟩ <;>
      simp_all [Function.update_apply, @eq_comm T w]
  · have otherFront : w ≠ x := fun same => away (by simp [same])
    have otherBack : y ≠ x := fun same => away (by simp [same])
    have front : h.unlinkFront x l = h.setNext w (some y) := by simp_all [unlinkFront]
    have back : (h.setNext w (some y)).unlinkBack x l =
        .ok ((h.setNext w (some y)).setPrev y (some w)) := by
      simp_all [unlinkBack]
    refine ⟨_, by rw [front, back]; rfl, ?_, ?_, ?_, ?_, ?_⟩ <;>
      simp_all [Function.update_apply, @eq_comm T w, @eq_comm T y]

/-- `RemoveFromLink` takes the node out of the list that it is in, if any. -/
theorem Represents.removeFromLink (rep : h.Represents lists) (x : T) :
    ∃ h', h.removeFromLink x = .ok h' ∧ h'.Represents fun l => (lists l).erase x := by
  cases link : h.pLink x with
  | none =>
      refine ⟨h, by rw [Links.removeFromLink, link], ?_⟩
      have same : (fun l => (lists l).erase x) = lists :=
        funext fun l => List.erase_of_not_mem (rep.free.mp link l)
      rwa [same]
  | some l =>
      obtain ⟨xs, ys, split⟩ := List.append_of_mem ((rep.link x l).mp link)
      obtain ⟨h', ran, removed⟩ := removeFromLink_removes rep split
      have away : x ∉ xs := by
        have nodup := (rep.holds l).nodup
        rw [split] at nodup
        exact fun member => (List.nodup_append.mp nodup).2.2 x member x List.mem_cons_self rfl
      have same : (fun l' => (lists l').erase x) = Function.update lists l (xs ++ ys) := by
        funext l'
        by_cases here : l' = l
        · subst here
          rw [Function.update_self, split, List.erase_append_right _ away, List.erase_cons_head]
        · rw [Function.update_of_ne here]
          exact List.erase_of_not_mem (rep.apart (by simp [split]) here)
      exact ⟨h', ran, same ▸ rep.removed split removed⟩

/-- `PopHead` takes out the first node. -/
theorem Represents.popHead (rep : h.Represents lists) (split : lists l = x :: xs) :
    (h.popHead l).Represents (Function.update lists l xs) := by
  have split' : lists l = [] ++ x :: xs := split
  obtain ⟨-, next⟩ := rep.neighbours split'
  have holds := rep.holds l
  rw [split'] at holds
  have head := holds.head
  obtain ⟨atTail, tail⟩ := holds.back
  refine rep.removed split' ?_
  rcases xs with _ | ⟨y, ys⟩
  · have same : h.head l = h.tail l := by rw [head, atTail.mpr rfl]; rfl
    refine ⟨?_, ?_, ?_, ?_, ?_⟩ <;> simp_all [Links.popHead, Function.update_apply]
  · have other : y ≠ x := by
      rintro rfl
      exact (List.nodup_cons.mp holds.nodup).1 List.mem_cons_self
    have apart : ¬ h.head l = h.tail l := by
      rw [head]
      exact fun same => absurd (atTail.mp same.symm) (List.cons_ne_nil _ _)
    refine ⟨?_, ?_, ?_, ?_, ?_⟩ <;>
      simp_all [Links.popHead, Function.update_apply, @eq_comm T y]

/-- What is left when a node was put behind `xs`. -/
structure Added (h h' : Links T L) (l : L) (x : T) (xs : List T) : Prop where
  head : ∀ l', h'.head l' = if l' = l then (xs ++ [x]).head? else h.head l'
  tail : ∀ l', h'.tail l' = if l' = l then some x else h.tail l'
  prevs : ∀ z, h'.pPrev z = if z = x then xs.getLast? else h.pPrev z
  nexts : ∀ z, h'.pNext z =
    if z = x then none else if z ∈ xs.getLast? then some x else h.pNext z
  link : h'.pLink = Function.update h.pLink x (some l)

theorem Holds.addTail (holds : h.Holds l xs) (free : h.pLink x = none) (fresh : x ∉ xs) :
    Added h (h.addTail l x) l x xs := by
  have head := holds.head
  have tail := holds.tail
  rcases List.eq_nil_or_concat xs with rfl | ⟨zs, w, rfl⟩
  · refine ⟨?_, ?_, ?_, ?_, ?_⟩ <;> simp_all [Links.addTail, Function.update_apply]
  · have first : (zs ++ [w] ++ [x]).head? = (zs ++ [w]).head? := by cases zs <;> rfl
    have other : w ≠ x := fun same => fresh (by simp [same])
    refine ⟨?_, ?_, ?_, ?_, ?_⟩ <;>
      simp_all [Links.addTail, Function.update_apply, @eq_comm T w]

/-- `AddTail` appends a node that is in no list. -/
theorem Represents.addTail (rep : h.Represents lists) (free : h.pLink x = none) :
    (h.addTail l x).Represents (Function.update lists l (lists l ++ [x])) := by
  have away := rep.free.mp free
  have added := (rep.holds l).addTail free (away l)
  refine ⟨fun l' => ?_, fun z l' => ?_⟩
  · by_cases same : l' = l
    · subst same
      rw [Function.update_self]
      have nodup : (lists l' ++ [x]).Nodup :=
        List.nodup_append.mpr ⟨(rep.holds l').nodup, List.nodup_singleton x,
          fun z member y single => by
            rw [List.mem_singleton.mp single]
            exact ne_of_mem_of_not_mem member (away l')⟩
      have front : Linked h.pPrev (Function.update h.pNext x none) none (lists l') none :=
        (rep.holds l').linked.congr fun z member =>
          ⟨rfl, Function.update_of_ne (ne_of_mem_of_not_mem member (away l')) ..⟩
      have back : Linked h.pPrev (Function.update h.pNext x none) (h.pPrev x) [x] none :=
        ⟨rfl, by simp, trivial⟩
      refine ⟨nodup, by rw [added.head, if_pos rfl], by rw [added.tail, if_pos rfl]; simp,
        front.splice back nodup ?_ ?_⟩
      · intro z _
        rw [added.prevs]
        simp [@eq_comm T x]
      · intro z _
        have last : x ∉ (lists l').getLast? := fun last => away l' (List.mem_of_getLast? last)
        rw [added.nexts]
        by_cases node : z = x
        · subst node
          simp [last]
        · simp [node]
    · rw [Function.update_of_ne same]
      refine (rep.holds l').frame ?_ ?_ fun z member => ?_
      · rw [added.head, if_neg same]
      · rw [added.tail, if_neg same]
      · have node : z ≠ x := ne_of_mem_of_not_mem member (away l')
        have last : z ∉ (lists l).getLast? := fun last =>
          rep.apart (List.mem_of_getLast? last) same member
        rw [added.prevs, added.nexts, if_neg node, if_neg node, if_neg last]
        exact ⟨rfl, rfl⟩
  · rw [added.link]
    by_cases node : z = x <;> by_cases same : l' = l
    · simp [node, same]
    · simp [node, same, away l', Ne.symm same]
    · simp [node, same, rep.link]
    · simp [node, same, rep.link]

omit [DecidableEq L] in
/-- The loop of `Join` goes along a list. -/
theorem relink_run {before : Option T} {fuel : Nat}
    (linked : Linked h.pPrev h.pNext before ys none) (enough : ys.length < fuel) :
    runLoop .diverged (relinkTurn l) fuel (ys.head?, h) =
      .ok { h with pLink := fun z => if z ∈ ys then some l else h.pLink z } := by
  induction ys generalizing h before fuel with
  | nil =>
      obtain ⟨fuel, rfl⟩ := Nat.exists_eq_succ_of_ne_zero (by omega : fuel ≠ 0)
      simp [runLoop, relinkTurn]
  | cons y ys inductionHypothesis =>
      obtain ⟨fuel, rfl⟩ := Nat.exists_eq_succ_of_ne_zero (by omega : fuel ≠ 0)
      obtain ⟨-, next, rest⟩ := linked
      have further := inductionHypothesis (h := h.setLink y (some l)) rest
        (by simpa using enough)
      simp only [runLoop, relinkTurn, List.head?_cons]
      rw [next, Option.or_none, further]
      congr 2
      funext z
      by_cases node : z = y <;> simp [node]

/-- What is left when `ys` was moved behind `xs`. -/
structure Joined (h h' : Links T L) (l l' : L) (xs ys : List T) : Prop where
  head : ∀ k, h'.head k = if k = l' then none else if k = l then (xs ++ ys).head? else h.head k
  tail : ∀ k, h'.tail k = if k = l' then none else if k = l then (xs ++ ys).getLast? else h.tail k
  prevs : ∀ z, h'.pPrev z = if z ∈ ys.head? then xs.getLast? else h.pPrev z
  nexts : ∀ z, h'.pNext z = if z ∈ xs.getLast? then ys.head? else h.pNext z
  link : ∀ z, h'.pLink z = if z ∈ ys then some l else h.pLink z

theorem join_joins {fuel : Nat} (holds : h.Holds l xs) (holds' : h.Holds l' ys)
    (other : l ≠ l') (enough : ys.length < fuel) :
    ∃ h', h.join fuel l l' = .ok h' ∧ Joined h h' l l' xs ys := by
  have head := holds.head
  have tail := holds.tail
  have head' := holds'.head
  have tail' := holds'.tail
  have run := relink_run (l := l) holds'.linked enough
  cases ys with
  | nil =>
      refine ⟨h, by rw [Links.join, head']; rfl, ?_, ?_, by simp, fun z => ?_, by simp⟩
      · intro k
        by_cases there : k = l' <;> by_cases here : k = l <;> simp_all
      · intro k
        by_cases there : k = l' <;> by_cases here : k = l <;> simp_all
      · split
        · rename_i last
          rw [holds.linked.last_next last]
          rfl
        · rfl
  | cons y ys =>
      rw [List.head?_cons] at head' run
      rw [Links.join, head']
      simp only [run, ok_bind]
      rcases List.eq_nil_or_concat xs with rfl | ⟨zs, w, rfl⟩
      · rw [List.getLast?_nil] at tail
        simp only [tail]
        have back := holds'.linked.head_prev rfl
        refine ⟨_, rfl, ?_, ?_, ?_, ?_, ?_⟩ <;>
          simp_all [Function.update_apply, @eq_comm T y]
      · rw [List.concat_eq_append, List.getLast?_concat] at tail
        simp only [tail]
        rw [List.concat_eq_append] at head ⊢
        have first : (zs ++ [w] ++ y :: ys).head? = h.head l := by
          rw [head]
          cases zs <;> rfl
        have last : (zs ++ [w] ++ y :: ys).getLast? = h.tail l' := by
          rw [tail', List.getLast?_append]
          simp [List.getLast?_cons]
        refine ⟨_, rfl, fun k => ?_, fun k => ?_, fun z => ?_, fun z => ?_, by simp⟩
        · rw [first]
          by_cases here : k = l <;> simp [Function.update_apply, here]
        · rw [last]
          simp [Function.update_apply]
        · simp [Function.update_apply, @eq_comm T y]
        · simp [Function.update_apply, @eq_comm T w]

/-- `Join` moves what is in one list behind the other. -/
theorem Represents.join {fuel : Nat} (rep : h.Represents lists) (other : l ≠ l')
    (enough : (lists l').length < fuel) :
    ∃ h', h.join fuel l l' = .ok h' ∧
      h'.Represents (Function.update (Function.update lists l (lists l ++ lists l')) l' []) := by
  obtain ⟨h', ran, joined⟩ := join_joins (rep.holds l) (rep.holds l') other enough
  have apart : ∀ z ∈ lists l, z ∉ lists l' := fun z member => rep.apart member other.symm
  refine ⟨h', ran, fun k => ?_, fun z k => ?_⟩
  · by_cases there : k = l'
    · subst there
      rw [Function.update_self]
      exact ⟨List.nodup_nil, by rw [joined.head, if_pos rfl]; rfl,
        by rw [joined.tail, if_pos rfl]; rfl, trivial⟩
    rw [Function.update_of_ne there]
    by_cases here : k = l
    · subst here
      have nodup : (lists k ++ lists l').Nodup :=
        List.nodup_append.mpr ⟨(rep.holds k).nodup, (rep.holds l').nodup,
          fun z member y member' same => apart z member (same ▸ member')⟩
      rw [Function.update_self]
      refine ⟨nodup, by rw [joined.head, if_neg there, if_pos rfl],
        by rw [joined.tail, if_neg there, if_pos rfl],
        (rep.holds k).linked.splice (rep.holds l').linked nodup ?_ ?_⟩
      · intro z _
        rw [joined.prevs, Option.or_none]
      · intro z _
        rw [joined.nexts, Option.or_none]
    · rw [Function.update_of_ne here]
      refine (rep.holds k).frame ?_ ?_ fun z member => ?_
      · rw [joined.head, if_neg there, if_neg here]
      · rw [joined.tail, if_neg there, if_neg here]
      · rw [joined.prevs, joined.nexts, if_neg, if_neg]
        · exact ⟨rfl, rfl⟩
        · exact fun last => rep.apart (List.mem_of_getLast? last) here member
        · exact fun first => rep.apart (List.mem_of_mem_head? first) there member
  · rw [joined.link]
    have moved : z ∈ lists l' → ∀ k, k ≠ l' → z ∉ lists k := fun member k => rep.apart member
    by_cases member : z ∈ lists l'
    · rw [if_pos member]
      by_cases there : k = l' <;> by_cases here : k = l <;>
        simp_all [@eq_comm L l]
    · rw [if_neg member, rep.link]
      by_cases there : k = l' <;> by_cases here : k = l <;> simp_all


end Links

end Libco

end FastCgi
