/-
Module: FastCgi.Library.Assignments
Layer: Library
Purpose: Maps built by a sequence of assignments `map[key] = value`.  The
  value of a key is the last one assigned to it, and the value it had before
  where none was assigned; copying a map entry by entry gives it back.  With
  insertions that keep what is there, it is the first one instead.
Trusted boundary: none
Main exports: lastValue, lookup_eq_lastValue, assignAll, getElem?_assignAll,
  assignAll_toList, getElem?_foldl_insertIfNew
-/
import Mathlib.Data.List.Basic

namespace Library

universe u v

variable {α : Type u} {β : Type v}

section LastValue

variable [DecidableEq α]

/-- The value assigned last to `key`. -/
def lastValue (key : α) : List (α × β) → Option β
  | [] => none
  | (name, value) :: later =>
      (lastValue key later).or (if name = key then some value else none)

@[simp] theorem lastValue_nil (key : α) : lastValue key ([] : List (α × β)) = none := rfl

/-- A key has no last value exactly when nothing was assigned to it. -/
theorem lastValue_eq_none_iff {key : α} {pairs : List (α × β)} :
    lastValue key pairs = none ↔ ∀ pair ∈ pairs, pair.1 ≠ key := by
  induction pairs with
  | nil => simp
  | cons pair pairs inductionHypothesis =>
      obtain ⟨name, value⟩ := pair
      simp only [lastValue, Option.or_eq_none_iff, inductionHypothesis, List.mem_cons,
        forall_eq_or_imp, ite_eq_right_iff, reduceCtorEq, imp_false, ne_eq]
      exact And.comm

/-- The last value was assigned. -/
theorem mem_of_lastValue {key : α} {value : β} {pairs : List (α × β)}
    (last : lastValue key pairs = some value) : (key, value) ∈ pairs := by
  induction pairs with
  | nil => cases last
  | cons pair pairs inductionHypothesis =>
      obtain ⟨name, first⟩ := pair
      simp only [lastValue, Option.or_eq_some_iff] at last
      rcases last with later | ⟨_, here⟩
      · exact List.mem_cons_of_mem _ (inductionHypothesis later)
      · split at here
        · rename_i same
          cases here
          rw [same]
          exact List.mem_cons_self
        · cases here

/-- Where the value is a function of the key, it is the last one too. -/
theorem lastValue_map_of_mem {keys : List α} (value : α → β) {key : α} (member : key ∈ keys) :
    lastValue key (keys.map fun name => (name, value name)) = some (value key) := by
  cases last : lastValue key (keys.map fun name => (name, value name)) with
  | none =>
      exact absurd rfl (lastValue_eq_none_iff.mp last _ (List.mem_map_of_mem member))
  | some found =>
      obtain ⟨name, _, same⟩ := List.mem_map.mp (mem_of_lastValue last)
      cases same
      rfl

/-- Where no key has two values, the first is the last. -/
theorem lookup_eq_lastValue [BEq α] [LawfulBEq α] {pairs : List (α × β)}
    (single : ∀ pair ∈ pairs, ∀ other ∈ pairs, pair.1 = other.1 → pair.2 = other.2) (key : α) :
    pairs.lookup key = lastValue key pairs := by
  cases last : lastValue key pairs with
  | none =>
      rw [List.lookup_eq_none_iff]
      intro pair member
      simpa using (lastValue_eq_none_iff.mp last pair member).symm
  | some value =>
      cases first : pairs.lookup key with
      | none =>
          have absent := List.lookup_eq_none_iff.mp first _ (mem_of_lastValue last)
          simp at absent
      | some value' =>
          obtain ⟨before, after, split, _⟩ := List.lookup_eq_some_iff.mp first
          have member : (key, value') ∈ pairs := by simp [split]
          exact congrArg some (single _ member _ (mem_of_lastValue last) rfl)

end LastValue

section Maps

variable [Ord α] [Std.TransOrd α]

/-- Assign every pair in turn. -/
def assignAll (map : Std.ExtTreeMap α β) (pairs : List (α × β)) : Std.ExtTreeMap α β :=
  pairs.foldl (fun map pair => map.insert pair.1 pair.2) map

@[simp] theorem assignAll_nil (map : Std.ExtTreeMap α β) : assignAll map [] = map := rfl

@[simp] theorem assignAll_cons (map : Std.ExtTreeMap α β) (pair : α × β)
    (pairs : List (α × β)) :
    assignAll map (pair :: pairs) = assignAll (map.insert pair.1 pair.2) pairs := rfl

theorem assignAll_append (map : Std.ExtTreeMap α β) (pairs later : List (α × β)) :
    assignAll map (pairs ++ later) = assignAll (assignAll map pairs) later :=
  List.foldl_append

/-- A key that was assigned stays in the map. -/
theorem mem_assignAll_of_mem {map : Std.ExtTreeMap α β} {pairs : List (α × β)} {key : α}
    (present : key ∈ map) : key ∈ assignAll map pairs := by
  induction pairs generalizing map with
  | nil => exact present
  | cons pair pairs inductionHypothesis =>
      exact inductionHypothesis (Std.ExtTreeMap.mem_insert.mpr (Or.inr present))

variable [DecidableEq α] [Std.LawfulEqOrd α]

/-- Looking up after a sequence of assignments. -/
theorem getElem?_assignAll (map : Std.ExtTreeMap α β) (pairs : List (α × β)) (key : α) :
    (assignAll map pairs)[key]? = (lastValue key pairs).or map[key]? := by
  induction pairs generalizing map with
  | nil => simp
  | cons pair pairs inductionHypothesis =>
      obtain ⟨name, value⟩ := pair
      rw [assignAll_cons, inductionHypothesis, lastValue, Option.or_assoc,
        Std.ExtTreeMap.getElem?_insert]
      by_cases same : name = key
      · simp [same]
      · simp [same]

/-- Copying a map entry by entry, in the order of its keys, gives it back. -/
theorem assignAll_toList (map : Std.ExtTreeMap α β) : assignAll ∅ map.toList = map := by
  apply Std.ExtTreeMap.ext_getElem?
  intro key
  rw [getElem?_assignAll, Std.ExtTreeMap.getElem?_empty, Option.or_none]
  cases stored : map[key]? with
  | none =>
      rw [lastValue_eq_none_iff]
      rintro ⟨name, value⟩ member same
      subst same
      rw [Std.ExtTreeMap.mem_toList_iff_getElem?_eq_some] at member
      rw [stored] at member
      cases member
  | some value =>
      have listed : (key, value) ∈ map.toList :=
        Std.ExtTreeMap.mem_toList_iff_getElem?_eq_some.mpr stored
      cases last : lastValue key map.toList with
      | none => exact absurd rfl (lastValue_eq_none_iff.mp last (key, value) listed)
      | some other =>
          have other := Std.ExtTreeMap.mem_toList_iff_getElem?_eq_some.mp (mem_of_lastValue last)
          rw [← other, stored]

end Maps

section Insertions

variable [Ord α] [Std.TransOrd α] [Std.LawfulEqOrd α] [BEq α] [LawfulBEq α]

/-- Looking up after a sequence of insertions, each of which leaves a key alone
that is there. -/
theorem getElem?_foldl_insertIfNew (map : Std.ExtTreeMap α β) (pairs : List (α × β))
    (key : α) :
    (pairs.foldl (fun map pair => map.insertIfNew pair.1 pair.2) map)[key]? =
      map[key]?.or (pairs.lookup key) := by
  induction pairs generalizing map with
  | nil => simp
  | cons pair pairs inductionHypothesis =>
      obtain ⟨name, value⟩ := pair
      rw [List.foldl_cons, inductionHypothesis, Std.ExtTreeMap.getElem?_insertIfNew,
        List.lookup_cons]
      by_cases same : name = key
      · subst same
        cases stored : map[name]? with
        | none => simp [stored, Std.ExtTreeMap.mem_iff_isSome_getElem?]
        | some present => simp [stored, Std.ExtTreeMap.mem_iff_isSome_getElem?]
      · have other : (key == name) = false := beq_false_of_ne (Ne.symm same)
        simp [same, other]

end Insertions

end Library
