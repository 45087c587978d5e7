/-
Module: FastCgi.Library.Loop
Layer: Library
Purpose: Loops of an imperative source with a fault channel, as bounded
  iteration of one turn of the loop body, and the two rules that prove such a
  loop correct: a total-correctness rule (invariant, decreasing measure,
  postcondition) and an equational rule for a loop that may fail.
Trusted boundary: none
Main exports: Turn, runLoop, runLoop_total, runLoop_eq
-/
import Mathlib.Init

namespace Library

universe u v w

variable {ε : Type u} {σ : Type v} {ρ : Type w}

/-- What one turn of a loop body decides: go round again with a new state, or
leave the loop with a result. -/
inductive Turn (σ : Type v) (ρ : Type w) where
  | again (state : σ)
  | leave (result : ρ)
deriving Repr, DecidableEq

/-- Run at most `fuel` turns.  A loop that has not left by then reports
`stuck`, so that a proof of an `ok` result is a proof of termination. -/
def runLoop (stuck : ε) (body : σ → Except ε (Turn σ ρ)) : Nat → σ → Except ε ρ
  | 0, _ => .error stuck
  | fuel + 1, state =>
      match body state with
      | .error fault => .error fault
      | .ok (.leave result) => .ok result
      | .ok (.again next) => runLoop stuck body fuel next

/-- Total correctness.  Every turn from a state satisfying the invariant
succeeds, and either leaves with the postcondition or continues from a smaller
state that satisfies the invariant again. -/
theorem runLoop_total {stuck : ε} {body : σ → Except ε (Turn σ ρ)}
    (invariant : σ → Prop) (measure : σ → Nat) (post : ρ → Prop)
    (turn : ∀ state, invariant state →
      (∃ result, body state = .ok (.leave result) ∧ post result) ∨
        ∃ next, body state = .ok (.again next) ∧ invariant next ∧
          measure next < measure state) :
    ∀ {fuel : Nat} {state : σ}, invariant state → measure state < fuel →
      ∃ result, runLoop stuck body fuel state = .ok result ∧ post result := by
  intro fuel
  induction fuel with
  | zero =>
      intro state _ enough
      exact absurd enough (Nat.not_lt_zero _)
  | succ fuel inductionHypothesis =>
      intro state holds enough
      rcases turn state holds with ⟨result, left, done⟩ | ⟨next, again, kept, smaller⟩
      · exact ⟨result, by simp only [runLoop, left], done⟩
      · rcases inductionHypothesis kept (by omega) with ⟨result, ran, done⟩
        exact ⟨result, by simp only [runLoop, again, ran], done⟩

/-- Equational correctness for a loop that may fail: if every turn agrees with
one unfolding of `meaning`, so does the whole loop. -/
theorem runLoop_eq {stuck : ε} {body : σ → Except ε (Turn σ ρ)}
    (invariant : σ → Prop) (measure : σ → Nat) (meaning : σ → Except ε ρ)
    (turn : ∀ state, invariant state →
      (∃ result, body state = .ok (.leave result) ∧ meaning state = .ok result) ∨
      (∃ fault, body state = .error fault ∧ meaning state = .error fault) ∨
        ∃ next, body state = .ok (.again next) ∧ invariant next ∧
          measure next < measure state ∧ meaning state = meaning next) :
    ∀ {fuel : Nat} {state : σ}, invariant state → measure state < fuel →
      runLoop stuck body fuel state = meaning state := by
  intro fuel
  induction fuel with
  | zero =>
      intro state _ enough
      exact absurd enough (Nat.not_lt_zero _)
  | succ fuel inductionHypothesis =>
      intro state holds enough
      rcases turn state holds with
        ⟨result, left, means⟩ | ⟨fault, failed, means⟩ | ⟨next, again, kept, smaller, means⟩
      · simp only [runLoop, left, means]
      · simp only [runLoop, failed, means]
      · simp only [runLoop, again, means]
        exact inductionHypothesis kept (by omega)

end Library
