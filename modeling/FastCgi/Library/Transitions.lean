/-
Module: FastCgi.Library.Transitions
Layer: Library
Purpose: Machines that take labelled steps where they are enabled, and the rules
  by which an invariant of one step becomes a fact about every run.
Trusted boundary: none
Main exports: Library.runSteps, Library.of_enabled, Library.runSteps_append,
  Library.runSteps_invariant, Library.runSteps_history
-/
import Mathlib.Data.List.Basic

namespace Library

universe u v

variable {S : Type u} {A : Type v} (step : S → A → Option S)

/-- The state behind a sequence of steps, if each of them is enabled in its
turn. -/
def runSteps : S → List A → Option S
  | s, [] => some s
  | s, a :: rest =>
      match step s a with
      | none => none
      | some s => runSteps s rest

/-- A step that is enabled under a condition. -/
theorem of_enabled {p : Prop} [Decidable p] {next last : S}
    (stepped : (if p then some next else none) = some last) : p ∧ next = last := by
  split at stepped
  · exact ⟨by assumption, Option.some.inj stepped⟩
  · cases stepped

/-- A step that is disabled under a condition. -/
theorem of_not_disabled {p : Prop} [Decidable p] {next last : S}
    (stepped : (if p then none else some next) = some last) : ¬ p ∧ next = last := by
  split at stepped
  · cases stepped
  · exact ⟨by assumption, Option.some.inj stepped⟩

variable {step}

theorem runSteps_cons_eq_some {s last : S} {a : A} {rest : List A} :
    runSteps step s (a :: rest) = some last ↔
      ∃ next, step s a = some next ∧ runSteps step next rest = some last := by
  rw [runSteps]
  cases step s a with
  | none => simp
  | some next => simp

theorem runSteps_append {s : S} {first second : List A} :
    runSteps step s (first ++ second) =
      (runSteps step s first).bind fun middle => runSteps step middle second := by
  induction first generalizing s with
  | nil => rfl
  | cons a rest inductionHypothesis =>
      rw [List.cons_append, runSteps, runSteps]
      cases step s a with
      | none => rfl
      | some next => exact inductionHypothesis

/-- What every step keeps, every run keeps. -/
theorem runSteps_invariant {P : S → Prop}
    (keeps : ∀ s a next, P s → step s a = some next → P next) {s last : S} {actions : List A}
    (holds : P s) (ran : runSteps step s actions = some last) : P last := by
  induction actions generalizing s with
  | nil =>
      cases ran
      exact holds
  | cons a rest inductionHypothesis =>
      obtain ⟨next, stepped, ran⟩ := runSteps_cons_eq_some.mp ran
      exact inductionHypothesis (keeps s a next holds stepped) ran

/-- The same for a relation between a state and the steps taken so far. -/
theorem runSteps_history {P : List A → S → Prop}
    (keeps : ∀ taken s a next, P taken s → step s a = some next → P (taken ++ [a]) next)
    {s last : S} {actions : List A} (holds : P [] s)
    (ran : runSteps step s actions = some last) : P actions last := by
  suffices further : ∀ taken t, P taken t → runSteps step t actions = some last →
      P (taken ++ actions) last from further [] s holds ran
  clear holds ran
  induction actions with
  | nil =>
      intro taken t holds ran
      cases ran
      rwa [List.append_nil]
  | cons a rest inductionHypothesis =>
      intro taken t holds ran
      obtain ⟨next, stepped, ran⟩ := runSteps_cons_eq_some.mp ran
      have further := inductionHypothesis _ next (keeps taken t a next holds stepped) ran
      rwa [List.append_assoc] at further

end Library
