/-
Module: FastCgi.Library.Simulation
Layer: Library
Purpose: Simulation between computations with a fault channel.  Two
  computations agree if they come to related results or to the same fault; the
  relation passes through sequencing and through the loops of Library.Loop,
  turn by turn or against a meaning that the turns unfold.
Trusted boundary: none
Main exports: bind_eq_ok, Agrees, Agrees.bind, Turn.Related, runLoop_lockstep,
  runLoop_agrees, runLoop_partial, runLoop_unfold
-/
import FastCgi.Library.Loop

namespace Library

universe u v w

variable {ε : Type u} {ρ ρ' : Type v} {σ σ' : Type w}

/-- Take a successful sequence apart. -/
theorem bind_eq_ok {x : Except ε ρ} {f : ρ → Except ε ρ'} {b : ρ'} :
    (x >>= f) = .ok b ↔ ∃ a, x = .ok a ∧ f a = .ok b := by
  cases x with
  | error fault =>
      constructor
      · intro ran
        cases ran
      · rintro ⟨a, ran, _⟩
        cases ran
  | ok a =>
      constructor
      · exact fun ran => ⟨a, rfl, ran⟩
      · rintro ⟨_, same, ran⟩
        cases same
        exact ran

/-- Related results, or the same fault. -/
inductive Agrees (related : ρ → ρ' → Prop) : Except ε ρ → Except ε ρ' → Prop
  | ok {a : ρ} {b : ρ'} (results : related a b) : Agrees related (.ok a) (.ok b)
  | error (fault : ε) : Agrees related (.error fault) (.error fault)

namespace Agrees

theorem mono {related related' : ρ → ρ' → Prop} {x : Except ε ρ} {y : Except ε ρ'}
    (agrees : Agrees related x y) (weaker : ∀ a b, related a b → related' a b) :
    Agrees related' x y := by
  cases agrees with
  | ok results => exact .ok (weaker _ _ results)
  | error fault => exact .error fault

/-- What is known of the second result. -/
theorem knowing {related : ρ → ρ' → Prop} {x : Except ε ρ} {y : Except ε ρ'}
    (agrees : Agrees related x y) (known : ρ' → Prop) (second : ∀ b, y = .ok b → known b) :
    Agrees (fun a b => related a b ∧ known b) x y := by
  cases agrees with
  | ok results => exact .ok ⟨results, second _ rfl⟩
  | error fault => exact .error fault

/-- Sequencing keeps agreement. -/
theorem bind {τ τ' : Type v} {related : ρ → ρ' → Prop} {next : τ → τ' → Prop}
    {x : Except ε ρ} {y : Except ε ρ'} {f : ρ → Except ε τ} {g : ρ' → Except ε τ'}
    (agrees : Agrees related x y)
    (rest : ∀ a b, related a b → Agrees next (f a) (g b)) :
    Agrees next (x >>= f) (y >>= g) := by
  cases agrees with
  | ok results => exact rest _ _ results
  | error fault => exact .error fault

/-- A step that both sides share. -/
theorem bind_same {τ τ' : Type v} {α : Type v} {next : τ → τ' → Prop} {x : Except ε α}
    {f : α → Except ε τ} {g : α → Except ε τ'} (rest : ∀ a, Agrees next (f a) (g a)) :
    Agrees next (x >>= f) (x >>= g) := by
  cases x with
  | ok a => exact rest a
  | error fault => exact .error fault

/-- What an `ok` on the second side says about the first. -/
theorem to_ok {related : ρ → ρ' → Prop} {x : Except ε ρ} {b : ρ'}
    (agrees : Agrees related x (.ok b)) : ∃ a, x = .ok a ∧ related a b := by
  cases agrees with
  | ok results => exact ⟨_, rfl, results⟩

/-- Two computations that agree with one and the same, through functions, have
the same image. -/
theorem map_eq {τ : Type v} {f : ρ → τ} {x y : Except ε ρ} {z : Except ε τ}
    (first : Agrees (fun a b => f a = b) x z) (second : Agrees (fun a b => f a = b) y z) :
    x.map f = y.map f := by
  cases first with
  | ok results =>
      obtain ⟨b, found, same⟩ := second.to_ok
      simp only [found, Except.map, results, same]
  | error fault =>
      cases second with
      | error => rfl

end Agrees

/-! ### Loops -/

/-- Both go round again with related states, or both leave with related
results. -/
inductive Turn.Related (states : σ → σ' → Prop) (results : ρ → ρ' → Prop) :
    Turn σ ρ → Turn σ' ρ' → Prop
  | again {a : σ} {b : σ'} (next : states a b) :
      Turn.Related states results (.again a) (.again b)
  | leave {a : ρ} {b : ρ'} (left : results a b) :
      Turn.Related states results (.leave a) (.leave b)

/-- Loops whose turns agree, agree. -/
theorem runLoop_lockstep {stuck : ε} {body : σ → Except ε (Turn σ ρ)}
    {body' : σ' → Except ε (Turn σ' ρ')} {states : σ → σ' → Prop} {results : ρ → ρ' → Prop}
    (turn : ∀ a b, states a b → Agrees (Turn.Related states results) (body a) (body' b)) :
    ∀ {fuel : Nat} {a : σ} {b : σ'}, states a b →
      Agrees results (runLoop stuck body fuel a) (runLoop stuck body' fuel b) := by
  intro fuel
  induction fuel with
  | zero => exact fun _ => .error stuck
  | succ fuel inductionHypothesis =>
      intro a b related
      have turns := turn a b related
      simp only [runLoop]
      generalize body a = first at turns
      generalize body' b = second at turns
      cases turns with
      | error fault => exact .error fault
      | ok turns =>
          cases turns with
          | again next => exact inductionHypothesis next
          | leave left => exact .ok left

/-- A loop agrees with a meaning that every turn unfolds. -/
theorem runLoop_agrees {stuck : ε} {body : σ → Except ε (Turn σ ρ)}
    {related : ρ → ρ' → Prop}
    (invariant : σ → Prop) (measure : σ → Nat) (meaning : σ → Except ε ρ')
    (turn : ∀ state, invariant state →
      (∃ result, body state = .ok (.leave result) ∧
        Agrees related (.ok result) (meaning state)) ∨
      (∃ fault, body state = .error fault ∧ meaning state = .error fault) ∨
        ∃ next, body state = .ok (.again next) ∧ invariant next ∧
          measure next < measure state ∧ meaning state = meaning next) :
    ∀ {fuel : Nat} {state : σ}, invariant state → measure state < fuel →
      Agrees related (runLoop stuck body fuel state) (meaning state) := by
  intro fuel
  induction fuel with
  | zero =>
      intro state _ enough
      exact absurd enough (Nat.not_lt_zero _)
  | succ fuel inductionHypothesis =>
      intro state holds enough
      rcases turn state holds with
        ⟨result, left, agrees⟩ | ⟨fault, failed, means⟩ | ⟨next, again, kept, smaller, means⟩
      · simpa only [runLoop, left] using agrees
      · simpa only [runLoop, failed, means] using Agrees.error fault
      · simp only [runLoop, again, means]
        exact inductionHypothesis kept (by omega)

/-- Partial correctness. -/
theorem runLoop_partial {stuck : ε} {body : σ → Except ε (Turn σ ρ)}
    (invariant : σ → Prop) (post : ρ → Prop)
    (again : ∀ state next, invariant state → body state = .ok (.again next) → invariant next)
    (leave : ∀ state result, invariant state → body state = .ok (.leave result) → post result) :
    ∀ {fuel : Nat} {state : σ} {result : ρ}, invariant state →
      runLoop stuck body fuel state = .ok result → post result := by
  intro fuel
  induction fuel with
  | zero =>
      intro state result _ ran
      cases ran
  | succ fuel inductionHypothesis =>
      intro state result holds ran
      rw [runLoop] at ran
      split at ran
      · cases ran
      next left body_eq =>
        cases ran
        exact leave _ _ holds body_eq
      next next_ body_eq => exact inductionHypothesis (again _ _ holds body_eq) ran

section Decreasing

variable {stuck : ε} {body : σ → Except ε (Turn σ ρ)} (measure : σ → Nat)
  (smaller : ∀ state next, body state = .ok (.again next) → measure next < measure state)
include smaller

theorem runLoop_enough :
    ∀ {fuel fuel' : Nat} {state : σ}, measure state < fuel → measure state < fuel' →
      runLoop stuck body fuel state = runLoop stuck body fuel' state := by
  intro fuel
  induction fuel with
  | zero =>
      intro fuel' state enough
      exact absurd enough (Nat.not_lt_zero _)
  | succ fuel inductionHypothesis =>
      intro fuel' state enough enough'
      obtain ⟨fuel', rfl⟩ : ∃ n, fuel' = n + 1 := ⟨fuel' - 1, by omega⟩
      simp only [runLoop]
      split
      · rfl
      · rfl
      next next_ body_eq =>
        have less := smaller _ _ body_eq
        exact inductionHypothesis (by omega) (by omega)

/-- A loop with a decreasing measure is its first turn and itself again. -/
theorem runLoop_unfold (state : σ) :
    runLoop stuck body (measure state + 1) state =
      match body state with
      | .error fault => .error fault
      | .ok (.leave result) => .ok result
      | .ok (.again next) => runLoop stuck body (measure next + 1) next := by
  rw [runLoop]
  cases turned : body state with
  | error fault => rfl
  | ok turn =>
      cases turn with
      | leave result => rfl
      | again next =>
          exact runLoop_enough measure smaller (smaller _ _ turned) (Nat.lt_succ_self _)

end Decreasing

end Library
