/-
Module: FastCgi.Proofs.AcceptProgress
Layer: Proofs
Purpose: When the accept coroutine gives up control.  It does so in its first
  iteration unless no task is idle and no more may be made; then it spins for
  ever, since only a task that runs could make one idle.
Trusted boundary: none
Main exports: acceptIteration_continues_iff, saturated_reachable,
  accept_gives_up_control_iff
-/
import FastCgi.Proofs.PoolInvariant
import Mathlib.Data.Fintype.EquivFin

namespace FastCgi

namespace Cocgi

open CCocgiServer

/-- In a saturated pool an iteration does nothing. -/
theorem acceptIteration_of_saturated {s : CCocgiServer} (saturated : Saturated s) (iFd : Int) :
    s.acceptIteration iFd = (.continues, s) := by
  obtain ⟨none, full⟩ := saturated
  have same : s.refill = s := if_neg fun few => Nat.not_lt.mpr full few.2
  simp only [acceptIteration, same, none]

/-- In any other pool a task is idle, or one is made. -/
theorem refill_of_not_saturated {s : CCocgiServer} (progress : ¬ Saturated s) :
    s.refill.idleTask ≠ [] := by
  unfold refill
  split
  · simp [createCocgiTask]
  · rename_i enough
    intro none
    exact progress ⟨none, Nat.not_lt.mp fun few => enough ⟨none, few⟩⟩

/-- An iteration ends in `continue` exactly when the pool is saturated. -/
theorem acceptIteration_continues_iff (s : CCocgiServer) (iFd : Int) :
    (s.acceptIteration iFd).1 = .continues ↔ Saturated s := by
  constructor
  · intro continues
    by_contra progress
    obtain ⟨p, idleTask, first⟩ :=
      List.exists_cons_of_ne_nil (refill_of_not_saturated progress)
    simp only [acceptIteration, first] at continues
    split at continues
    · cases continues
    · cases continues
  · intro saturated
    rw [acceptIteration_of_saturated saturated]

/-- In a saturated pool the loop never gives up control. -/
theorem acceptRoutine_of_saturated {s : CCocgiServer} (saturated : Saturated s) (fuel : Nat)
    (iFds : Nat → Int) : acceptRoutine fuel iFds s = none := by
  induction fuel generalizing iFds with
  | zero => rfl
  | succ fuel inductionHypothesis =>
      rw [acceptRoutine, acceptIteration_of_saturated saturated]
      exact inductionHypothesis _

/-- In any other pool it gives up control in its first iteration. -/
theorem acceptRoutine_of_not_saturated {s : CCocgiServer} (progress : ¬ Saturated s)
    (iFds : Nat → Int) : acceptRoutine 1 iFds s = some (s.acceptIteration (iFds 0)) := by
  have leaves := mt (acceptIteration_continues_iff s (iFds 0)).mp progress
  rw [acceptRoutine]
  split
  · rename_i continues
    rw [continues] at leaves
    exact absurd rfl leaves
  · rfl

/-! ### Reaching saturation -/

/-- How many connections may still be accepted before the pool is
saturated. -/
def capacity (s : CCocgiServer) : Nat :=
  s.idleTask.length + (s.maxCoroutineCount.toNat - s.task.size)

theorem saturated_of_capacity {s : CCocgiServer} (none : capacity s = 0) : Saturated s := by
  obtain ⟨idle, room⟩ := Nat.add_eq_zero_iff.mp none
  exact ⟨List.length_eq_zero_iff.mp idle, Nat.sub_eq_zero_iff_le.mp room⟩

/-- Some descriptor is not open. -/
theorem exists_closed (openFds : Finset Int) : ∃ iFd : Int, 0 ≤ iFd ∧ iFd ∉ openFds := by
  obtain ⟨number, unused⟩ := Infinite.exists_notMem_finset (openFds.image Int.toNat)
  refine ⟨number, Int.natCast_nonneg number, ?_⟩
  intro isOpen
  exact unused (Finset.mem_image.mpr ⟨number, isOpen, Int.toNat_natCast number⟩)

/-- Making a task for the next connection leaves the capacity as it is. -/
theorem capacity_refill {n : Nat} {s : CCocgiServer} (stored : Stored n s)
    (stored' : Stored n s.refill) :
    capacity s.refill = capacity s ∧ s.refill.maxCoroutineCount = s.maxCoroutineCount := by
  have size := stored.size
  have size' := stored'.size
  unfold refill at size' ⊢
  split
  · rename_i few
    rw [if_pos few] at size'
    simp only [createCocgiTask, List.length_cons] at size'
    refine ⟨?_, rfl⟩
    simp only [capacity, createCocgiTask, List.length_cons]
    omega
  · exact ⟨rfl, rfl⟩

/-- The accept loop hands a connection to the first idle task, which takes the
descriptor and waits for data. -/
theorem accept_serves {n : Nat} (small : n < 2 ^ 16) {s : CCocgiServer} {p : TaskPtr}
    {idleTask : List TaskPtr} (consistent : Consistent n ⟨s, .acceptRoutine⟩)
    (first : s.refill.idleTask = p :: idleTask) {iFd : Int} (valid : 0 ≤ iFd)
    (closed : iFd ∉ s.openFds) :
    Relation.ReflTransGen Step ⟨s, .acceptRoutine⟩
        ⟨(s.refill.handOver p idleTask iFd).takeFd p p, .acceptRoutine⟩ ∧
      Consistent n ⟨(s.refill.handOver p idleTask iFd).takeFd p p, .acceptRoutine⟩ := by
  have turn : s.acceptIteration iFd = (.resumes p, s.refill.handOver p idleTask iFd) := by
    simp only [acceptIteration, first, if_neg (Int.not_lt.mpr valid)]
  have accepted := Step.accept s _ iFd p closed turn
  have given := consistent_step small accepted consistent
  have ran := resume_ready given.stored given.holding .errOk
  have taken := Step.run _ _ p .acceptRoutine .errOk ran
  exact ⟨.tail (.single accepted) taken, consistent_step small taken given⟩

/-- A connection that stays open takes one task. -/
theorem accept_takes_task {n : Nat} (small : n < 2 ^ 16) {s : CCocgiServer}
    (consistent : Consistent n ⟨s, .acceptRoutine⟩) (progress : ¬ Saturated s) :
    ∃ s', Relation.ReflTransGen Step ⟨s, .acceptRoutine⟩ ⟨s', .acceptRoutine⟩ ∧
      capacity s' + 1 = capacity s ∧ s'.maxCoroutineCount = s.maxCoroutineCount := by
  obtain ⟨p, idleTask, first⟩ := List.exists_cons_of_ne_nil (refill_of_not_saturated progress)
  obtain ⟨iFd, valid, closed⟩ := exists_closed s.openFds
  obtain ⟨same, limit⟩ := capacity_refill consistent.stored
    (consistent_refill small consistent.stored consistent.holding).1
  refine ⟨_, (accept_serves small consistent first valid closed).1, ?_, limit⟩
  rw [← same, capacity, capacity, first]
  change idleTask.length + _ + 1 = _
  simp only [takeFd, suspend, setFd, handOver, List.length_cons]
  omega

/-- From wherever the accept coroutine has control, connections that stay open
saturate the pool. -/
theorem saturated_of_reachable {coroutineCount maxCoroutineCount : UInt16} {s : CCocgiServer}
    (reached : Reachable coroutineCount maxCoroutineCount ⟨s, .acceptRoutine⟩) :
    ∃ s', Reachable coroutineCount maxCoroutineCount ⟨s', .acceptRoutine⟩ ∧ Saturated s' ∧
      s'.maxCoroutineCount = s.maxCoroutineCount := by
  induction size : capacity s generalizing s with
  | zero => exact ⟨s, reached, saturated_of_capacity size, rfl⟩
  | succ room inductionHypothesis =>
      by_cases saturated : Saturated s
      · exact ⟨s, reached, saturated, rfl⟩
      · obtain ⟨s₁, further, fewer, limit⟩ :=
          accept_takes_task coroutineCount.toNat_lt (consistent_of_reachable reached) saturated
        obtain ⟨s₂, reached₂, saturated₂, limit₂⟩ :=
          inductionHypothesis (reached.trans further) (by omega)
        exact ⟨s₂, reached₂, saturated₂, limit₂.trans limit⟩

theorem maxCoroutineCount_start (coroutineCount maxCoroutineCount : UInt16) :
    (World.start coroutineCount maxCoroutineCount).server.maxCoroutineCount =
      maxCoroutineCount := by
  unfold World.start
  induction coroutineCount.toNat with
  | zero => rfl
  | succ k inductionHypothesis =>
      simp only [Function.iterate_succ_apply']
      exact inductionHypothesis

/-- Every worker can be saturated, whatever its two counts are. -/
theorem saturated_reachable (coroutineCount maxCoroutineCount : UInt16) :
    ∃ s, Reachable coroutineCount maxCoroutineCount ⟨s, .acceptRoutine⟩ ∧ Saturated s ∧
      s.maxCoroutineCount = maxCoroutineCount := by
  have started : Reachable coroutineCount maxCoroutineCount
      ⟨(World.start coroutineCount maxCoroutineCount).server, .acceptRoutine⟩ := .refl
  obtain ⟨s, reached, saturated, limit⟩ := saturated_of_reachable started
  exact ⟨s, reached, saturated, limit.trans (maxCoroutineCount_start _ _)⟩

/-! ### The exact condition -/

/-- In a reachable pool without an idle task there are as many tasks as open
descriptors. -/
theorem size_of_no_idle {n : Nat} {s : CCocgiServer} {ready : Option TaskPtr}
    (stored : Stored n s) (holding : Holding s ready) (none : s.idleTask = []) :
    s.task.size = s.openFds.card := by
  rw [stored.size, none, holding.opened, Finset.card_image_of_injOn holding.injective]
  exact Nat.zero_add _

/-- The exact condition under which the accept coroutine gives up control after
finitely many iterations, whatever `co_accept` returns: a task is idle, or
fewer descriptors are open than there may be tasks. -/
theorem accept_gives_up_control_iff {coroutineCount maxCoroutineCount : UInt16}
    {s : CCocgiServer} (reached : Reachable coroutineCount maxCoroutineCount ⟨s, .acceptRoutine⟩) :
    (∀ iFds : Nat → Int, ∃ fuel handover, acceptRoutine fuel iFds s = some handover) ↔
      s.idleTask ≠ [] ∨ s.openFds.card < s.maxCoroutineCount.toNat := by
  obtain ⟨stored, holding, _⟩ := consistent_of_reachable reached
  constructor
  · intro givesUp
    by_contra stuck
    obtain ⟨none, full⟩ := not_or.mp stuck
    have saturated : Saturated s := by
      refine ⟨not_not.mp none, ?_⟩
      rw [size_of_no_idle stored holding (not_not.mp none)]
      exact Nat.not_lt.mp full
    obtain ⟨fuel, handover, left⟩ := givesUp fun _ => 0
    rw [acceptRoutine_of_saturated saturated] at left
    cases left
  · intro progress iFds
    have unsaturated : ¬ Saturated s := by
      rintro ⟨none, full⟩
      rw [size_of_no_idle stored holding none] at full
      rcases progress with idle | few
      · exact idle none
      · exact Nat.not_lt.mpr full few
    exact ⟨1, _, acceptRoutine_of_not_saturated unsaturated iFds⟩

/-- A worker with two open connections, each held by a task, goes on: it makes a
task for the next one. -/
theorem serving_worker_gives_up_control :
    ∃ s, Reachable 1 50 ⟨s, .acceptRoutine⟩ ∧ s.openFds = {5, 6} ∧ s.idleTask = [] ∧
      ∀ iFds : Nat → Int, ∃ fuel handover, acceptRoutine fuel iFds s = some handover := by
  have started : Reachable 1 50 ⟨(World.start 1 50).server, .acceptRoutine⟩ := .refl
  have idle₁ : (World.start 1 50).server.refill.idleTask = [0] := rfl
  have closed₁ : 5 ∉ (World.start 1 50).server.openFds := by decide
  obtain ⟨first, consistent⟩ := accept_serves (n := 1) (by decide)
    (consistent_of_reachable started) idle₁ (by decide) closed₁
  have idle₂ : (((World.start 1 50).server.refill.handOver 0 [] 5).takeFd 0 0).refill.idleTask =
      [1] := rfl
  have closed₂ : 6 ∉ (((World.start 1 50).server.refill.handOver 0 [] 5).takeFd 0 0).openFds := by
    decide
  obtain ⟨second, -⟩ := accept_serves (n := 1) (by decide) consistent idle₂ (by decide) closed₂
  have reached := started.trans (first.trans second)
  exact ⟨_, reached, by decide, rfl,
    (accept_gives_up_control_iff reached).mpr (Or.inr (by decide))⟩

/-- Fifty connections that stay open stop a worker: its accept coroutine keeps
control for ever, so none of them is served again. -/
theorem fifty_connections_stop_worker :
    ∃ s, Reachable 1 50 ⟨s, .acceptRoutine⟩ ∧ s.idleTask = [] ∧
      s.maxCoroutineCount = 50 ∧ 50 ≤ s.task.size ∧
      ∀ fuel iFds, acceptRoutine fuel iFds s = none := by
  obtain ⟨s, reached, saturated, limit⟩ := saturated_reachable 1 50
  refine ⟨s, reached, saturated.1, limit, ?_, acceptRoutine_of_saturated saturated⟩
  have full := saturated.2
  rw [limit] at full
  exact full

end Cocgi

end FastCgi
