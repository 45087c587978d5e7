/-
Module: FastCgi.Proofs.ForkTree
Layer: Proofs
Purpose: How many processes `CFastCgiServer::Run` starts.  A worker whose
  accept loop ends goes on with the loop that forked it, so the configured
  number is kept exactly when only workers of the last iteration leave their
  accept loop.
Trusted boundary: none
Main exports: OnlyLastEnds, Contained, contained_of_reachable, forks_contained_iff
-/
import FastCgi.Model.FastCgiServer

namespace FastCgi

namespace CFastCgiServer

/-! ### Steps -/

@[simp] theorem process_put_self (w : World) (pid : Pid) (process : Process) :
    (w.put pid process).process pid = some process := Function.update_self _ _ _

theorem process_put_of_ne (w : World) {pid other : Pid} (apart : other ≠ pid)
    (process : Process) : (w.put pid process).process other = w.process other :=
  Function.update_of_ne apart _ _

theorem process_forkSucceeds (w : World) (pid : Pid) (i : Nat) (acceptEnded : Bool) :
    (w.forkSucceeds pid i acceptEnded).process =
      ((w.put pid ⟨.testing (i + 1), acceptEnded⟩).put (pid ++ [i])
        ⟨.accepting i, false⟩).process :=
  rfl

@[simp] theorem successfulForks_forkSucceeds (w : World) (pid : Pid) (i : Nat)
    (acceptEnded : Bool) :
    (w.forkSucceeds pid i acceptEnded).successfulForks = w.successfulForks + 1 := by
  simp [World.successfulForks, World.forkSucceeds]

@[simp] theorem successfulForks_forkFails (w : World) (pid : Pid) (i : Nat)
    (acceptEnded : Bool) :
    (w.forkFails pid i acceptEnded).successfulForks = w.successfulForks := by
  simp [World.successfulForks, World.forkFails]

/-! ### Only workers of the last iteration end -/

/-- No worker that was forked before the last iteration leaves its accept
loop. -/
def OnlyLastEnds (processCount : UInt16) (ends : Set Pid) : Prop :=
  ∀ i, i + 1 < processCount.toNat → [i] ∉ ends

/-- The iterations of the loop that the caller of `Run` has begun. -/
def Stage.begun (processCount : UInt16) : Stage → Nat
  | .testing i => i
  | .accepting i => i + 1
  | .left => processCount.toNat

/-- Where a worker forked in iteration `i` can be. -/
def WorkerAt (processCount : UInt16) (i : Nat) (process : Process) : Prop :=
  process = ⟨.accepting i, false⟩ ∨
    processCount.toNat ≤ i + 1 ∧ (process = ⟨.testing (i + 1), true⟩ ∨ process = ⟨.left, true⟩)

/-- The tree of a run that keeps to the configured number: only the caller of
`Run` has forked, at most once in each iteration, and a worker that has left
its accept loop finds the outer loop done. -/
structure Contained (processCount : UInt16) (w : World) : Prop where
  root : ∃ stage, w.process [] = some ⟨stage, false⟩ ∧ (stage = .left ∨ ∃ i, stage = .testing i) ∧
    stage.begun processCount ≤ processCount.toNat ∧
    w.successfulForks ≤ stage.begun processCount
  workers : ∀ pid process, pid ≠ [] → w.process pid = some process →
    ∃ i, pid = [i] ∧ WorkerAt processCount i process
  calls : ∀ call ∈ w.forks, call.acceptEnded = false

variable {processCount : UInt16} {ends : Set Pid} {w w' : World}

theorem contained_start (processCount : UInt16) : Contained processCount .start := by
  refine ⟨⟨.testing 0, process_put_self _ _ _, Or.inr ⟨0, rfl⟩, Nat.zero_le _, Nat.zero_le _⟩,
    ?_, ?_⟩
  · intro pid process worker stored
    rw [World.start, process_put_of_ne _ worker] at stored
    cases stored
  · intro call member
    cases member

/-- Only the caller of `Run` can be about to fork. -/
theorem root_of_testing (contained : Contained processCount w) {pid : Pid} {i : Nat}
    {acceptEnded : Bool} (here : w.process pid = some ⟨.testing i, acceptEnded⟩)
    (more : i < processCount.toNat) :
    pid = [] ∧ acceptEnded = false ∧ w.successfulForks ≤ i := by
  by_cases worker : pid = []
  · subst worker
    obtain ⟨stage, stored, _, _, forks⟩ := contained.root
    rw [here] at stored
    cases stored
    exact ⟨rfl, rfl, forks⟩
  · obtain ⟨k, _, accepting | ⟨last, testing | left⟩⟩ := contained.workers pid _ worker here
    · cases accepting
    · cases testing
      omega
    · cases left

/-- The caller of `Run` goes on in its loop. -/
theorem contained_put_root (contained : Contained processCount w) {stage : Stage}
    (loops : stage = .left ∨ ∃ i, stage = .testing i)
    (bound : stage.begun processCount ≤ processCount.toNat) (forks : List ForkCall)
    (few : forks.countP ForkCall.succeeded ≤ stage.begun processCount)
    (calls : ∀ call ∈ forks, call.acceptEnded = false) :
    Contained processCount { w.put [] ⟨stage, false⟩ with forks := forks } := by
  refine ⟨⟨stage, process_put_self w [] _, loops, bound, few⟩, ?_, calls⟩
  intro pid process worker stored
  exact contained.workers pid process worker ((process_put_of_ne w worker _).symm.trans stored)

/-- A worker of iteration `i` goes on. -/
theorem contained_put_worker (contained : Contained processCount w) {i : Nat} {process : Process}
    (place : WorkerAt processCount i process) : Contained processCount (w.put [i] process) := by
  refine ⟨?_, ?_, contained.calls⟩
  · obtain ⟨stage, stored, rest⟩ := contained.root
    exact ⟨stage, by rw [process_put_of_ne w (List.cons_ne_nil i []).symm, stored], rest⟩
  · intro pid process' worker stored
    by_cases same : pid = [i]
    · subst same
      rw [process_put_self] at stored
      cases stored
      exact ⟨i, rfl, place⟩
    · rw [process_put_of_ne w same] at stored
      exact contained.workers pid process' worker stored

theorem calls_append {forks : List ForkCall} (calls : ∀ call ∈ forks, call.acceptEnded = false)
    (succeeded : Bool) :
    ∀ call ∈ forks ++ [⟨[], false, succeeded⟩], call.acceptEnded = false := by
  intro call member
  rcases List.mem_append.mp member with earlier | last
  · exact calls call earlier
  · rw [List.mem_singleton.mp last]

/-- One step keeps the tree contained, if only workers of the last iteration
end. -/
theorem contained_step (only : OnlyLastEnds processCount ends)
    (step : Step processCount ends w w') (contained : Contained processCount w) :
    Contained processCount w' := by
  cases step with
  | @forkSucceeds pid i acceptEnded here more =>
      obtain ⟨rfl, rfl, few⟩ := root_of_testing contained here more
      have counted : (w.forkSucceeds [] i false).forks.countP ForkCall.succeeded ≤ i + 1 :=
        (successfulForks_forkSucceeds w [] i false).trans_le (Nat.succ_le_succ few)
      have moved := contained_put_root contained (Or.inr ⟨i + 1, rfl⟩) more _ counted
        (calls_append contained.calls true)
      exact contained_put_worker moved (Or.inl rfl)
  | @forkFails pid i acceptEnded here more =>
      obtain ⟨rfl, rfl, few⟩ := root_of_testing contained here more
      have counted : (w.forkFails [] i false).forks.countP ForkCall.succeeded ≤ i + 1 :=
        (successfulForks_forkFails w [] i false).trans_le (Nat.le_succ_of_le few)
      exact contained_put_root contained (Or.inr ⟨i + 1, rfl⟩) more _ counted
        (calls_append contained.calls false)
  | @leave pid i acceptEnded here done =>
      by_cases root : pid = []
      · subst root
        obtain ⟨stage, stored, _, bound, few⟩ := contained.root
        rw [here] at stored
        cases stored
        exact contained_put_root contained (Or.inl rfl) (Nat.le_refl _) w.forks
          (Nat.le_trans few bound) contained.calls
      · obtain ⟨k, rfl, accepting | ⟨last, testing | left⟩⟩ := contained.workers pid _ root here
        · cases accepting
        · cases testing
          exact contained_put_worker contained (Or.inr ⟨last, Or.inr rfl⟩)
        · cases left
  | accept here => exact contained
  | @acceptEnds pid i acceptEnded here negative =>
      have worker : pid ≠ [] := by
        rintro rfl
        obtain ⟨stage, stored, loops, _⟩ := contained.root
        rw [here] at stored
        cases stored
        rcases loops with left | ⟨_, testing⟩
        · cases left
        · cases testing
      obtain ⟨k, rfl, accepting | ⟨_, testing | left⟩⟩ := contained.workers pid _ worker here
      · cases accepting
        have last : processCount.toNat ≤ i + 1 := by
          by_contra early
          exact only i (Nat.lt_of_not_le early) negative
        exact contained_put_worker contained (Or.inr ⟨last, Or.inl rfl⟩)
      · cases testing
      · cases left

theorem contained_of_reachable (only : OnlyLastEnds processCount ends)
    (reached : Reachable processCount ends w) : Contained processCount w := by
  induction reached with
  | refl => exact contained_start processCount
  | tail _ step inductionHypothesis => exact contained_step only step inductionHypothesis

/-! ### A worker of an earlier iteration ends -/

/-- The caller of `Run` can fork in every iteration so far, with no worker
leaving its accept loop. -/
theorem reachable_forks (processCount : UInt16) (ends : Set Pid) {k : Nat}
    (early : k ≤ processCount.toNat) :
    ∃ w, Reachable processCount ends w ∧ w.process [] = some ⟨.testing k, false⟩ ∧
      (∀ i < k, w.process [i] = some ⟨.accepting i, false⟩) ∧ w.successfulForks = k := by
  induction k with
  | zero => exact ⟨.start, .refl, process_put_self _ _ _, by simp, rfl⟩
  | succ k inductionHypothesis =>
      obtain ⟨w, reached, root, workers, forks⟩ := inductionHypothesis (by omega)
      refine ⟨w.forkSucceeds [] k false, reached.tail (.forkSucceeds root early), ?_, ?_, ?_⟩
      · rw [process_forkSucceeds, process_put_of_ne _ (by simp), process_put_self]
      · intro i below
        by_cases same : i = k
        · subst same
          exact process_put_self _ _ _
        · rw [process_forkSucceeds, process_put_of_ne _ (by simpa using same),
            process_put_of_ne _ (by simp), workers i (by omega)]
      · rw [successfulForks_forkSucceeds, forks]

/-- A worker forked before the last iteration whose accept loop ends forks
again, beyond the configured number. -/
theorem reachable_too_many {i : Nat} (early : i + 1 < processCount.toNat) (negative : [i] ∈ ends) :
    ∃ w, Reachable processCount ends w ∧ w.successfulForks = processCount.toNat + 1 ∧
      ⟨[i], true, true⟩ ∈ w.forks := by
  obtain ⟨w, reached, _, workers, forks⟩ :=
    reachable_forks processCount ends (Nat.le_refl processCount.toNat)
  have ended := reached.tail (.acceptEnds (workers i (by omega)) negative)
  have again := ended.tail (.forkSucceeds (process_put_self _ _ _) early)
  refine ⟨_, again, ?_, ?_⟩
  · rw [successfulForks_forkSucceeds]
    exact congrArg (· + 1) forks
  · exact List.mem_append_right _ List.mem_cons_self

/-! ### The configured number -/

/-- For every number of processes and every set of workers whose accept loops
can end: the tree never makes more than the configured number of successful
forks if and only if only workers of the last iteration end, and this is also
exactly when no worker forks after its accept loop has ended. -/
theorem forks_contained_iff (processCount : UInt16) (ends : Set Pid) :
    ((∀ w, Reachable processCount ends w → w.successfulForks ≤ processCount.toNat) ↔
        OnlyLastEnds processCount ends) ∧
      ((∀ w, Reachable processCount ends w → ∀ call ∈ w.forks, call.acceptEnded = false) ↔
        OnlyLastEnds processCount ends) := by
  refine ⟨⟨?_, ?_⟩, ⟨?_, ?_⟩⟩
  · intro bounded i early negative
    obtain ⟨w, reached, forks, _⟩ := reachable_too_many early negative
    have few := bounded w reached
    omega
  · intro only w reached
    obtain ⟨stage, _, _, bound, few⟩ := (contained_of_reachable only reached).root
    exact Nat.le_trans few bound
  · intro never i early negative
    obtain ⟨w, reached, _, called⟩ := reachable_too_many early negative
    cases never w reached _ called
  · intro only w reached
    exact (contained_of_reachable only reached).calls

/-- With two processes, the first worker's accept loop ends: three processes
are forked, one of them by that worker. -/
theorem two_processes_fork_three :
    ∃ w, Reachable 2 {[0]} w ∧ w.successfulForks = 3 ∧ ⟨[0], true, true⟩ ∈ w.forks :=
  reachable_too_many (i := 0) (by decide) rfl

end CFastCgiServer

end FastCgi
