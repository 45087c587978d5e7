/-
Module: FastCgi.Proofs.PoolBounds
Layer: Proofs
Purpose: How many tasks a worker has, has ever made, and under which ids.  A
  step leaves the table of tasks alone, makes a task while there are too few,
  or retires one while there are too many; since no more than the larger of the
  two counts are ever made, the ids never come round.
Trusted boundary: none
Main exports: activate_cases, TaskChange, taskChange_step, pool_bounded
-/
import FastCgi.Proofs.AcceptProgress

namespace FastCgi

namespace Cocgi

open CCocgiServer

/-! ### Activations -/

/-- An activation changes no container, or goes through the outer loop, with its
descriptor closed before that if it had one. -/
theorem activate_cases {s : CCocgiServer} {p : TaskPtr} {ret : ErrorCode} {activation : Activation}
    (ran : s.activate p ret = .ok activation) :
    (∃ coroutine, activation = ⟨[s.containers], s.suspend p coroutine⟩) ∨
      (∃ task, activation = s.runOuterLoop p task) ∨
      ∃ iFd task, activation = (s.without iFd).runOuterLoop p task := by
  cases coroutine : s.coroutine p with
  | created =>
      simp only [activate, coroutine] at ran
      split at ran
      · cases ran
        exact Or.inr (Or.inl ⟨_, rfl⟩)
      · cases ran
  | yielded task =>
      simp only [activate, coroutine] at ran
      cases ran
      exact Or.inr (Or.inl ⟨_, rfl⟩)
  | polling task iFd recycle =>
      simp only [activate, coroutine] at ran
      split at ran
      · cases ran
        exact Or.inl ⟨_, rfl⟩
      · by_cases isOpen : iFd ∈ s.openFds
        · rw [close, if_pos isOpen] at ran
          cases ran
          exact Or.inr (Or.inr ⟨iFd, task, rfl⟩)
        · rw [close, if_neg isOpen] at ran
          cases ran
  | returned =>
      simp only [activate, coroutine] at ran
      cases ran

/-- The moments of an activation lead from the containers before it to those
after it, and the table of tasks changes once at most on the way. -/
structure Leads (s : CCocgiServer) (activation : Activation) : Prop where
  head : activation.moments.head? = some s.containers
  last : activation.moments.getLast? = some activation.server.containers
  task : ∀ c ∈ activation.moments, c.task = s.task ∨ c.task = activation.server.task

theorem leads_runOuterLoop (s : CCocgiServer) (p task : TaskPtr) :
    Leads s (s.runOuterLoop p task) := by
  unfold runOuterLoop
  split
  · split
    · refine ⟨rfl, rfl, ?_⟩
      simp [retire, suspend, containers, leaveRunTask, leaveTask]
    · refine ⟨rfl, rfl, ?_⟩
      simp [park, suspend, containers, leaveRunTask, becomeIdle]
  · exact ⟨rfl, rfl, by simp [containers]⟩

theorem leads_of_activate {s : CCocgiServer} {p : TaskPtr} {ret : ErrorCode}
    {activation : Activation} (ran : s.activate p ret = .ok activation) : Leads s activation := by
  rcases activate_cases ran with ⟨coroutine, rfl⟩ | ⟨task, rfl⟩ | ⟨iFd, task, rfl⟩
  · refine ⟨rfl, rfl, ?_⟩
    intro c member
    cases List.mem_singleton.mp member
    exact Or.inl rfl
  · exact leads_runOuterLoop s p task
  · -- closing a descriptor is no change to the containers
    obtain ⟨head, last, kept⟩ := leads_runOuterLoop (s.without iFd) p task
    exact ⟨head, last, kept⟩

/-- The activation that a run is the end of. -/
theorem activate_of_resume {s s' : CCocgiServer} {p : TaskPtr} {ret : ErrorCode}
    (ran : s.resume p ret = .ok s') :
    ∃ activation, s.activate p ret = .ok activation ∧ activation.server = s' ∧
      s.moments p ret = .ok activation.moments := by
  rw [resume] at ran
  rw [CCocgiServer.moments]
  cases activated : s.activate p ret with
  | error fault =>
      rw [activated] at ran
      cases ran
  | ok activation =>
      rw [activated] at ran
      exact ⟨activation, rfl, Except.ok.inj ran, rfl⟩

/-! ### The table of tasks -/

/-- The fields of the server that say which tasks there are, and were. -/
structure Table where
  maxCoroutineCount : UInt16
  coIndex : UInt32
  task : Std.ExtTreeMap UInt32 TaskPtr
  allocated : Nat

def CCocgiServer.table (s : CCocgiServer) : Table where
  maxCoroutineCount := s.maxCoroutineCount
  coIndex := s.coIndex
  task := s.task
  allocated := s.allocated

/-- What a step can do to the table: nothing, make a task, or retire one while
there are too many. -/
inductive TaskChange : Table → Table → Prop where
  | kept (t : Table) : TaskChange t t
  | made (t : Table) : TaskChange t
      { t with
        task := t.task.insert t.coIndex t.allocated
        allocated := t.allocated + 1
        coIndex := t.coIndex + 1 }
  | retired (t : Table) (id : UInt32) (many : t.maxCoroutineCount.toNat < t.task.size) :
      TaskChange t { t with task := t.task.erase id }

theorem taskChange_runOuterLoop (s : CCocgiServer) (p task : TaskPtr) :
    TaskChange s.table (s.runOuterLoop p task).server.table := by
  unfold runOuterLoop
  split
  · split
    · rename_i many
      exact .retired s.table _ many
    · exact .kept s.table
  · exact .kept s.table

/-- An iteration of the accept loop changes the table in its first statement
only. -/
theorem taskChange_acceptIteration (s : CCocgiServer) (iFd : Int) :
    TaskChange s.table (s.acceptIteration iFd).2.table := by
  have refilled : TaskChange s.table s.refill.table := by
    unfold refill
    split
    · exact .made s.table
    · exact .kept s.table
  unfold acceptIteration
  split
  · exact refilled
  · split
    · exact refilled
    · exact refilled

theorem taskChange_step {w w' : World} (step : Step w w') :
    TaskChange w.server.table w'.server.table := by
  cases step with
  | resumeAccept s => exact .kept s.table
  | resumeTask s p task iFd recycle waits => exact .kept s.table
  | spin s s' iFd closed turn =>
      have change := taskChange_acceptIteration s iFd
      rwa [turn] at change
  | poll s s' iFd closed turn =>
      have change := taskChange_acceptIteration s iFd
      rwa [turn] at change
  | accept s s' iFd p closed turn =>
      have change := taskChange_acceptIteration s iFd
      rwa [turn] at change
  | run s s' p resumer ret ran =>
      obtain ⟨activation, activated, rfl, -⟩ := activate_of_resume ran
      rcases activate_cases activated with ⟨_, rfl⟩ | ⟨task, rfl⟩ | ⟨iFd, task, rfl⟩
      · exact .kept s.table
      · exact taskChange_runOuterLoop s p task
      · exact taskChange_runOuterLoop (s.without iFd) p task

namespace TaskChange

variable {t t' : Table} (change : TaskChange t t')

include change

theorem limit : t'.maxCoroutineCount = t.maxCoroutineCount := by
  cases change with
  | kept => rfl
  | made => rfl
  | retired => rfl

/-- No task is ever unmade. -/
theorem allocated_le : t.allocated ≤ t'.allocated := by
  cases change with
  | kept => exact Nat.le_refl _
  | made => exact Nat.le_succ _
  | retired => exact Nat.le_refl _

/-- The table shrinks only while there are too many tasks, and by one. -/
theorem min_size_le : min t.task.size t.maxCoroutineCount.toNat ≤ t'.task.size := by
  cases change with
  | kept => exact Nat.min_le_left _ _
  | made => exact (Nat.min_le_left _ _).trans Std.ExtTreeMap.size_le_size_insert
  | retired id many =>
      have shrinks := Std.ExtTreeMap.size_le_size_erase (t := t.task) (k := id)
      simp only
      omega

/-- A new entry has the next id. -/
theorem eq_coIndex {id : UInt32} (absent : id ∉ t.task) (present : id ∈ t'.task) :
    id = t.coIndex := by
  cases change with
  | kept => exact absurd present absent
  | made =>
      rcases Std.ExtTreeMap.mem_insert.mp present with same | earlier
      · exact (Std.LawfulEqCmp.eq_of_compare same).symm
      · exact absurd earlier absent
  | retired => exact absurd (Std.ExtTreeMap.mem_of_mem_erase present) absent

end TaskChange

/-! ### Runs -/

section Runs

variable {coroutineCount maxCoroutineCount : UInt16} {w : World}

theorem maxCoroutineCount_of_reachable (reached : Reachable coroutineCount maxCoroutineCount w) :
    w.server.maxCoroutineCount = maxCoroutineCount := by
  induction reached with
  | refl => exact maxCoroutineCount_start coroutineCount maxCoroutineCount
  | tail _ step inductionHypothesis => exact (taskChange_step step).limit.trans inductionHypothesis

/-- No more tasks are ever made than initially, or than there may be. -/
theorem allocated_of_reachable (reached : Reachable coroutineCount maxCoroutineCount w) :
    w.server.allocated ≤ max coroutineCount.toNat maxCoroutineCount.toNat := by
  rw [← maxCoroutineCount_of_reachable reached]
  exact (consistent_of_reachable reached).stored.bounded

/-- The tasks are among those ever made. -/
theorem size_le_allocated {n : Nat} {s : CCocgiServer} (stored : Stored n s) :
    s.task.size ≤ s.allocated := by
  have apart : Disjoint s.idleTask.toFinset s.runTask := by
    rw [Finset.disjoint_left]
    intro p idle
    exact stored.disjoint p (List.mem_toFinset.mp idle)
  have within : s.idleTask.toFinset ∪ s.runTask ⊆ Finset.range s.allocated := by
    intro p member
    rw [Finset.mem_union, List.mem_toFinset] at member
    exact Finset.mem_range.mpr (stored.below p member)
  calc s.task.size = s.idleTask.length + s.runTask.card := stored.size
    _ = (s.idleTask.toFinset ∪ s.runTask).card := by
        rw [Finset.card_union_of_disjoint apart, List.toFinset_card_of_nodup stored.idle_nodup]
    _ ≤ (Finset.range s.allocated).card := Finset.card_le_card within
    _ = s.allocated := Finset.card_range s.allocated

/-- There are never more tasks than initially, or than there may be. -/
theorem size_of_reachable (reached : Reachable coroutineCount maxCoroutineCount w) :
    w.server.task.size ≤ max coroutineCount.toNat maxCoroutineCount.toNat :=
  (size_le_allocated (consistent_of_reachable reached).stored).trans
    (allocated_of_reachable reached)

theorem size_start (coroutineCount maxCoroutineCount : UInt16) :
    (World.start coroutineCount maxCoroutineCount).server.task.size = coroutineCount.toNat :=
  (consistent_iterate coroutineCount.toNat coroutineCount.toNat_lt maxCoroutineCount
    (Nat.le_refl _)).2.2.2

/-- Nor fewer than initially and than there may be: a step that retires a task
leaves as many as there may be. -/
theorem min_le_size_of_reachable (reached : Reachable coroutineCount maxCoroutineCount w) :
    min coroutineCount.toNat maxCoroutineCount.toNat ≤ w.server.task.size := by
  induction reached with
  | refl =>
      rw [size_start]
      exact Nat.min_le_left _ _
  | tail before step inductionHypothesis =>
      have limit := maxCoroutineCount_of_reachable before
      have left := (taskChange_step step).min_size_le
      simp only [CCocgiServer.table, limit] at left
      omega

theorem withinLimits_of_reachable (reached : Reachable coroutineCount maxCoroutineCount w) :
    WithinLimits coroutineCount maxCoroutineCount w.server.task :=
  ⟨min_le_size_of_reachable reached, size_of_reachable reached⟩

/-- The accept loop makes a task only while there are too few. -/
theorem withinLimits_refill (reached : Reachable coroutineCount maxCoroutineCount w) :
    WithinLimits coroutineCount maxCoroutineCount w.server.refill.task := by
  obtain ⟨enough, few⟩ := withinLimits_of_reachable reached
  unfold refill
  split
  · rename_i room
    rw [maxCoroutineCount_of_reachable reached] at room
    have grows := Std.ExtTreeMap.size_le_size_insert (t := w.server.task)
      (k := w.server.coIndex) (v := w.server.allocated)
    have byOne := Std.ExtTreeMap.size_insert_le (t := w.server.task)
      (k := w.server.coIndex) (v := w.server.allocated)
    have made : w.server.createCocgiTask.task =
      w.server.task.insert w.server.coIndex w.server.allocated := rfl
    rw [WithinLimits, made]
    omega
  · exact ⟨enough, few⟩

/-- The table during an activation is the one before it or the one after. -/
theorem withinLimits_moments (reached : Reachable coroutineCount maxCoroutineCount w)
    {p : TaskPtr} {resumer : Resumer} (control : w.control = .task p resumer) (ret : ErrorCode) :
    ∃ moments, w.server.moments p ret = .ok moments ∧
      ∀ c ∈ moments, WithinLimits coroutineCount maxCoroutineCount c.task := by
  obtain ⟨stored, holding, running⟩ := consistent_of_reachable reached
  rw [control] at holding
  obtain ⟨s', ran, _⟩ := consistent_resume coroutineCount.toNat_lt (ready_task_eq p resumer)
    (running p resumer control) stored holding ret
  obtain ⟨activation, activated, rfl, traced⟩ := activate_of_resume ran
  have next : Step w ⟨activation.server, resumer.control⟩ := by
    have step := Step.run w.server activation.server p resumer ret ran
    rwa [← control] at step
  refine ⟨activation.moments, traced, ?_⟩
  intro c member
  rcases (leads_of_activate activated).task c member with before | after
  · rw [before]
    exact withinLimits_of_reachable reached
  · rw [after]
    exact withinLimits_of_reachable (reached.tail next)

/-- The counter has counted the tasks without wrapping. -/
theorem coIndex_of_reachable (reached : Reachable coroutineCount maxCoroutineCount w) :
    w.server.coIndex.toNat = w.server.allocated := by
  have bounded := allocated_of_reachable reached
  have small := coroutineCount.toNat_lt
  have limit := maxCoroutineCount.toNat_lt
  rw [(consistent_of_reachable reached).stored.index, UInt32.toNat_ofNat']
  exact Nat.mod_eq_of_lt (by omega)

/-- An id in use was given to a task that has been made. -/
theorem id_lt_coIndex (reached : Reachable coroutineCount maxCoroutineCount w) {id : UInt32}
    (used : id ∈ w.server.task) : id.toNat < w.server.allocated := by
  have stored := (consistent_of_reachable reached).stored
  rw [Std.ExtTreeMap.mem_iff_isSome_getElem?, Option.isSome_iff_exists] at used
  obtain ⟨p, found⟩ := used
  obtain ⟨held, rfl⟩ := (stored.stored id p).mp found
  have below := stored.below p held
  rw [stored.ids p below, UInt32.toNat_ofNat']
  exact Nat.lt_of_le_of_lt (Nat.mod_le _ _) below

theorem allocated_le_of_run {w' : World} (run : Relation.ReflTransGen Step w w') :
    w.server.allocated ≤ w'.server.allocated := by
  induction run with
  | refl => exact Nat.le_refl _
  | tail _ step inductionHypothesis =>
      exact inductionHypothesis.trans (taskChange_step step).allocated_le

/-- An id that a step stores was stored at no point of the run before it. -/
theorem id_fresh {w₁ w₂ : World} (reached : Reachable coroutineCount maxCoroutineCount w)
    (run : Relation.ReflTransGen Step w w₁) (step : Step w₁ w₂) {id : UInt32}
    (absent : id ∉ w₁.server.task) (present : id ∈ w₂.server.task) : id ∉ w.server.task := by
  intro used
  have new : id = w₁.server.coIndex := (taskChange_step step).eq_coIndex absent present
  have earlier := id_lt_coIndex reached used
  have grown := allocated_le_of_run run
  rw [new, coIndex_of_reachable (reached.trans run)] at earlier
  omega

end Runs

/-- Every worker, whatever the two counts are and however long it runs. -/
theorem pool_bounded (coroutineCount maxCoroutineCount : UInt16) :
    PoolBounded coroutineCount maxCoroutineCount where
  started := size_start coroutineCount maxCoroutineCount
  passes := fun _ reached => withinLimits_of_reachable reached
  accepts := fun _ reached _ => withinLimits_refill reached
  runs := fun _ reached _ _ control ret => withinLimits_moments reached control ret
  made := fun _ reached => allocated_of_reachable reached
  never_wraps := fun _ reached => coIndex_of_reachable reached
  fresh_ids := fun _ _ _ reached run step _ absent present =>
    id_fresh reached run step absent present

end Cocgi

end FastCgi
