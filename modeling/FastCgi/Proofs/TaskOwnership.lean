/-
Module: FastCgi.Proofs.TaskOwnership
Layer: Proofs
Purpose: When a coroutine of the pool is released while it runs.  A task that
  retires leaves the containers before its routine returns, so the local of the
  routine is its last owner; a worker gets there exactly if it starts with more
  tasks than it may have, and with more than one.
Trusted boundary: none
Main exports: moments_running, retire_unowned, held_while_running_iff
-/
import FastCgi.Proofs.PoolBounds

namespace FastCgi

namespace Cocgi

open CCocgiServer

/-! ### Moments of an activation -/

section Activation

variable {n : Nat} {s : CCocgiServer} {p : TaskPtr}

/-- A task that the event loop resumes leaves the containers as they are, or
closes its descriptor and goes to the top of its outer loop. -/
theorem moments_running (running : p ∈ s.runTask) (holding : Holding s none) (ret : ErrorCode) :
    s.moments p ret = .ok [s.containers] ∨
      s.moments p ret = .ok ((s.without (s.descriptor p)).runOuterLoop p p).moments := by
  obtain ⟨_, iFd, recycle, polling⟩ := holding.run_task p running (by simp)
  simp only [CCocgiServer.moments, activate, polling, close_running running holding polling]
  cases nextTurn recycle (some ret) with
  | inl next => exact Or.inl rfl
  | inr phase => exact Or.inr rfl

/-- A task that becomes idle is in the list of idle tasks before it leaves the
set of running ones. -/
theorem held_of_park (running : p ∈ s.runTask) (few : s.task.size ≤ s.maxCoroutineCount.toNat)
    (resumer : Resumer) : ∀ c ∈ (s.runOuterLoop p p).moments, HeldElsewhere c resumer p := by
  have starts : HeldElsewhere s.containers resumer p := ⟨.usRunTask, running⟩
  unfold runOuterLoop
  split
  · rw [if_neg (Nat.not_lt.mpr few)]
    intro c member
    simp only [List.mem_cons, List.not_mem_nil, or_false] at member
    rcases member with rfl | rfl | rfl
    · exact starts
    · exact ⟨.lIdleTask, List.mem_cons_self⟩
    · exact ⟨.lIdleTask, List.mem_cons_self⟩
  · intro c member
    cases List.mem_singleton.mp member
    exact starts

/-- A task that retires has no owner but its own routine when that returns. -/
theorem retire_unowned (small : n < 2 ^ 16) (running : p ∈ s.runTask) (stored : Stored n s)
    (given : (s.heap p).iFd = -1) (many : s.maxCoroutineCount.toNat < s.task.size) (iFd : Int) :
    ∃ c ∈ ((s.without iFd).runOuterLoop p p).moments, ¬ HeldElsewhere c .eventLoop p := by
  have idle : p ∉ s.idleTask := fun idle => stored.disjoint p idle running
  have given' : ((s.without iFd).heap p).iFd = -1 := given
  have many' : (s.without iFd).maxCoroutineCount.toNat < (s.without iFd).task.size := many
  rw [runOuterLoop, if_pos given', if_pos many']
  refine ⟨_, List.mem_cons_of_mem _ (List.mem_cons_of_mem _ List.mem_cons_self), ?_⟩
  rintro ⟨owner, holds⟩
  cases owner with
  | umTask =>
      obtain ⟨id, found⟩ := holds
      rcases ((lookup_erase small running stored id p).mp found).1 with isIdle | runs
      · exact idle isIdle
      · exact Finset.notMem_erase p s.runTask runs
  | lIdleTask => exact idle holds
  | usRunTask => exact Finset.notMem_erase p s.runTask holds
  | acceptRoutine => cases holds

end Activation

/-! ### Workers that never retire a task -/

/-- The accept loop waits for connections only while a task is idle. -/
theorem idle_of_polls {s s' : CCocgiServer} {iFd : Int}
    (turn : s.acceptIteration iFd = (.polls, s')) : s'.idleTask ≠ [] := by
  unfold acceptIteration at turn
  split at turn
  · cases turn
  · rename_i p idleTask first
    split at turn
    · cases turn
      rw [first]
      exact List.cons_ne_nil p idleTask
    · cases turn

/-- The event loop has no task to resume. -/
def Unresumed (w : World) : Prop :=
  (w.control = .eventLoop → w.server.runTask = ∅) ∧ ∀ p, w.control ≠ .task p .eventLoop

/-- A worker with one task at most, which may make no more, never resumes it
from the event loop: once the task has a connection, the accept loop finds no
idle task and keeps control. -/
theorem unresumed_of_reachable {coroutineCount : UInt16} {w : World}
    (single : coroutineCount ≤ 1) (reached : Reachable coroutineCount 0 w) : Unresumed w := by
  induction reached with
  | refl => exact ⟨nofun, nofun⟩
  | tail before step inductionHypothesis =>
      have after := before.tail step
      obtain ⟨unused, never⟩ := inductionHypothesis
      cases step with
      | resumeAccept s => exact ⟨nofun, nofun⟩
      | resumeTask s p task iFd recycle waits =>
          have running := (consistent_of_reachable before).holding.polls p task iFd recycle waits
          rw [unused rfl] at running
          exact absurd running (Finset.notMem_empty p)
      | spin s s' iFd closed turn => exact ⟨nofun, nofun⟩
      | poll s s' iFd closed turn =>
          refine ⟨fun _ => ?_, nofun⟩
          have idle := List.length_pos_iff.mpr (idle_of_polls turn)
          have total : s'.task.size = s'.idleTask.length + s'.runTask.card :=
            (consistent_of_reachable after).stored.size
          have bounded : s'.task.size ≤ max coroutineCount.toNat 0 := size_of_reachable after
          have one : coroutineCount.toNat ≤ 1 := single
          have none : s'.runTask.card = 0 := by omega
          exact Finset.card_eq_zero.mp none
      | accept s s' iFd p closed turn => exact ⟨nofun, nofun⟩
      | run s s' p resumer ret ran =>
          cases resumer with
          | eventLoop => exact absurd rfl (never p)
          | acceptRoutine => exact ⟨nofun, nofun⟩

/-- In a worker that starts with no more tasks than it may have, or with no
more than one, the event loop resumes a task only while there are not too
many. -/
theorem few_of_reachable {coroutineCount maxCoroutineCount : UInt16} {w : World} {p : TaskPtr}
    (few : coroutineCount ≤ maxCoroutineCount ∨ coroutineCount ≤ 1)
    (reached : Reachable coroutineCount maxCoroutineCount w)
    (control : w.control = .task p .eventLoop) :
    w.server.task.size ≤ w.server.maxCoroutineCount.toNat := by
  by_cases none : maxCoroutineCount = 0 ∧ coroutineCount ≤ 1
  · obtain ⟨rfl, single⟩ := none
    exact absurd control ((unresumed_of_reachable single reached).2 p)
  · have bounded := size_of_reachable reached
    rw [maxCoroutineCount_of_reachable reached]
    have enough : coroutineCount.toNat ≤ maxCoroutineCount.toNat := by
      rcases few with few | single
      · exact few
      · have some : maxCoroutineCount.toNat ≠ 0 :=
          fun zero => none ⟨UInt16.toNat_inj.mp zero, single⟩
        have one : coroutineCount.toNat ≤ 1 := single
        omega
    omega

/-! ### The task that retires -/

/-- A worker starts with idle tasks only, and without a connection. -/
theorem start_idle (coroutineCount maxCoroutineCount : UInt16) :
    (World.start coroutineCount maxCoroutineCount).server.idleTask.length =
        coroutineCount.toNat ∧
      (World.start coroutineCount maxCoroutineCount).server.openFds = ∅ := by
  unfold World.start
  induction coroutineCount.toNat with
  | zero => exact ⟨rfl, rfl⟩
  | succ k inductionHypothesis =>
      simp only [Function.iterate_succ_apply']
      exact ⟨congrArg (· + 1) inductionHypothesis.1, inductionHypothesis.2⟩

/-- Two idle tasks and no connection: the first task is given a connection, the
accept loop waits for the next one, and the event loop resumes the task. -/
theorem resumed_by_eventLoop {n : Nat} (small : n < 2 ^ 16) {s : CCocgiServer} {p q : TaskPtr}
    {idleTask : List TaskPtr} (consistent : Consistent n ⟨s, .acceptRoutine⟩)
    (idle : s.idleTask = p :: q :: idleTask) (unused : s.openFds = ∅) :
    ∃ s', Relation.ReflTransGen Step ⟨s, .acceptRoutine⟩ ⟨s', .task p .eventLoop⟩ ∧
      Consistent n ⟨s', .task p .eventLoop⟩ ∧ s'.task = s.task ∧
      s'.maxCoroutineCount = s.maxCoroutineCount := by
  have full : s.refill = s := if_neg (by simp [idle])
  have first : s.refill.idleTask = p :: q :: idleTask := by rw [full, idle]
  have closed : (5 : Int) ∉ s.openFds := by simp [unused]
  obtain ⟨served, waiting⟩ := accept_serves small consistent first (by decide) closed
  rw [full] at served waiting
  generalize after : (s.handOver p (q :: idleTask) 5).takeFd p p = s' at served waiting
  have turn : s'.acceptIteration (-1) = (.polls, s') := by
    subst after
    rfl
  have closed : (-1 : Int) ∉ s'.openFds := by
    subst after
    simp [takeFd, suspend, setFd, handOver, unused]
  have polling : s'.coroutine p = .polling p 5 0 := by
    subst after
    simp [takeFd, suspend, setFd, handOver]
  have polled := Step.poll s' s' (-1) closed turn
  have resumed := Step.resumeTask s' p p 5 0 polling
  refine ⟨s', .tail (.tail served polled) resumed,
    consistent_step small resumed (consistent_step small polled waiting), ?_, ?_⟩
  · subst after
    rfl
  · subst after
    rfl

/-- A task that the event loop resumes while there are too many retires when its
connection fails. -/
theorem retires_unowned {n : Nat} (small : n < 2 ^ 16) {s : CCocgiServer} {p : TaskPtr}
    (running : p ∈ s.runTask) (stored : Stored n s) (holding : Holding s none)
    (many : s.maxCoroutineCount.toNat < s.task.size) :
    ∃ moments, s.moments p .errSocketRead = .ok moments ∧
      ∃ c ∈ moments, ¬ HeldElsewhere c .eventLoop p := by
  obtain ⟨field, iFd, recycle, polling⟩ := holding.run_task p running (by simp)
  have lost : s.moments p .errSocketRead =
      .ok ((s.without (s.descriptor p)).runOuterLoop p p).moments := by
    simp only [CCocgiServer.moments, activate, polling, close_running running holding polling]
    rfl
  exact ⟨_, lost, retire_unowned small running stored field many _⟩

/-! ### The exact condition -/

theorem held_of_few {coroutineCount maxCoroutineCount : UInt16}
    (few : coroutineCount ≤ maxCoroutineCount ∨ coroutineCount ≤ 1) :
    HeldWhileRunning coroutineCount maxCoroutineCount := by
  intro w reached p resumer control ret
  obtain ⟨stored, holding, running⟩ := consistent_of_reachable reached
  have running := running p resumer control
  cases resumer with
  | acceptRoutine =>
      -- the local of the accept loop holds the task that it resumes
      rw [control] at holding
      obtain ⟨activation, -, -, traced⟩ := activate_of_resume (resume_ready stored holding ret)
      exact ⟨activation.moments, traced, fun c _ => ⟨.acceptRoutine, rfl⟩⟩
  | eventLoop =>
      have small := few_of_reachable few reached control
      rw [control] at holding
      rcases moments_running running holding ret with traced | traced
      · refine ⟨_, traced, ?_⟩
        intro c member
        cases List.mem_singleton.mp member
        exact ⟨.usRunTask, running⟩
      · exact ⟨_, traced, held_of_park (s := w.server.without (w.server.descriptor p)) running
          small .eventLoop⟩

theorem not_held_of_many {coroutineCount maxCoroutineCount : UInt16}
    (many : maxCoroutineCount < coroutineCount) (several : 1 < coroutineCount) :
    ∃ s p, Reachable coroutineCount maxCoroutineCount ⟨s, .task p .eventLoop⟩ ∧
      ∃ moments, s.moments p .errSocketRead = .ok moments ∧
        ∃ c ∈ moments, ¬ HeldElsewhere c .eventLoop p := by
  obtain ⟨length, unused⟩ := start_idle coroutineCount maxCoroutineCount
  have start := consistent_start coroutineCount maxCoroutineCount
  have several' : 1 < coroutineCount.toNat := several
  obtain ⟨p, q, idleTask, idle⟩ : ∃ p q idleTask,
      (World.start coroutineCount maxCoroutineCount).server.idleTask = p :: q :: idleTask := by
    rcases idle : (World.start coroutineCount maxCoroutineCount).server.idleTask with
      _ | ⟨p, _ | ⟨q, idleTask⟩⟩
    · rw [idle, List.length_nil] at length
      omega
    · rw [idle, List.length_singleton] at length
      omega
    · exact ⟨p, q, idleTask, rfl⟩
  obtain ⟨s, reached, ⟨stored, holding, running⟩, sameTasks, sameLimit⟩ :=
    resumed_by_eventLoop (s := (World.start coroutineCount maxCoroutineCount).server)
      coroutineCount.toNat_lt start idle unused
  have many' : s.maxCoroutineCount.toNat < s.task.size := by
    have size := start.stored.size
    have fewer : maxCoroutineCount.toNat < coroutineCount.toNat := many
    rw [sameTasks, sameLimit, maxCoroutineCount_start]
    omega
  exact ⟨s, p, reached, retires_unowned coroutineCount.toNat_lt (running p .eventLoop rfl) stored
    holding many'⟩

/-- The exact condition under which no coroutine is ever released while it
runs: the worker starts with no more tasks than it may have, or with one at
most. -/
theorem held_while_running_iff (coroutineCount maxCoroutineCount : UInt16) :
    HeldWhileRunning coroutineCount maxCoroutineCount ↔
      coroutineCount ≤ maxCoroutineCount ∨ coroutineCount ≤ 1 := by
  constructor
  · intro held
    by_contra failed
    obtain ⟨many, several⟩ := not_or.mp failed
    obtain ⟨s, p, reached, moments, traced, c, member, unowned⟩ :=
      not_held_of_many (UInt16.not_le.mp many) (UInt16.not_le.mp several)
    obtain ⟨moments', traced', owned⟩ := held _ reached p .eventLoop rfl .errSocketRead
    cases traced.symm.trans traced'
    exact unowned (owned c member)
  · exact held_of_few

/-- A worker started with fifty-one tasks releases a coroutine that runs when
its first connection fails. -/
theorem fifty_one_tasks_release_running :
    ∃ s p, Reachable 51 50 ⟨s, .task p .eventLoop⟩ ∧
      ∃ moments, s.moments p .errSocketRead = .ok moments ∧
        ∃ c ∈ moments, ¬ HeldElsewhere c .eventLoop p :=
  not_held_of_many (by decide) (by decide)

end Cocgi

end FastCgi
