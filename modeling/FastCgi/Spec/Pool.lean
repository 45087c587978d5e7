/-
Module: FastCgi.Spec.Pool
Layer: Spec
Purpose: When the containers of a cocgi worker agree with one another and with
  the descriptors its tasks hold, how many tasks it may have, and who owns a
  task while it runs.
Trusted boundary: human-reviewed spec
Main exports: CCocgiServer.descriptor, PoolInvariant, Saturated, PoolBounded,
  Owner, HeldElsewhere, HeldWhileRunning
-/
import FastCgi.Model.CoroutinePool

namespace FastCgi

namespace Cocgi

/-- The descriptor a task holds: in the inner loop the local of its routine,
otherwise its field. -/
def CCocgiServer.descriptor (s : CCocgiServer) (p : TaskPtr) : Int :=
  match s.coroutine p with
  | .polling _ iFd _ => iFd
  | _ => (s.heap p).iFd

/-- The containers of the pool agree: every task is stored once, under its own
id, and is either idle, without a descriptor, or running, and the running
tasks hold the open descriptors, one each. -/
structure PoolInvariant (s : CCocgiServer) : Prop where
  idle_nodup : s.idleTask.Nodup
  disjoint : ∀ p ∈ s.idleTask, p ∉ s.runTask
  stored : ∀ p, (∃ id : UInt32, s.task[id]? = some p) ↔ p ∈ s.idleTask ∨ p ∈ s.runTask
  own_id : ∀ (id : UInt32) p, s.task[id]? = some p → (s.heap p).uCoId = id
  distinct_ids : ∀ (id id' : UInt32) p p', s.task[id]? = some p → s.task[id']? = some p' →
    (s.heap p).uCoId = (s.heap p').uCoId → p = p'
  idle_free : ∀ p ∈ s.idleTask, (s.heap p).iFd = -1
  served : Set.BijOn s.descriptor s.runTask s.openFds

/-- No task is idle, and no more may be made. -/
def Saturated (s : CCocgiServer) : Prop :=
  s.idleTask = [] ∧ s.maxCoroutineCount.toNat ≤ s.task.size

/-! ### How many tasks there are -/

/-- As many tasks as initially or as there may be, or a number between the
two. -/
def WithinLimits (coroutineCount maxCoroutineCount : UInt16)
    (task : Std.ExtTreeMap UInt32 TaskPtr) : Prop :=
  min coroutineCount.toNat maxCoroutineCount.toNat ≤ task.size ∧
    task.size ≤ max coroutineCount.toNat maxCoroutineCount.toNat

/-- A worker whose pool stays within its limits and never uses an id twice.
The table of tasks changes between two points at which control passes in the
first statement of the accept loop and at the end of an activation, so these
are looked at too. -/
structure PoolBounded (coroutineCount maxCoroutineCount : UInt16) : Prop where
  started : (World.start coroutineCount maxCoroutineCount).server.task.size =
    coroutineCount.toNat
  passes : ∀ w, Reachable coroutineCount maxCoroutineCount w →
    WithinLimits coroutineCount maxCoroutineCount w.server.task
  accepts : ∀ w, Reachable coroutineCount maxCoroutineCount w → w.control = .acceptRoutine →
    WithinLimits coroutineCount maxCoroutineCount w.server.refill.task
  runs : ∀ w, Reachable coroutineCount maxCoroutineCount w →
    ∀ p resumer, w.control = .task p resumer → ∀ ret,
      ∃ moments, w.server.moments p ret = .ok moments ∧
        ∀ c ∈ moments, WithinLimits coroutineCount maxCoroutineCount c.task
  made : ∀ w, Reachable coroutineCount maxCoroutineCount w →
    w.server.allocated ≤ max coroutineCount.toNat maxCoroutineCount.toNat
  never_wraps : ∀ w, Reachable coroutineCount maxCoroutineCount w →
    w.server.coIndex.toNat = w.server.allocated
  fresh_ids : ∀ w w₁ w₂, Reachable coroutineCount maxCoroutineCount w →
    Relation.ReflTransGen Step w w₁ → Step w₁ w₂ →
    ∀ id : UInt32, id ∉ w₁.server.task → id ∈ w₂.server.task → id ∉ w.server.task

/-! ### Owners of a task -/

/-- Who can hold a `shared_ptr` to a task, apart from the local `pCocgiTask` of
the task's own `RealReadwriteRoutine`. -/
inductive Owner where
  | umTask
  | lIdleTask
  | usRunTask
  | acceptRoutine
deriving Repr, DecidableEq

/-- The owners of `p` while its coroutine runs, resumed by `resumer`.  The local
of `AcceptRoutine` is in scope during its `co_resume` only, and names the task
that it has resumed. -/
def owners (c : CCocgiServer.Containers) (resumer : Resumer) (p : TaskPtr) : Set Owner :=
  fun owner =>
    match owner with
    | .umTask => ∃ id : UInt32, c.task[id]? = some p
    | .lIdleTask => p ∈ c.idleTask
    | .usRunTask => p ∈ c.runTask
    | .acceptRoutine => resumer = .acceptRoutine

/-- When the activation of `p` ends now, its own local is not the last owner, so
the coroutine is not released while it runs. -/
def HeldElsewhere (c : CCocgiServer.Containers) (resumer : Resumer) (p : TaskPtr) : Prop :=
  (owners c resumer p).Nonempty

/-- No coroutine of a worker is released while it runs: at every moment of every
activation, up to its end, the task has an owner besides its own routine. -/
def HeldWhileRunning (coroutineCount maxCoroutineCount : UInt16) : Prop :=
  ∀ w, Reachable coroutineCount maxCoroutineCount w →
    ∀ p resumer, w.control = .task p resumer → ∀ ret,
      ∃ moments, w.server.moments p ret = .ok moments ∧
        ∀ c ∈ moments, HeldElsewhere c resumer p

end Cocgi

end FastCgi
