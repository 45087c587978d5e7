/-
Module: FastCgi.Model.CoroutinePool
Layer: Model
Purpose: The coroutine pool of a cocgi worker (cocgi/cocgi_lib/cocgi.cpp):
  `CreateCocgiTask`, `AcceptRoutine`, `RealReadwriteRoutine` and the part of
  `Run` that starts a worker, as steps between the points at which control
  passes from one coroutine to another.
Trusted boundary: libco switches at `co_poll`, `co_resume` and `co_yield_ct`
  only, and a coroutine that yields or returns gives control back to the one
  that resumed it; allocation succeeds; `accept` returns descriptors that are
  not open
Main exports: CCocgiServer, CCocgiServer.createCocgiTask,
  CCocgiServer.acceptIteration, CCocgiServer.activate, CCocgiServer.resume,
  CCocgiServer.moments, World, Step, Reachable
-/
import FastCgi.Model.Handlers
import Mathlib.Data.Finset.Image
import Mathlib.Logic.Relation

namespace FastCgi

namespace Cocgi

/-- A `shared_ptr<CocgiTask>`: the tasks are numbered as they are made. -/
abbrev TaskPtr := Nat

/-- The fields of a `CocgiTask` that the pool reads. -/
structure CocgiTask where
  iFd : Int
  uCoId : UInt32
deriving Repr, DecidableEq

/-- Where the coroutine of a task is, with the locals of its
`RealReadwriteRoutine`: its task, and in the inner loop its descriptor and its
counter. -/
inductive Coroutine where
  | created
  | polling (task : TaskPtr) (iFd : Int) (recycle : Nat)
  | yielded (task : TaskPtr)
  | returned
deriving Repr, DecidableEq

/-- `CCocgiServer` and what its pointers point to, with the accepted
descriptors that are open. -/
structure CCocgiServer where
  maxCoroutineCount : UInt16
  coIndex : UInt32
  idleTask : List TaskPtr
  runTask : Finset TaskPtr
  task : Std.ExtTreeMap UInt32 TaskPtr
  heap : TaskPtr → CocgiTask
  coroutine : TaskPtr → Coroutine
  allocated : Nat
  openFds : Finset Int

/-- What must not happen: `m_umTask[uCoId]` inserts a null pointer, a
descriptor is closed that is not open, or a coroutine is resumed that has
returned. -/
inductive PoolFault where
  | nullTask
  | closedNotOpen
  | resumedReturned
deriving Repr, DecidableEq

namespace CCocgiServer

/-- The server before `Run`. -/
def fresh (maxCoroutineCount : UInt16) : CCocgiServer where
  maxCoroutineCount := maxCoroutineCount
  coIndex := 0
  idleTask := []
  runTask := ∅
  task := ∅
  heap := fun _ => { iFd := -1, uCoId := 0 }
  coroutine := fun _ => .returned
  allocated := 0
  openFds := ∅

def createCocgiTask (s : CCocgiServer) : CCocgiServer :=
  { s with
    heap := Function.update s.heap s.allocated { iFd := -1, uCoId := s.coIndex }
    coroutine := Function.update s.coroutine s.allocated .created
    allocated := s.allocated + 1
    coIndex := s.coIndex + 1
    idleTask := s.allocated :: s.idleTask
    task := s.task.insert s.coIndex s.allocated }

/-- `pCocgiTask->iFd = iFd`. -/
def setFd (s : CCocgiServer) (p : TaskPtr) (iFd : Int) : CCocgiServer :=
  { s with heap := Function.update s.heap p { s.heap p with iFd := iFd } }

/-- The coroutine of `p` gives up control here. -/
def suspend (s : CCocgiServer) (p : TaskPtr) (coroutine : Coroutine) : CCocgiServer :=
  { s with coroutine := Function.update s.coroutine p coroutine }

/-! ### AcceptRoutine -/

/-- How an iteration of the accept loop ends: with `continue`, in `co_poll`, or
in `co_resume` of a task. -/
inductive Handover where
  | continues
  | polls
  | resumes (p : TaskPtr)
deriving Repr, DecidableEq

/-- The statements between `co_accept` and `co_resume`: the first idle task is
given the descriptor and runs. -/
def handOver (s : CCocgiServer) (p : TaskPtr) (idleTask : List TaskPtr) (iFd : Int) :
    CCocgiServer :=
  { s.setFd p iFd with
    idleTask := idleTask
    runTask := insert p s.runTask
    openFds := insert iFd s.openFds }

/-- The first statement of the loop: with no idle task, one more is made if
there may be one. -/
def refill (s : CCocgiServer) : CCocgiServer :=
  if s.idleTask = [] ∧ s.task.size < s.maxCoroutineCount.toNat then s.createCocgiTask else s

/-- One iteration of the loop in `AcceptRoutine`.  If it gets as far as
`co_accept`, that returns `iFd`. -/
def acceptIteration (s : CCocgiServer) (iFd : Int) : Handover × CCocgiServer :=
  match s.refill.idleTask with
  | [] => (.continues, s.refill)
  | p :: idleTask =>
      if iFd < 0 then
        (.polls, s.refill)
      else
        (.resumes p, s.refill.handOver p idleTask iFd)

/-- The iterations of the accept loop until one gives up control, `fuel` of
them at most; the calls of `co_accept` return the values of `iFds` in turn. -/
def acceptRoutine : Nat → (Nat → Int) → CCocgiServer → Option (Handover × CCocgiServer)
  | 0, _, _ => none
  | fuel + 1, iFds, s =>
      match s.acceptIteration (iFds 0) with
      | (.continues, s) => acceptRoutine fuel (fun turn => iFds (turn + 1)) s
      | handover => some handover

/-! ### RealReadwriteRoutine -/

/-- The server without an open descriptor. -/
def without (s : CCocgiServer) (iFd : Int) : CCocgiServer :=
  { s with openFds := s.openFds.erase iFd }

/-- `close(iFd)`. -/
def close (s : CCocgiServer) (iFd : Int) : Except PoolFault CCocgiServer :=
  if iFd ∈ s.openFds then .ok (s.without iFd) else .error .closedNotOpen

/-- `m_usRunTask.erase(pCocgiTask)`. -/
def leaveRunTask (s : CCocgiServer) (task : TaskPtr) : CCocgiServer :=
  { s with runTask := s.runTask.erase task }

/-- `m_umTask.erase(pCocgiTask->uCoId)`. -/
def leaveTask (s : CCocgiServer) (task : TaskPtr) : CCocgiServer :=
  { s with task := s.task.erase (s.heap task).uCoId }

/-- `m_lIdleTask.push_front(pCocgiTask)`. -/
def becomeIdle (s : CCocgiServer) (task : TaskPtr) : CCocgiServer :=
  { s with idleTask := task :: s.idleTask }

/-- The task leaves the pool and its coroutine returns. -/
def retire (s : CCocgiServer) (p task : TaskPtr) : CCocgiServer :=
  ((s.leaveRunTask task).leaveTask task).suspend p .returned

/-- The task becomes idle and its coroutine yields. -/
def park (s : CCocgiServer) (p task : TaskPtr) : CCocgiServer :=
  ((s.becomeIdle task).leaveRunTask task).suspend p (.yielded task)

/-- The descriptor moves from the field of the task to the local variable, and
the inner loop begins. -/
def takeFd (s : CCocgiServer) (p task : TaskPtr) : CCocgiServer :=
  (s.setFd task (-1)).suspend p (.polling task (s.heap task).iFd 0)

/-- The three containers that hold tasks. -/
structure Containers where
  idleTask : List TaskPtr
  runTask : Finset TaskPtr
  task : Std.ExtTreeMap UInt32 TaskPtr

def containers (s : CCocgiServer) : Containers where
  idleTask := s.idleTask
  runTask := s.runTask
  task := s.task

/-- What a coroutine does from one point at which it has control to the next at
which it gives it up: the containers at the first and after each statement that
changes one of them, and the server at the last. -/
structure Activation where
  moments : List Containers
  server : CCocgiServer

/-- The outer loop, from its top to the point at which the coroutine of `p`
gives up control.  `task` is the local `pCocgiTask`; the codec that is cleared
on the way is left out. -/
def runOuterLoop (s : CCocgiServer) (p task : TaskPtr) : Activation :=
  if (s.heap task).iFd = -1 then
    if s.maxCoroutineCount.toNat < s.task.size then
      { moments := [s.containers, (s.leaveRunTask task).containers,
          ((s.leaveRunTask task).leaveTask task).containers]
        server := s.retire p task }
    else
      { moments := [s.containers, (s.becomeIdle task).containers,
          ((s.becomeIdle task).leaveRunTask task).containers]
        server := s.park p task }
  else
    { moments := [s.containers]
      server := s.takeFd p task }

/-- The coroutine of `p` runs until it gives up control.  `ret` is what
`readData` returns if it is called; after it the routine goes on as its inner
loop does. -/
def activate (s : CCocgiServer) (p : TaskPtr) (ret : ErrorCode) : Except PoolFault Activation :=
  match s.coroutine p with
  | .created =>
      match s.task[(s.heap p).uCoId]? with
      | some task => .ok (s.runOuterLoop p task)
      | none => .error .nullTask
  | .yielded task => .ok (s.runOuterLoop p task)
  | .polling task iFd recycle =>
      match nextTurn recycle (some ret) with
      | .inl recycle =>
          .ok { moments := [s.containers], server := s.suspend p (.polling task iFd recycle) }
      | .inr _ => do
          let s ← s.close iFd
          return s.runOuterLoop p task
  | .returned => .error .resumedReturned

/-- The server after an activation. -/
def resume (s : CCocgiServer) (p : TaskPtr) (ret : ErrorCode) : Except PoolFault CCocgiServer :=
  (s.activate p ret).map Activation.server

/-- The containers during an activation. -/
def moments (s : CCocgiServer) (p : TaskPtr) (ret : ErrorCode) :
    Except PoolFault (List Containers) :=
  (s.activate p ret).map Activation.moments

end CCocgiServer

/-! ### A worker -/

/-- Who has resumed a task. -/
inductive Resumer where
  | eventLoop
  | acceptRoutine
deriving Repr, DecidableEq

/-- Who has control: `co_eventloop`, the accept coroutine at the top of its
loop, or a task that has just been resumed. -/
inductive Control where
  | eventLoop
  | acceptRoutine
  | task (p : TaskPtr) (resumer : Resumer)
deriving Repr, DecidableEq

/-- Control goes back to the resumer. -/
def Resumer.control : Resumer → Control
  | .eventLoop => .eventLoop
  | .acceptRoutine => .acceptRoutine

/-- A worker at a point at which control passes. -/
structure World where
  server : CCocgiServer
  control : Control

/-- `Run` in a worker: the initial tasks are made, and the accept coroutine is
resumed. -/
def World.start (coroutineCount maxCoroutineCount : UInt16) : World where
  server := Nat.iterate CCocgiServer.createCocgiTask coroutineCount.toNat
    (.fresh maxCoroutineCount)
  control := .acceptRoutine

/-- From one point at which control passes to the next. -/
inductive Step : World → World → Prop where
  /-- The event loop resumes the accept coroutine, which waits in `co_poll`. -/
  | resumeAccept (s : CCocgiServer) : Step ⟨s, .eventLoop⟩ ⟨s, .acceptRoutine⟩
  /-- The event loop resumes a task that waits in `co_poll`. -/
  | resumeTask (s : CCocgiServer) (p task : TaskPtr) (iFd : Int) (recycle : Nat)
      (waits : s.coroutine p = .polling task iFd recycle) :
      Step ⟨s, .eventLoop⟩ ⟨s, .task p .eventLoop⟩
  /-- The accept loop goes on without giving up control. -/
  | spin (s s' : CCocgiServer) (iFd : Int) (closed : iFd ∉ s.openFds)
      (turn : s.acceptIteration iFd = (.continues, s')) :
      Step ⟨s, .acceptRoutine⟩ ⟨s', .acceptRoutine⟩
  /-- The accept loop waits for connections. -/
  | poll (s s' : CCocgiServer) (iFd : Int) (closed : iFd ∉ s.openFds)
      (turn : s.acceptIteration iFd = (.polls, s')) :
      Step ⟨s, .acceptRoutine⟩ ⟨s', .eventLoop⟩
  /-- The accept loop hands a descriptor to a task and resumes it. -/
  | accept (s s' : CCocgiServer) (iFd : Int) (p : TaskPtr) (closed : iFd ∉ s.openFds)
      (turn : s.acceptIteration iFd = (.resumes p, s')) :
      Step ⟨s, .acceptRoutine⟩ ⟨s', .task p .acceptRoutine⟩
  /-- A task runs until it gives control back. -/
  | run (s s' : CCocgiServer) (p : TaskPtr) (resumer : Resumer) (ret : ErrorCode)
      (ran : s.resume p ret = .ok s') :
      Step ⟨s, .task p resumer⟩ ⟨s', resumer.control⟩

/-- The worker can come here. -/
def Reachable (coroutineCount maxCoroutineCount : UInt16) (w : World) : Prop :=
  Relation.ReflTransGen Step (.start coroutineCount maxCoroutineCount) w

end Cocgi

end FastCgi
