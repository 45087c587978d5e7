/-
Module: FastCgi.Spec.EventLoop
Layer: Spec
Purpose: What an event loop owes those who queue functors: the histories of its
  queue, and which steps are its own thread's.
Trusted boundary: human-reviewed spec
Main exports: Muduo.EventLoop.queuedBy, Muduo.EventLoop.calledBy
-/
import FastCgi.Model.EventLoop

namespace FastCgi

namespace Muduo

namespace EventLoop

variable {F : Type}

/-- The functor that a step puts behind the mutex. -/
def Action.queues : Action F → Option F
  | .queue f => some f
  | .queueFrom _ f => some f
  | _ => none

/-- The functor that a step calls. -/
def Action.calls : Action F → Option F
  | .call f => some f
  | _ => none

/-- The steps of the thread of the loop. -/
def Action.ofLoop : Action F → Bool
  | .queueFrom _ _ => false
  | .quitFrom _ => false
  | .wakeupFrom _ => false
  | _ => true

/-- What was queued, in the order of the mutex. -/
def queuedBy (actions : List (Action F)) : List F := actions.filterMap Action.queues

/-- What was called, in this order. -/
def calledBy (actions : List (Action F)) : List F := actions.filterMap Action.calls

end EventLoop

end Muduo

end FastCgi
