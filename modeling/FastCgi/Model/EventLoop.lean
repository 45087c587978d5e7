/-
Module: FastCgi.Model.EventLoop
Layer: Model
Purpose: `muduo::net::EventLoop` (mucgi/muduo_net/EventLoop.cc): the loop of its own
  thread with `doPendingFunctors` and the wakeup descriptor, and the calls of
  `queueInLoop` and `quit` that any thread makes.  Every step is one access to what
  the threads share.
Trusted boundary: a thread holds the mutex for one step; a write to the eventfd adds
  one to its counter, a read sets it to zero; channel callbacks and functors return,
  and touch the loop through `queueInLoop` and `quit` only; the thread of the loop
  queues nothing before `loop()` (`queueInLoop` would not write to the eventfd then,
  so that the first `poll` may wait although a functor is pending)
Main exports: Muduo.EventLoop, Muduo.EventLoop.Action, Muduo.EventLoop.step,
  Muduo.EventLoop.start
-/
import FastCgi.Library.Transitions

namespace FastCgi

namespace Muduo

/-- A thread other than that of the loop. -/
abbrev ThreadId := Nat

namespace EventLoop

/-- A channel that `poll` found active. -/
inductive Active where
  /-- The channel of the eventfd. -/
  | wakeup
  | other
deriving Repr, DecidableEq

/-- Where the thread of the loop stands. -/
inductive Place where
  /-- At `while (!quit_)`. -/
  | testing
  | polling
  /-- In the loop over `activeChannels_`, with those still to be handled. -/
  | handling (channels : List Active)
  /-- In the callback of a channel. -/
  | inCallback (channels : List Active)
  /-- In `doPendingFunctors`, before the mutex. -/
  | entered
  /-- In the loop over `functors`. -/
  | running
  | inFunctor
  | stopped
deriving Repr, DecidableEq

end EventLoop

/-- The members of an `EventLoop` that the threads share, the local vector
`functors`, and where each thread stands. -/
structure EventLoop (F : Type) where
  place : EventLoop.Place
  pendingFunctors : List F
  /-- Those of the local vector that have not been called. -/
  functors : List F
  callingPendingFunctors : Bool
  quit : Bool
  iteration : Nat
  /-- The counter of `wakeupFd_`. -/
  wakeups : Nat
  /-- The thread of the loop is in `queueInLoop`, behind the mutex. -/
  queueing : Bool
  /-- Another thread is to call `wakeup`, in `queueInLoop` or `quit`. -/
  waking : ThreadId → Bool

namespace EventLoop

variable {F : Type}

/-- `loop()` behind its first lines. -/
def start : EventLoop F where
  place := .testing
  pendingFunctors := []
  functors := []
  callingPendingFunctors := false
  quit := false
  iteration := 0
  wakeups := 0
  queueing := false
  waking := fun _ => false

/-- The thread of the loop runs code of the application. -/
def Place.isCalling : Place → Bool
  | .inCallback _ => true
  | .inFunctor => true
  | _ => false

/-- One step of one thread. -/
inductive Action (F : Type) where
  | test
  /-- `poll` returns these channels; none if time runs out or a signal comes. -/
  | poll (channels : List Active)
  /-- `handleEvent` of the next channel. -/
  | handle
  | handled
  | enter
  | swap
  /-- `functors[i]()`. -/
  | call (f : F)
  | returned
  | leave
  /-- The first half of `queueInLoop` in the thread of the loop. -/
  | queue (f : F)
  /-- The second half. -/
  | queued
  | setQuit
  /-- The first half of `queueInLoop` in another thread. -/
  | queueFrom (t : ThreadId) (f : F)
  /-- The first half of `quit` in another thread. -/
  | quitFrom (t : ThreadId)
  /-- The second half of either. -/
  | wakeupFrom (t : ThreadId)
deriving Repr, DecidableEq

/-- The state behind a step, if a thread is where it can take it. -/
def step [DecidableEq F] (s : EventLoop F) : Action F → Option (EventLoop F)
  | .test =>
      if s.place = .testing then
        some { s with place := if s.quit then .stopped else .polling }
      else none
  | .poll channels =>
      -- the eventfd is reported only if its counter is positive
      if s.place = .polling ∧ (.wakeup ∈ channels → 0 < s.wakeups) then
        some { s with place := .handling channels, iteration := s.iteration + 1 }
      else none
  | .handle =>
      match s.place with
      | .handling (.wakeup :: channels) =>
          some { s with place := .handling channels, wakeups := 0 }
      | .handling (.other :: channels) => some { s with place := .inCallback channels }
      | _ => none
  | .handled =>
      match s.place with
      | .inCallback channels =>
          if s.queueing then none else some { s with place := .handling channels }
      | _ => none
  | .enter =>
      if s.place = .handling [] then
        some { s with place := .entered, callingPendingFunctors := true }
      else none
  | .swap =>
      if s.place = .entered then
        some { s with place := .running, functors := s.pendingFunctors, pendingFunctors := [] }
      else none
  | .call f =>
      match s.place, s.functors with
      | .running, g :: functors =>
          if f = g then some { s with place := .inFunctor, functors := functors } else none
      | _, _ => none
  | .returned =>
      if s.place = .inFunctor ∧ s.queueing = false then some { s with place := .running } else none
  | .leave =>
      if s.place = .running ∧ s.functors = [] then
        some { s with place := .testing, callingPendingFunctors := false }
      else none
  | .queue f =>
      if s.place.isCalling ∧ s.queueing = false then
        some { s with pendingFunctors := s.pendingFunctors ++ [f], queueing := true }
      else none
  | .queued =>
      if s.queueing then
        some { s with
          queueing := false
          wakeups := if s.callingPendingFunctors then s.wakeups + 1 else s.wakeups }
      else none
  | .setQuit =>
      if s.place.isCalling ∧ s.queueing = false then some { s with quit := true } else none
  | .queueFrom t f =>
      if s.waking t then none
      else
        some { s with
          pendingFunctors := s.pendingFunctors ++ [f]
          waking := Function.update s.waking t true }
  | .quitFrom t =>
      if s.waking t then none
      else some { s with quit := true, waking := Function.update s.waking t true }
  | .wakeupFrom t =>
      if s.waking t then
        some { s with wakeups := s.wakeups + 1, waking := Function.update s.waking t false }
      else none

end EventLoop

end Muduo

end FastCgi
