/-
Module: FastCgi.Proofs.EventLoop
Layer: Proofs
Purpose: The event loop under every interleaving of its threads: functors are called
  once, in order and soon, and none waits for a poll that does not return.
Trusted boundary: none
Main exports: Muduo.EventLoop.Moves, Muduo.EventLoop.functors_called_in_order,
  Muduo.EventLoop.pending_wakes_poll
-/
import FastCgi.Spec.EventLoop

namespace FastCgi

namespace Muduo

namespace EventLoop

open Library (runSteps of_enabled of_not_disabled runSteps_history runSteps_invariant
  runSteps_append runSteps_cons_eq_some)

variable {F : Type}

/-! ### What one step can do -/

/-- The cases of `step`, with what holds before. -/
inductive Moves (s : EventLoop F) : Action F → EventLoop F → Prop
  | test (here : s.place = .testing) :
      Moves s .test { s with place := if s.quit then .stopped else .polling }
  | poll {channels : List Active} (here : s.place = .polling)
      (readable : .wakeup ∈ channels → 0 < s.wakeups) :
      Moves s (.poll channels) { s with place := .handling channels, iteration := s.iteration + 1 }
  | wakes {channels : List Active} (here : s.place = .handling (.wakeup :: channels)) :
      Moves s .handle { s with place := .handling channels, wakeups := 0 }
  | handles {channels : List Active} (here : s.place = .handling (.other :: channels)) :
      Moves s .handle { s with place := .inCallback channels }
  | handled {channels : List Active} (here : s.place = .inCallback channels)
      (free : s.queueing = false) : Moves s .handled { s with place := .handling channels }
  | enter (here : s.place = .handling []) :
      Moves s .enter { s with place := .entered, callingPendingFunctors := true }
  | swap (here : s.place = .entered) :
      Moves s .swap
        { s with place := .running, functors := s.pendingFunctors, pendingFunctors := [] }
  | call {f : F} {functors : List F} (here : s.place = .running)
      (next : s.functors = f :: functors) :
      Moves s (.call f) { s with place := .inFunctor, functors := functors }
  | returned (here : s.place = .inFunctor) (free : s.queueing = false) :
      Moves s .returned { s with place := .running }
  | leave (here : s.place = .running) (done : s.functors = []) :
      Moves s .leave { s with place := .testing, callingPendingFunctors := false }
  | queue {f : F} (here : s.place.isCalling = true) (free : s.queueing = false) :
      Moves s (.queue f) { s with pendingFunctors := s.pendingFunctors ++ [f], queueing := true }
  | queued (here : s.queueing = true) :
      Moves s .queued
        { s with
          queueing := false
          wakeups := if s.callingPendingFunctors then s.wakeups + 1 else s.wakeups }
  | setQuit (here : s.place.isCalling = true) (free : s.queueing = false) :
      Moves s .setQuit { s with quit := true }
  | queueFrom {t : ThreadId} {f : F} (free : s.waking t = false) :
      Moves s (.queueFrom t f)
        { s with
          pendingFunctors := s.pendingFunctors ++ [f]
          waking := Function.update s.waking t true }
  | quitFrom {t : ThreadId} (free : s.waking t = false) :
      Moves s (.quitFrom t) { s with quit := true, waking := Function.update s.waking t true }
  | wakeupFrom {t : ThreadId} (here : s.waking t = true) :
      Moves s (.wakeupFrom t)
        { s with wakeups := s.wakeups + 1, waking := Function.update s.waking t false }

theorem moves_of_step [DecidableEq F] {s next : EventLoop F} {a : Action F}
    (stepped : step s a = some next) :
    Moves s a next := by
  cases a with
  | test =>
      obtain ⟨here, rfl⟩ := of_enabled stepped
      exact .test here
  | poll channels =>
      obtain ⟨⟨here, readable⟩, rfl⟩ := of_enabled stepped
      exact .poll here readable
  | handle =>
      simp only [step] at stepped
      split at stepped
      · cases stepped
        exact .wakes (by assumption)
      · cases stepped
        exact .handles (by assumption)
      · cases stepped
  | handled =>
      simp only [step] at stepped
      split at stepped
      · obtain ⟨free, rfl⟩ := of_not_disabled stepped
        exact .handled (by assumption) (Bool.eq_false_iff.mpr free)
      · cases stepped
  | enter =>
      obtain ⟨here, rfl⟩ := of_enabled stepped
      exact .enter here
  | swap =>
      obtain ⟨here, rfl⟩ := of_enabled stepped
      exact .swap here
  | call f =>
      simp only [step] at stepped
      split at stepped
      · obtain ⟨rfl, rfl⟩ := of_enabled stepped
        exact .call (by assumption) (by assumption)
      · cases stepped
  | returned =>
      obtain ⟨⟨here, free⟩, rfl⟩ := of_enabled stepped
      exact .returned here free
  | leave =>
      obtain ⟨⟨here, done⟩, rfl⟩ := of_enabled stepped
      exact .leave here done
  | queue f =>
      obtain ⟨⟨here, free⟩, rfl⟩ := of_enabled stepped
      exact .queue here free
  | queued =>
      obtain ⟨here, rfl⟩ := of_enabled stepped
      exact .queued here
  | setQuit =>
      obtain ⟨⟨here, free⟩, rfl⟩ := of_enabled stepped
      exact .setQuit here free
  | queueFrom t f =>
      obtain ⟨free, rfl⟩ := of_not_disabled stepped
      exact .queueFrom (Bool.eq_false_iff.mpr free)
  | quitFrom t =>
      obtain ⟨free, rfl⟩ := of_not_disabled stepped
      exact .quitFrom (Bool.eq_false_iff.mpr free)
  | wakeupFrom t =>
      obtain ⟨here, rfl⟩ := of_enabled stepped
      exact .wakeupFrom here

/-! ### The state of the loop -/

/-- Inside `doPendingFunctors`. -/
def Place.inPending : Place → Bool
  | .entered => true
  | .running => true
  | .inFunctor => true
  | _ => false

/-- Before the next swap, and behind the last poll. -/
def Place.beforeSwap : Place → Bool
  | .handling _ => true
  | .inCallback _ => true
  | .entered => true
  | _ => false

/-- In the loop over the local vector. -/
def Place.inFunctors : Place → Bool
  | .running => true
  | .inFunctor => true
  | _ => false

/-- Somebody is bound to make the eventfd readable. -/
def WakeupDue (s : EventLoop F) : Prop :=
  0 < s.wakeups ∨ (∃ t, s.waking t = true) ∨
    (s.queueing = true ∧ s.callingPendingFunctors = true)

/-- What holds in every state. -/
structure Consistent (s : EventLoop F) : Prop where
  calling : s.callingPendingFunctors = s.place.inPending
  queueing : s.queueing = true → s.place.isCalling = true
  functors : s.functors ≠ [] → s.place.inFunctors = true
  /-- No functor is forgotten: the loop is on its way to `doPendingFunctors`, or
  the next poll returns. -/
  awake : s.pendingFunctors ≠ [] → s.place.beforeSwap = true ∨ s.WakeupDue

theorem consistent_start : Consistent (start : EventLoop F) where
  calling := rfl
  queueing := by simp [start]
  functors := by simp [start]
  awake := by simp [start]

section Step

variable {s next : EventLoop F} {a : Action F}

theorem Consistent.calling_next (consistent : Consistent s) (moves : Moves s a next) :
    next.callingPendingFunctors = next.place.inPending := by
  have calling := consistent.calling
  cases moves
  case test here => split <;> simp [calling, here, Place.inPending]
  all_goals simp_all [Place.inPending]

theorem Consistent.queueing_next (consistent : Consistent s) (moves : Moves s a next) :
    next.queueing = true → next.place.isCalling = true := by
  have queueing := consistent.queueing
  cases moves
  all_goals simp_all [Place.isCalling]

theorem Consistent.functors_next (consistent : Consistent s) (moves : Moves s a next) :
    next.functors ≠ [] → next.place.inFunctors = true := by
  have functors := consistent.functors
  cases moves
  all_goals simp_all [Place.inFunctors]

/-- A wakeup that is due stays due until the eventfd is read. -/
theorem WakeupDue.stays (due : s.WakeupDue) (consistent : Consistent s) (moves : Moves s a next) :
    next.place.beforeSwap = true ∨ next.WakeupDue := by
  rcases due with readable | ⟨t, waking⟩ | ⟨inside, calling⟩
  · cases moves
    case wakes => exact .inl rfl
    case queued =>
      refine .inr (.inl ?_)
      simp only
      split <;> omega
    case wakeupFrom => exact .inr (.inl (Nat.succ_pos _))
    all_goals exact .inr (.inl readable)
  · cases moves
    case queueFrom t' f free => exact .inr (.inr (.inl ⟨t', Function.update_self ..⟩))
    case quitFrom t' free => exact .inr (.inr (.inl ⟨t', Function.update_self ..⟩))
    case wakeupFrom => exact .inr (.inl (Nat.succ_pos _))
    all_goals exact .inr (.inr (.inl ⟨t, waking⟩))
  · -- the thread of the loop goes nowhere before it has written to the eventfd
    have calls := consistent.queueing inside
    cases moves
    case queued => exact .inr (.inl (by simp only [calling, if_true]; omega))
    case queueFrom t' f free => exact .inr (.inr (.inl ⟨t', Function.update_self ..⟩))
    case quitFrom t' free => exact .inr (.inr (.inl ⟨t', Function.update_self ..⟩))
    case wakeupFrom => exact .inr (.inl (Nat.succ_pos _))
    all_goals simp_all [Place.isCalling]

/-- On the way to the swap. -/
theorem beforeSwap_stays (before : s.place.beforeSwap = true) (moves : Moves s a next)
    (pending : next.pendingFunctors ≠ []) : next.place.beforeSwap = true := by
  cases moves
  all_goals simp_all [Place.beforeSwap]

theorem Consistent.awake_next (consistent : Consistent s) (moves : Moves s a next) :
    next.pendingFunctors ≠ [] → next.place.beforeSwap = true ∨ next.WakeupDue := by
  intro pending
  by_cases earlier : s.pendingFunctors = []
  · -- the step queued a functor
    cases moves
    case queue f here free =>
      cases place : s.place with
      | inCallback channels => exact .inl rfl
      | inFunctor =>
          refine .inr (.inr (.inr ⟨rfl, ?_⟩))
          simp only [consistent.calling, place, Place.inPending]
      | _ => simp [place, Place.isCalling] at here
    case queueFrom t f free => exact .inr (.inr (.inl ⟨t, Function.update_self ..⟩))
    all_goals exact absurd (by first | exact earlier | rfl) pending
  · rcases consistent.awake earlier with before | due
    · exact .inl (beforeSwap_stays before moves pending)
    · exact due.stays consistent moves

theorem Consistent.moves (consistent : Consistent s) (moves : Moves s a next) :
    Consistent next where
  calling := consistent.calling_next moves
  queueing := consistent.queueing_next moves
  functors := consistent.functors_next moves
  awake := consistent.awake_next moves

end Step

theorem consistent_run [DecidableEq F] {s last : EventLoop F} {actions : List (Action F)}
    (consistent : Consistent s) (ran : runSteps step s actions = some last) : Consistent last :=
  runSteps_invariant (fun _ _ _ holds stepped => holds.moves (moves_of_step stepped)) consistent ran

/-! ### Order -/

/-- One step of the queue: what is called is the first, what is queued comes
last. -/
theorem Moves.order {s next : EventLoop F} {a : Action F} (moves : Moves s a next)
    (consistent : Consistent s) :
    s.functors ++ s.pendingFunctors ++ a.queues.toList =
      a.calls.toList ++ (next.functors ++ next.pendingFunctors) := by
  cases moves
  case swap here =>
    have none : s.functors = [] := by
      by_contra some
      simpa [here, Place.inFunctors] using consistent.functors some
    simp [none, Action.queues, Action.calls]
  case call f functors here first => simp [first, Action.queues, Action.calls]
  all_goals simp [Action.queues, Action.calls]

theorem queuedBy_append (first second : List (Action F)) :
    queuedBy (first ++ second) = queuedBy first ++ queuedBy second := List.filterMap_append

theorem calledBy_append (first second : List (Action F)) :
    calledBy (first ++ second) = calledBy first ++ calledBy second := List.filterMap_append

theorem queuedBy_singleton (a : Action F) : queuedBy [a] = a.queues.toList := by
  cases queues : a.queues <;> simp [queuedBy, queues]

theorem calledBy_singleton (a : Action F) : calledBy [a] = a.calls.toList := by
  cases calls : a.calls <;> simp [calledBy, calls]

/-! ### Delay -/

/-- Of `n` functors that were waiting at iteration `k`: those not called are in the
local vector from the next swap on, and none is left two polls later. -/
structure Prompt (k n called : Nat) (s : EventLoop F) : Prop where
  later : k ≤ s.iteration
  swapped : s.iteration = k + 1 → s.place.beforeSwap = false → n ≤ called + s.functors.length
  done : k + 2 ≤ s.iteration → n ≤ called

theorem Prompt.moves {k n called : Nat} {s next : EventLoop F} {a : Action F}
    (prompt : Prompt k n called s) (consistent : Consistent s)
    (all : n ≤ called + s.functors.length + s.pendingFunctors.length) (moves : Moves s a next) :
    Prompt k n (called + a.calls.toList.length) next := by
  obtain ⟨later, swapped, done⟩ := prompt
  cases moves
  case test here =>
    have here' : s.place.beforeSwap = false := by rw [here]; rfl
    exact ⟨later, fun at_next _ => swapped at_next here', done⟩
  case poll channels here readable =>
    have none : s.functors = [] := by
      by_contra some
      simpa [here, Place.inFunctors] using consistent.functors some
    have here' : s.place.beforeSwap = false := by rw [here]; rfl
    refine ⟨Nat.le_succ_of_le later, fun _ before => (nomatch before), fun passed => ?_⟩
    by_cases first : s.iteration = k + 1
    · simpa [none, Action.calls] using swapped first here'
    · exact done (by simp only at passed; omega)
  case swap here =>
    refine ⟨later, fun _ _ => ?_, done⟩
    have none : s.functors = [] := by
      by_contra some
      simpa [here, Place.inFunctors] using consistent.functors some
    simpa [none, Action.calls] using all
  case call f functors here first =>
    have here' : s.place.beforeSwap = false := by rw [here]; rfl
    refine ⟨later, fun at_next _ => ?_, fun passed => Nat.le_succ_of_le (done passed)⟩
    have bound := swapped at_next here'
    rw [first, List.length_cons] at bound
    simp only [Action.calls, Option.toList_some, List.length_singleton]
    omega
  case returned here free =>
    have here' : s.place.beforeSwap = false := by rw [here]; rfl
    exact ⟨later, fun at_next _ => swapped at_next here', done⟩
  case leave here done' =>
    have here' : s.place.beforeSwap = false := by rw [here]; rfl
    exact ⟨later, fun at_next _ => swapped at_next here', done⟩
  case wakes => exact ⟨later, fun _ before => (nomatch before), done⟩
  case handles => exact ⟨later, fun _ before => (nomatch before), done⟩
  case handled => exact ⟨later, fun _ before => (nomatch before), done⟩
  case enter => exact ⟨later, fun _ before => (nomatch before), done⟩
  all_goals exact ⟨later, swapped, done⟩

/-- A run from `s`, seen from behind the steps taken so far. -/
structure Tracked (s : EventLoop F) (taken : List (Action F)) (t : EventLoop F) : Prop where
  consistent : Consistent t
  order : s.functors ++ s.pendingFunctors ++ queuedBy taken =
    calledBy taken ++ (t.functors ++ t.pendingFunctors)
  prompt : Prompt s.iteration (s.functors ++ s.pendingFunctors).length (calledBy taken).length t

theorem Tracked.moves {s t next : EventLoop F} {taken : List (Action F)} {a : Action F}
    (tracked : Tracked s taken t) (moves : Moves t a next) : Tracked s (taken ++ [a]) next where
  consistent := tracked.consistent.moves moves
  order := by
    rw [queuedBy_append, calledBy_append, queuedBy_singleton, calledBy_singleton,
      ← List.append_assoc, tracked.order, List.append_assoc, moves.order tracked.consistent,
      List.append_assoc]
  prompt := by
    have all : (s.functors ++ s.pendingFunctors).length ≤
        (calledBy taken).length + t.functors.length + t.pendingFunctors.length := by
      have lengths := congrArg List.length tracked.order
      simp only [List.length_append] at lengths ⊢
      omega
    have called : (calledBy (taken ++ [a])).length =
        (calledBy taken).length + a.calls.toList.length := by
      rw [calledBy_append, calledBy_singleton, List.length_append]
    rw [called]
    exact tracked.prompt.moves tracked.consistent all moves

theorem tracked_run [DecidableEq F] {s last : EventLoop F} {actions : List (Action F)}
    (consistent : Consistent s) (ran : runSteps step s actions = some last) :
    Tracked s actions last := by
  refine runSteps_history (P := Tracked s)
    (fun taken t a next tracked stepped => tracked.moves (moves_of_step stepped)) ?_ ran
  refine ⟨consistent, by simp [queuedBy, calledBy], Nat.le_refl _, fun at_next => ?_,
    fun passed => ?_⟩
  · omega
  · omega

/-- Under every interleaving of the threads the functors are called in the order in
which `queueInLoop` took the mutex, each at most once, and whatever was queued has
been called when the loop has polled twice more. -/
theorem functors_called_in_order [DecidableEq F] {first second : List (Action F)}
    {s last : EventLoop F} (before : runSteps step start first = some s)
    (after : runSteps step s second = some last) :
    queuedBy (first ++ second) =
        calledBy (first ++ second) ++ (last.functors ++ last.pendingFunctors) ∧
      (s.iteration + 2 ≤ last.iteration → queuedBy first <+: calledBy (first ++ second)) := by
  have consistent := consistent_run consistent_start before
  have tracked := tracked_run consistent after
  have order := (tracked_run consistent_start before).order
  have order' := tracked.order
  simp only [start, List.nil_append] at order
  refine ⟨?_, fun passed => ?_⟩
  · rw [queuedBy_append, calledBy_append, order, List.append_assoc, order', List.append_assoc]
  · have enough := tracked.prompt.done passed
    rw [calledBy_append, order]
    refine (List.prefix_append_right_inj _).mpr ?_
    have whole : s.functors ++ s.pendingFunctors <+:
        calledBy second ++ (last.functors ++ last.pendingFunctors) := by
      rw [← order']
      exact List.prefix_append _ _
    exact List.prefix_of_prefix_length_le whole (List.prefix_append _ _) enough

theorem functors_called_in_order_from_another_thread :
    queuedBy ([.test, .queueFrom 0 7] : List (Action Nat)) <+:
      calledBy ([.test, .queueFrom 0 7] ++ [.wakeupFrom 0, .poll [.wakeup], .handle, .enter,
        .swap, .call 7, .returned, .leave, .test, .poll []]) := by
  obtain ⟨s, before⟩ : ∃ s, runSteps step start [.test, .queueFrom 0 7] = some s := ⟨_, rfl⟩
  obtain ⟨last, after⟩ : ∃ last, runSteps step s [.wakeupFrom 0, .poll [.wakeup], .handle,
      .enter, .swap, .call 7, .returned, .leave, .test, .poll []] = some last := by
    cases before
    exact ⟨_, rfl⟩
  refine (functors_called_in_order before after).2 ?_
  cases before
  cases after
  decide

/-! ### Wakeups -/

/-- The steps that call these functors. -/
def callAll (functors : List F) : List (Action F) :=
  functors.flatMap fun f => [.call f, .returned]

theorem calledBy_callAll (functors : List F) : calledBy (callAll functors) = functors := by
  induction functors with
  | nil => rfl
  | cons f functors inductionHypothesis =>
      have split : callAll (f :: functors) = [.call f, .returned] ++ callAll functors := rfl
      rw [split, calledBy_append, inductionHypothesis]
      rfl

theorem run_callAll [DecidableEq F] {s : EventLoop F} (functors : List F)
    (here : s.place = .running) (same : s.functors = functors) (free : s.queueing = false) :
    runSteps step s (callAll functors) = some { s with functors := [] } := by
  induction functors generalizing s with
  | nil =>
      have unchanged : ({ s with functors := [] } : EventLoop F) = s := by rw [← same]
      rw [unchanged]
      rfl
  | cons f functors inductionHypothesis =>
      have called : step s (.call f) =
          some { s with place := .inFunctor, functors := functors } := by
        simp only [step, here, same, if_true]
      have returned : step { s with place := .inFunctor, functors := functors } .returned =
          some { s with functors := functors } := by
        simp only [step, free, here, and_self, if_true]
      have rest := inductionHypothesis (s := { s with functors := functors }) here rfl free
      exact runSteps_cons_eq_some.mpr ⟨_, called, runSteps_cons_eq_some.mpr ⟨_, returned, rest⟩⟩

/-- No wakeup is lost from the start of `loop` on: when the loop is about to poll with
functors pending, and no thread is still to write to the eventfd, the eventfd is
readable; so `poll` returns and the loop, left alone, calls every one of them. -/
theorem pending_wakes_poll [DecidableEq F] {actions : List (Action F)} {s : EventLoop F}
    (ran : runSteps step start actions = some s) (polling : s.place = .polling)
    (pending : s.pendingFunctors ≠ []) (quiet : ∀ t, s.waking t = false) :
    0 < s.wakeups ∧ ∃ rest last, (∀ a ∈ rest, a.ofLoop = true) ∧
      runSteps step s (.poll [.wakeup] :: rest) = some last ∧ last.place = .testing ∧
      calledBy rest = s.pendingFunctors ∧ last.pendingFunctors = [] := by
  have consistent := consistent_run consistent_start ran
  have free : s.queueing = false := by
    by_contra inside
    simpa [polling, Place.isCalling] using consistent.queueing (by simpa using inside)
  have readable : 0 < s.wakeups := by
    rcases consistent.awake pending with before | due | ⟨t, waking⟩ | ⟨inside, -⟩
    · simp [polling, Place.beforeSwap] at before
    · exact due
    · simp [quiet t] at waking
    · simp [free] at inside
  refine ⟨readable, [.handle, .enter, .swap] ++ (callAll s.pendingFunctors ++ [.leave]),
    { s with
      place := .testing, iteration := s.iteration + 1, wakeups := 0, functors := [],
      pendingFunctors := [], callingPendingFunctors := false }, ?_, ?_, rfl, ?_, rfl⟩
  · intro a member
    simp only [callAll, List.mem_append, List.mem_cons, List.mem_flatMap, List.not_mem_nil,
      or_false] at member
    rcases member with (rfl | rfl | rfl) | ⟨f, _, rfl | rfl⟩ | rfl <;> rfl
  · have swapped : runSteps step s (.poll [.wakeup] :: [.handle, .enter, .swap]) =
        some { s with
          place := .running, iteration := s.iteration + 1, wakeups := 0,
          functors := s.pendingFunctors, pendingFunctors := [],
          callingPendingFunctors := true } := by
      simp [runSteps, step, polling, readable]
    have called := run_callAll
      (s := { s with
        place := .running, iteration := s.iteration + 1, wakeups := 0,
        functors := s.pendingFunctors, pendingFunctors := [],
        callingPendingFunctors := true })
      s.pendingFunctors rfl rfl free
    rw [← List.cons_append, runSteps_append, swapped, Option.bind_some, runSteps_append, called,
      Option.bind_some]
    simp [runSteps, step]
  · rw [calledBy_append, calledBy_append, calledBy_callAll]
    exact List.append_nil _

theorem pending_wakes_poll_from_another_thread :
    ∃ s, runSteps step start [.test, .queueFrom 0 7, .wakeupFrom 0] = some s ∧
      0 < s.wakeups ∧ ∃ rest last, (∀ a ∈ rest, a.ofLoop = true) ∧
        runSteps step s (.poll [.wakeup] :: rest) = some last ∧ last.place = .testing ∧
        calledBy rest = [7] ∧ last.pendingFunctors = [] := by
  obtain ⟨s, ran⟩ : ∃ s, runSteps step start [.test, .queueFrom 0 7, .wakeupFrom 0] = some s :=
    ⟨_, rfl⟩
  have pending : s.pendingFunctors = [7] := by cases ran; rfl
  have quiet : ∀ t, s.waking t = false := by
    intro t
    cases ran
    by_cases same : t = 0
    · subst same
      rfl
    · simp [start, Function.update_of_ne same]
  have woken := pending_wakes_poll ran (by cases ran; rfl) (by simp [pending]) quiet
  rw [pending] at woken
  exact ⟨s, ran, woken⟩

end EventLoop

end Muduo

end FastCgi
