/-
Module: FastCgi.Proofs.LibcoScheduling
Layer: Proofs
Purpose: What a user of libco can rely on: the event loop never fails, resumes only who
  waits and is due or has an event, leaves nobody waiting who is due or has one, and
  comes back to epoll.
Trusted boundary: none
Main exports: Libco.Env.step_fails_iff_misuse, Libco.Env.nobody_left_waiting,
  Libco.Env.turn_resumes_due, Libco.Env.pass_ends, Libco.Env.polls_stay_registered,
  Libco.Env.event_ends_poll
-/
import FastCgi.Proofs.Libco

namespace FastCgi

namespace Libco

namespace Env

open Library (runSteps runSteps_append runSteps_cons_eq_some runSteps_invariant)

variable {s s' : Env} {lists : LinkPtr → List ItemPtr} {start now : Nat} {actions : List Action}

theorem advance_eq_some {action : Action} :
    s.advance action = some s' ↔ s.step action = .ok (some s') := by
  rw [advance]
  cases s.step action with
  | error fault => simp
  | ok next => simp

/-- What every step keeps, from a state that is consistent on. -/
theorem run_kept (consistent : s.Consistent lists)
    (ran : runSteps advance s actions = some s') :
    ∃ lists', s'.Consistent lists' ∧ s.timeout.ullStart ≤ s'.timeout.ullStart ∧
      ((∀ action ∈ actions, ∀ events now, action ≠ .wait events now) →
        turnsLeft s' lists' + (actions.map Action.turns).sum ≤ turnsLeft s lists) := by
  induction actions generalizing s lists with
  | nil =>
      cases ran
      exact ⟨lists, consistent, le_rfl, fun _ => le_rfl⟩
  | cons action rest inductionHypothesis =>
      obtain ⟨middle, stepped, ran⟩ := runSteps_cons_eq_some.mp ran
      obtain ⟨lists₁, kept⟩ := advance_kept consistent stepped
      obtain ⟨lists₂, consistent₂, further, left⟩ := inductionHypothesis kept.consistent ran
      refine ⟨lists₂, consistent₂, kept.start.trans further, fun noWait => ?_⟩
      have first := kept.left (noWait action List.mem_cons_self)
      have second := left fun other member => noWait other (List.mem_cons_of_mem _ member)
      rw [List.map_cons, List.sum_cons]
      omega

/-- A poll that is waited in is known, and while the main coroutine is not going over the
active list it is in the wheel. -/
theorem Consistent.waiting {co : CoPtr} {item : ItemPtr} (consistent : s.Consistent lists)
    (place : s.place = .waiting) (waits : s.coroutines co = some (.polling item)) :
    ∃ arg, s.polls item = some arg ∧ arg.pArg = co ∧ arg.Waits ∧
      s.timeout.ullStart < arg.ullExpireTime := by
  obtain ⟨arg, here, owner⟩ := (consistent.routines.polling co item).mp waits
  have items := consistent.items
  rw [place] at items
  obtain ⟨l, member⟩ := (items.listed item).mpr (by simp [here])
  cases l with
  | pItems k =>
      obtain ⟨ahead, positive, -, -, due⟩ := items.wheel.slots k item member
      rw [expireOf, here] at due
      exact ⟨arg, here, owner, items.quiet k item member arg here, by simp only at due; omega⟩
  | pstActiveList => exact (items.active item member arg here).elim
  | pstTimeoutList =>
      rw [items.timeouts] at member
      cases member

/-- While nobody else polls or closes a descriptor, it stays registered. -/
theorem Traces.reported {action : Action} (traces : Traces s s' action) (reported : s.Reported)
    (registered : Registered s.epoll s.polls) (exclusive : s.Exclusive action) :
    s'.Reported := by
  intro p arg i pf here index valid
  cases traces with
  | same epoll polls =>
      obtain ⟨old, there, writes⟩ := polls.back p arg here
      rw [epoll]
      exact reported p old i pf there (by rw [← writes.fds, index]) valid
  | woke x woken there epoll polls =>
      have other : p ≠ x := by
        rintro rfl
        rw [polls, Function.update_self] at here
        cases here
      rw [polls, Function.update_of_ne other] at here
      have known := reported p arg i pf here index valid
      rw [epoll, epollDel_eq, if_neg, known]
      -- Epoll knows one poll for a descriptor.
      rintro ⟨-, shared, member, same⟩
      obtain ⟨j, position⟩ := List.mem_iff_getElem?.mp member
      have owner := reported x woken j shared there position (same ▸ valid)
      rw [same, known, Option.some.injEq, PollItem.mk.injEq] at owner
      exact other owner.1
  | polled call self calls goesOn epoll polls =>
      subst calls
      obtain ⟨distinct, free⟩ := exclusive.resolve_left (by simp [goesOn])
      rw [epoll]
      by_cases new : p = s.nextItem
      · subst new
        rw [polls, Function.update_self, Option.some.injEq] at here
        subst here
        rw [epollAdd_of_mem distinct _ index valid, Nat.zero_add]
        intro pf member valid
        refine ⟨(free pf member valid).1, ?_⟩
        -- What epoll knows is polled.
        by_contra known
        obtain ⟨item, known⟩ := Option.ne_none_iff_exists'.mp known
        obtain ⟨-, arg, shared, there, position, same⟩ := registered pf.fd item known
        exact (free pf member valid).2 item.pPoll arg there shared
          (List.mem_of_getElem? position) same
      · rw [polls, Function.update_of_ne new] at here
        rw [epollAdd_of_notMem, reported p arg i pf here index valid]
        exact fun other member valid same =>
          (free other member valid).2 p arg here pf (List.mem_of_getElem? index) same.symm
  | gaveUp call calls goesOn epoll polls =>
      subst calls
      obtain ⟨-, free⟩ := exclusive.resolve_left (by simp [goesOn])
      rw [polls] at here
      have away : ∀ other ∈ call.fds, -1 < other.fd → other.fd ≠ pf.fd :=
        fun other member valid same =>
          (free other member valid).2 p arg here pf (List.mem_of_getElem? index) same.symm
      rw [epoll, epollDel_eq, if_neg, epollAdd_of_notMem away,
        reported p arg i pf here index valid]
      rintro ⟨-, other, member, same⟩
      exact away other member (same ▸ valid) same
  | closed fd closes epoll polls =>
      subst closes
      rw [polls] at here
      have other : pf.fd ≠ fd := exclusive p arg here pf (List.mem_of_getElem? index)
      rw [epoll, Function.update_of_ne other, reported p arg i pf here index valid]

theorem init_reported : (init start).Reported := by
  intro p arg i pf here
  cases here

theorem reported_run (consistent : s.Consistent lists) (reported : s.Reported)
    (exclusive : s.ExclusiveRun actions) (ran : runSteps advance s actions = some s') :
    s'.Reported := by
  induction actions generalizing s lists with
  | nil =>
      cases ran
      exact reported
  | cons action rest inductionHypothesis =>
      obtain ⟨middle, stepped, ran⟩ := runSteps_cons_eq_some.mp ran
      obtain ⟨lists', kept⟩ := advance_kept consistent stepped
      exact inductionHypothesis kept.consistent
        (kept.traces.reported reported consistent.registered exclusive.1)
        (exclusive.2 middle stepped) ran

/-- An event has been raised for the poll, which is there or was freed. -/
def Settled (s : Env) (p : ItemPtr) : Prop :=
  p < s.nextItem ∧ ∀ arg, s.polls p = some arg → 0 < arg.iRaiseCnt

theorem Kept.settled {action : Action} {lists' : LinkPtr → List ItemPtr} {p : ItemPtr}
    (kept : Kept s s' action lists lists') (settled : s.Settled p) : s'.Settled p := by
  refine ⟨Nat.lt_of_lt_of_le settled.1 kept.nextItem, fun arg here => ?_⟩
  cases kept.traces with
  | same _ polls =>
      obtain ⟨old, there, writes⟩ := polls.back p arg here
      exact Nat.lt_of_lt_of_le (settled.2 old there) writes.raises
  | woke x _ _ _ polls =>
      have other : p ≠ x := by
        rintro rfl
        rw [polls, Function.update_self] at here
        cases here
      rw [polls, Function.update_of_ne other] at here
      exact settled.2 arg here
  | polled _ _ _ _ _ polls =>
      rw [polls, Function.update_of_ne (Nat.ne_of_lt settled.1)] at here
      exact settled.2 arg here
  | gaveUp _ _ _ _ polls => exact settled.2 arg (polls ▸ here)
  | closed _ _ _ polls => exact settled.2 arg (polls ▸ here)

theorem settled_run {p : ItemPtr} (consistent : s.Consistent lists) (settled : s.Settled p)
    (ran : runSteps advance s actions = some s') : s'.Settled p := by
  refine (runSteps_invariant (P := fun s => (∃ lists, s.Consistent lists) ∧ s.Settled p) ?_
    ⟨⟨lists, consistent⟩, settled⟩ ran).2
  rintro s action next ⟨⟨lists, consistent⟩, settled⟩ stepped
  obtain ⟨lists', kept⟩ := advance_kept consistent stepped
  exact ⟨⟨lists', kept.consistent⟩, kept.settled settled⟩

/-- A coroutine waits for a descriptor, for 5 ms at most, from 1000 on. -/
def onePoll : List Action :=
  [.create, .resume 1,
    .poll
      { fds := [⟨7, 1⟩], timeout := 5, pollfunc := none, refused := fun _ => none, now := 1000 },
    .eventloop]

/-! ### Results -/

/-- When the event loop is back at epoll, whoever still waits is not due at the time of
that pass or of any pass before, and has not been told of an event. -/
theorem nobody_left_waiting {before after : List Action} {events : List (Int × UInt32)}
    (positive : 0 < start) (bound : start < 2 ^ 63)
    (ran : runSteps advance (init start) (before ++ .wait events now :: after) = some s)
    (place : s.place = .waiting) {co : CoPtr} {item : ItemPtr}
    (waits : s.coroutines co = some (.polling item)) :
    ∃ arg, s.polls item = some arg ∧ arg.pArg = co ∧ now < arg.ullExpireTime ∧
      arg.iRaiseCnt = 0 := by
  rw [runSteps_append, Option.bind_eq_some_iff] at ran
  obtain ⟨first, ranFirst, ran⟩ := ran
  obtain ⟨second, waited, ran⟩ := runSteps_cons_eq_some.mp ran
  obtain ⟨lists, consistent⟩ := consistent_run positive bound ranFirst
  obtain ⟨lists₁, kept⟩ := advance_kept consistent waited
  obtain ⟨lists₂, consistent₂, further, -⟩ := run_kept kept.consistent ran
  obtain ⟨arg, here, owner, quiet, due⟩ := consistent₂.waiting place waits
  have reached := kept.waited events now rfl
  exact ⟨arg, here, owner, by omega, quiet.not_raised⟩

theorem nobody_left_waiting_one : ∃ s,
    runSteps advance (init 1000) (onePoll ++ [.wait [] 1002, .turn]) = some s ∧
      s.place = .waiting ∧ s.coroutines 1 = some (.polling 0) ∧
      ∃ arg, s.polls 0 = some arg ∧ arg.pArg = 1 ∧ 1002 < arg.ullExpireTime ∧
        arg.iRaiseCnt = 0 := by
  have ran : (runSteps advance (init 1000) (onePoll ++ [.wait [] 1002, .turn])).map
      (fun s => (s.place, s.coroutines 1)) = some (.waiting, some (.polling 0)) := by
    decide +kernel
  obtain ⟨s, ran, seen⟩ := Option.map_eq_some_iff.mp ran
  obtain ⟨place, waits⟩ := Prod.mk.inj seen
  exact ⟨s, ran, place, waits,
    nobody_left_waiting (by decide) (by decide) ran place waits⟩

/-- The loop over the active list resumes only a coroutine that waits in a poll; its
`co_poll` returns what was raised, and returns 0 only once the time is up. -/
theorem turn_resumes_due (positive : 0 < start) (bound : start < 2 ^ 63)
    (ran : runSteps advance (init start) actions = some s) (place : s.place = .draining now)
    (turned : s.step .turn = .ok (some s')) (resumed : s'.callStack ≠ s.callStack) :
    ∃ co item arg, s.coroutines co = some (.polling item) ∧ s.polls item = some arg ∧
      s'.callStack = [co, 0] ∧ s'.returned = some ⟨co, arg.iRaiseCnt, arg.revents⟩ ∧
      (arg.iRaiseCnt = 0 → arg.ullExpireTime ≤ now) := by
  obtain ⟨lists, consistent⟩ := consistent_run positive bound ran
  have idle : s.running = none := by
    by_contra busy
    obtain ⟨self, runs⟩ := Option.ne_none_iff_exists'.mp busy
    rw [step, runs] at turned
    cases turned
  have stack := consistent.idle idle
  have room : s.callStack.length < 128 := by
    rw [stack]
    decide
  obtain ⟨next, lists', ran', -, -, whom, -, -⟩ := nextActive_consistent consistent place room
  have same : s' = next := by
    simp only [step, idle, loopStep, place, ran'] at turned
    cases turned
    rfl
  subst same
  cases whom with
  | stays stack _ _ => exact absurd stack resumed
  | resumed co item arg waits here pushed returned due _ _ =>
      exact ⟨co, item, arg, waits, here, by rw [pushed, stack], returned, due⟩

theorem turn_resumes_due_one : ∃ s s',
    runSteps advance (init 1000) (onePoll ++ [.wait [] 1005]) = some s ∧
      s.step .turn = .ok (some s') ∧
      ∃ co item arg, s.coroutines co = some (.polling item) ∧ s.polls item = some arg ∧
        s'.callStack = [co, 0] ∧ s'.returned = some ⟨co, arg.iRaiseCnt, arg.revents⟩ ∧
        (arg.iRaiseCnt = 0 → arg.ullExpireTime ≤ 1005) := by
  have ran : (runSteps advance (init 1000) (onePoll ++ [.wait [] 1005])).bind (fun s =>
      (s.advance .turn).map fun s' => (s.place, s.callStack, s'.callStack)) =
        some (.draining 1005, [0], [1, 0]) := by
    decide +kernel
  obtain ⟨s, ran, turned⟩ := Option.bind_eq_some_iff.mp ran
  obtain ⟨s', turned, seen⟩ := Option.map_eq_some_iff.mp turned
  simp only [Prod.mk.injEq] at seen
  obtain ⟨place, stack, pushed⟩ := seen
  have turned := advance_eq_some.mp turned
  exact ⟨s, s', ran, turned, turn_resumes_due (by decide) (by decide) ran place turned
    (by rw [pushed, stack]; decide)⟩

/-- A pass of the event loop ends: however the coroutines go on, the loop over the active
list makes at most one turn for each item that there ever was, and one more. -/
theorem pass_ends {after : List Action} (positive : 0 < start) (bound : start < 2 ^ 63)
    (ran : runSteps advance (init start) actions = some s)
    (goesOn : runSteps advance s after = some s')
    (noWait : ∀ action ∈ after, ∀ events now, action ≠ .wait events now) :
    (after.map Action.turns).sum ≤ s.nextItem + 1 := by
  obtain ⟨lists, consistent⟩ := consistent_run positive bound ran
  obtain ⟨lists', -, -, left⟩ := run_kept consistent goesOn
  have items := consistent.items
  have short := items.length_lt (items.represents.holds .pstActiveList).nodup fun p member =>
    (items.listed p).mp ⟨_, member⟩
  have bounded : turnsLeft s lists ≤ s.nextItem + 1 := by
    rw [turnsLeft]
    split <;> omega
  have spent := left noWait
  omega

theorem pass_ends_one : ∃ s s',
    runSteps advance (init 1000) (onePoll ++ [.wait [] 1005]) = some s ∧
      runSteps advance s [.turn, .yieldCt, .turn] = some s' ∧
      (([.turn, .yieldCt, .turn] : List Action).map Action.turns).sum ≤ s.nextItem + 1 := by
  have ran : (runSteps advance (init 1000) (onePoll ++ [.wait [] 1005])).bind (fun s =>
      (runSteps advance s [.turn, .yieldCt, .turn]).map fun s' => s'.place) = some .waiting := by
    decide +kernel
  obtain ⟨s, ran, goesOn⟩ := Option.bind_eq_some_iff.mp ran
  obtain ⟨s', goesOn, -⟩ := Option.map_eq_some_iff.mp goesOn
  exact ⟨s, s', ran, goesOn, pass_ends (by decide) (by decide) ran goesOn (by simp)⟩

/-- If no descriptor is polled by two coroutines at once, or closed while it is polled, epoll
knows in every state each descriptor that is waited for, with the poll that waits for it. -/
theorem polls_stay_registered (positive : 0 < start) (bound : start < 2 ^ 63)
    (ran : runSteps advance (init start) actions = some s)
    (exclusive : (init start).ExclusiveRun actions) : s.Reported :=
  reported_run (init_consistent positive bound) init_reported exclusive ran

theorem onePoll_exclusive : (init 1000).ExclusiveRun onePoll := by
  refine ⟨trivial, fun s₁ created => ⟨trivial, fun s₂ resumed => ⟨.inr ⟨?_, ?_⟩,
    fun s₃ polled => ⟨trivial, fun s₄ entered => trivial⟩⟩⟩⟩
  · exact List.pairwise_singleton ..
  · cases created
    cases resumed
    intro pf member valid
    refine ⟨rfl, fun p arg here => ?_⟩
    cases here

theorem polls_stay_registered_one : ∃ s, runSteps advance (init 1000) onePoll = some s ∧
    (init 1000).ExclusiveRun onePoll ∧ s.Reported := by
  have ran : (runSteps advance (init 1000) onePoll).isSome = true := by decide +kernel
  obtain ⟨s, ran⟩ := Option.isSome_iff_exists.mp ran
  exact ⟨s, ran, onePoll_exclusive,
    polls_stay_registered (by decide) (by decide) ran onePoll_exclusive⟩

/-- An event that epoll reports for a descriptor that is waited for ends that `co_poll`
before epoll is asked again, however the coroutines go on in between. -/
theorem event_ends_poll {before after : List Action} {events : List (Int × UInt32)}
    {flags : UInt32} {p : ItemPtr} {arg : Poll} {i : Nat} {pf : PollFd}
    (positive : 0 < start) (bound : start < 2 ^ 63)
    (ran : runSteps advance (init start) before = some s)
    (exclusive : (init start).ExclusiveRun before)
    (here : s.polls p = some arg) (index : arg.fds[i]? = some pf) (valid : -1 < pf.fd)
    (reported : (pf.fd, flags) ∈ events)
    (goesOn : runSteps advance s (.wait events now :: after) = some s')
    (place : s'.place = .waiting) :
    s'.polls p = none ∧ ∀ co, s'.coroutines co ≠ some (.polling p) := by
  obtain ⟨lists, consistent⟩ := consistent_run positive bound ran
  have known := reported_run (init_consistent positive bound) init_reported exclusive ran
    p arg i pf here index valid
  obtain ⟨middle, waited, goesOn⟩ := runSteps_cons_eq_some.mp goesOn
  obtain ⟨lists₁, kept⟩ := advance_kept consistent waited
  obtain ⟨lists₂, consistent₂, -, -⟩ := run_kept kept.consistent goesOn
  -- The wait raises the event, and the poll does not outlive the pass.
  have settled : middle.Settled p := by
    obtain ⟨new, there, raised⟩ := kept.noted events now rfl _ reported _ known
    refine ⟨kept.consistent.items.fresh p (by simp [there]), fun arg here => ?_⟩
    rw [there, Option.some.injEq] at here
    exact here ▸ raised
  have settled' := settled_run kept.consistent settled goesOn
  have nobody : ∀ co, s'.coroutines co ≠ some (.polling p) := by
    intro co waits
    obtain ⟨arg, here, -, quiet, -⟩ := consistent₂.waiting place waits
    have raised := settled'.2 arg here
    rw [quiet.not_raised] at raised
    exact absurd raised (Nat.lt_irrefl 0)
  refine ⟨?_, nobody⟩
  by_contra there
  obtain ⟨arg, here⟩ := Option.ne_none_iff_exists'.mp there
  exact nobody arg.pArg ((consistent₂.routines.polling arg.pArg p).mpr ⟨arg, here, rfl⟩)

theorem event_ends_poll_one : ∃ s s',
    runSteps advance (init 1000) onePoll = some s ∧
      runSteps advance s [.wait [(7, 1)] 1001, .turn, .yieldCt, .turn] = some s' ∧
      s'.polls 0 = none ∧ ∀ co, s'.coroutines co ≠ some (.polling 0) := by
  have ran : (runSteps advance (init 1000) onePoll).bind (fun s =>
      (runSteps advance s [.wait [(7, 1)] 1001, .turn, .yieldCt, .turn]).map fun s' =>
        (s.polls 0, s'.place)) =
      some (some ⟨1005, 1, false, [⟨7, 1⟩], [0], false, 0⟩, .waiting) := by
    decide +kernel
  obtain ⟨s, ran, goesOn⟩ := Option.bind_eq_some_iff.mp ran
  obtain ⟨s', goesOn, seen⟩ := Option.map_eq_some_iff.mp goesOn
  obtain ⟨here, place⟩ := Prod.mk.inj seen
  exact ⟨s, s', ran, goesOn, event_ends_poll (i := 0) (by decide) (by decide) ran
    onePoll_exclusive here rfl (by decide) List.mem_cons_self goesOn place⟩

end Env

end Libco

end FastCgi
