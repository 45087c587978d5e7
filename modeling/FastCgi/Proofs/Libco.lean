/-
Module: FastCgi.Proofs.Libco
Layer: Proofs
Purpose: Whatever the coroutines do, in whatever order, each poll stays with the
  coroutine that waits in it and with the list that it belongs to; a step fails only
  where libco is misused.
Trusted boundary: none
Main exports: Libco.Env.step_outcome, Libco.Env.advance_kept, Libco.Env.consistent_run
-/
import FastCgi.Library.Transitions
import FastCgi.Proofs.LibcoRoutines

namespace FastCgi

namespace Libco

open Library (runSteps runSteps_invariant)

namespace Env

variable {s s' : Env} {lists lists' : LinkPtr → List ItemPtr} {links : ItemLinks} {co : CoPtr}
  {x : ItemPtr} {arg : Poll}

/-- The environment behind a `co_resume` of a coroutine that waits in a poll. -/
def awake (s : Env) (co : CoPtr) (x : ItemPtr) (arg : Poll) (links : ItemLinks) : Env :=
  { s with
    callStack := co :: s.callStack
    coroutines := Function.update s.coroutines co (some .called)
    polls := Function.update s.polls x none
    links := links
    epoll := epollDel arg.fds s.epoll
    returned := some ⟨arg.pArg, arg.iRaiseCnt, arg.revents⟩ }

theorem coResume_polling (rep : s.links.Represents lists)
    (waits : s.coroutines co = some (.polling x)) (here : s.polls x = some arg)
    (room : s.callStack.length < 128) :
    ∃ links, s.coResume co = .ok (s.awake co x arg links) ∧
      links.Represents fun l => (lists l).erase x := by
  obtain ⟨links, removed, rep'⟩ := rep.removeFromLink x
  refine ⟨links, ?_, rep'⟩
  simp only [coResume, waits, here, push, if_pos room, ok_bind, clearPoll, setCo, removed]
  rfl

/-- The poll of the coroutine is freed with everything that points to it. -/
theorem awake_consistent {links' : ItemLinks} {woken : Poll → Prop}
    (items : Items links' s.timeout s.polls s.nextItem woken lists)
    (routines : Routines s.callStack s.coroutines s.nextCo s.polls)
    (registered : Registered s.epoll s.polls)
    (rep : links.Represents fun l => (lists l).erase x)
    (waits : s.coroutines co = some (.polling x)) (here : s.polls x = some arg)
    (room : s.callStack.length < 128) (same : woken = s.place.Woken s.timeout.ullStart) :
    (s.awake co x arg links).Consistent fun l => (lists l).erase x := by
  subst same
  exact ⟨items.cleared rep, routines.wakes waits here room, registered.cleared here⟩

theorem Consistent.create (consistent : s.Consistent lists) : s.coCreate.Consistent lists :=
  ⟨consistent.items, consistent.routines.created, consistent.registered⟩

/-- The running coroutine yields or ends. -/
theorem Consistent.yield {state : CoState} {last : CoPtr} {rest : List CoPtr}
    (consistent : s.Consistent lists) (stack : s.callStack = co :: last :: rest)
    (notCalled : state ≠ .called) (notPolling : ∀ p, state ≠ .polling p) :
    { s.setCo co state with callStack := last :: rest }.Consistent lists := by
  have routines := consistent.routines
  rw [stack] at routines
  refine ⟨consistent.items, routines.yields notCalled (fun p => ?_) fun _ _ _ => Iff.rfl,
    consistent.registered⟩
  exact iff_of_false (notPolling p) (routines.not_owner List.mem_cons_self p)

/-- A coroutine that is not in a poll is resumed. -/
theorem Consistent.push (consistent : s.Consistent lists)
    (suspended : s.coroutines co = some .created ∨ s.coroutines co = some .yielded)
    (room : s.callStack.length < 128) :
    { s.setCo co .called with callStack := co :: s.callStack }.Consistent lists := by
  refine ⟨consistent.items, consistent.routines.resumes ?_ ?_ room (fun p owner => ?_)
    fun _ _ _ => Iff.rfl, consistent.registered⟩
  · rcases suspended with state | state <;> simp [state]
  · rcases suspended with state | state <;> simp [state]
  · have waits := (consistent.routines.polling co p).mpr owner
    rcases suspended with state | state <;> simp [state] at waits

theorem milliseconds_pos {call : PollCall} (goesOn : call.passes = false) :
    0 < call.milliseconds := by
  have nonzero : call.timeout ≠ 0 := by
    rintro zero
    simp [PollCall.passes, zero] at goesOn
  rw [PollCall.milliseconds]
  split <;> omega

/-- Before the start of the wheel, `co_poll` gives up. -/
theorem coPollInner_early {call : PollCall} (consistent : s.Consistent lists)
    (goesOn : call.passes = false) (early : call.now < s.timeout.ullStart) (self : CoPtr) :
    ∃ s', s.coPollInner self call = .ok s' ∧ s'.Consistent lists ∧ s'.timeout = s.timeout ∧
      s'.place = s.place ∧ s'.polls = s.polls ∧
      s'.epoll = epollDel call.fds (epollAdd call.refused s.nextItem call.fds 0 s.epoll) ∧
      s.nextItem ≤ s'.nextItem := by
  have items := consistent.items
  have free := items.next_free
  have later : call.now < (call.arg self).ullExpireTime :=
    Nat.lt_add_of_pos_right (milliseconds_pos goesOn)
  have due : expireOf (Function.update s.polls s.nextItem (some (call.arg self))) s.nextItem =
      (call.arg self).ullExpireTime := expireOf_self
  have refuses := (items.wheel_update free (call.arg self)).addTimeout s.links (due ▸ later)
  rw [if_pos early, due] at refuses
  have unlinked : s.links.removeFromLink s.nextItem = .ok s.links := by
    rw [Links.removeFromLink, items.represents.free.mpr (items.absent free)]
  have cleared : Function.update (Function.update s.polls s.nextItem (some (call.arg self)))
      s.nextItem none = s.polls := by
    rw [Function.update_idem, ← free, Function.update_eq_self]
  have registered := (consistent.registered.added free call.refused (call.arg self)).cleared
    (Function.update_self s.nextItem (some (call.arg self)) s.polls)
  rw [cleared] at registered
  refine ⟨{ s with
    nextItem := s.nextItem + 1
    epoll := epollDel call.fds (epollAdd call.refused s.nextItem call.fds 0 s.epoll)
    returned := some ⟨self, -1, (call.arg self).revents⟩ }, ?_,
    ⟨items.more (Nat.le_succ _), consistent.routines, registered⟩, rfl, rfl, rfl, rfl,
    Nat.le_succ _⟩
  simp only [coPollInner, goesOn, Bool.false_eq_true, if_false, setPoll, refuses, clearPoll,
    unlinked, ok_bind, cleared]
  rfl

/-- `co_poll` sets up a poll and waits in it. -/
theorem coPollInner_waits {call : PollCall} {last : CoPtr} {rest : List CoPtr}
    (consistent : s.Consistent lists) (goesOn : call.passes = false)
    (reached : s.timeout.ullStart ≤ call.now) (stack : s.callStack = co :: last :: rest) :
    ∃ s' lists', s.coPollInner co call = .ok s' ∧ s'.Consistent lists' ∧
      s'.timeout = s.timeout ∧ s'.place = s.place ∧
      lists' .pstActiveList = lists .pstActiveList ∧
      s'.polls = Function.update s.polls s.nextItem (some (call.arg co)) ∧
      s'.epoll = epollAdd call.refused s.nextItem call.fds 0 s.epoll ∧
      s.nextItem ≤ s'.nextItem := by
  have items := consistent.items
  have free := items.next_free
  have later : call.now < (call.arg co).ullExpireTime :=
    Nat.lt_add_of_pos_right (milliseconds_pos goesOn)
  obtain ⟨links', lists', added, items', active⟩ := items.slotted free (Nat.le_succ _)
    (Nat.lt_succ_self _) (call.arg co) ⟨rfl, rfl, rfl⟩ later reached
  have routines := consistent.routines
  rw [stack] at routines
  refine ⟨{ s with
    callStack := last :: rest
    coroutines := Function.update s.coroutines co (some (.polling s.nextItem))
    polls := Function.update s.polls s.nextItem (some (call.arg co))
    nextItem := s.nextItem + 1
    links := links'
    epoll := epollAdd call.refused s.nextItem call.fds 0 s.epoll }, lists', ?_,
    ⟨items', routines.polls_new free rfl,
      consistent.registered.added free call.refused (call.arg co)⟩, rfl, rfl, active, rfl, rfl,
    Nat.le_succ _⟩
  simp only [coPollInner, goesOn, Bool.false_eq_true, if_false, setPoll, added, coYieldEnv, stack]
  rfl

/-- The list of timeouts is empty already. -/
theorem resetTimeoutList_represents (rep : s.links.Represents lists)
    (empty : lists .pstTimeoutList = []) : s.resetTimeoutList.links.Represents lists := by
  refine ⟨fun l => ?_, rep.link⟩
  have holds := rep.holds l
  by_cases reset : l = .pstTimeoutList
  · subst reset
    rw [empty] at holds ⊢
    exact ⟨holds.nodup, by simp [resetTimeoutList], by simp [resetTimeoutList], holds.linked⟩
  · exact holds.frame (by simp [resetTimeoutList, reset]) (by simp [resetTimeoutList, reset])
      fun _ _ => ⟨rfl, rfl⟩

/-- The first half of a pass of the event loop. -/
theorem wait_consistent {events : List (Int × UInt32)} {now : Nat}
    (consistent : s.Consistent lists) (place : s.place = .waiting)
    (possible : s.possible events now) :
    ∃ s' lists', s.wait events now = .ok s' ∧ s'.Consistent lists' ∧
      s'.timeout.ullStart = max s.timeout.ullStart now ∧ Loops s s' ∧
      ∀ event ∈ events, ∀ lp, s.epoll event.1 = some lp →
        ∃ arg, s'.polls lp.pPoll = some arg ∧ 0 < arg.iRaiseCnt := by
  obtain ⟨-, -, known, soon, bound⟩ := possible
  have items := consistent.items
  rw [place] at items
  have reset : Items s.resetTimeoutList.links s.timeout s.polls s.nextItem Poll.Detached lists :=
    { items.mono fun _ woken => woken.elim with
      represents := resetTimeoutList_represents items.represents items.timeouts }
  obtain ⟨s₁, lists₁, prepared, ⟨loops, timeout, items₁⟩, noted⟩ :=
    prepareAll_items (s := s.resetTimeoutList) reset consistent.registered known
  have kept : s₁.timeout = s.timeout := timeout
  rw [← kept] at soon ⊢
  obtain ⟨s₂, lists₂, expired, loops₂, -, start, items₂⟩ := expireAll_items items₁ soon bound
  have emptied : Loops s s.resetTimeoutList := 
    ⟨rfl, rfl, rfl, rfl, rfl, .refl _⟩
  have both := emptied.trans (loops.trans loops₂)
  refine ⟨s₂, lists₂, ?_, ⟨items₂, ?_, ?_⟩, start, both, fun event member lp found => ?_⟩
  · rw [wait, prepared, ok_bind, expired]
  · rw [both.callStack, both.coroutines, both.nextCo]
    exact consistent.routines.rewritten both.polls
  · rw [both.epoll]
    exact consistent.registered.rewritten both.polls
  · obtain ⟨arg, here, raised⟩ := noted event member lp found
    obtain ⟨arg', here', writes⟩ := loops₂.polls.forth _ arg here
    exact ⟨arg', here', Nat.lt_of_lt_of_le raised writes.raises⟩

/-- Whom a turn of the loop over the active list resumes: nobody, where the pass is over or
an item that was cut goes back into the wheel, or the coroutine of the item. -/
inductive Turned (s s' : Env) (now : Nat) : Prop
  | stays (stack : s'.callStack = s.callStack) (epoll : s'.epoll = s.epoll)
      (polls : Rewritten s.polls s'.polls)
  | resumed (co : CoPtr) (x : ItemPtr) (arg : Poll) (waits : s.coroutines co = some (.polling x))
      (here : s.polls x = some arg) (stack : s'.callStack = co :: s.callStack)
      (returned : s'.returned = some ⟨co, arg.iRaiseCnt, arg.revents⟩)
      (due : arg.iRaiseCnt = 0 → arg.ullExpireTime ≤ now)
      (epoll : s'.epoll = epollDel arg.fds s.epoll)
      (polls : s'.polls = Function.update s.polls x none)

/-- The first item of the active list is taken out. -/
theorem popHead_erase {rest : List ItemPtr} (rep : s.links.Represents lists)
    (first : lists .pstActiveList = x :: rest) :
    (s.links.popHead .pstActiveList).Represents fun l => (lists l).erase x := by
  have same : (fun l => (lists l).erase x) = Function.update lists .pstActiveList rest := by
    funext l
    by_cases here : l = .pstActiveList
    · rw [here, Function.update_self, first, List.erase_cons_head]
    · rw [Function.update_of_ne here]
      exact List.erase_of_not_mem (rep.apart (by simp [first]) here)
  rw [same]
  exact rep.popHead first

/-- An item that was cut to the size of the wheel goes back into it. -/
theorem processItem_early {now : Nat} (consistent : s.Consistent lists)
    (rep : links.Represents fun l => (lists l).erase x) (here : s.polls x = some arg)
    (late : arg.TimedOut s.timeout.ullStart now) (early : arg.early now = true) :
    ∃ s' lists', { s with links := links }.processItem now x arg = .ok s' ∧
      s'.Consistent lists' ∧ s'.timeout = s.timeout ∧ s'.callStack = s.callStack ∧
      s'.place = s.place ∧ lists' .pstActiveList = (lists .pstActiveList).erase x ∧
      s'.epoll = s.epoll ∧ s'.nextItem = s.nextItem ∧ Rewritten s.polls s'.polls := by
  have later : now < arg.ullExpireTime := by simpa [Poll.early, late.timeout] using early
  have below := consistent.items.fresh x (by simp [here])
  obtain ⟨links', lists', added, items, active⟩ :=
    (consistent.items.cleared rep).slotted (Function.update_self ..) le_rfl below
      { arg with bTimeout := false } ⟨rfl, late.not_detached, late.not_raised⟩ later late.reached
  rw [Function.update_idem] at items
  have written : Rewritten s.polls
      (Function.update s.polls x (some { arg with bTimeout := false })) :=
    .update here ⟨rfl, rfl, le_rfl⟩
  refine ⟨{ s with
    polls := Function.update s.polls x (some { arg with bTimeout := false })
    links := links' }, lists', ?_, ⟨items, consistent.routines.rewritten written,
    consistent.registered.rewritten written⟩, rfl, rfl, rfl, active, rfl, rfl,
    written⟩
  have added : addTimeout s.timeout links x arg.ullExpireTime now = (true, s.timeout, links') :=
    added
  simp only [processItem, early, if_true, added]
  rfl

/-- The coroutine of the item is resumed. -/
theorem processItem_due {now : Nat} (consistent : s.Consistent lists)
    (rep : links.Represents fun l => (lists l).erase x) (here : s.polls x = some arg)
    (due : arg.early now = false) (room : s.callStack.length < 128) :
    ∃ links', { s with links := links }.processItem now x arg =
        .ok (s.awake arg.pArg x arg links') ∧
      (s.awake arg.pArg x arg links').Consistent fun l => (lists l).erase x := by
  have waits := (consistent.routines.polling arg.pArg x).mpr ⟨arg, here, rfl⟩
  obtain ⟨links', resumed, rep'⟩ :=
    coResume_polling (s := { s with links := links }) rep waits here room
  have once : (fun l => ((lists l).erase x).erase x) = fun l => (lists l).erase x := by
    funext l
    have nodup := (consistent.items.represents.holds l).nodup
    exact List.erase_of_not_mem nodup.not_mem_erase
  rw [once] at rep'
  refine ⟨links', ?_, awake_consistent consistent.items consistent.routines
    consistent.registered rep' waits here room rfl⟩
  simp only [processItem, due, Bool.false_eq_true, if_false]
  exact resumed

theorem nextActive_consistent {now : Nat} (consistent : s.Consistent lists)
    (place : s.place = .draining now) (room : s.callStack.length < 128) :
    ∃ s' lists', s.nextActive now = .ok s' ∧ s'.Consistent lists' ∧
      s'.timeout = s.timeout ∧ Turned s s' now ∧ s.nextItem ≤ s'.nextItem ∧
      (s'.place = .waiting ∨ (s'.place = s.place ∧
        (lists' .pstActiveList).length < (lists .pstActiveList).length)) := by
  have items := consistent.items
  have head := (items.represents.holds .pstActiveList).head
  cases active : lists .pstActiveList with
  | nil =>
      rw [active] at head
      refine ⟨{ s with place := .waiting }, lists, by rw [nextActive, head]; rfl,
        ⟨{ items with active := ?_ }, consistent.routines, consistent.registered⟩, rfl,
        .stays rfl rfl (.refl _), le_rfl, .inl rfl⟩
      rw [active]
      simp
  | cons x rest =>
      have member : x ∈ lists .pstActiveList := by simp [active]
      obtain ⟨arg, here⟩ := items.present member
      have woken := items.active x member arg here
      rw [place] at woken
      have rep := popHead_erase items.represents active
      have shorter : ((lists .pstActiveList).erase x).length < (x :: rest).length := by
        simp [active]
      rw [active] at head
      simp only [nextActive, head, List.head?_cons, here]
      cases early : arg.early now with
      | true =>
          have late : arg.TimedOut s.timeout.ullStart now := by
            refine woken.resolve_left fun detached => ?_
            simp [Poll.early, detached.not_timeout] at early
          obtain ⟨s', lists', ran, consistent', timeout, stack, place', active', epoll, nextItem,
            polls⟩ := processItem_early consistent rep here late early
          exact ⟨s', lists', ran, consistent', timeout, .stays stack epoll polls,
            nextItem.ge, .inr ⟨place', active' ▸ shorter⟩⟩
      | false =>
          obtain ⟨links', ran, consistent'⟩ := processItem_due consistent rep here early room
          have waits := (consistent.routines.polling arg.pArg x).mpr ⟨arg, here, rfl⟩
          refine ⟨_, _, ran, consistent', rfl, .resumed arg.pArg x arg waits here rfl rfl
            (fun zero => ?_) rfl rfl, le_rfl, .inr ⟨rfl, shorter⟩⟩
          rcases woken with detached | late
          · exact absurd detached.raised (by omega)
          · simpa [Poll.early, late.timeout] using early

/-- How many turns an action takes. -/
def Action.turns : Action → Nat
  | .turn => 1
  | _ => 0

/-- How many turns the loop over the active list can still make. -/
def turnsLeft (s : Env) (lists : LinkPtr → List ItemPtr) : Nat :=
  match s.place with
  | .draining _ => (lists .pstActiveList).length + 1
  | _ => 0

/-- What a step does to the polls and to what epoll knows. -/
inductive Traces (s s' : Env) (action : Action) : Prop
  | same (epoll : s'.epoll = s.epoll)
      (polls : Rewritten s.polls s'.polls)
  | woke (x : ItemPtr) (arg : Poll) (here : s.polls x = some arg)
      (epoll : s'.epoll = epollDel arg.fds s.epoll)
      (polls : s'.polls = Function.update s.polls x none)
  | polled (call : PollCall) (self : CoPtr) (calls : action = .poll call)
      (goesOn : call.passes = false)
      (epoll : s'.epoll = epollAdd call.refused s.nextItem call.fds 0 s.epoll)
      (polls : s'.polls = Function.update s.polls s.nextItem (some (call.arg self)))
  | gaveUp (call : PollCall) (calls : action = .poll call) (goesOn : call.passes = false)
      (epoll : s'.epoll =
        epollDel call.fds (epollAdd call.refused s.nextItem call.fds 0 s.epoll))
      (polls : s'.polls = s.polls)
  | closed (fd : Int) (closes : action = .close fd)
      (epoll : s'.epoll = Function.update s.epoll fd none) (polls : s'.polls = s.polls)

/-- What a step keeps. -/
structure Kept (s s' : Env) (action : Action) (lists lists' : LinkPtr → List ItemPtr) :
    Prop where
  consistent : s'.Consistent lists'
  start : s.timeout.ullStart ≤ s'.timeout.ullStart
  waited : ∀ events now, action = .wait events now → now ≤ s'.timeout.ullStart
  left : (∀ events now, action ≠ .wait events now) →
    turnsLeft s' lists' + action.turns ≤ turnsLeft s lists
  traces : Traces s s' action
  nextItem : s.nextItem ≤ s'.nextItem
  noted : ∀ events now, action = .wait events now → ∀ event ∈ events, ∀ lp,
    s.epoll event.1 = some lp → ∃ arg, s'.polls lp.pPoll = some arg ∧ 0 < arg.iRaiseCnt

/-- A step of a coroutine does not add to the active list. -/
theorem Kept.of_user {action : Action} (consistent : s'.Consistent lists')
    (timeout : s'.timeout = s.timeout) (place : s'.place = s.place)
    (active : (lists' .pstActiveList).length ≤ (lists .pstActiveList).length)
    (turns : action.turns = 0) (user : ∀ events now, action ≠ .wait events now)
    (traces : Traces s s' action) (nextItem : s.nextItem ≤ s'.nextItem) :
    Kept s s' action lists lists' := by
  refine ⟨consistent, by rw [timeout], fun events now same => absurd same (user events now), ?_,
    traces, nextItem, fun events now same => absurd same (user events now)⟩
  intro _
  rw [turns, turnsLeft, turnsLeft, place]
  split <;> omega

/-- What a step may come to: it fails, it is not the time for it, or it keeps the
invariant. -/
def Outcome (s : Env) (action : Action) (lists : LinkPtr → List ItemPtr)
    (result : Except Fault (Option Env)) : Prop :=
  (s.Misuse action ∧ ∃ fault, result = .error fault) ∨
    (¬ s.Misuse action ∧ ∃ next, result = .ok next ∧
      ∀ s', next = some s' → ∃ lists', Kept s s' action lists lists')

theorem Outcome.of_some {action : Action} (proper : ¬ s.Misuse action)
    (kept : Kept s s' action lists lists') : Outcome s action lists (.ok (some s')) := by
  refine .inr ⟨proper, some s', rfl, ?_⟩
  rintro _ ⟨⟩
  exact ⟨lists', kept⟩

theorem Outcome.of_ok {action : Action} {result : Except Fault Env}
    (proper : ¬ s.Misuse action) (ran : result = .ok s') (kept : Kept s s' action lists lists') :
    Outcome s action lists (result.map some) := by
  subst ran
  exact .of_some proper kept

theorem Outcome.of_error {action : Action} {result : Except Fault Env} {fault : Fault}
    (misuse : s.Misuse action) (failed : result = .error fault) :
    Outcome s action lists (result.map some) := by
  subst failed
  exact .inl ⟨misuse, fault, rfl⟩

theorem Outcome.of_none {action : Action} (proper : ¬ s.Misuse action) :
    Outcome s action lists (.ok none) :=
  .inr ⟨proper, none, rfl, by simp⟩

/-- Where the running coroutine is on the call stack. -/
theorem Consistent.stack_cases {self : CoPtr} (consistent : s.Consistent lists)
    (runs : s.running = some self) :
    (self = 0 ∧ s.callStack = [0] ∧ s.place = .outside) ∨
      ∃ last rest, s.callStack = self :: last :: rest ∧ self ≠ 0 := by
  have main := consistent.routines.main
  have nodup := consistent.routines.nodup
  rw [running] at runs
  rcases stack : s.callStack with _ | ⟨co, _ | ⟨last, rest⟩⟩
  · rw [stack] at main
    cases main
  · rw [stack] at main runs
    obtain rfl : co = 0 := by simpa using main
    have outside : s.place = .outside := by
      by_contra other
      simp [other] at runs
    refine .inl ⟨?_, rfl, outside⟩
    simpa [outside] using runs.symm
  · rw [stack] at main nodup runs
    obtain rfl : co = self := by simpa using runs
    refine .inr ⟨last, rest, rfl, ?_⟩
    rintro rfl
    have last' : (last :: rest).getLast? = some 0 := by
      simpa [List.getLast?_cons] using main
    exact (List.nodup_cons.mp nodup).1 (List.mem_of_getLast? last')

/-- The call stack has 128 places. -/
theorem coResume_full (full : s.callStack.length = 128) (co : CoPtr) :
    s.coResume co = .error .outOfBounds := by
  have none : s.push co = .error .outOfBounds := by rw [Env.push, if_neg (by omega)]
  cases state : s.coroutines co with
  | none => rw [coResume, state]
  | some current =>
      cases current with
      | created => rw [coResume, state, none]
      | yielded => rw [coResume, state, none]
      | called => rw [coResume, state]
      | ended => rw [coResume, state]
      | polling x =>
          cases here : s.polls x with
          | none => simp only [coResume, state, here]
          | some arg =>
              simp only [coResume, state, here, none]
              rfl

theorem resume_outcome (consistent : s.Consistent lists) (co : CoPtr) :
    Outcome s (.resume co) lists ((s.coResume co).map some) := by
  have depth := consistent.routines.depth
  by_cases full : s.callStack.length = 128
  · exact .of_error (.inl full) (coResume_full full co)
  have room : s.callStack.length < 128 := by omega
  cases state : s.coroutines co with
  | none =>
      exact .of_error (.inr (.inl state)) (by rw [coResume, state])
  | some current =>
      cases current with
      | created =>
          refine .of_ok (by simp [Misuse, state, full]) ?_
            (.of_user (consistent.push (.inl state) room) rfl rfl le_rfl rfl (by simp)
              (.same rfl (.refl _)) le_rfl)
          rw [coResume, state, Env.push, if_pos room]
      | yielded =>
          refine .of_ok (by simp [Misuse, state, full]) ?_
            (.of_user (consistent.push (.inr state) room) rfl rfl le_rfl rfl (by simp)
              (.same rfl (.refl _)) le_rfl)
          rw [coResume, state, Env.push, if_pos room]
      | called => exact .of_error (.inr (.inr (.inl state))) (by rw [coResume, state])
      | ended => exact .of_error (.inr (.inr (.inr state))) (by rw [coResume, state])
      | polling x =>
          obtain ⟨arg, here, -⟩ := (consistent.routines.polling co x).mp state
          obtain ⟨links, resumed, rep⟩ :=
            coResume_polling consistent.items.represents state here room
          exact .of_ok (by simp [Misuse, state, full]) resumed
            (.of_user (awake_consistent consistent.items consistent.routines
              consistent.registered rep state here room rfl) rfl rfl
              List.length_erase_le rfl (by simp) (.woke x arg here rfl rfl) le_rfl)

/-- The main coroutine has nobody to yield to. -/
theorem coPollInner_main {call : PollCall} (consistent : s.Consistent lists)
    (goesOn : call.passes = false) (reached : s.timeout.ullStart ≤ call.now)
    (stack : s.callStack = [0]) : s.coPollInner 0 call = .error .outOfBounds := by
  have later : call.now < (call.arg 0).ullExpireTime :=
    Nat.lt_add_of_pos_right (milliseconds_pos goesOn)
  obtain ⟨links', lists', added, -, -⟩ := consistent.items.slotted consistent.items.next_free
    (Nat.le_succ _) (Nat.lt_succ_self _) (call.arg 0) ⟨rfl, rfl, rfl⟩ later reached
  simp only [coPollInner, goesOn, Bool.false_eq_true, if_false, setPoll, added, coYieldEnv, stack]

theorem poll_outcome {self : CoPtr} (consistent : s.Consistent lists)
    (runs : s.running = some self) (call : PollCall) :
    Outcome s (.poll call) lists ((s.coPollInner self call).map some) := by
  cases passes : call.passes with
  | true =>
      have goes : s.coPollInner self call = s.callPollfunc self call.pollfunc := by
        rw [coPollInner, if_pos passes]
      rw [goes]
      cases answer : call.pollfunc with
      | none => exact .of_error (by simp [Misuse, passes, answer]) rfl
      | some answered =>
          exact .of_ok (by simp [Misuse, passes, answer]) rfl
            (.of_user ⟨consistent.items, consistent.routines, consistent.registered⟩ rfl rfl
              le_rfl rfl (by simp) (.same rfl (.refl _)) le_rfl)
  | false =>
      by_cases early : call.now < s.timeout.ullStart
      · obtain ⟨s', ran, consistent', timeout, place, polls, epoll, nextItem⟩ :=
          coPollInner_early consistent passes early self
        exact .of_ok (by simp [Misuse, passes, early]) ran
          (.of_user consistent' timeout place le_rfl rfl (by simp)
            (.gaveUp call rfl passes epoll polls) nextItem)
      · have reached := Nat.not_lt.mp early
        rcases consistent.stack_cases runs with ⟨rfl, stack, -⟩ | ⟨last, rest, stack, -⟩
        · exact .of_error (by simp [Misuse, passes, stack, reached])
            (coPollInner_main consistent passes reached stack)
        · obtain ⟨s', lists', ran, consistent', timeout, place, active, polls, epoll,
            nextItem⟩ :=
            coPollInner_waits consistent passes reached stack
          exact .of_ok (by simp [Misuse, passes, stack]) ran
            (.of_user consistent' timeout place (by rw [active]) rfl (by simp)
              (.polled call self rfl passes epoll polls) nextItem)

theorem userStep_outcome {self : CoPtr} (consistent : s.Consistent lists)
    (runs : s.running = some self) (action : Action) :
    Outcome s action lists (s.userStep self action) := by
  have cases := consistent.stack_cases runs
  cases action with
  | create =>
      exact .of_some (by simp [Misuse])
        (.of_user consistent.create rfl rfl le_rfl rfl (by simp)
          (.same rfl (.refl _)) le_rfl)
  | resume co => exact resume_outcome consistent co
  | poll call => exact poll_outcome consistent runs call
  | yieldCt =>
      rcases cases with ⟨rfl, stack, -⟩ | ⟨last, rest, stack, -⟩
      · exact .of_error (by simp [Misuse, stack]) (by rw [coYieldEnv, stack])
      · exact .of_ok (by simp [Misuse, stack]) (by rw [coYieldEnv, stack])
          (.of_user (consistent.yield stack (by simp) (by simp)) rfl rfl le_rfl rfl (by simp)
            (.same rfl (.refl _)) le_rfl)
  | finish =>
      rcases cases with ⟨rfl, stack, -⟩ | ⟨last, rest, stack, other⟩
      · exact .of_none (by simp [Misuse])
      · rw [userStep, if_neg other]
        exact .of_ok (by simp [Misuse]) (by rw [coYieldEnv, stack])
          (.of_user (consistent.yield stack (by simp) (by simp)) rfl rfl le_rfl rfl (by simp)
            (.same rfl (.refl _)) le_rfl)
  | close fd =>
      exact .of_some (by simp [Misuse])
        (.of_user ⟨consistent.items, consistent.routines, consistent.registered.closed fd⟩
          rfl rfl le_rfl rfl (by simp) (.closed fd rfl rfl rfl) le_rfl)
  | eventloop =>
      rcases cases with ⟨rfl, stack, outside⟩ | ⟨last, rest, stack, -⟩
      · rw [userStep, if_pos stack]
        have items := consistent.items
        rw [outside] at items
        have consistent' : { s with place := .waiting }.Consistent lists :=
          ⟨items.mono fun _ woken => woken.elim, consistent.routines, consistent.registered⟩
        exact .of_some (by simp [Misuse])
          ⟨consistent', le_rfl, by simp, fun _ => Nat.zero_le _,
            .same rfl (.refl _), le_rfl, by simp⟩
      · rw [userStep, if_neg (by simp [stack])]
        exact .of_none (by simp [Misuse])
  | wait events now => exact .of_none (by simp [Misuse])
  | turn => exact .of_none (by simp [Misuse])

/-- The event loop runs when nobody else does. -/
theorem Consistent.idle (consistent : s.Consistent lists) (idle : s.running = none) :
    s.callStack = [0] := by
  have main := consistent.routines.main
  rw [running] at idle
  rcases stack : s.callStack with _ | ⟨co, _ | ⟨last, rest⟩⟩
  · rw [stack] at main
    cases main
  · rw [stack] at main
    simpa using main
  · rw [stack] at idle
    cases idle

/-- The event loop does not fail. -/
theorem loopStep_kept (consistent : s.Consistent lists) (idle : s.running = none)
    (action : Action) :
    ∃ next, s.loopStep action = .ok next ∧
      ∀ s', next = some s' → ∃ lists', Kept s s' action lists lists' := by
  have room : s.callStack.length < 128 := by
    rw [consistent.idle idle]
    decide
  cases action with
  | wait events now =>
      by_cases enabled : s.place = .waiting ∧ s.possible events now
      · obtain ⟨s', lists', ran, consistent', start, loops, noted⟩ :=
          wait_consistent consistent enabled.1 enabled.2
        refine ⟨some s', by rw [loopStep, if_pos enabled, ran]; rfl, ?_⟩
        rintro _ ⟨⟩
        refine ⟨lists', consistent', ?_, ?_, ?_, .same loops.epoll loops.polls,
          loops.nextItem.ge, ?_⟩
        · rw [start]
          exact le_max_left ..
        · rintro _ _ ⟨⟩
          rw [start]
          exact le_max_right ..
        · intro other
          exact absurd rfl (other events now)
        · rintro _ _ ⟨⟩
          exact noted
      · exact ⟨none, by rw [loopStep, if_neg enabled], by simp⟩
  | turn =>
      cases place : s.place with
      | draining now =>
          obtain ⟨s', lists', ran, consistent', timeout, whom, nextItem, progress⟩ :=
            nextActive_consistent consistent place room
          refine ⟨some s', by simp only [loopStep, place, ran]; rfl, ?_⟩
          rintro _ ⟨⟩
          have traces : Traces s s' .turn := by
            cases whom with
            | stays _ epoll polls => exact .same epoll polls
            | resumed _ x arg _ here _ _ _ epoll polls => exact .woke x arg here epoll polls
          refine ⟨lists', consistent', by rw [timeout], by simp, fun _ => ?_, traces, nextItem,
            by simp⟩
          rcases progress with done | ⟨same, shorter⟩
          · simp only [turnsLeft, done, place, Action.turns]
            omega
          · rw [place] at same
            simp only [turnsLeft, same, place, Action.turns]
            omega
      | outside => exact ⟨none, by simp only [loopStep, place], by simp⟩
      | waiting => exact ⟨none, by simp only [loopStep, place], by simp⟩
  | _ => exact ⟨none, rfl, by simp⟩

/-- A step fails where libco is misused, and otherwise keeps the invariant. -/
theorem step_outcome (consistent : s.Consistent lists) (action : Action) :
    (s.running ≠ none ∧ s.Misuse action ∧ ∃ fault, s.step action = .error fault) ∨
      (¬ (s.running ≠ none ∧ s.Misuse action) ∧ ∃ next, s.step action = .ok next ∧
        ∀ s', next = some s' → ∃ lists', Kept s s' action lists lists') := by
  cases runs : s.running with
  | none =>
      obtain ⟨next, ran, kept⟩ := loopStep_kept consistent runs action
      exact .inr ⟨by simp, next, by simp only [step, runs, ran], kept⟩
  | some self =>
      have same : s.step action = s.userStep self action := by simp only [step, runs]
      rw [same]
      rcases userStep_outcome consistent runs action with ⟨misuse, failed⟩ | ⟨proper, ran⟩
      · exact .inl ⟨by simp, misuse, failed⟩
      · exact .inr ⟨fun both => proper both.2, ran⟩

theorem advance_kept {action : Action} (consistent : s.Consistent lists)
    (ran : s.advance action = some s') : ∃ lists', Kept s s' action lists lists' := by
  rw [advance] at ran
  rcases step_outcome consistent action with ⟨-, -, fault, failed⟩ | ⟨-, next, stepped, kept⟩
  · rw [failed] at ran
    cases ran
  · rw [stepped] at ran
    exact kept s' ran

theorem init_consistent {now : Nat} (positive : 0 < now) (bound : now < 2 ^ 63) :
    (init now).Consistent fun _ => [] := by
  refine ⟨⟨Links.empty_represents, ?_, ?_, ?_, ?_, ?_, rfl⟩, ⟨?_, ?_, rfl, ?_, ?_, ?_⟩, ?_⟩
  · exact ⟨by simp [init, allocTimeout], by simp [init, allocTimeout], positive, bound,
      Int.le_refl 0, Int.natCast_nonneg now, by simp⟩
  · simp [init]
  · simp [init]
  · simp
  · simp
  · simp [init]
  · intro co
    by_cases main : co = 0 <;> simp [init, main]
  · simp [init]
  · intro co there
    by_cases main : co = 0
    · simp [init, main]
    · simp [init, main] at there
  · intro co p
    by_cases main : co = 0 <;> simp [init, main]
  · intro fd item known
    cases known

/-- Whatever is done, in whatever order. -/
theorem consistent_run {now : Nat} {actions : List Action} (positive : 0 < now)
    (bound : now < 2 ^ 63) (ran : runSteps advance (init now) actions = some s) :
    ∃ lists, s.Consistent lists := by
  refine runSteps_invariant (P := fun s => ∃ lists, s.Consistent lists) ?_
    ⟨_, init_consistent positive bound⟩ ran
  rintro s action next ⟨lists, consistent⟩ stepped
  obtain ⟨lists', kept⟩ := advance_kept consistent stepped
  exact ⟨lists', kept.consistent⟩

end Env

end Libco

end FastCgi
