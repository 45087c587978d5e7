/-
Module: FastCgi.Model.Libco
Layer: Model
Purpose: The coroutines of one thread (cocgi/cocgi_lib/libco/co_routine.cpp):
  `co_create`, `co_resume`, `co_yield_env`, `CoRoutineFunc`, `co_poll_inner` and
  `co_eventloop`, with the epoll instance that they share.  What the coroutines
  themselves do is left open: they take any of these steps in any order.
Trusted boundary: the switch of contexts (`co_swap`); what epoll reports is registered;
  two passes of the event loop are less than 2^31 - 1 ms apart; no coroutine is released
  with `co_release`, as the deleter of cocgi.h does with a task that nobody holds, and
  the condition variables (`co_cond_*`) are not used; `co_eventloop` is called without a
  `pfn`, which could end it
Main exports: Libco.Env, Libco.Env.coResume, Libco.Env.coPollInner, Libco.Env.nextActive,
  Libco.Env.step, Libco.Env.advance
-/
import FastCgi.Model.LibcoTimeout

namespace FastCgi

namespace Libco

open Library (Turn runLoop)

/-- A `stCoRoutine_t`. -/
abbrev CoPtr := Nat

/-! ### Polls -/

/-- A `pollfd` as the caller fills it. -/
structure PollFd where
  fd : Int
  events : UInt16
deriving Repr, DecidableEq

/-- The flags of poll and of epoll, in the order in which they are translated. -/
def eventFlags : List (UInt16 × UInt32) :=
  [(0x001, 0x001), (0x004, 0x004), (0x010, 0x010), (0x008, 0x008), (0x040, 0x040),
    (0x100, 0x100)]

def pollEvent2Epoll (events : UInt16) : UInt32 :=
  eventFlags.foldl (fun e flag => if events &&& flag.1 ≠ 0 then e ||| flag.2 else e) 0

def epollEvent2Poll (events : UInt32) : UInt16 :=
  eventFlags.foldl (fun e flag => if events &&& flag.2 ≠ 0 then e ||| flag.1 else e) 0

/-- `stPoll_t`.  `fds` is the array of the caller, who waits; `revents` is in the copy. -/
structure Poll where
  ullExpireTime : Nat
  pArg : CoPtr
  bTimeout : Bool
  fds : List PollFd
  revents : List UInt16
  iAllEventDetach : Bool
  iRaiseCnt : Nat
deriving Repr, DecidableEq

/-- The `stPollItem_t` behind a registration. -/
structure PollItem where
  pPoll : ItemPtr
  index : Nat
  events : UInt32
deriving Repr, DecidableEq

/-- Why epoll refuses a descriptor that is not registered. -/
inductive Refusal where
  | eperm
  | other
deriving Repr, DecidableEq

/-- The second part of `co_poll_inner`, from descriptor `index` on.  A descriptor that
is registered already is refused. -/
def epollAdd (refused : Int → Option Refusal) (item : ItemPtr) :
    List PollFd → Nat → (Int → Option PollItem) → Int → Option PollItem
  | [], _, epoll => epoll
  | pf :: fds, index, epoll =>
      if -1 < pf.fd ∧ refused pf.fd = none ∧ epoll pf.fd = none then
        epollAdd refused item fds (index + 1)
          (Function.update epoll pf.fd (some ⟨item, index, pollEvent2Epoll pf.events⟩))
      else epollAdd refused item fds (index + 1) epoll

/-- The loop at the end of `co_poll_inner`. -/
def epollDel : List PollFd → (Int → Option PollItem) → Int → Option PollItem
  | [], epoll => epoll
  | pf :: fds, epoll =>
      if -1 < pf.fd then epollDel fds (Function.update epoll pf.fd none) else epollDel fds epoll

/-- `bTimeout` is set and the item is not due: it had been cut to the size of the wheel. -/
def Poll.early (arg : Poll) (now : Nat) : Bool :=
  arg.bTimeout && decide (now < arg.ullExpireTime)

/-- What a call of `co_poll_inner` depends on. -/
structure PollCall where
  fds : List PollFd
  timeout : Int
  /-- What the function of the system would answer; `co_poll` gives no function. -/
  pollfunc : Option (Int × List UInt16)
  /-- What epoll answers for a descriptor that is not registered. -/
  refused : Int → Option Refusal
  now : Nat

/-- Epoll has no use for the only descriptor. -/
def PollCall.refusedOnly (call : PollCall) : Bool :=
  match call.fds with
  | [pf] => decide (-1 < pf.fd) && call.refused pf.fd == some .eperm
  | _ => false

/-- The call goes on to the function of the system. -/
def PollCall.passes (call : PollCall) : Bool :=
  call.timeout == 0 || (call.refusedOnly && call.pollfunc.isSome)

/-- The timeout in milliseconds; a negative one is `INT_MAX`. -/
def PollCall.milliseconds (call : PollCall) : Nat :=
  if call.timeout < 0 then 2 ^ 31 - 1 else call.timeout.toNat

/-- The poll that the call sets up. -/
def PollCall.arg (call : PollCall) (self : CoPtr) : Poll where
  ullExpireTime := call.now + call.milliseconds
  pArg := self
  bTimeout := false
  fds := call.fds
  revents := call.fds.map fun _ => 0
  iAllEventDetach := false
  iRaiseCnt := 0

/-! ### Coroutines -/

inductive CoState where
  /-- `cStart` is 0. -/
  | created
  /-- On the call stack. -/
  | called
  /-- In the `co_yield_env` of `co_poll_inner`. -/
  | polling (arg : ItemPtr)
  /-- In `co_yield_ct`. -/
  | yielded
  /-- `cEnd` is 1. -/
  | ended
deriving Repr, DecidableEq

/-- Where the main coroutine is while no other one is called. -/
inductive Place where
  /-- Outside of `co_eventloop`. -/
  | outside
  /-- Before `co_epoll_wait`. -/
  | waiting
  /-- At the head of the loop over the active list. -/
  | draining (now : Nat)
deriving Repr, DecidableEq

/-- What `co_poll` returned last: to whom, its result and the `revents`. -/
structure Returned where
  co : CoPtr
  ret : Int
  revents : List UInt16
deriving Repr, DecidableEq

/-- `stCoRoutineEnv_t` with its `stCoEpoll_t`.  Memory that was freed is not used
again. -/
structure Env where
  /-- `pCallStack`, the running coroutine first. -/
  callStack : List CoPtr
  coroutines : CoPtr → Option CoState
  nextCo : CoPtr
  polls : ItemPtr → Option Poll
  nextItem : ItemPtr
  links : ItemLinks
  timeout : Timeout
  epoll : Int → Option PollItem
  place : Place
  returned : Option Returned

namespace Env

/-- `co_init_curr_thread_env` at a time; coroutine 0 is the main one. -/
def init (now : Nat) : Env where
  callStack := [0]
  coroutines := Function.update (fun _ => none) 0 (some .called)
  nextCo := 1
  polls := fun _ => none
  nextItem := 0
  links := .empty
  timeout := allocTimeout (60 * 1000) now
  epoll := fun _ => none
  place := .outside
  returned := none

def setCo (s : Env) (co : CoPtr) (state : CoState) : Env :=
  { s with coroutines := Function.update s.coroutines co (some state) }

def setPoll (s : Env) (item : ItemPtr) (arg : Option Poll) : Env :=
  { s with polls := Function.update s.polls item arg }

def coCreate (s : Env) : Env :=
  { s.setCo s.nextCo .created with nextCo := s.nextCo + 1 }

/-- `co_yield_env`: the running coroutine is left in the given state. -/
def coYieldEnv (s : Env) (state : CoState) : Except Fault Env :=
  match s.callStack with
  | curr :: last :: rest => .ok { s.setCo curr state with callStack := last :: rest }
  | _ => .error .outOfBounds

/-- The end of `co_poll_inner`, which frees the poll. -/
def clearPoll (s : Env) (item : ItemPtr) (arg : Poll) (iRaiseCnt : Int) : Except Fault Env := do
  let links ← s.links.removeFromLink item
  return { s.setPoll item none with
    links := links
    epoll := epollDel arg.fds s.epoll
    returned := some ⟨arg.pArg, iRaiseCnt, arg.revents⟩ }

/-- The coroutine is put on `pCallStack`, which has 128 places. -/
def push (s : Env) (co : CoPtr) : Except Fault Env :=
  if s.callStack.length < 128 then .ok { s.setCo co .called with callStack := co :: s.callStack }
  else .error .outOfBounds

/-- `co_resume`, up to where the coroutine is back in its own code.  One that has ended
would return from `CoRoutineFunc`; one on the call stack would run in two places. -/
def coResume (s : Env) (co : CoPtr) : Except Fault Env :=
  match s.coroutines co with
  | some .created => s.push co
  | some .yielded => s.push co
  | some (.polling item) =>
      match s.polls item with
      | none => .error .outOfBounds
      | some arg => do
          let s ← s.push co
          s.clearPoll item arg arg.iRaiseCnt
  | _ => .error .outOfBounds

/-- `pollfunc(fds, nfds, timeout)` -/
def callPollfunc (s : Env) (self : CoPtr) (pollfunc : Option (Int × List UInt16)) :
    Except Fault Env :=
  match pollfunc with
  | none => .error .outOfBounds
  | some (ret, revents) => .ok { s with returned := some ⟨self, ret, revents⟩ }

def coPollInner (s : Env) (self : CoPtr) (call : PollCall) : Except Fault Env :=
  if call.passes then s.callPollfunc self call.pollfunc
  else
    let item := s.nextItem
    let arg := call.arg self
    let s := { s.setPoll item (some arg) with
      nextItem := item + 1
      epoll := epollAdd call.refused item call.fds 0 s.epoll }
    match addTimeout s.timeout s.links item arg.ullExpireTime call.now with
    | (false, t, links) => { s with timeout := t, links := links }.clearPoll item arg (-1)
    | (true, t, links) => { s with timeout := t, links := links }.coYieldEnv (.polling item)

/-! ### The event loop -/

/-- `OnPollPreparePfn` once the event is noted. -/
def detach (s : Env) (item : ItemPtr) (arg : Poll) : Except Fault Env :=
  if arg.iAllEventDetach then .ok (s.setPoll item (some arg))
  else do
    let links ← s.links.removeFromLink item
    return { s.setPoll item (some { arg with iAllEventDetach := true }) with
      links := links.addTail .pstActiveList item }

/-- `OnPollPreparePfn` -/
def onPollPreparePfn (s : Env) (lp : PollItem) (events : UInt32) : Except Fault Env :=
  match s.polls lp.pPoll with
  | none => .error .outOfBounds
  | some arg =>
      s.detach lp.pPoll { arg with
        revents := arg.revents.set lp.index (epollEvent2Poll events)
        iRaiseCnt := arg.iRaiseCnt + 1 }

/-- The loop over what `co_epoll_wait` got. -/
def prepareAll : List (Int × UInt32) → Env → Except Fault Env
  | [], s => .ok s
  | (fd, events) :: rest, s =>
      match s.epoll fd with
      | none => .error .outOfBounds
      | some lp => do
          let s ← s.onPollPreparePfn lp events
          prepareAll rest s

/-- The loop that sets `bTimeout`. -/
def raiseTurn (links : ItemLinks) (state : Option ItemPtr × (ItemPtr → Option Poll)) :
    Except Fault (Turn (Option ItemPtr × (ItemPtr → Option Poll)) (ItemPtr → Option Poll)) :=
  match state with
  | (none, polls) => .ok (.leave polls)
  | (some lp, polls) =>
      match polls lp with
      | none => .error .outOfBounds
      | some arg =>
          .ok (.again (links.pNext lp,
            Function.update polls lp (some { arg with bTimeout := true })))

/-- `memset( timeout,0,sizeof(stTimeoutItemLink_t) )` -/
def resetTimeoutList (s : Env) : Env :=
  { s with links := (s.links.setHead .pstTimeoutList none).setTail .pstTimeoutList none }

/-- A list holds at most the items that were ever allocated. -/
def fuel (s : Env) : Nat := s.nextItem + 1

/-- From `TakeAllTimeout` to the second `Join`. -/
def expireAll (s : Env) (now : Nat) : Except Fault Env := do
  let (t, links) ← takeAllTimeout s.fuel s.timeout s.links now .pstTimeoutList
  let polls ← runLoop .diverged (raiseTurn links) s.fuel (links.head .pstTimeoutList, s.polls)
  let links ← links.join s.fuel .pstActiveList .pstTimeoutList
  return { s with timeout := t, links := links, polls := polls, place := .draining now }

/-- A pass of `co_eventloop` up to the loop over the active list. -/
def wait (s : Env) (events : List (Int × UInt32)) (now : Nat) : Except Fault Env := do
  let s ← prepareAll events s.resetTimeoutList
  s.expireAll now

/-- A turn of the loop over the active list for the item that it takes. -/
def processItem (s : Env) (now : Nat) (lp : ItemPtr) (arg : Poll) : Except Fault Env :=
  if arg.early now then
    match addTimeout s.timeout s.links lp arg.ullExpireTime now with
    | (true, t, links) =>
        .ok { s.setPoll lp (some { arg with bTimeout := false }) with timeout := t, links := links }
    | (false, t, links) => { s with timeout := t, links := links }.coResume arg.pArg
  else s.coResume arg.pArg

/-- A turn of the loop over the active list. -/
def nextActive (s : Env) (now : Nat) : Except Fault Env :=
  match s.links.head .pstActiveList with
  | none => .ok { s with place := .waiting }
  | some lp =>
      match s.polls lp with
      | none => .error .outOfBounds
      | some arg =>
          { s with links := s.links.popHead .pstActiveList }.processItem now lp arg

/-! ### Steps -/

inductive Action where
  /-- The running coroutine creates one. -/
  | create
  /-- The running coroutine resumes another. -/
  | resume (co : CoPtr)
  /-- The running coroutine calls `co_poll` or, with the hooks, `poll`. -/
  | poll (call : PollCall)
  /-- The running coroutine calls `co_yield_ct`. -/
  | yieldCt
  /-- The function of the running coroutine returns. -/
  | finish
  /-- The running coroutine closes a descriptor, which epoll forgets. -/
  | close (fd : Int)
  /-- The main coroutine calls `co_eventloop`. -/
  | eventloop
  /-- `co_epoll_wait` returns, and the pass begins. -/
  | wait (events : List (Int × UInt32)) (now : Nat)
  /-- The loop over the active list makes a turn. -/
  | turn

/-- The coroutine whose own code runs. -/
def running (s : Env) : Option CoPtr :=
  match s.callStack with
  | [] => none
  | [main] => if s.place = .outside then some main else none
  | co :: _ => some co

/-- What `co_epoll_wait` and the clock can answer. -/
def possible (s : Env) (events : List (Int × UInt32)) (now : Nat) : Prop :=
  events.length ≤ 1024 * 10 ∧ (events.map Prod.fst).Nodup ∧
    (∀ event ∈ events, s.epoll event.1 ≠ none) ∧
    now + 1 < s.timeout.ullStart + 2 ^ 31 ∧ now < 2 ^ 63

instance (s : Env) (events : List (Int × UInt32)) (now : Nat) : Decidable (s.possible events now) :=
  inferInstanceAs (Decidable (_ ∧ _ ∧ _ ∧ _ ∧ _))

/-- A step of the running coroutine. -/
def userStep (s : Env) (self : CoPtr) : Action → Except Fault (Option Env)
  | .create => .ok (some s.coCreate)
  | .resume co => (s.coResume co).map some
  | .poll call => (s.coPollInner self call).map some
  | .yieldCt => (s.coYieldEnv .yielded).map some
  | .finish => if self = 0 then .ok none else (s.coYieldEnv .ended).map some
  | .close fd => .ok (some { s with epoll := Function.update s.epoll fd none })
  | .eventloop => .ok (if s.callStack = [0] then some { s with place := .waiting } else none)
  | .wait _ _ => .ok none
  | .turn => .ok none

/-- A step of the event loop. -/
def loopStep (s : Env) : Action → Except Fault (Option Env)
  | .wait events now =>
      if s.place = .waiting ∧ s.possible events now then (s.wait events now).map some
      else .ok none
  | .turn =>
      match s.place with
      | .draining now => (s.nextActive now).map some
      | _ => .ok none
  | _ => .ok none

/-- The state behind a step; `none` if it is not the time for it. -/
def step (s : Env) (action : Action) : Except Fault (Option Env) :=
  match s.running with
  | some self => s.userStep self action
  | none => s.loopStep action

/-- The steps that do not fail. -/
def advance (s : Env) (action : Action) : Option Env :=
  match s.step action with
  | .ok next => next
  | .error _ => none

end Env

end Libco

end FastCgi
