/-
Module: FastCgi.Spec.Libco
Layer: Spec
Purpose: What the lists of libco are for: each one holds a sequence of nodes, and a
  node is in at most one of them.  Where the wheel keeps the items.  What holds of an
  environment, which calls it does not survive, and when its descriptors are not shared.
Trusted boundary: none
Main exports: Libco.Links.Represents, Libco.Wheel, Libco.Env.Consistent, Libco.Env.Misuse,
  Libco.Env.ExclusiveRun, Libco.Env.Reported
-/
import FastCgi.Library.DoublyLinked
import FastCgi.Model.Libco

namespace FastCgi

namespace Libco

open Library (Linked)

variable {T L : Type}

/-- The pointers of a list and of its nodes spell the sequence. -/
structure Links.Holds (h : Links T L) (l : L) (xs : List T) : Prop where
  nodup : xs.Nodup
  head : h.head l = xs.head?
  tail : h.tail l = xs.getLast?
  linked : Linked h.pPrev h.pNext none xs none

/-- Each list holds its sequence, and each node knows the list that it is in. -/
structure Links.Represents (h : Links T L) (lists : L → List T) : Prop where
  holds : ∀ l, h.Holds l (lists l)
  link : ∀ x l, h.pLink x = some l ↔ x ∈ lists l

/-- The slot of an item is some way ahead of the start of the wheel, and the item is not
due before the start gets there. -/
structure Wheel (t : Timeout) (lists : LinkPtr → List ItemPtr) (expire : ItemPtr → Nat) :
    Prop where
  size : 1 < t.iItemSize
  size_int : t.iItemSize < 2 ^ 31
  start : 0 < t.ullStart
  start_bound : t.ullStart < 2 ^ 63
  index : 0 ≤ t.llStartIdx
  index_start : t.llStartIdx ≤ t.ullStart
  slots : ∀ k, ∀ x ∈ lists (.pItems k), ∃ ahead, 0 < ahead ∧ ahead < t.iItemSize ∧
    k = t.slot ahead ∧ t.ullStart + ahead ≤ expire x

/-- Some slots were emptied into the list of timeouts. -/
structure Taken (lists lists' : LinkPtr → List ItemPtr) (slots : Nat → Prop) : Prop where
  kept : ∀ k, ¬ slots k → lists' (.pItems k) = lists (.pItems k)
  gone : ∀ k, slots k → lists' (.pItems k) = []
  active : lists' .pstActiveList = lists .pstActiveList
  result : ∀ x, x ∈ lists' .pstTimeoutList ↔
    x ∈ lists .pstTimeoutList ∨ ∃ k, slots k ∧ x ∈ lists (.pItems k)

/-! ### Environments -/

/-- When the polls expire. -/
def expireOf (polls : ItemPtr → Option Poll) (item : ItemPtr) : Nat :=
  match polls item with
  | some arg => arg.ullExpireTime
  | none => 0

/-- Nothing has happened to the poll. -/
structure Poll.Waits (arg : Poll) : Prop where
  not_timeout : arg.bTimeout = false
  not_detached : arg.iAllEventDetach = false
  not_raised : arg.iRaiseCnt = 0

/-- An event has moved the poll to the active list. -/
structure Poll.Detached (arg : Poll) : Prop where
  not_timeout : arg.bTimeout = false
  detached : arg.iAllEventDetach = true
  raised : 0 < arg.iRaiseCnt

/-- The wheel has brought the poll to the active list, at a time that it has reached. -/
structure Poll.TimedOut (arg : Poll) (start now : Nat) : Prop where
  timeout : arg.bTimeout = true
  not_detached : arg.iAllEventDetach = false
  not_raised : arg.iRaiseCnt = 0
  reached : start ≤ now

/-- What a poll in the active list can be while the main coroutine is at a place. -/
def Place.Woken (place : Place) (start : Nat) (arg : Poll) : Prop :=
  match place with
  | .draining now => arg.Detached ∨ arg.TimedOut start now
  | _ => False

/-- Every poll is in one list: in the wheel if nothing has happened to it, and otherwise
in the active list. -/
structure Items (links : ItemLinks) (t : Timeout) (polls : ItemPtr → Option Poll)
    (nextItem : ItemPtr) (woken : Poll → Prop) (lists : LinkPtr → List ItemPtr) : Prop where
  represents : links.Represents lists
  wheel : Wheel t lists (expireOf polls)
  listed : ∀ p, (∃ l, p ∈ lists l) ↔ polls p ≠ none
  fresh : ∀ p, polls p ≠ none → p < nextItem
  quiet : ∀ k, ∀ p ∈ lists (.pItems k), ∀ arg, polls p = some arg → arg.Waits
  active : ∀ p ∈ lists .pstActiveList, ∀ arg, polls p = some arg → woken arg
  timeouts : lists .pstTimeoutList = []

/-- The call stack starts with the main coroutine, and each poll belongs to the coroutine
that waits in it. -/
structure Routines (callStack : List CoPtr) (coroutines : CoPtr → Option CoState)
    (nextCo : CoPtr) (polls : ItemPtr → Option Poll) : Prop where
  nodup : callStack.Nodup
  called : ∀ co, co ∈ callStack ↔ coroutines co = some .called
  main : callStack.getLast? = some 0
  depth : callStack.length ≤ 128
  fresh : ∀ co, coroutines co ≠ none → co < nextCo
  polling : ∀ co p, coroutines co = some (.polling p) ↔ ∃ arg, polls p = some arg ∧ arg.pArg = co

/-- What epoll knows points into a poll that is there, and to the descriptor. -/
def Registered (epoll : Int → Option PollItem) (polls : ItemPtr → Option Poll) : Prop :=
  ∀ fd item, epoll fd = some item →
    -1 < fd ∧ ∃ arg pf, polls item.pPoll = some arg ∧ arg.fds[item.index]? = some pf ∧ pf.fd = fd

structure Env.Consistent (s : Env) (lists : LinkPtr → List ItemPtr) : Prop where
  items : Items s.links s.timeout s.polls s.nextItem (s.place.Woken s.timeout.ullStart) lists
  routines : Routines s.callStack s.coroutines s.nextCo s.polls
  registered : Registered s.epoll s.polls

/-- The calls that libco does not survive: to resume a coroutine that is not suspended or
one too many, to wait for no time without a function of the system, and to yield from the main
coroutine. -/
def Env.Misuse (s : Env) : Env.Action → Prop
  | .resume co =>
      s.callStack.length = 128 ∨ s.coroutines co = none ∨ s.coroutines co = some .called ∨
        s.coroutines co = some .ended
  | .poll call =>
      if call.passes then call.pollfunc = none
      else s.callStack = [0] ∧ s.timeout.ullStart ≤ call.now
  | .yieldCt => s.callStack = [0]
  | _ => False

/-- A descriptor is polled by one coroutine at a time, epoll takes it, and it is not closed
meanwhile. -/
def Env.Exclusive (s : Env) : Env.Action → Prop
  | .poll call =>
      call.passes = true ∨
        (call.fds.Pairwise fun one other => -1 < one.fd → one.fd ≠ other.fd) ∧
          ∀ pf ∈ call.fds, -1 < pf.fd → call.refused pf.fd = none ∧
            ∀ p arg, s.polls p = some arg → ∀ other ∈ arg.fds, other.fd ≠ pf.fd
  | .close fd => ∀ p arg, s.polls p = some arg → ∀ pf ∈ arg.fds, pf.fd ≠ fd
  | _ => True

/-- The same along a run. -/
def Env.ExclusiveRun : Env → List Env.Action → Prop
  | _, [] => True
  | s, action :: rest =>
      s.Exclusive action ∧ ∀ s', s.advance action = some s' → s'.ExclusiveRun rest

/-- Epoll knows every descriptor that is polled, with the poll. -/
def Env.Reported (s : Env) : Prop :=
  ∀ p arg i pf, s.polls p = some arg → arg.fds[i]? = some pf → -1 < pf.fd →
    s.epoll pf.fd = some ⟨p, i, pollEvent2Epoll pf.events⟩

end Libco

end FastCgi
