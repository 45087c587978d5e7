/-
Module: FastCgi.Model.LibcoTimeout
Layer: Model
Purpose: The intrusive lists of libco and its wheel of timeouts
  (cocgi/cocgi_lib/libco/co_routine.cpp): `RemoveFromLink`, `AddTail`, `PopHead`,
  `Join`, `AllocTimeout`, `AddTimeout` and `TakeAllTimeout`, pointer by pointer.
Trusted boundary: times in milliseconds do not overflow 64 bits
Main exports: Libco.Links, Libco.Links.removeFromLink, Libco.Links.addTail,
  Libco.Links.popHead, Libco.Links.join, Libco.Timeout, Libco.addTimeout,
  Libco.takeAllTimeout
-/
import FastCgi.Library.Loop
import FastCgi.Model.Buffer
import Mathlib.Logic.Function.Basic

namespace FastCgi

namespace Libco

open Library (Turn runLoop)

/-! ### Lists -/

/-- The nodes `T` and the lists `L` of the templates, field by field. -/
structure Links (T L : Type) where
  head : L → Option T
  tail : L → Option T
  pPrev : T → Option T
  pNext : T → Option T
  pLink : T → Option L

namespace Links

variable {T L : Type} [DecidableEq T] [DecidableEq L]

/-- Everything is zero. -/
def empty : Links T L where
  head := fun _ => none
  tail := fun _ => none
  pPrev := fun _ => none
  pNext := fun _ => none
  pLink := fun _ => none

@[simp] def setHead (h : Links T L) (l : L) (p : Option T) : Links T L :=
  { h with head := Function.update h.head l p }

@[simp] def setTail (h : Links T L) (l : L) (p : Option T) : Links T L :=
  { h with tail := Function.update h.tail l p }

@[simp] def setPrev (h : Links T L) (a : T) (p : Option T) : Links T L :=
  { h with pPrev := Function.update h.pPrev a p }

@[simp] def setNext (h : Links T L) (a : T) (p : Option T) : Links T L :=
  { h with pNext := Function.update h.pNext a p }

@[simp] def setLink (h : Links T L) (a : T) (l : Option L) : Links T L :=
  { h with pLink := Function.update h.pLink a l }

/-- `RemoveFromLink`, the part that asks for the head. -/
def unlinkFront (ap : T) (lst : L) (h : Links T L) : Links T L :=
  if h.head lst = some ap then
    match h.pNext ap with
    | some first => (h.setHead lst (some first)).setPrev first none
    | none => h.setHead lst none
  else
    match h.pPrev ap with
    | some before => h.setNext before (h.pNext ap)
    | none => h

/-- `RemoveFromLink`, the part that asks for the tail; `pNext` of a node that is not
the tail is not tested. -/
def unlinkBack (ap : T) (lst : L) (h : Links T L) : Except Fault (Links T L) :=
  if h.tail lst = some ap then
    match h.pPrev ap with
    | some last => .ok ((h.setTail lst (some last)).setNext last none)
    | none => .ok (h.setTail lst none)
  else
    match h.pNext ap with
    | some after => .ok (h.setPrev after (h.pPrev ap))
    | none => .error .outOfBounds

def removeFromLink (ap : T) (h : Links T L) : Except Fault (Links T L) :=
  match h.pLink ap with
  | none => .ok h
  | some lst => do
      check (h.head lst ≠ none ∧ h.tail lst ≠ none) "lst->head && lst->tail"
      let h ← (h.unlinkFront ap lst).unlinkBack ap lst
      return ((h.setPrev ap none).setNext ap none).setLink ap none

def addTail (apLink : L) (ap : T) (h : Links T L) : Links T L :=
  match h.pLink ap with
  | some _ => h
  | none =>
      match h.tail apLink with
      | some last =>
          ((((h.setNext last (some ap)).setNext ap none).setPrev ap (some last)).setTail apLink
            (some ap)).setLink ap (some apLink)
      | none =>
          ((((h.setHead apLink (some ap)).setTail apLink (some ap)).setNext ap none).setPrev ap
            none).setLink ap (some apLink)

def popHead (apLink : L) (h : Links T L) : Links T L :=
  match h.head apLink with
  | none => h
  | some lp =>
      let rest := if h.head apLink = h.tail apLink then none else h.pNext lp
      let h :=
        if h.head apLink = h.tail apLink then (h.setHead apLink none).setTail apLink none
        else h.setHead apLink (h.pNext lp)
      let h := ((h.setPrev lp none).setNext lp none).setLink lp none
      match rest with
      | some first => h.setPrev first none
      | none => h

/-- The loop of `Join` over the nodes. -/
def relinkTurn (apLink : L) (state : Option T × Links T L) :
    Except Fault (Turn (Option T × Links T L) (Links T L)) :=
  match state with
  | (none, h) => .ok (.leave h)
  | (some lp, h) => .ok (.again (h.pNext lp, h.setLink lp (some apLink)))

/-- `Join`; the loop makes fewer than `fuel` turns. -/
def join (fuel : Nat) (apLink apOther : L) (h : Links T L) : Except Fault (Links T L) :=
  match h.head apOther with
  | none => .ok h
  | some lp => do
      let h ← runLoop .diverged (relinkTurn apLink) fuel (some lp, h)
      let h :=
        match h.tail apLink with
        | some last =>
            ((h.setNext last (some lp)).setPrev lp (some last)).setTail apLink (h.tail apOther)
        | none => (h.setHead apLink (some lp)).setTail apLink (h.tail apOther)
      return (h.setHead apOther none).setTail apOther none

end Links

/-! ### Timeouts -/

/-- A `stTimeoutItem_t`. -/
abbrev ItemPtr := Nat

/-- The `stTimeoutItemLink_t` of an environment. -/
inductive LinkPtr where
  | pItems (idx : Nat)
  | pstActiveList
  | pstTimeoutList
deriving Repr, DecidableEq

abbrev ItemLinks := Links ItemPtr LinkPtr

/-- `stTimeout_t` without its array. -/
structure Timeout where
  iItemSize : Nat
  ullStart : Nat
  llStartIdx : Int
deriving Repr, DecidableEq

def allocTimeout (iSize now : Nat) : Timeout where
  iItemSize := iSize
  ullStart := now
  llStartIdx := 0

/-- The first statement of `AddTimeout` and `TakeAllTimeout`. -/
def Timeout.started (t : Timeout) (allNow : Nat) : Timeout :=
  if t.ullStart = 0 then { t with ullStart := allNow, llStartIdx := 0 } else t

/-- A conversion to `int`. -/
def toInt (n : Nat) : Int := (BitVec.ofNat 32 n).toInt

/-- `( apTimeout->llStartIdx + diff ) % apTimeout->iItemSize`, which is unsigned. -/
def Timeout.slot (t : Timeout) (diff : Nat) : Nat :=
  (BitVec.ofInt 64 (t.llStartIdx + diff)).toNat % t.iItemSize

/-- Whether the item was added, and what is behind the call. -/
def addTimeout (t : Timeout) (links : ItemLinks) (apItem : ItemPtr) (ullExpireTime allNow : Nat) :
    Bool × Timeout × ItemLinks :=
  let t := t.started allNow
  if allNow < t.ullStart then (false, t, links)
  else if ullExpireTime < allNow then (false, t, links)
  else
    let diff := ullExpireTime - t.ullStart
    let diff := if t.iItemSize ≤ diff then t.iItemSize - 1 else diff
    (true, t, links.addTail (.pItems (t.slot diff)) apItem)

/-- The loop of `TakeAllTimeout`, from its turn `i` on; `idx` is an `int`. -/
def takeSlots (fuel : Nat) (t : Timeout) (apResult : LinkPtr) :
    Nat → Nat → ItemLinks → Except Fault ItemLinks
  | 0, _, links => .ok links
  | cnt + 1, i, links =>
      let idx := (t.llStartIdx + i).tmod t.iItemSize
      if idx < 0 then .error .outOfBounds
      else do
        let links ← links.join fuel apResult (.pItems idx.toNat)
        takeSlots fuel t apResult cnt (i + 1) links

def takeAllTimeout (fuel : Nat) (t : Timeout) (links : ItemLinks) (allNow : Nat)
    (apResult : LinkPtr) : Except Fault (Timeout × ItemLinks) :=
  let t := t.started allNow
  if allNow < t.ullStart then .ok (t, links)
  else
    let cnt := min (toInt (allNow - t.ullStart + 1)) t.iItemSize
    if cnt < 0 then .ok (t, links)
    else do
      let links ← takeSlots fuel t apResult cnt.toNat 0 links
      return ({ t with ullStart := allNow, llStartIdx := t.llStartIdx + cnt - 1 }, links)

end Libco

end FastCgi
