/-
Module: FastCgi.Proofs.LibcoItems
Layer: Proofs
Purpose: What happens to the polls: one is set up, an event or the wheel brings it to
  the active list, it goes back into the wheel, it is freed.  Each time every poll is in
  one list, the one that it belongs to.
Trusted boundary: none
Main exports: Libco.Items.cleared, Libco.Items.slotted, Libco.Env.prepareAll_items,
  Libco.Env.expireAll_items
-/
import FastCgi.Library.Simulation
import FastCgi.Proofs.LibcoTimeout
import Mathlib.Data.List.Perm.Subperm

namespace FastCgi

namespace Libco

open Library (Linked Turn runLoop)

variable {links links' : ItemLinks} {t : Timeout} {polls : ItemPtr → Option Poll} {n n' : ItemPtr}
  {woken woken' : Poll → Prop} {lists : LinkPtr → List ItemPtr} {x : ItemPtr} {arg : Poll}
  {now : Nat}

theorem expireOf_self : expireOf (Function.update polls x (some arg)) x = arg.ullExpireTime := by
  simp [expireOf]

theorem expireOf_of_ne {y : ItemPtr} {new : Option Poll} (other : y ≠ x) :
    expireOf (Function.update polls x new) y = expireOf polls y := by
  simp [expireOf, other]

/-- What is taken out of the wheel stays in a list. -/
theorem Taken.mem_iff {lists' : LinkPtr → List ItemPtr} {slots : Nat → Prop}
    (taken : Taken lists lists' slots) : (∃ l, x ∈ lists' l) ↔ ∃ l, x ∈ lists l := by
  constructor
  · rintro ⟨l, member⟩
    cases l with
    | pItems k =>
        by_cases gone : slots k
        · rw [taken.gone k gone] at member
          cases member
        · exact ⟨_, taken.kept k gone ▸ member⟩
    | pstActiveList => exact ⟨_, taken.active ▸ member⟩
    | pstTimeoutList =>
        rcases (taken.result x).mp member with member | ⟨k, -, member⟩
        · exact ⟨_, member⟩
        · exact ⟨_, member⟩
  · rintro ⟨l, member⟩
    cases l with
    | pItems k =>
        by_cases gone : slots k
        · exact ⟨_, (taken.result x).mpr (.inr ⟨k, gone, member⟩)⟩
        · exact ⟨.pItems k, by rwa [taken.kept k gone]⟩
    | pstActiveList => exact ⟨.pstActiveList, by rwa [taken.active]⟩
    | pstTimeoutList => exact ⟨_, (taken.result x).mpr (.inl member)⟩

/-- The event loop writes to a poll: its coroutine and its descriptors stay, and no event
is forgotten. -/
structure Poll.Rewrites (arg arg' : Poll) : Prop where
  owner : arg'.pArg = arg.pArg
  fds : arg'.fds = arg.fds
  raises : arg.iRaiseCnt ≤ arg'.iRaiseCnt

theorem Poll.Rewrites.refl (arg : Poll) : arg.Rewrites arg := ⟨rfl, rfl, le_rfl⟩

theorem Poll.Rewrites.trans {arg arg' arg'' : Poll} (first : arg.Rewrites arg')
    (second : arg'.Rewrites arg'') : arg.Rewrites arg'' :=
  ⟨second.owner.trans first.owner, second.fds.trans first.fds, first.raises.trans second.raises⟩

/-- The same polls are there, and were at most written to. -/
structure Rewritten (polls polls' : ItemPtr → Option Poll) : Prop where
  forth : ∀ p arg, polls p = some arg → ∃ arg', polls' p = some arg' ∧ arg.Rewrites arg'
  back : ∀ p arg', polls' p = some arg' → ∃ arg, polls p = some arg ∧ arg.Rewrites arg'

theorem Rewritten.refl (polls : ItemPtr → Option Poll) : Rewritten polls polls where
  forth _ arg here := ⟨arg, here, .refl arg⟩
  back _ arg here := ⟨arg, here, .refl arg⟩

theorem Rewritten.trans {polls polls' polls'' : ItemPtr → Option Poll}
    (first : Rewritten polls polls') (second : Rewritten polls' polls'') :
    Rewritten polls polls'' where
  forth p arg here := by
    obtain ⟨arg', here', writes⟩ := first.forth p arg here
    obtain ⟨arg'', here'', writes'⟩ := second.forth p arg' here'
    exact ⟨arg'', here'', writes.trans writes'⟩
  back p arg'' here := by
    obtain ⟨arg', here', writes'⟩ := second.back p arg'' here
    obtain ⟨arg, there, writes⟩ := first.back p arg' here'
    exact ⟨arg, there, writes.trans writes'⟩

theorem Rewritten.update {arg' : Poll} (here : polls x = some arg) (writes : arg.Rewrites arg') :
    Rewritten polls (Function.update polls x (some arg')) := by
  constructor
  · intro p old there
    by_cases node : p = x
    · subst node
      rw [here, Option.some.injEq] at there
      exact ⟨arg', Function.update_self .., there ▸ writes⟩
    · exact ⟨old, by rw [Function.update_of_ne node, there], .refl old⟩
  · intro p new there
    by_cases node : p = x
    · subst node
      rw [Function.update_self, Option.some.injEq] at there
      exact ⟨arg, here, there ▸ writes⟩
    · rw [Function.update_of_ne node] at there
      exact ⟨new, there, .refl new⟩

namespace Items

theorem mono (items : Items links t polls n woken lists) (more : ∀ arg, woken arg → woken' arg) :
    Items links t polls n woken' lists :=
  { items with active := fun p member arg here => more arg (items.active p member arg here) }

/-- Room is left for more items. -/
theorem more (items : Items links t polls n woken lists) (below : n ≤ n') :
    Items links t polls n' woken lists :=
  { items with fresh := fun p there => Nat.lt_of_lt_of_le (items.fresh p there) below }

/-- The next item is new. -/
theorem next_free (items : Items links t polls n woken lists) : polls n = none := by
  by_contra there
  exact absurd (items.fresh n there) (Nat.lt_irrefl n)

/-- A list of polls is not longer than the number of items that there ever were. -/
theorem length_lt (items : Items links t polls n woken lists) {ys : List ItemPtr}
    (nodup : ys.Nodup) (there : ∀ p ∈ ys, polls p ≠ none) : ys.length < n + 1 := by
  have below : ys ⊆ List.range n := fun p member =>
    List.mem_range.mpr (items.fresh p (there p member))
  have short := (List.subperm_of_subset nodup below).length_le
  rw [List.length_range] at short
  omega

theorem absent (items : Items links t polls n woken lists) (none : polls x = none)
    (l : LinkPtr) : x ∉ lists l :=
  fun member => (items.listed x).mp ⟨l, member⟩ none

theorem present (items : Items links t polls n woken lists) {l : LinkPtr} (member : x ∈ lists l) :
    ∃ arg, polls x = some arg :=
  Option.ne_none_iff_exists'.mp ((items.listed x).mp ⟨l, member⟩)

/-- A poll that is in no list any more is freed. -/
theorem cleared (items : Items links t polls n woken lists)
    (rep : links'.Represents fun l => (lists l).erase x) :
    Items links' t (Function.update polls x none) n woken fun l => (lists l).erase x := by
  have others : ∀ l y, y ∈ (lists l).erase x → y ≠ x ∧ y ∈ lists l := fun l y member =>
    (items.represents.holds l).nodup.mem_erase_iff.mp member
  refine ⟨rep, items.wheel.of_slots ?_, fun p => ?_, fun p there => ?_, ?_, ?_, ?_⟩
  · intro k y member
    obtain ⟨other, member⟩ := others _ y member
    exact ⟨member, (expireOf_of_ne other).symm⟩
  · by_cases same : p = x
    · subst same
      simp only [Function.update_self, ne_eq, not_true_eq_false, iff_false]
      rintro ⟨l, member⟩
      exact (others l p member).1 rfl
    · rw [Function.update_of_ne same, ← items.listed]
      exact exists_congr fun l => List.mem_erase_of_ne same
  · by_cases same : p = x
    · subst same
      simp at there
    · rw [Function.update_of_ne same] at there
      exact items.fresh p there
  · intro k p member arg here
    obtain ⟨other, member⟩ := others _ p member
    rw [Function.update_of_ne other] at here
    exact items.quiet k p member arg here
  · intro p member arg here
    obtain ⟨other, member⟩ := others _ p member
    rw [Function.update_of_ne other] at here
    exact items.active p member arg here
  · rw [items.timeouts]
    rfl

/-- A poll is put into a list that it belongs to. -/
theorem inserted (items : Items links t polls n woken lists) (free : polls x = none)
    (more : n ≤ n') (below : x < n') {l : LinkPtr}
    (belongs : (l = .pstActiveList ∧ woken arg) ∨ ((∃ k, l = .pItems k) ∧ arg.Waits))
    (wheel : Wheel t (Function.update lists l (lists l ++ [x]))
      (expireOf (Function.update polls x (some arg)))) :
    Items (links.addTail l x) t (Function.update polls x (some arg)) n' woken
      (Function.update lists l (lists l ++ [x])) := by
  have away := items.absent free
  have unlinked : links.pLink x = none := items.represents.free.mpr away
  have within : ∀ l' p, p ∈ Function.update lists l (lists l ++ [x]) l' →
      (p ≠ x ∧ p ∈ lists l') ∨ (p = x ∧ l' = l) := by
    intro l' p member
    by_cases here : l' = l
    · subst here
      rw [Function.update_self, List.mem_append, List.mem_singleton] at member
      rcases member with member | same
      · exact .inl ⟨ne_of_mem_of_not_mem member (away l'), member⟩
      · exact .inr ⟨same, rfl⟩
    · rw [Function.update_of_ne here] at member
      exact .inl ⟨ne_of_mem_of_not_mem member (away l'), member⟩
  refine ⟨items.represents.addTail unlinked, wheel, fun p => ?_, fun p there => ?_, ?_, ?_, ?_⟩
  · by_cases same : p = x
    · subst same
      simp only [Function.update_self, ne_eq, reduceCtorEq, not_false_eq_true, iff_true]
      exact ⟨l, by simp⟩
    · rw [Function.update_of_ne same, ← items.listed]
      refine exists_congr fun l' => ?_
      by_cases here : l' = l
      · subst here
        simp [same]
      · rw [Function.update_of_ne here]
  · by_cases same : p = x
    · exact same ▸ below
    · rw [Function.update_of_ne same] at there
      exact Nat.lt_of_lt_of_le (items.fresh p there) more
  · intro k p member arg' here
    rcases within _ p member with ⟨other, member⟩ | ⟨rfl, slot⟩
    · rw [Function.update_of_ne other] at here
      exact items.quiet k p member arg' here
    · rw [Function.update_self, Option.some.injEq] at here
      subst here slot
      simpa using belongs
  · intro p member arg' here
    rcases within _ p member with ⟨other, member⟩ | ⟨rfl, slot⟩
    · rw [Function.update_of_ne other] at here
      exact items.active p member arg' here
    · rw [Function.update_self, Option.some.injEq] at here
      subst here slot
      simpa using belongs
  · have other : LinkPtr.pstTimeoutList ≠ l := by
      rcases belongs with ⟨rfl, -⟩ | ⟨⟨k, rfl⟩, -⟩ <;> simp
    rw [Function.update_of_ne other, items.timeouts]

/-- The wheel does not look at the items that are not in it. -/
theorem wheel_update (items : Items links t polls n woken lists) (free : polls x = none)
    (arg : Poll) : Wheel t lists (expireOf (Function.update polls x (some arg))) :=
  items.wheel.of_slots fun _ _ member =>
    ⟨member, (expireOf_of_ne (ne_of_mem_of_not_mem member (items.absent free _))).symm⟩

/-- `AddTimeout` puts a poll that waits into the wheel. -/
theorem slotted (items : Items links t polls n woken lists) (free : polls x = none)
    (more : n ≤ n') (below : x < n') (arg : Poll) (waits : arg.Waits)
    (later : now < arg.ullExpireTime) (reached : t.ullStart ≤ now) :
    ∃ links' lists', addTimeout t links x arg.ullExpireTime now = (true, t, links') ∧
      Items links' t (Function.update polls x (some arg)) n' woken lists' ∧
      lists' .pstActiveList = lists .pstActiveList := by
  have due : expireOf (Function.update polls x (some arg)) x = arg.ullExpireTime := expireOf_self
  rw [← due] at later ⊢
  have added := (items.wheel_update free arg).addTimeout links later
  rw [if_neg (Nat.not_lt.mpr reached)] at added
  obtain ⟨k, ran, wheel'⟩ := added
  exact ⟨_, _, ran, items.inserted free more below (.inr ⟨⟨k, rfl⟩, waits⟩) wheel',
    Function.update_of_ne (by simp) ..⟩

/-- A poll is put into the active list. -/
theorem activated (items : Items links t polls n woken lists) (free : polls x = none)
    (below : x < n) (here : woken arg) :
    Items (links.addTail .pstActiveList x) t (Function.update polls x (some arg)) n woken
      (Function.update lists .pstActiveList (lists .pstActiveList ++ [x])) := by
  refine items.inserted free le_rfl below (.inl ⟨rfl, here⟩) ?_
  refine (items.wheel_update free arg).of_slots fun k y member => ⟨?_, rfl⟩
  rwa [Function.update_of_ne (by simp)] at member

/-- The writes to a poll that do not concern its lists. -/
theorem rewritten (items : Items links t polls n woken lists) (here : polls x = some arg)
    {arg' : Poll} (due : arg'.ullExpireTime = arg.ullExpireTime)
    (active : x ∈ lists .pstActiveList) (stays : woken arg') :
    Items links t (Function.update polls x (some arg')) n woken lists := by
  have same : ∀ p, expireOf polls p = expireOf (Function.update polls x (some arg')) p := by
    intro p
    by_cases node : p = x
    · subst node
      rw [expireOf_self, due, expireOf, here]
    · rw [expireOf_of_ne node]
  refine ⟨items.represents, items.wheel.of_slots fun k p member => ⟨member, same p⟩,
    fun p => ?_, fun p there => ?_, ?_, ?_, items.timeouts⟩
  · by_cases node : p = x
    · subst node
      rw [items.listed, here, Function.update_self]
      simp
    · rw [Function.update_of_ne node, items.listed]
  · by_cases node : p = x
    · exact items.fresh p (by rw [node, here]; simp)
    · rw [Function.update_of_ne node] at there
      exact items.fresh p there
  · intro k p member arg there
    have node : p ≠ x := by
      rintro rfl
      exact items.represents.apart active (by simp) member
    rw [Function.update_of_ne node] at there
    exact items.quiet k p member arg there
  · intro p member arg there
    by_cases node : p = x
    · subst node
      rw [Function.update_self, Option.some.injEq] at there
      exact there ▸ stays
    · rw [Function.update_of_ne node] at there
      exact items.active p member arg there

end Items

namespace Env

variable {s : Env}

/-- The fields that the event loop changes before it resumes anyone. -/
structure Loops (s s' : Env) : Prop where
  callStack : s'.callStack = s.callStack
  coroutines : s'.coroutines = s.coroutines
  nextCo : s'.nextCo = s.nextCo
  nextItem : s'.nextItem = s.nextItem
  epoll : s'.epoll = s.epoll
  polls : Rewritten s.polls s'.polls

theorem Loops.refl (s : Env) : Loops s s := ⟨rfl, rfl, rfl, rfl, rfl, .refl s.polls⟩

theorem Loops.trans {s s' s'' : Env} (first : Loops s s') (second : Loops s' s'') :
    Loops s s'' where
  callStack := second.callStack.trans first.callStack
  coroutines := second.coroutines.trans first.coroutines
  nextCo := second.nextCo.trans first.nextCo
  nextItem := second.nextItem.trans first.nextItem
  epoll := second.epoll.trans first.epoll
  polls := first.polls.trans second.polls

/-- What is kept until the timeouts are looked at. -/
structure Prepares (s s' : Env) (lists' : LinkPtr → List ItemPtr) : Prop where
  loops : Loops s s'
  timeout : s'.timeout = s.timeout
  items : Items s'.links s'.timeout s'.polls s'.nextItem Poll.Detached lists'

/-- A poll for which an event was noted is brought to the active list. -/
theorem detach_items (items : Items s.links s.timeout s.polls s.nextItem Poll.Detached lists)
    (here : s.polls x = some arg) (arg' : Poll)
    (owner : arg'.pArg = arg.pArg) (fds : arg'.fds = arg.fds)
    (due : arg'.ullExpireTime = arg.ullExpireTime) (timeout : arg'.bTimeout = arg.bTimeout)
    (detached : arg'.iAllEventDetach = arg.iAllEventDetach)
    (raised : arg.iRaiseCnt < arg'.iRaiseCnt) :
    ∃ s' lists', s.detach x arg' = .ok s' ∧ Prepares s s' lists' ∧
      ∃ new, s'.polls x = some new ∧ 0 < new.iRaiseCnt := by
  have positive : 0 < arg'.iRaiseCnt := Nat.zero_lt_of_lt raised
  have there : s.polls x ≠ none := by simp [here]
  obtain ⟨l, member⟩ := (items.listed x).mpr there
  cases l with
  | pItems k =>
      have waits := items.quiet k x member arg here
      obtain ⟨links', removed, rep⟩ := items.represents.removeFromLink x
      have woken : Poll.Detached { arg' with iAllEventDetach := true } :=
        ⟨timeout.trans waits.not_timeout, rfl, positive⟩
      have activated := (items.cleared rep).activated (Function.update_self ..)
        (items.fresh x there) woken
      rw [Function.update_idem] at activated
      refine ⟨{ s.setPoll x (some { arg' with iAllEventDetach := true }) with
        links := links'.addTail .pstActiveList x }, _, ?_, ⟨?_, rfl, activated⟩,
        _, Function.update_self .., positive⟩
      · rw [detach, detached, waits.not_detached, removed]
        rfl
      · exact ⟨rfl, rfl, rfl, rfl, rfl, .update here ⟨owner, fds, raised.le⟩⟩
  | pstActiveList =>
      have before := items.active x member arg here
      refine ⟨s.setPoll x (some arg'), lists, ?_, ⟨?_, rfl, items.rewritten here due member
        ⟨timeout.trans before.not_timeout, detached.trans before.detached, positive⟩⟩,
        _, Function.update_self .., positive⟩
      · rw [detach, detached, before.detached]
        rfl
      · exact ⟨rfl, rfl, rfl, rfl, rfl, .update here ⟨owner, fds, raised.le⟩⟩
  | pstTimeoutList =>
      rw [items.timeouts] at member
      cases member

end Env

/-- Only the descriptors of the polls matter. -/
theorem Registered.rewritten {epoll : Int → Option PollItem} {polls' : ItemPtr → Option Poll}
    (registered : Registered epoll polls) (rewritten : Rewritten polls polls') :
    Registered epoll polls' := by
  intro fd item known
  obtain ⟨valid, arg, pf, here, index, descriptor⟩ := registered fd item known
  obtain ⟨arg', here', writes⟩ := rewritten.forth _ arg here
  exact ⟨valid, arg', pf, here', by rw [writes.fds, index], descriptor⟩

namespace Env

/-- The loop over the events notes each of them in its poll. -/
theorem prepareAll_items {events : List (Int × UInt32)}
    (items : Items s.links s.timeout s.polls s.nextItem Poll.Detached lists)
    (registered : Registered s.epoll s.polls) (known : ∀ event ∈ events, s.epoll event.1 ≠ none) :
    ∃ s' lists', prepareAll events s = .ok s' ∧ Prepares s s' lists' ∧
      ∀ event ∈ events, ∀ lp, s.epoll event.1 = some lp →
        ∃ new, s'.polls lp.pPoll = some new ∧ 0 < new.iRaiseCnt := by
  induction events generalizing s lists with
  | nil => exact ⟨s, lists, rfl, ⟨Loops.refl s, rfl, items⟩, by simp⟩
  | cons event rest inductionHypothesis =>
      obtain ⟨fd, flags⟩ := event
      obtain ⟨lp, found⟩ := Option.ne_none_iff_exists'.mp (known _ List.mem_cons_self)
      obtain ⟨-, arg, -, here, -, -⟩ := registered fd lp found
      obtain ⟨s₁, lists₁, ran, ⟨loops, timeout, items₁⟩, new, noted, raised⟩ :=
        detach_items items here
          { arg with
            revents := arg.revents.set lp.index (epollEvent2Poll flags)
            iRaiseCnt := arg.iRaiseCnt + 1 } rfl rfl rfl rfl rfl (Nat.lt_succ_self _)
      obtain ⟨s₂, lists₂, ran₂, ⟨loops₂, timeout₂, items₂⟩, rest₂⟩ := inductionHypothesis items₁
        (by rw [loops.epoll]; exact registered.rewritten loops.polls)
        (fun event member => by
          rw [loops.epoll]
          exact known event (List.mem_cons_of_mem _ member))
      refine ⟨s₂, lists₂, ?_, ⟨loops.trans loops₂, timeout₂.trans timeout, items₂⟩, ?_⟩
      · simp only at found
        simp only [prepareAll, found, onPollPreparePfn, here, ran, ok_bind, ran₂]
      · intro event member lp' known'
        rcases List.mem_cons.mp member with rfl | member
        · rw [found, Option.some.injEq] at known'
          subst known'
          obtain ⟨newer, there, writes⟩ := loops₂.polls.forth _ new noted
          exact ⟨newer, there, Nat.lt_of_lt_of_le raised writes.raises⟩
        · exact rest₂ event member lp' (by rw [loops.epoll, known'])

/-- The loop that sets `bTimeout` goes along a list. -/
theorem raise_run {ys : List ItemPtr} {before : Option ItemPtr} {fuel : Nat}
    (linked : Linked links.pPrev links.pNext before ys none) (there : ∀ y ∈ ys, polls y ≠ none)
    (enough : ys.length < fuel) :
    runLoop .diverged (raiseTurn links) fuel (ys.head?, polls) =
      .ok fun z => if z ∈ ys then (polls z).map fun arg => { arg with bTimeout := true }
        else polls z := by
  induction ys generalizing polls before fuel with
  | nil =>
      obtain ⟨fuel, rfl⟩ := Nat.exists_eq_succ_of_ne_zero (by omega : fuel ≠ 0)
      simp [runLoop, raiseTurn]
  | cons y ys inductionHypothesis =>
      obtain ⟨fuel, rfl⟩ := Nat.exists_eq_succ_of_ne_zero (by omega : fuel ≠ 0)
      obtain ⟨-, next, rest⟩ := linked
      obtain ⟨arg, here⟩ := Option.ne_none_iff_exists'.mp (there y List.mem_cons_self)
      have others : ∀ z ∈ ys,
          Function.update polls y (some { arg with bTimeout := true }) z ≠ none := by
        intro z member
        by_cases node : z = y
        · simp [node]
        · rw [Function.update_of_ne node]
          exact there z (List.mem_cons_of_mem _ member)
      have further := inductionHypothesis rest others (by simpa using enough : ys.length < fuel)
      simp only [runLoop, raiseTurn, List.head?_cons, here]
      rw [next, Option.or_none, further]
      congr 1
      funext z
      by_cases node : z = y <;> simp [node, here]

end Env

/-- The polls after the loop that sets `bTimeout` for those in a list. -/
def raisedIn (ys : List ItemPtr) (polls : ItemPtr → Option Poll) (p : ItemPtr) : Option Poll :=
  if p ∈ ys then (polls p).map fun arg => { arg with bTimeout := true } else polls p

theorem expireOf_raisedIn (ys : List ItemPtr) (p : ItemPtr) :
    expireOf (raisedIn ys polls) p = expireOf polls p := by
  simp only [expireOf, raisedIn]
  by_cases member : p ∈ ys <;> cases polls p <;> simp [member]

theorem rewritten_raisedIn (ys : List ItemPtr) : Rewritten polls (raisedIn ys polls) := by
  constructor
  · intro p arg here
    rw [raisedIn, here]
    split
    · exact ⟨_, rfl, rfl, rfl, le_rfl⟩
    · exact ⟨_, rfl, .refl arg⟩
  · intro p arg' here
    rw [raisedIn] at here
    split at here
    · obtain ⟨arg, there, rfl⟩ := Option.map_eq_some_iff.mp here
      exact ⟨arg, there, rfl, rfl, le_rfl⟩
    · exact ⟨arg', here, .refl arg'⟩

/-- What the wheel has brought up is set to have timed out, and is active. -/
theorem Items.expired {t' : Timeout} {lists₁ : LinkPtr → List ItemPtr}
    {slots : Nat → Prop} (items : Items links t polls n Poll.Detached lists)
    (rep : links'.Represents (Function.update (Function.update lists₁ .pstActiveList
      (lists₁ .pstActiveList ++ lists₁ .pstTimeoutList)) .pstTimeoutList []))
    (apart : ∀ l, ∀ p ∈ lists₁ l, l ≠ .pstTimeoutList → p ∉ lists₁ .pstTimeoutList)
    (taken : Taken lists lists₁ slots) (wheel : Wheel t' lists₁ (expireOf polls))
    (reached : ∀ k, slots k → t'.ullStart ≤ now) :
    Items links' t' (raisedIn (lists₁ .pstTimeoutList) polls) n
      (Place.Woken (.draining now) t'.ullStart)
      (Function.update (Function.update lists₁ .pstActiveList
        (lists₁ .pstActiveList ++ lists₁ .pstTimeoutList)) .pstTimeoutList []) := by
  have there : ∀ p, raisedIn (lists₁ .pstTimeoutList) polls p ≠ none ↔ polls p ≠ none := by
    intro p
    rw [raisedIn]
    split <;> simp
  refine ⟨rep, wheel.of_slots fun k p member => ?_, fun p => ?_, fun p here => ?_, ?_, ?_, ?_⟩
  · rw [Function.update_of_ne (by simp), Function.update_of_ne (by simp)] at member
    exact ⟨member, (expireOf_raisedIn _ p).symm⟩
  · rw [there, ← items.listed, ← taken.mem_iff]
    constructor
    · rintro ⟨l, member⟩
      cases l with
      | pItems k => exact ⟨.pItems k, by simpa using member⟩
      | pstActiveList =>
          have either : p ∈ lists₁ .pstActiveList ∨ p ∈ lists₁ .pstTimeoutList := by
            simpa using member
          exact either.elim (fun here => ⟨_, here⟩) fun here => ⟨_, here⟩
      | pstTimeoutList => simp at member
    · rintro ⟨l, member⟩
      cases l with
      | pItems k => exact ⟨.pItems k, by simpa using member⟩
      | pstActiveList => exact ⟨.pstActiveList, by simp [member]⟩
      | pstTimeoutList => exact ⟨.pstActiveList, by simp [member]⟩
  · exact items.fresh p ((there p).mp here)
  · intro k p member arg here
    rw [Function.update_of_ne (by simp), Function.update_of_ne (by simp)] at member
    rw [raisedIn, if_neg (apart _ p member (by simp))] at here
    by_cases gone : slots k
    · rw [taken.gone k gone] at member
      cases member
    · rw [taken.kept k gone] at member
      exact items.quiet k p member arg here
  · intro p member arg here
    rw [Function.update_of_ne (by simp), Function.update_self, List.mem_append] at member
    by_cases late : p ∈ lists₁ .pstTimeoutList
    · rw [raisedIn, if_pos late, Option.map_eq_some_iff] at here
      obtain ⟨old, before, rfl⟩ := here
      rcases (taken.result p).mp late with none | ⟨k, slot, inWheel⟩
      · rw [items.timeouts] at none
        cases none
      · have waits := items.quiet k p inWheel old before
        exact .inr ⟨rfl, waits.not_detached, waits.not_raised, reached k slot⟩
    · rw [raisedIn, if_neg late] at here
      have active := member.resolve_right late
      rw [taken.active] at active
      exact .inl (items.active p active arg here)
  · rw [Function.update_self]

namespace Env

/-- The wheel is brought up to the time. -/
theorem expireAll_items (items : Items s.links s.timeout s.polls s.nextItem Poll.Detached lists)
    (soon : now + 1 < s.timeout.ullStart + 2 ^ 31) (bound : now < 2 ^ 63) :
    ∃ s' lists', s.expireAll now = .ok s' ∧ Loops s s' ∧ s'.place = .draining now ∧
      s'.timeout.ullStart = max s.timeout.ullStart now ∧
      Items s'.links s'.timeout s'.polls s'.nextItem
        (s'.place.Woken s'.timeout.ullStart) lists' := by
  have enough : ∀ k, (lists (.pItems k)).length < s.fuel := fun k =>
    items.length_lt (items.represents.holds _).nodup fun p member =>
      (items.listed p).mp ⟨_, member⟩
  obtain ⟨t', links₁, lists₁, slots, took, rep₁, taken, wheel, start, reached⟩ :=
    items.wheel.takeAllTimeout items.represents enough soon bound
  have there : ∀ p ∈ lists₁ .pstTimeoutList, s.polls p ≠ none := fun p member =>
    (items.listed p).mp (taken.mem_iff.mp ⟨_, member⟩)
  have short := items.length_lt (rep₁.holds .pstTimeoutList).nodup there
  have raised := raise_run (rep₁.holds .pstTimeoutList).linked there short
  rw [← (rep₁.holds .pstTimeoutList).head] at raised
  obtain ⟨links₂, joined, rep₂⟩ := rep₁.join (l := .pstActiveList) (by simp) short
  refine ⟨{ s with
    timeout := t'
    links := links₂
    polls := raisedIn (lists₁ .pstTimeoutList) s.polls
    place := .draining now }, _, ?_, ⟨rfl, rfl, rfl, rfl, rfl, rewritten_raisedIn _⟩,
    rfl, start, items.expired rep₂ ?_ taken wheel ?_⟩
  · simp only [expireAll, took, ok_bind]
    rw [show runLoop .diverged (raiseTurn links₁) s.fuel _ = _ from raised, ok_bind]
    rw [show links₁.join s.fuel _ _ = _ from joined]
    rfl
  · exact fun l p member other late => rep₁.apart late other member
  · intro k slot
    rw [start]
    exact max_le (reached k slot) le_rfl

end Env

end Libco

end FastCgi
