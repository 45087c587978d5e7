/-
Module: FastCgi.Proofs.LibcoRoutines
Layer: Proofs
Purpose: What epoll knows points into the polls that are there, and a coroutine is on
  the call stack, in a poll or suspended otherwise, when the one or the other changes.
Trusted boundary: none
Main exports: Libco.Registered.cleared, Libco.Registered.added, Libco.Routines.wakes,
  Libco.Routines.polls_new
-/
import FastCgi.Proofs.LibcoItems

namespace FastCgi

namespace Libco

/-! ### Registrations -/

section Registrations

variable {epoll : Int → Option PollItem} {polls : ItemPtr → Option Poll} {x : ItemPtr} {arg : Poll}
  {fds : List PollFd} {fd : Int} {item : PollItem}

theorem epollDel_eq :
    epollDel fds epoll fd =
      if -1 < fd ∧ ∃ pf ∈ fds, pf.fd = fd then none else epoll fd := by
  induction fds generalizing epoll with
  | nil => simp [epollDel]
  | cons pf fds inductionHypothesis =>
      rw [epollDel]
      by_cases valid : -1 < pf.fd
      · rw [if_pos valid, inductionHypothesis]
        by_cases same : fd = pf.fd
        · simp [same, valid]
        · simp [same, Ne.symm same]
      · rw [if_neg valid, inductionHypothesis]
        by_cases same : pf.fd = fd
        · subst same
          simp [valid]
        · simp [same]

/-- What is registered after the loop was there before or is about the new poll. -/
theorem epollAdd_eq_some {refused : Int → Option Refusal} {i : Nat}
    (known : epollAdd refused x fds i epoll fd = some item) :
    epoll fd = some item ∨ (-1 < fd ∧ item.pPoll = x ∧ i ≤ item.index ∧
      ∃ pf, fds[item.index - i]? = some pf ∧ pf.fd = fd) := by
  induction fds generalizing i epoll with
  | nil => exact .inl known
  | cons pf fds inductionHypothesis =>
      rw [epollAdd] at known
      have later : (-1 < fd ∧ item.pPoll = x ∧ i + 1 ≤ item.index ∧
          ∃ pf, fds[item.index - (i + 1)]? = some pf ∧ pf.fd = fd) →
          -1 < fd ∧ item.pPoll = x ∧ i ≤ item.index ∧
            ∃ pf', (pf :: fds)[item.index - i]? = some pf' ∧ pf'.fd = fd := by
        rintro ⟨valid, poll, index, pf', here, descriptor⟩
        have position : item.index - i = item.index - (i + 1) + 1 := by omega
        exact ⟨valid, poll, by omega, pf', by rw [position]; exact here, descriptor⟩
      split at known
      · rename_i adds
        rcases inductionHypothesis known with before | new
        · by_cases same : fd = pf.fd
          · rw [same, Function.update_self, Option.some.injEq] at before
            subst before
            exact .inr ⟨same ▸ adds.1, rfl, le_rfl, pf, by simp, same.symm⟩
          · rw [Function.update_of_ne same] at before
            exact .inl before
        · exact .inr (later new)
      · exact (inductionHypothesis known).imp_right later

theorem epollAdd_of_notMem {refused : Int → Option Refusal} {i : Nat}
    (away : ∀ pf ∈ fds, -1 < pf.fd → pf.fd ≠ fd) :
    epollAdd refused x fds i epoll fd = epoll fd := by
  induction fds generalizing i epoll with
  | nil => rfl
  | cons pf fds inductionHypothesis =>
      have rest := fun other member => away other (List.mem_cons_of_mem _ member)
      rw [epollAdd]
      split
      · rename_i adds
        have first := away pf List.mem_cons_self adds.1
        rw [inductionHypothesis rest, Function.update_of_ne first.symm]
      · exact inductionHypothesis rest

/-- A descriptor that epoll takes is registered with its place in the array. -/
theorem epollAdd_of_mem {refused : Int → Option Refusal} {i j : Nat} {pf : PollFd}
    (distinct : fds.Pairwise fun one other => -1 < one.fd → one.fd ≠ other.fd)
    (taken : ∀ pf ∈ fds, -1 < pf.fd → refused pf.fd = none ∧ epoll pf.fd = none)
    (here : fds[j]? = some pf) (valid : -1 < pf.fd) :
    epollAdd refused x fds i epoll pf.fd =
      some ⟨x, i + j, pollEvent2Epoll pf.events⟩ := by
  induction fds generalizing i j epoll with
  | nil => cases here
  | cons first fds inductionHypothesis =>
      obtain ⟨apart, distinct⟩ := List.pairwise_cons.mp distinct
      rw [epollAdd]
      cases j with
      | zero =>
          obtain rfl : first = pf := by simpa using here
          have free := taken first List.mem_cons_self valid
          rw [if_pos ⟨valid, free⟩, epollAdd_of_notMem, Function.update_self]
          · rfl
          · exact fun other member _ => (apart other member valid).symm
      | succ j =>
          have next : fds[j]? = some pf := by simpa using here
          have position : i + (j + 1) = i + 1 + j := by omega
          rw [position]
          split
          · rename_i adds
            refine inductionHypothesis distinct (fun other member valid => ?_) next
            have free := taken other (List.mem_cons_of_mem _ member) valid
            rw [Function.update_of_ne (apart other member adds.1).symm]
            exact free
          · exact inductionHypothesis distinct
              (fun other member => taken other (List.mem_cons_of_mem _ member)) next

theorem Registered.cleared (registered : Registered epoll polls) (here : polls x = some arg) :
    Registered (epollDel arg.fds epoll) (Function.update polls x none) := by
  intro fd item known
  rw [epollDel_eq] at known
  split at known
  · cases known
  · rename_i kept
    obtain ⟨valid, arg', pf, there, index, descriptor⟩ := registered fd item known
    refine ⟨valid, arg', pf, ?_, index, descriptor⟩
    rw [Function.update_of_ne, there]
    rintro rfl
    rw [here, Option.some.injEq] at there
    subst there
    exact kept ⟨valid, pf, List.mem_of_getElem? index, descriptor⟩

theorem Registered.added (registered : Registered epoll polls) (free : polls x = none)
    (refused : Int → Option Refusal) (arg : Poll) :
    Registered (epollAdd refused x arg.fds 0 epoll) (Function.update polls x (some arg)) := by
  intro fd item known
  rcases epollAdd_eq_some known with before | ⟨valid, poll, -, pf, index, descriptor⟩
  · obtain ⟨valid, arg', pf, there, index, descriptor⟩ := registered fd item before
    refine ⟨valid, arg', pf, ?_, index, descriptor⟩
    rw [Function.update_of_ne, there]
    rintro rfl
    rw [free] at there
    cases there
  · exact ⟨valid, arg, pf, by rw [poll, Function.update_self], index, descriptor⟩

theorem Registered.closed (registered : Registered epoll polls) (fd : Int) :
    Registered (Function.update epoll fd none) polls := by
  intro fd' item known
  by_cases same : fd' = fd
  · rw [same, Function.update_self] at known
    cases known
  · rw [Function.update_of_ne same] at known
    exact registered fd' item known

end Registrations

/-! ### Coroutines -/

namespace Routines

variable {stack stack' : List CoPtr} {coroutines : CoPtr → Option CoState} {n : CoPtr}
  {polls polls' : ItemPtr → Option Poll} {co last : CoPtr} {rest : List CoPtr} {state : CoState}
  {x : ItemPtr} {arg : Poll}

theorem rewritten (routines : Routines stack coroutines n polls)
    (rewritten : Rewritten polls polls') : Routines stack coroutines n polls' := by
  refine { routines with polling := fun co p => ?_ }
  rw [routines.polling]
  constructor
  · rintro ⟨arg, here, owner⟩
    obtain ⟨arg', here', writes⟩ := rewritten.forth p arg here
    exact ⟨arg', here', writes.owner.trans owner⟩
  · rintro ⟨arg', here', owner⟩
    obtain ⟨arg, here, writes⟩ := rewritten.back p arg' here'
    exact ⟨arg, here, writes.owner.symm.trans owner⟩

theorem created (routines : Routines stack coroutines n polls) :
    Routines stack (Function.update coroutines n (some .created)) (n + 1) polls := by
  have absent : coroutines n = none := by
    by_contra there
    exact absurd (routines.fresh n there) (Nat.lt_irrefl n)
  refine ⟨routines.nodup, fun c => ?_, routines.main, routines.depth, fun c there => ?_,
    fun c p => ?_⟩
  · rw [routines.called]
    by_cases new : c = n <;> simp [new, absent]
  · by_cases new : c = n
    · rw [new]
      exact Nat.lt_succ_self n
    · rw [Function.update_of_ne new] at there
      exact Nat.lt_succ_of_lt (routines.fresh c there)
  · rw [← routines.polling]
    by_cases new : c = n <;> simp [new, absent]

/-- One coroutine goes to another state. -/
theorem moved (routines : Routines stack coroutines n polls) (there : coroutines co ≠ none)
    (nodup : stack'.Nodup) (main : stack'.getLast? = some 0) (depth : stack'.length ≤ 128)
    (called : ∀ c, c ∈ stack' ↔ if c = co then state = .called else c ∈ stack)
    (own : ∀ p, state = .polling p ↔ ∃ arg, polls' p = some arg ∧ arg.pArg = co)
    (others : ∀ c, c ≠ co → ∀ p, (∃ arg, polls' p = some arg ∧ arg.pArg = c) ↔
      ∃ arg, polls p = some arg ∧ arg.pArg = c) :
    Routines stack' (Function.update coroutines co (some state)) n polls' := by
  refine ⟨nodup, fun c => ?_, main, depth, fun c here => ?_, fun c p => ?_⟩
  · rw [called]
    by_cases same : c = co
    · simp [same]
    · rw [if_neg same, Function.update_of_ne same, routines.called]
  · by_cases same : c = co
    · exact same ▸ routines.fresh co there
    · rw [Function.update_of_ne same] at here
      exact routines.fresh c here
  · by_cases same : c = co
    · subst same
      rw [Function.update_self, Option.some.injEq, own]
    · rw [Function.update_of_ne same, others c same, routines.polling]

/-- Who is on the call stack waits in no poll. -/
theorem not_owner (routines : Routines stack coroutines n polls) (top : co ∈ stack) (p : ItemPtr) :
    ¬ ∃ arg, polls p = some arg ∧ arg.pArg = co := by
  rw [← routines.polling, (routines.called co).mp top]
  simp

/-- The running coroutine leaves the call stack. -/
theorem yields (routines : Routines (co :: last :: rest) coroutines n polls)
    (notCalled : state ≠ .called)
    (own : ∀ p, state = .polling p ↔ ∃ arg, polls' p = some arg ∧ arg.pArg = co)
    (others : ∀ c, c ≠ co → ∀ p, (∃ arg, polls' p = some arg ∧ arg.pArg = c) ↔
      ∃ arg, polls p = some arg ∧ arg.pArg = c) :
    Routines (last :: rest) (Function.update coroutines co (some state)) n polls' := by
  obtain ⟨away, nodup⟩ := List.nodup_cons.mp routines.nodup
  have depth := routines.depth
  refine routines.moved ?_ nodup ?_ ?_ (fun c => ?_) own others
  · rw [(routines.called co).mp List.mem_cons_self]
    simp
  · simpa [List.getLast?_cons] using routines.main
  · rw [List.length_cons] at depth
    omega
  · by_cases same : c = co
    · rw [if_pos same]
      exact iff_of_false (same ▸ away) notCalled
    · simp [same]

/-- A suspended coroutine is put on the call stack. -/
theorem resumes (routines : Routines stack coroutines n polls) (there : coroutines co ≠ none)
    (notCalled : coroutines co ≠ some .called) (room : stack.length < 128)
    (own : ∀ p, ¬ ∃ arg, polls' p = some arg ∧ arg.pArg = co)
    (others : ∀ c, c ≠ co → ∀ p, (∃ arg, polls' p = some arg ∧ arg.pArg = c) ↔
      ∃ arg, polls p = some arg ∧ arg.pArg = c) :
    Routines (co :: stack) (Function.update coroutines co (some .called)) n polls' := by
  have away : co ∉ stack := fun member => notCalled ((routines.called co).mp member)
  refine routines.moved there (List.nodup_cons.mpr ⟨away, routines.nodup⟩) ?_ ?_ (fun c => ?_)
    (fun p => iff_of_false (by simp) (own p)) others
  · rw [List.getLast?_cons, routines.main]
    rfl
  · rw [List.length_cons]
    omega
  · by_cases same : c = co <;> simp [same]

/-- A coroutine that waits in a poll is resumed, and its poll freed. -/
theorem wakes (routines : Routines stack coroutines n polls)
    (waits : coroutines co = some (.polling x)) (here : polls x = some arg)
    (room : stack.length < 128) :
    Routines (co :: stack) (Function.update coroutines co (some .called)) n
      (Function.update polls x none) := by
  obtain ⟨arg', here', owner⟩ := (routines.polling co x).mp waits
  rw [here, Option.some.injEq] at here'
  subst here'
  refine routines.resumes (by simp [waits]) (by simp [waits]) room ?_ ?_
  · rintro p ⟨arg', there, owner'⟩
    by_cases node : p = x
    · rw [node, Function.update_self] at there
      cases there
    · rw [Function.update_of_ne node] at there
      have waits' := (routines.polling co p).mpr ⟨arg', there, owner'⟩
      rw [waits, Option.some.injEq, CoState.polling.injEq] at waits'
      exact node waits'.symm
  · intro c other p
    by_cases node : p = x
    · subst node
      rw [Function.update_self, here]
      simp [owner, Ne.symm other]
    · rw [Function.update_of_ne node]

/-- The running coroutine waits in a new poll. -/
theorem polls_new (routines : Routines (co :: last :: rest) coroutines n polls)
    (free : polls x = none) (owner : arg.pArg = co) :
    Routines (last :: rest) (Function.update coroutines co (some (.polling x))) n
      (Function.update polls x (some arg)) := by
  refine routines.yields (by simp) (fun p => ?_) fun c other p => ?_
  · by_cases node : p = x
    · subst node
      simp [owner]
    · rw [Function.update_of_ne node]
      exact iff_of_false (by simpa using Ne.symm node)
        (routines.not_owner List.mem_cons_self p)
  · by_cases node : p = x
    · subst node
      rw [Function.update_self, free]
      simp [owner, Ne.symm other]
    · rw [Function.update_of_ne node]

end Routines

end Libco

end FastCgi
