/-
Module: FastCgi.Proofs.PoolInvariant
Layer: Proofs
Purpose: The containers of the coroutine pool agree at every point at which
  control passes, and no task is ever lost, resumed after its end, or made to
  close a descriptor twice.
Trusted boundary: none
Main exports: Stored, Holding, consistent_of_reachable, pool_invariant
-/
import FastCgi.Spec.Pool
import Mathlib.Data.Finset.Card
import Mathlib.Data.Set.Function

namespace FastCgi

namespace Cocgi

open CCocgiServer

/-- Where the tasks are stored.  `n` is the number of initial tasks; the last
two fields bound the tasks ever made, so that no id is used twice. -/
structure Stored (n : Nat) (s : CCocgiServer) : Prop where
  idle_nodup : s.idleTask.Nodup
  disjoint : ∀ p ∈ s.idleTask, p ∉ s.runTask
  below : ∀ p, p ∈ s.idleTask ∨ p ∈ s.runTask → p < s.allocated
  ids : ∀ p < s.allocated, (s.heap p).uCoId = UInt32.ofNat p
  index : s.coIndex = UInt32.ofNat s.allocated
  stored : ∀ (id : UInt32) p, s.task[id]? = some p ↔
    (p ∈ s.idleTask ∨ p ∈ s.runTask) ∧ id = (s.heap p).uCoId
  size : s.task.size = s.idleTask.length + s.runTask.card
  bounded : s.allocated ≤ max n s.maxCoroutineCount.toNat
  counted : s.task.size < s.maxCoroutineCount.toNat → s.allocated = s.task.size

/-- The coroutine of a task waits to be given a descriptor. -/
def Waits (s : CCocgiServer) (p : TaskPtr) : Prop :=
  s.coroutine p = .created ∨ s.coroutine p = .yielded p

/-- Which descriptors the tasks hold.  `ready` is the task that has been given
one and has not run since. -/
structure Holding (s : CCocgiServer) (ready : Option TaskPtr) : Prop where
  idle_task : ∀ p ∈ s.idleTask, (s.heap p).iFd = -1 ∧ Waits s p
  run_task : ∀ p ∈ s.runTask, ready ≠ some p →
    (s.heap p).iFd = -1 ∧ ∃ iFd recycle, s.coroutine p = .polling p iFd recycle
  ready_task : ∀ p, ready = some p → p ∈ s.runTask ∧ (s.heap p).iFd ≠ -1 ∧ Waits s p
  polls : ∀ p task iFd recycle, s.coroutine p = .polling task iFd recycle → p ∈ s.runTask
  opened : s.openFds = s.runTask.image s.descriptor
  injective : Set.InjOn s.descriptor s.runTask

theorem descriptor_of_waits {s : CCocgiServer} {p : TaskPtr} (waits : Waits s p) :
    s.descriptor p = (s.heap p).iFd := by
  unfold CCocgiServer.descriptor
  rcases waits with created | yielded
  · rw [created]
  · rw [yielded]

theorem descriptor_of_polling {s : CCocgiServer} {p task : TaskPtr} {iFd : Int} {recycle : Nat}
    (polling : s.coroutine p = .polling task iFd recycle) : s.descriptor p = iFd := by
  unfold CCocgiServer.descriptor
  rw [polling]

/-- Ids below the bound are distinct. -/
theorem id_injective {n : Nat} {s : CCocgiServer} (small : n < 2 ^ 16) (stored : Stored n s)
    {p q : TaskPtr} (first : p ≤ s.allocated) (second : q ≤ s.allocated)
    (same : UInt32.ofNat p = UInt32.ofNat q) : p = q := by
  have bound : s.allocated < 2 ^ 32 := by
    have limit := s.maxCoroutineCount.toNat_lt
    have bounded := stored.bounded
    omega
  have values := congrArg UInt32.toNat same
  rwa [UInt32.toNat_ofNat', UInt32.toNat_ofNat',
    Nat.mod_eq_of_lt (Nat.lt_of_le_of_lt first bound),
    Nat.mod_eq_of_lt (Nat.lt_of_le_of_lt second bound)] at values

/-! ### Making a task -/

/-- The next id is not in use. -/
theorem index_not_stored {n : Nat} {s : CCocgiServer} (small : n < 2 ^ 16)
    (stored : Stored n s) : s.coIndex ∉ s.task := by
  intro used
  rw [Std.ExtTreeMap.mem_iff_isSome_getElem?, Option.isSome_iff_exists] at used
  obtain ⟨p, found⟩ := used
  obtain ⟨held, same⟩ := (stored.stored s.coIndex p).mp found
  have below := stored.below p held
  rw [stored.index, stored.ids p below] at same
  exact Nat.ne_of_gt below (id_injective small stored (Nat.le_refl _) (Nat.le_of_lt below) same)

theorem heap_create_of_ne {s : CCocgiServer} {p : TaskPtr} (old : p ≠ s.allocated) :
    s.createCocgiTask.heap p = s.heap p := Function.update_of_ne old _ _

theorem coroutine_create_of_ne {s : CCocgiServer} {p : TaskPtr} (old : p ≠ s.allocated) :
    s.createCocgiTask.coroutine p = s.coroutine p := Function.update_of_ne old _ _

/-- A task of the pool is not the next one to be made. -/
theorem ne_allocated {n : Nat} {s : CCocgiServer} (stored : Stored n s) {p : TaskPtr}
    (held : p ∈ s.idleTask ∨ p ∈ s.runTask) : p ≠ s.allocated :=
  Nat.ne_of_lt (stored.below p held)

/-- Every task is still found under its id, and the new one under the new
id. -/
theorem lookup_create {n : Nat} {s : CCocgiServer} (small : n < 2 ^ 16) (stored : Stored n s)
    (id : UInt32) (p : TaskPtr) :
    s.createCocgiTask.task[id]? = some p ↔
      (p ∈ s.createCocgiTask.idleTask ∨ p ∈ s.createCocgiTask.runTask) ∧
        id = (s.createCocgiTask.heap p).uCoId := by
  have newId : (s.createCocgiTask.heap s.allocated).uCoId = s.coIndex := by
    simp [createCocgiTask]
  have members : (p ∈ s.createCocgiTask.idleTask ∨ p ∈ s.createCocgiTask.runTask) ↔
      p = s.allocated ∨ p ∈ s.idleTask ∨ p ∈ s.runTask := by
    simp [createCocgiTask, or_assoc]
  rw [members]
  by_cases same : s.coIndex = id
  · subst same
    have found : s.createCocgiTask.task[s.coIndex]? = some s.allocated := by
      simp [createCocgiTask]
    rw [found]
    constructor
    · intro here
      cases here
      exact ⟨Or.inl rfl, newId.symm⟩
    · rintro ⟨new | held, named⟩
      · rw [new]
      · rw [heap_create_of_ne (ne_allocated stored held)] at named
        have used := (stored.stored s.coIndex p).mpr ⟨held, named⟩
        exact absurd (Std.ExtTreeMap.mem_iff_isSome_getElem?.mpr (by rw [used]; rfl))
          (index_not_stored small stored)
  · have kept : s.createCocgiTask.task[id]? = s.task[id]? := by
      simp [createCocgiTask, Std.ExtTreeMap.getElem?_insert, same]
    rw [kept, stored.stored]
    constructor
    · rintro ⟨held, named⟩
      rw [heap_create_of_ne (ne_allocated stored held)]
      exact ⟨Or.inr held, named⟩
    · rintro ⟨new | held, named⟩
      · rw [new, newId] at named
        exact absurd named.symm same
      · rw [heap_create_of_ne (ne_allocated stored held)] at named
        exact ⟨held, named⟩

theorem stored_create {n : Nat} {s : CCocgiServer} (small : n < 2 ^ 16) (stored : Stored n s)
    (counted : s.allocated = s.task.size)
    (room : s.allocated < max n s.maxCoroutineCount.toNat) :
    Stored n s.createCocgiTask ∧
      s.createCocgiTask.allocated = s.createCocgiTask.task.size := by
  have fresh := index_not_stored small stored
  have size : s.createCocgiTask.allocated = s.createCocgiTask.task.size := by
    simp [createCocgiTask, Std.ExtTreeMap.size_insert, fresh, counted]
  refine ⟨?_, size⟩
  constructor
  · refine List.nodup_cons.mpr ⟨?_, stored.idle_nodup⟩
    intro member
    exact ne_allocated stored (Or.inl member) rfl
  · intro p member
    rcases List.mem_cons.mp member with rfl | earlier
    · intro running
      exact ne_allocated stored (Or.inr running) rfl
    · exact stored.disjoint p earlier
  · rintro p (member | member)
    · rcases List.mem_cons.mp member with rfl | earlier
      · exact Nat.lt_succ_self _
      · exact Nat.lt_succ_of_lt (stored.below p (Or.inl earlier))
    · exact Nat.lt_succ_of_lt (stored.below p (Or.inr member))
  · intro p below
    by_cases new : p = s.allocated
    · subst new
      simp [createCocgiTask, stored.index]
    · rw [heap_create_of_ne new]
      exact stored.ids p (Nat.lt_of_le_of_ne (Nat.le_of_lt_succ below) new)
  · simp [createCocgiTask, stored.index]
  · exact lookup_create small stored
  · rw [← size, show s.createCocgiTask.allocated = s.allocated + 1 from rfl, counted, stored.size]
    simp only [createCocgiTask, List.length_cons]
    omega
  · exact room
  · intro _
    exact size

theorem waits_create {s : CCocgiServer} {p : TaskPtr} (old : p ≠ s.allocated) :
    Waits s.createCocgiTask p ↔ Waits s p := by
  rw [Waits, Waits, coroutine_create_of_ne old]

theorem descriptor_create {s : CCocgiServer} {p : TaskPtr} (old : p ≠ s.allocated) :
    s.createCocgiTask.descriptor p = s.descriptor p := by
  rw [CCocgiServer.descriptor, CCocgiServer.descriptor, coroutine_create_of_ne old,
    heap_create_of_ne old]

/-- Descriptors that are the same on the running tasks leave the pairing with
the open descriptors as it is. -/
theorem paired_congr (s s' : CCocgiServer) (running : s'.runTask = s.runTask)
    (same : ∀ p ∈ s.runTask, s'.descriptor p = s.descriptor p)
    (opened : s.openFds = s.runTask.image s.descriptor)
    (injective : Set.InjOn s.descriptor s.runTask) :
    s.openFds = s'.runTask.image s'.descriptor ∧ Set.InjOn s'.descriptor s'.runTask := by
  rw [running]
  constructor
  · rw [opened]
    exact Finset.image_congr fun p member => (same p member).symm
  · exact (Set.EqOn.injOn_iff same).mpr injective

theorem holding_create {n : Nat} {s : CCocgiServer} (stored : Stored n s)
    (holding : Holding s none) : Holding s.createCocgiTask none := by
  have old {p : TaskPtr} (running : p ∈ s.runTask) : p ≠ s.allocated :=
    ne_allocated stored (Or.inr running)
  obtain ⟨opened, injective⟩ := paired_congr s s.createCocgiTask rfl
    (fun p running => descriptor_create (old running)) holding.opened holding.injective
  constructor
  · intro p member
    rcases List.mem_cons.mp member with rfl | earlier
    · simp [createCocgiTask, Waits]
    · have apart := ne_allocated stored (Or.inl earlier)
      rw [heap_create_of_ne apart, waits_create apart]
      exact holding.idle_task p earlier
  · intro p running _
    rw [heap_create_of_ne (old running), coroutine_create_of_ne (old running)]
    exact holding.run_task p running (by simp)
  · intro p ready
    cases ready
  · intro p task iFd recycle polling
    by_cases new : p = s.allocated
    · subst new
      simp [createCocgiTask] at polling
    · rw [coroutine_create_of_ne new] at polling
      exact holding.polls p task iFd recycle polling
  · exact opened
  · exact injective

/-! ### Moving a task -/

/-- The tasks are the same, with the same ids. -/
structure SameTasks (s s' : CCocgiServer) : Prop where
  task : s'.task = s.task
  allocated : s'.allocated = s.allocated
  coIndex : s'.coIndex = s.coIndex
  maxCoroutineCount : s'.maxCoroutineCount = s.maxCoroutineCount
  ids : ∀ p, (s'.heap p).uCoId = (s.heap p).uCoId

/-- Moving tasks between the two containers keeps them stored. -/
theorem stored_of_sameTasks {n : Nat} {s s' : CCocgiServer} (same : SameTasks s s')
    (members : ∀ p, p ∈ s'.idleTask ∨ p ∈ s'.runTask ↔ p ∈ s.idleTask ∨ p ∈ s.runTask)
    (nodup : s'.idleTask.Nodup) (disjoint : ∀ p ∈ s'.idleTask, p ∉ s'.runTask)
    (count : s'.idleTask.length + s'.runTask.card = s.idleTask.length + s.runTask.card)
    (stored : Stored n s) : Stored n s' := by
  constructor
  · exact nodup
  · exact disjoint
  · intro p held
    rw [same.allocated]
    exact stored.below p ((members p).mp held)
  · intro p below
    rw [same.allocated] at below
    rw [same.ids]
    exact stored.ids p below
  · rw [same.coIndex, same.allocated]
    exact stored.index
  · intro id p
    rw [same.task, members, same.ids]
    exact stored.stored id p
  · rw [same.task, count]
    exact stored.size
  · rw [same.allocated, same.maxCoroutineCount]
    exact stored.bounded
  · rw [same.task, same.allocated, same.maxCoroutineCount]
    exact stored.counted

theorem uCoId_setFd (s : CCocgiServer) (p q : TaskPtr) (iFd : Int) :
    ((s.setFd p iFd).heap q).uCoId = (s.heap q).uCoId := by
  by_cases same : q = p
  · subst same
    simp [setFd]
  · simp [setFd, Function.update_of_ne same]

theorem heap_setFd_of_ne {s : CCocgiServer} {p q : TaskPtr} (other : q ≠ p) (iFd : Int) :
    (s.setFd p iFd).heap q = s.heap q := Function.update_of_ne other _ _

theorem coroutine_suspend_of_ne {s : CCocgiServer} {p q : TaskPtr} (other : q ≠ p)
    (coroutine : Coroutine) : (s.suspend p coroutine).coroutine q = s.coroutine q :=
  Function.update_of_ne other _ _

/-- Two servers in which a task has the same state. -/
theorem descriptor_congr {s s' : CCocgiServer} {p : TaskPtr} (heap : s'.heap p = s.heap p)
    (coroutine : s'.coroutine p = s.coroutine p) : s'.descriptor p = s.descriptor p := by
  rw [CCocgiServer.descriptor, CCocgiServer.descriptor, heap, coroutine]

/-! ### Handing over a descriptor -/

section HandOver

variable {n : Nat} {s : CCocgiServer} {p : TaskPtr} {idleTask : List TaskPtr} {iFd : Int}

theorem stored_handOver (stored : Stored n s) (first : s.idleTask = p :: idleTask) :
    Stored n (s.handOver p idleTask iFd) := by
  have nodup := stored.idle_nodup
  rw [first, List.nodup_cons] at nodup
  have same : SameTasks s (s.handOver p idleTask iFd) :=
    ⟨rfl, rfl, rfl, rfl, fun q => uCoId_setFd s p q iFd⟩
  have idle : p ∈ s.idleTask := by
    rw [first]
    exact List.mem_cons_self
  apply stored_of_sameTasks same _ nodup.2 _ _ stored
  · intro q
    simp only [handOver, Finset.mem_insert, first, List.mem_cons]
    exact or_left_comm.trans or_assoc.symm
  · intro q member running
    rcases Finset.mem_insert.mp running with rfl | running
    · exact nodup.1 member
    · exact stored.disjoint q (by rw [first]; exact List.mem_cons_of_mem p member) running
  · simp only [handOver, Finset.card_insert_of_notMem (stored.disjoint p idle), first,
      List.length_cons]
    omega

theorem holding_handOver (stored : Stored n s) (holding : Holding s none)
    (first : s.idleTask = p :: idleTask) (valid : 0 ≤ iFd) (closed : iFd ∉ s.openFds) :
    Holding (s.handOver p idleTask iFd) (some p) := by
  have idle : p ∈ s.idleTask := by
    rw [first]
    exact List.mem_cons_self
  have waits : Waits (s.handOver p idleTask iFd) p := (holding.idle_task p idle).2
  have given : ((s.handOver p idleTask iFd).heap p).iFd = iFd := by
    simp [handOver, setFd]
  have heap {q : TaskPtr} (other : q ≠ p) : (s.handOver p idleTask iFd).heap q = s.heap q :=
    heap_setFd_of_ne other iFd
  have others {q : TaskPtr} (running : q ∈ s.runTask) : q ≠ p := by
    rintro rfl
    exact stored.disjoint q idle running
  have same {q : TaskPtr} (running : q ∈ s.runTask) :
      (s.handOver p idleTask iFd).descriptor q = s.descriptor q :=
    descriptor_congr (heap (others running)) rfl
  have own : (s.handOver p idleTask iFd).descriptor p = iFd := by
    rw [descriptor_of_waits waits, given]
  have unlike {q : TaskPtr} (running : q ∈ s.runTask) : s.descriptor q ≠ iFd := by
    rintro rfl
    apply closed
    rw [holding.opened]
    exact Finset.mem_image_of_mem _ running
  constructor
  · intro q member
    have nodup := stored.idle_nodup
    rw [first, List.nodup_cons] at nodup
    have other : q ≠ p := by
      rintro rfl
      exact nodup.1 member
    rw [heap other]
    exact holding.idle_task q (by rw [first]; exact List.mem_cons_of_mem p member)
  · intro q running unready
    rcases Finset.mem_insert.mp running with rfl | running
    · exact absurd rfl unready
    · rw [heap (others running)]
      exact holding.run_task q running (by simp)
  · intro q ready
    cases ready
    refine ⟨Finset.mem_insert_self p s.runTask, ?_, waits⟩
    rw [given]
    omega
  · intro q task iFd' recycle polling
    exact Finset.mem_insert_of_mem (holding.polls q task iFd' recycle polling)
  · simp only [handOver, Finset.image_insert]
    change insert iFd s.openFds = insert ((s.handOver p idleTask iFd).descriptor p)
      (s.runTask.image (s.handOver p idleTask iFd).descriptor)
    rw [own, holding.opened]
    congr 1
    exact Finset.image_congr fun q running => (same running).symm
  · change Set.InjOn _ (↑(insert p s.runTask) : Set TaskPtr)
    rw [Finset.coe_insert, Set.injOn_insert fun running => others running rfl]
    constructor
    · exact holding.injective.congr fun q running => (same running).symm
    · rintro ⟨q, running, equal⟩
      apply unlike running
      rw [← same running, equal, own]

end HandOver

/-! ### Running a task -/

section Run

variable {n : Nat} {s : CCocgiServer} {p : TaskPtr}

/-- Other states for the coroutine and the field of a task that runs keep it
stored. -/
theorem stored_of_sameContainers {s' : CCocgiServer} (same : SameTasks s s')
    (idle : s'.idleTask = s.idleTask) (running : s'.runTask = s.runTask) (stored : Stored n s) :
    Stored n s' := by
  apply stored_of_sameTasks same _ _ _ _ stored
  · intro q
    rw [idle, running]
  · rw [idle]
    exact stored.idle_nodup
  · rw [idle, running]
    exact stored.disjoint
  · rw [idle, running]

/-- The coroutine of a running task has its descriptor in its local variable
from now on, and only there. -/
theorem holding_polling {s' : CCocgiServer} {ready : Option TaskPtr} {iFd : Int} {recycle : Nat}
    (polling : s'.coroutine p = .polling p iFd recycle) (kept : s.descriptor p = iFd)
    (field : (s'.heap p).iFd = -1)
    (others : ∀ q, q ≠ p → s'.heap q = s.heap q ∧ s'.coroutine q = s.coroutine q)
    (sameIdle : s'.idleTask = s.idleTask) (sameRun : s'.runTask = s.runTask)
    (sameOpen : s'.openFds = s.openFds) (running : p ∈ s.runTask)
    (only : ∀ q, ready = some q → q = p) (stored : Stored n s) (holding : Holding s ready) :
    Holding s' none := by
  have same : ∀ q ∈ s.runTask, s'.descriptor q = s.descriptor q := by
    intro q _
    by_cases own : q = p
    · rw [own, kept, descriptor_of_polling polling]
    · exact descriptor_congr (others q own).1 (others q own).2
  obtain ⟨opened, injective⟩ := paired_congr s s' sameRun same holding.opened holding.injective
  constructor
  · intro q member
    rw [sameIdle] at member
    have other : q ≠ p := by
      rintro rfl
      exact stored.disjoint q member running
    rw [Waits, (others q other).1, (others q other).2]
    exact holding.idle_task q member
  · intro q member _
    by_cases own : q = p
    · rw [own]
      exact ⟨field, iFd, recycle, polling⟩
    · rw [(others q own).1, (others q own).2]
      rw [sameRun] at member
      exact holding.run_task q member fun isReady => own (only q isReady)
  · intro q isReady
    cases isReady
  · intro q task iFd' recycle' waits
    rw [sameRun]
    by_cases own : q = p
    · rw [own]
      exact running
    · rw [(others q own).2] at waits
      exact holding.polls q task iFd' recycle' waits
  · rw [sameOpen]
    exact opened
  · exact injective

/-- A task that has been given a descriptor takes it. -/
theorem consistent_takeFd (stored : Stored n s) (holding : Holding s (some p)) :
    Stored n (s.takeFd p p) ∧ Holding (s.takeFd p p) none := by
  obtain ⟨running, given, waits⟩ := holding.ready_task p rfl
  have same : SameTasks s (s.takeFd p p) :=
    ⟨rfl, rfl, rfl, rfl, fun q => uCoId_setFd s p q (-1)⟩
  have polling : (s.takeFd p p).coroutine p = .polling p (s.heap p).iFd 0 := by
    simp [takeFd, suspend]
  have field : ((s.takeFd p p).heap p).iFd = -1 := by
    simp [takeFd, suspend, setFd]
  refine ⟨stored_of_sameContainers same rfl rfl stored, ?_⟩
  apply holding_polling polling (descriptor_of_waits waits) field _ rfl rfl rfl running _ stored
    holding
  · intro q other
    exact ⟨heap_setFd_of_ne other (-1), coroutine_suspend_of_ne other _⟩
  · intro q isReady
    cases isReady
    rfl

/-- A task that goes on polling keeps its descriptor. -/
theorem consistent_suspend {iFd : Int} {recycle : Nat}
    (waits : s.coroutine p = .polling p iFd recycle) (recycle' : Nat) (running : p ∈ s.runTask)
    (stored : Stored n s) (holding : Holding s none) :
    Stored n (s.suspend p (.polling p iFd recycle')) ∧
      Holding (s.suspend p (.polling p iFd recycle')) none := by
  have same : SameTasks s (s.suspend p (.polling p iFd recycle')) :=
    ⟨rfl, rfl, rfl, rfl, fun q => rfl⟩
  have polling :
      (s.suspend p (.polling p iFd recycle')).coroutine p = .polling p iFd recycle' := by
    simp [suspend]
  have field := (holding.run_task p running (by simp)).1
  refine ⟨stored_of_sameContainers same rfl rfl stored, ?_⟩
  apply holding_polling polling (descriptor_of_polling waits) field _ rfl rfl rfl running _ stored
    holding
  · intro q other
    exact ⟨rfl, coroutine_suspend_of_ne other _⟩
  · intro q isReady
    cases isReady

/-- Taking one task away takes its descriptor away, and no other. -/
theorem image_erase_descriptor {descriptor : TaskPtr → Int} {tasks : Finset TaskPtr}
    (injective : Set.InjOn descriptor tasks) (member : p ∈ tasks) :
    (tasks.image descriptor).erase (descriptor p) = (tasks.erase p).image descriptor := by
  ext iFd
  simp only [Finset.mem_erase, Finset.mem_image]
  constructor
  · rintro ⟨other, q, held, rfl⟩
    refine ⟨q, ⟨?_, held⟩, rfl⟩
    rintro rfl
    exact other rfl
  · rintro ⟨q, ⟨other, held⟩, rfl⟩
    refine ⟨?_, q, held, rfl⟩
    intro same
    exact other (injective held member same)

/-- A task that has closed its descriptor and is running no more. -/
theorem holding_leave {s' : CCocgiServer} (running : p ∈ s.runTask) (stored : Stored n s)
    (holding : Holding s none)
    (stops : ∀ task iFd recycle, s'.coroutine p ≠ .polling task iFd recycle)
    (idle : ∀ q ∈ s'.idleTask, q ∈ s.idleTask ∨ q = p ∧ Waits s' p)
    (others : ∀ q, q ≠ p → s'.coroutine q = s.coroutine q) (sameHeap : s'.heap = s.heap)
    (left : s'.runTask = s.runTask.erase p)
    (closed : s'.openFds = s.openFds.erase (s.descriptor p)) : Holding s' none := by
  have same {q : TaskPtr} (other : q ≠ p) : s'.descriptor q = s.descriptor q :=
    descriptor_congr (by rw [sameHeap]) (others q other)
  constructor
  · intro q member
    rw [sameHeap]
    rcases idle q member with earlier | ⟨rfl, waits⟩
    · have other : q ≠ p := by
        rintro rfl
        exact stored.disjoint q earlier running
      rw [Waits, others q other]
      exact holding.idle_task q earlier
    · exact ⟨(holding.run_task q running (by simp)).1, waits⟩
  · intro q member _
    rw [left] at member
    obtain ⟨other, runs⟩ := Finset.mem_erase.mp member
    rw [sameHeap, others q other]
    exact holding.run_task q runs (by simp)
  · intro q isReady
    cases isReady
  · intro q task iFd recycle polling
    rw [left]
    by_cases own : q = p
    · rw [own] at polling
      exact absurd polling (stops task iFd recycle)
    · rw [others q own] at polling
      exact Finset.mem_erase.mpr ⟨own, holding.polls q task iFd recycle polling⟩
  · rw [closed, left, holding.opened, image_erase_descriptor holding.injective running]
    exact Finset.image_congr fun q member => (same (Finset.mem_erase.mp member).1).symm
  · rw [left]
    intro q member q' member' equal
    obtain ⟨other, runs⟩ := Finset.mem_erase.mp member
    obtain ⟨other', runs'⟩ := Finset.mem_erase.mp member'
    rw [same other, same other'] at equal
    exact holding.injective runs runs' equal

/-- A task that has closed its descriptor goes back to the idle ones. -/
theorem consistent_park (running : p ∈ s.runTask) (stored : Stored n s)
    (holding : Holding s none) :
    Stored n ((s.without (s.descriptor p)).park p p) ∧
      Holding ((s.without (s.descriptor p)).park p p) none := by
  have busy : p ∉ s.idleTask := fun idle => stored.disjoint p idle running
  have same : SameTasks s ((s.without (s.descriptor p)).park p p) :=
    ⟨rfl, rfl, rfl, rfl, fun q => rfl⟩
  have yielded : ((s.without (s.descriptor p)).park p p).coroutine p = .yielded p := by
    simp [park, suspend]
  constructor
  · apply stored_of_sameTasks same _ _ _ _ stored
    · intro q
      simp only [park, becomeIdle, leaveRunTask, suspend, without, List.mem_cons, Finset.mem_erase]
      by_cases own : q = p
      · simp [own, running]
      · simp [own]
    · exact List.nodup_cons.mpr ⟨busy, stored.idle_nodup⟩
    · intro q member runs
      obtain ⟨other, runs⟩ := Finset.mem_erase.mp runs
      rcases List.mem_cons.mp member with own | earlier
      · exact other own
      · exact stored.disjoint q earlier runs
    · have fewer := Finset.card_erase_add_one running
      simp only [park, becomeIdle, leaveRunTask, suspend, without, List.length_cons]
      omega
  · have stops : ∀ task iFd recycle, ((s.without (s.descriptor p)).park p p).coroutine p ≠
        .polling task iFd recycle := by simp [yielded]
    apply holding_leave running stored holding stops _ _ rfl rfl rfl
    · intro q member
      rcases List.mem_cons.mp member with own | earlier
      · exact Or.inr ⟨own, Or.inr yielded⟩
      · exact Or.inl earlier
    · intro q other
      exact coroutine_suspend_of_ne other _

/-- The other tasks are still found under their ids. -/
theorem lookup_erase (small : n < 2 ^ 16) (running : p ∈ s.runTask) (stored : Stored n s)
    (id : UInt32) (q : TaskPtr) :
    (s.task.erase (s.heap p).uCoId)[id]? = some q ↔
      (q ∈ s.idleTask ∨ q ∈ s.runTask.erase p) ∧ id = (s.heap q).uCoId := by
  have busy : p ∉ s.idleTask := fun idle => stored.disjoint p idle running
  have below := stored.below p (Or.inr running)
  by_cases own : q = p
  · subst own
    constructor
    · intro found
      rw [Std.ExtTreeMap.getElem?_erase] at found
      split at found
      · cases found
      · rename_i other
        have named := ((stored.stored id q).mp found).2
        simp [named] at other
    · rintro ⟨idle | runs, _⟩
      · exact absurd idle busy
      · exact absurd rfl (Finset.mem_erase.mp runs).1
  · have members : (q ∈ s.idleTask ∨ q ∈ s.runTask.erase p) ↔
        q ∈ s.idleTask ∨ q ∈ s.runTask := by
      simp [Finset.mem_erase, own]
    rw [members, ← stored.stored, Std.ExtTreeMap.getElem?_erase]
    by_cases same : (s.heap p).uCoId = id
    · subst same
      constructor
      · intro found
        simp at found
      · intro found
        -- the id belongs to the task that leaves
        obtain ⟨held, named⟩ := (stored.stored _ q).mp found
        rw [stored.ids p below, stored.ids q (stored.below q held)] at named
        exact absurd (id_injective small stored (Nat.le_of_lt below)
          (Nat.le_of_lt (stored.below q held)) named).symm own
    · simp [same]

/-- A task that has closed its descriptor while there are too many retires. -/
theorem consistent_retire (small : n < 2 ^ 16) (many : s.maxCoroutineCount.toNat < s.task.size)
    (running : p ∈ s.runTask) (stored : Stored n s) (holding : Holding s none) :
    Stored n ((s.without (s.descriptor p)).retire p p) ∧
      Holding ((s.without (s.descriptor p)).retire p p) none := by
  have returned : ((s.without (s.descriptor p)).retire p p).coroutine p = .returned := by
    simp [retire, suspend]
  have present : (s.heap p).uCoId ∈ s.task := by
    rw [Std.ExtTreeMap.mem_iff_isSome_getElem?,
      (stored.stored _ p).mpr ⟨Or.inr running, rfl⟩]
    rfl
  have smaller : ((s.without (s.descriptor p)).retire p p).task.size = s.task.size - 1 := by
    simp [retire, leaveRunTask, leaveTask, suspend, without, Std.ExtTreeMap.size_erase, present]
  constructor
  · constructor
    · exact stored.idle_nodup
    · intro q member runs
      exact stored.disjoint q member (Finset.mem_of_mem_erase runs)
    · rintro q (idle | runs)
      · exact stored.below q (Or.inl idle)
      · exact stored.below q (Or.inr (Finset.mem_of_mem_erase runs))
    · exact stored.ids
    · exact stored.index
    · have lookup := lookup_erase small running stored
      exact lookup
    · have fewer := Finset.card_erase_add_one running
      rw [smaller, stored.size]
      simp only [retire, leaveRunTask, leaveTask, suspend, without]
      omega
    · exact stored.bounded
    · intro few
      -- one fewer than too many is not too few
      rw [smaller] at few
      have few : s.task.size - 1 < s.maxCoroutineCount.toNat := few
      omega
  · have stops : ∀ task iFd recycle, ((s.without (s.descriptor p)).retire p p).coroutine p ≠
        .polling task iFd recycle := by simp [returned]
    apply holding_leave running stored holding stops _ _ rfl rfl rfl
    · intro q member
      exact Or.inl member
    · intro q other
      exact coroutine_suspend_of_ne other _

/-- A task that has closed its descriptor retires or becomes idle. -/
theorem consistent_leave (small : n < 2 ^ 16) (running : p ∈ s.runTask) (stored : Stored n s)
    (holding : Holding s none) :
    Stored n ((s.without (s.descriptor p)).runOuterLoop p p).server ∧
      Holding ((s.without (s.descriptor p)).runOuterLoop p p).server none := by
  have field : ((s.without (s.descriptor p)).heap p).iFd = -1 :=
    (holding.run_task p running (by simp)).1
  rw [runOuterLoop, if_pos field]
  split
  · rename_i many
    exact consistent_retire small many running stored holding
  · exact consistent_park running stored holding

/-- A task that has been given a descriptor finds itself in the table and
takes the descriptor. -/
theorem resume_ready (stored : Stored n s) (holding : Holding s (some p)) (ret : ErrorCode) :
    s.resume p ret = .ok (s.takeFd p p) := by
  obtain ⟨running, given, waits⟩ := holding.ready_task p rfl
  have taken : (s.runOuterLoop p p).server = s.takeFd p p := by rw [runOuterLoop, if_neg given]
  have found : s.task[(s.heap p).uCoId]? = some p :=
    (stored.stored _ p).mpr ⟨Or.inr running, rfl⟩
  rcases waits with created | yielded
  · simp only [resume, activate, created, found, Except.map, taken]
  · simp only [resume, activate, yielded, Except.map, taken]

/-- The descriptor that a running task closes is open. -/
theorem close_running {iFd : Int} {recycle : Nat} (running : p ∈ s.runTask)
    (holding : Holding s none) (polling : s.coroutine p = .polling p iFd recycle) :
    s.close iFd = .ok (s.without (s.descriptor p)) := by
  have isOpen : s.descriptor p ∈ s.openFds := by
    rw [holding.opened]
    exact Finset.mem_image_of_mem _ running
  rw [← descriptor_of_polling polling]
  exact if_pos isOpen

/-- After a call of `readData` the routine goes on, or closes its descriptor,
where the loop over the connection does. -/
theorem resume_polling {task : TaskPtr} {iFd : Int} {recycle : Nat}
    (polling : s.coroutine p = .polling task iFd recycle) (ret : ErrorCode) :
    s.resume p ret =
      match nextTurn recycle (some ret) with
      | .inl next => .ok (s.suspend p (.polling task iFd next))
      | .inr _ => (s.close iFd).map fun s => (s.runOuterLoop p task).server := by
  simp only [resume, activate, polling]
  cases nextTurn recycle (some ret) with
  | inl next => rfl
  | inr phase => cases s.close iFd <;> rfl

/-- A running task can run until it gives up control, whatever `readData`
returns. -/
theorem consistent_resume (small : n < 2 ^ 16) {ready : Option TaskPtr}
    (only : ∀ q, ready = some q → q = p) (running : p ∈ s.runTask) (stored : Stored n s)
    (holding : Holding s ready) (ret : ErrorCode) :
    ∃ s', s.resume p ret = .ok s' ∧ Stored n s' ∧ Holding s' none := by
  cases ready with
  | some q =>
      cases only q rfl
      exact ⟨s.takeFd p p, resume_ready stored holding ret, consistent_takeFd stored holding⟩
  | none =>
      obtain ⟨_, iFd, recycle, polling⟩ := holding.run_task p running (by simp)
      rw [resume_polling polling]
      cases nextTurn recycle (some ret) with
      | inl next => exact ⟨_, rfl, consistent_suspend polling next running stored holding⟩
      | inr phase =>
          simp only [close_running running holding polling]
          exact ⟨_, rfl, consistent_leave small running stored holding⟩

end Run

/-! ### Accepting a connection -/

section Accept

variable {n : Nat} {s : CCocgiServer}

/-- The server as the accept loop finds it after its first statement. -/
theorem consistent_refill (small : n < 2 ^ 16) (stored : Stored n s)
    (holding : Holding s none) :
    Stored n s.refill ∧ Holding s.refill none ∧ s.refill.openFds = s.openFds := by
  unfold refill
  split
  · rename_i few
    have counted := stored.counted few.2
    have room : s.allocated < max n s.maxCoroutineCount.toNat := by
      omega
    exact ⟨(stored_create small stored counted room).1, holding_create stored holding, rfl⟩
  · exact ⟨stored, holding, rfl⟩

/-- What an iteration of the accept loop leaves behind. -/
theorem consistent_accept (small : n < 2 ^ 16) (stored : Stored n s)
    (holding : Holding s none) {iFd : Int} (closed : iFd ∉ s.openFds) :
    Stored n (s.acceptIteration iFd).2 ∧
      match (s.acceptIteration iFd).1 with
      | .resumes p => Holding (s.acceptIteration iFd).2 (some p)
      | _ => Holding (s.acceptIteration iFd).2 none := by
  obtain ⟨stored', holding', sameOpen⟩ := consistent_refill small stored holding
  unfold acceptIteration
  split
  · exact ⟨stored', holding'⟩
  · rename_i p idleTask first
    by_cases failed : iFd < 0
    · rw [if_pos failed]
      exact ⟨stored', holding'⟩
    · rw [if_neg failed]
      refine ⟨stored_handOver stored' first, ?_⟩
      apply holding_handOver stored' holding' first (Int.not_lt.mp failed)
      rw [sameOpen]
      exact closed

end Accept

/-! ### Runs -/

/-- The task that has been given a descriptor and has not run since. -/
def Control.ready : Control → Option TaskPtr
  | .task p .acceptRoutine => some p
  | _ => none

/-- The pool of a worker is consistent, and a task that has control runs. -/
structure Consistent (n : Nat) (w : World) : Prop where
  stored : Stored n w.server
  holding : Holding w.server w.control.ready
  running : ∀ p resumer, w.control = .task p resumer → p ∈ w.server.runTask

theorem ready_control (resumer : Resumer) : resumer.control.ready = none := by
  cases resumer with
  | eventLoop => rfl
  | acceptRoutine => rfl

/-- Only the task that has control can be the one with a new descriptor. -/
theorem ready_task_eq (p : TaskPtr) (resumer : Resumer) :
    ∀ q, (Control.task p resumer).ready = some q → q = p := by
  intro q isReady
  cases resumer with
  | eventLoop => cases isReady
  | acceptRoutine =>
      cases isReady
      rfl

theorem consistent_iterate (n : Nat) (small : n < 2 ^ 16) (maxCoroutineCount : UInt16)
    {k : Nat} (early : k ≤ n) :
    Stored n (createCocgiTask^[k] (.fresh maxCoroutineCount)) ∧
      Holding (createCocgiTask^[k] (.fresh maxCoroutineCount)) none ∧
      (createCocgiTask^[k] (.fresh maxCoroutineCount)).allocated = k ∧
      (createCocgiTask^[k] (.fresh maxCoroutineCount)).task.size = k := by
  induction k with
  | zero =>
      refine ⟨⟨?_, ?_, ?_, ?_, ?_, ?_, ?_, ?_, ?_⟩, ⟨?_, ?_, ?_, ?_, ?_, ?_⟩, rfl, rfl⟩
      all_goals simp [fresh]
  | succ k inductionHypothesis =>
      obtain ⟨stored, holding, allocated, size⟩ := inductionHypothesis (by omega)
      rw [Function.iterate_succ_apply']
      have room : (createCocgiTask^[k] (.fresh maxCoroutineCount)).allocated < max n
          (createCocgiTask^[k] (.fresh maxCoroutineCount)).maxCoroutineCount.toNat := by
        rw [allocated]
        omega
      obtain ⟨stored', size'⟩ := stored_create small stored (allocated.trans size.symm) room
      have grown : (createCocgiTask^[k] (.fresh maxCoroutineCount)).createCocgiTask.allocated =
          k + 1 := congrArg (· + 1) allocated
      exact ⟨stored', holding_create stored holding, grown, size'.symm.trans grown⟩

theorem consistent_start (coroutineCount maxCoroutineCount : UInt16) :
    Consistent coroutineCount.toNat (.start coroutineCount maxCoroutineCount) := by
  obtain ⟨stored, holding, _⟩ := consistent_iterate coroutineCount.toNat
    coroutineCount.toNat_lt maxCoroutineCount (Nat.le_refl _)
  refine ⟨stored, holding, ?_⟩
  intro p resumer control
  cases control

/-- Every step keeps the pool consistent. -/
theorem consistent_step {n : Nat} (small : n < 2 ^ 16) {w w' : World} (step : Step w w')
    (consistent : Consistent n w) : Consistent n w' := by
  obtain ⟨stored, holding, running⟩ := consistent
  cases step with
  | resumeAccept s =>
      refine ⟨stored, holding, ?_⟩
      intro p resumer control
      cases control
  | resumeTask s p task iFd recycle waits =>
      refine ⟨stored, holding, ?_⟩
      intro q resumer control
      cases control
      exact holding.polls p task iFd recycle waits
  | spin s s' iFd closed turn =>
      obtain ⟨stored', holding'⟩ := consistent_accept small stored holding closed
      rw [turn] at stored' holding'
      refine ⟨stored', holding', ?_⟩
      intro p resumer control
      cases control
  | poll s s' iFd closed turn =>
      obtain ⟨stored', holding'⟩ := consistent_accept small stored holding closed
      rw [turn] at stored' holding'
      refine ⟨stored', holding', ?_⟩
      intro p resumer control
      cases control
  | accept s s' iFd p closed turn =>
      obtain ⟨stored', holding'⟩ := consistent_accept small stored holding closed
      rw [turn] at stored' holding'
      refine ⟨stored', holding', ?_⟩
      intro q resumer control
      cases control
      exact (holding'.ready_task p rfl).1
  | run s s' p resumer ret ran =>
      obtain ⟨after, ran', stored', holding'⟩ := consistent_resume small
        (ready_task_eq p resumer) (running p resumer rfl) stored holding ret
      cases ran.symm.trans ran'
      refine ⟨stored', ?_, ?_⟩
      · rw [ready_control]
        exact holding'
      · intro q other control
        cases resumer with
        | eventLoop => cases control
        | acceptRoutine => cases control

/-- The pool is consistent wherever the worker can come. -/
theorem consistent_of_reachable {coroutineCount maxCoroutineCount : UInt16} {w : World}
    (reached : Reachable coroutineCount maxCoroutineCount w) :
    Consistent coroutineCount.toNat w := by
  induction reached with
  | refl => exact consistent_start coroutineCount maxCoroutineCount
  | tail _ step inductionHypothesis =>
      exact consistent_step coroutineCount.toNat_lt step inductionHypothesis

/-- The containers of a consistent pool agree. -/
theorem poolInvariant_of_consistent {n : Nat} {w : World} (consistent : Consistent n w) :
    PoolInvariant w.server := by
  obtain ⟨stored, holding, _⟩ := consistent
  constructor
  · exact stored.idle_nodup
  · exact stored.disjoint
  · intro p
    constructor
    · rintro ⟨id, found⟩
      exact ((stored.stored id p).mp found).1
    · intro held
      exact ⟨_, (stored.stored _ p).mpr ⟨held, rfl⟩⟩
  · intro id p found
    exact ((stored.stored id p).mp found).2.symm
  · intro id id' p p' found found' same
    rw [((stored.stored id p).mp found).2, same, ← ((stored.stored id' p').mp found').2,
      found'] at found
    exact (Option.some.inj found).symm
  · intro p idle
    exact (holding.idle_task p idle).1
  · rw [holding.opened, Finset.coe_image]
    exact holding.injective.bijOn_image

/-- At every point at which control passes, the containers of the pool agree,
every open descriptor is held by exactly one running task, and the task that
has control can run: it finds itself in the table, its coroutine has not
returned, and what it closes is open. -/
theorem pool_invariant {coroutineCount maxCoroutineCount : UInt16} {w : World}
    (reached : Reachable coroutineCount maxCoroutineCount w) :
    PoolInvariant w.server ∧
      (∀ iFd ∈ w.server.openFds,
        ∃! p, p ∈ w.server.runTask ∧ w.server.descriptor p = iFd) ∧
      ∀ p resumer, w.control = .task p resumer →
        ∀ ret, ∃ s', w.server.resume p ret = .ok s' := by
  have consistent := consistent_of_reachable reached
  have agrees := poolInvariant_of_consistent consistent
  refine ⟨agrees, ?_, ?_⟩
  · intro iFd isOpen
    obtain ⟨p, running, held⟩ := agrees.served.surjOn isOpen
    refine ⟨p, ⟨running, held⟩, ?_⟩
    rintro q ⟨runs, holds⟩
    exact agrees.served.injOn runs running (holds.trans held.symm)
  · intro p resumer control ret
    have only : ∀ q, w.control.ready = some q → q = p := by
      rw [control]
      exact ready_task_eq p resumer
    obtain ⟨s', ran, _⟩ := consistent_resume coroutineCount.toNat_lt only
      (consistent.running p resumer control) consistent.stored consistent.holding ret
    exact ⟨s', ran⟩

/-- The first connection of a worker with one task. -/
theorem first_connection_consistent :
    ∃ w, Reachable 1 50 w ∧ w.control = .task 0 .acceptRoutine ∧ PoolInvariant w.server ∧
      (∃! p, p ∈ w.server.runTask ∧ w.server.descriptor p = 5) ∧
      ∀ ret, ∃ s', w.server.resume 0 ret = .ok s' := by
  have step : Step (.start 1 50)
      ⟨(World.start 1 50).server.handOver 0 [] 5, .task 0 .acceptRoutine⟩ :=
    .accept _ _ 5 0 (by decide) rfl
  have reached := Relation.ReflTransGen.single step
  obtain ⟨agrees, served, runs⟩ := pool_invariant reached
  exact ⟨_, reached, rfl, agrees, served 5 (by decide), runs 0 .acceptRoutine rfl⟩

end Cocgi

end FastCgi
