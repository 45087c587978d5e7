/-
Module: FastCgi.Proofs.TcpServer
Layer: Proofs
Purpose: Whatever the loops do in whatever order, every connection of the server goes
  through its life, and no assertion about it fails.
Trusted boundary: none
Main exports: Muduo.TcpServer.consistent_run
-/
import FastCgi.Proofs.TcpConnection
import FastCgi.Spec.TcpServer

namespace FastCgi

namespace Muduo

open Library (bind_eq_ok runSteps runSteps_history runSteps_cons_eq_some runSteps_append)

/-! ### One connection -/

namespace TcpConnection

variable {γ : Type} {onMessage : MessageCallback γ} {codec : γ} {reads : List Bytes}
  {c : TcpConnection γ}

theorem closed_notMem_operationsOf (pieces : List Bytes) (ended : Bool) :
    .closed ∉ operationsOf pieces ended := by
  cases ended <;> simp [operationsOf]

theorem Behind.not_closed (behind : c.Behind onMessage codec reads false) :
    .closed ∉ c.operations := by
  obtain ⟨context, calls, pieces, -, serving, -⟩ := behind
  rw [serving.operations]
  exact closed_notMem_operationsOf _ _

theorem Behind.closed_last (behind : c.Behind onMessage codec reads true) :
    ∃ before, c.operations = before ++ [.closed] ∧ .closed ∉ before := by
  obtain ⟨context, calls, pieces, -, ended⟩ := behind
  refine ⟨_, (Ended.operations ended).trans (List.append_cons _ _ _), ?_⟩
  simp [closed_notMem_operationsOf]

theorem Behind.watched (behind : c.Behind onMessage codec reads true) :
    c.channel.watched = none := by
  obtain ⟨context, calls, pieces, -, ended⟩ := behind
  rw [Ended.channel ended]
  rfl

theorem connectEstablished_make (onMessage : MessageCallback γ) (codec : γ) (socket : Socket) :
    ∃ c, (make codec socket).connectEstablished codec = .ok c ∧
      c.Behind onMessage codec [] false := by
  refine ⟨_, rfl, codec, [], [], rfl, ⟨rfl, rfl, .inl rfl, rfl⟩, rfl⟩

/-- A connection that went down can be destroyed. -/
theorem connectDestroyed_behind (behind : c.Behind onMessage codec reads true) :
    ∃ c', c.connectDestroyed = .ok c' ∧ c'.destroy = .ok () := by
  obtain ⟨context, calls, pieces, -, ended⟩ := behind
  have state : c.state = .kDisconnected := Ended.state ended
  have channel : c.channel = .deaf := Ended.channel ended
  refine ⟨{ c with channel := .fresh }, ?_, ?_⟩
  · unfold connectDestroyed
    rw [if_neg (by simp [state]), pure_bind]
    dsimp only
    rw [channel, Channel.remove_deaf, ok_bind]
    rfl
  · unfold destroy
    rw [check_true state]
    rfl

end TcpConnection

/-! ### Views -/

namespace TcpServer

variable {γ : Type} {s : TcpServer γ} {n : ConnId}

theorem view_setConn (conn : Option (LoopId × TcpConnection γ)) :
    (s.setConn n conn).view n = { s.view n with conn := conn } := by
  simp [view, setConn]

theorem view_queueInLoop {f : Functor} (holds : f.conn = n) (loop : LoopId) :
    (s.queueInLoop loop f).view n =
      { s.view n with waiting := (s.view n).waiting ++ [(loop, f)] } := by
  simp [view, queueInLoop, holds]

theorem view_listed (listed : Bool) :
    { s with connections := Function.update s.connections n listed }.view n =
      { s.view n with listed := listed } := by
  simp [view]

/-- The functor that a loop takes from its queue. -/
theorem pending_taken {loop : LoopId} {entry : LoopId × Functor}
    (found : (s.pending.find? fun entry => entry.1 == loop) = some entry) :
    ∃ before after, s.pending = before ++ entry :: after ∧
      s.pending.eraseP (fun entry => entry.1 == loop) = before ++ after := by
  obtain ⟨here, before, after, split, earlier⟩ := List.find?_eq_some_iff_append.mp found
  refine ⟨before, after, split, ?_⟩
  rw [split, List.eraseP_append_right _ (by simpa using earlier), List.eraseP_cons, here]
  rfl

/-- The functors of other connections stay. -/
theorem view_taken {loop : LoopId} {entry : LoopId × Functor}
    (found : (s.pending.find? fun entry => entry.1 == loop) = some entry) :
    ∃ before after,
      (s.view entry.2.conn).waiting = before ++ entry :: after ∧
      ∀ m, { s with pending := s.pending.eraseP fun entry => entry.1 == loop }.view m =
        if m = entry.2.conn then { s.view m with waiting := before ++ after } else s.view m := by
  obtain ⟨before, after, split, erased⟩ := pending_taken found
  refine ⟨before.filter (fun other => other.2.conn == entry.2.conn),
    after.filter (fun other => other.2.conn == entry.2.conn), ?_, fun m => ?_⟩
  · simp [view, split]
  · by_cases same : m = entry.2.conn
    · subst same
      simp [view, erased]
    · have other : ¬ entry.2.conn = m := fun h => same h.symm
      simp only [view, if_neg same]
      rw [erased, split]
      simp [other]

/-- A step that touches one connection only. -/
structure Frame (n : ConnId) (s s' : TcpServer γ) : Prop where
  numThreads : s'.numThreads = s.numThreads
  nextConnId : s'.nextConnId = s.nextConnId
  next : s'.next = s.next
  others : ∀ m, m ≠ n → s'.view m = s.view m

theorem Frame.trans {s' s'' : TcpServer γ} (first : Frame n s s') (second : Frame n s' s'') :
    Frame n s s'' where
  numThreads := second.numThreads.trans first.numThreads
  nextConnId := second.nextConnId.trans first.nextConnId
  next := second.next.trans first.next
  others m other := (second.others m other).trans (first.others m other)

theorem frame_setConn (conn : Option (LoopId × TcpConnection γ)) :
    Frame n s (s.setConn n conn) :=
  ⟨rfl, rfl, rfl, fun m other => by simp [view, setConn, other]⟩

theorem frame_queueInLoop {f : Functor} (holds : f.conn = n) (loop : LoopId) :
    Frame n s (s.queueInLoop loop f) :=
  ⟨rfl, rfl, rfl, fun m other => by simp [view, queueInLoop, holds, Ne.symm other]⟩

theorem frame_listed (listed : Bool) :
    Frame n s { s with connections := Function.update s.connections n listed } :=
  ⟨rfl, rfl, rfl, fun m other => by simp [view, other]⟩

theorem referenced_eq :
    s.referenced n = ((s.view n).listed || !(s.view n).waiting.isEmpty) := by
  rw [referenced, view]
  cases s.connections n with
  | true => simp
  | false =>
      rw [Bool.eq_iff_iff]
      simp

theorem release_kept (kept : (s.view n).listed = true ∨ (s.view n).waiting ≠ []) :
    s.release n = .ok s := by
  rw [release, if_pos]
  rw [referenced_eq]
  rcases kept with listed | waiting
  · simp [listed]
  · simp [waiting]

/-! ### Close callbacks -/

theorem closeCallbacks_none (codec : γ) (loop : LoopId) {operations : List Operation}
    (none : .closed ∉ operations) : closeCallbacks codec n loop operations s = .ok s := by
  induction operations with
  | nil => rfl
  | cons operation operations inductionHypothesis =>
      have later := inductionHypothesis fun member => none (List.mem_cons_of_mem _ member)
      cases operation with
      | closed => exact absurd List.mem_cons_self none
      | wrote data => exact later
      | shutdownWrite => exact later
      | connection up => exact later

theorem closeCallbacks_last (codec : γ) (loop : LoopId) {operations : List Operation}
    (none : .closed ∉ operations) :
    closeCallbacks codec n loop (operations ++ [.closed]) s =
      s.runInLoop codec loop baseLoop (.removeConnectionInLoop n) := by
  induction operations with
  | nil =>
      rw [List.nil_append, closeCallbacks]
      cases s.runInLoop codec loop baseLoop (.removeConnectionInLoop n) <;> rfl
  | cons operation operations inductionHypothesis =>
      have later := inductionHypothesis fun member => none (List.mem_cons_of_mem _ member)
      cases operation with
      | closed => exact absurd List.mem_cons_self none
      | wrote data => exact later
      | shutdownWrite => exact later
      | connection up => exact later

/-! ### Steps -/

section Steps

variable {onMessage : MessageCallback γ} {codec : γ} {numThreads : Nat}
  {reads reads' : ConnId → List Bytes}

/-- Every connection is at a station of its life, and those that are still to come
have left no trace. -/
structure Consistent (onMessage : MessageCallback γ) (codec : γ) (numThreads : Nat)
    (reads : ConnId → List Bytes) (s : TcpServer γ) : Prop where
  threads : s.numThreads = numThreads
  life : ∀ n, Life onMessage codec n (loopFor numThreads n) (reads n) (s.view n)
  fresh : ∀ n, s.nextConnId ≤ n → s.view n = ⟨none, false, []⟩ ∧ reads n = []
  positive : 0 < s.nextConnId
  turn : numThreads ≠ 0 → s.next = (s.nextConnId - 1) % numThreads

/-- A step that moves one connection on. -/
theorem Consistent.change (consistent : s.Consistent onMessage codec numThreads reads)
    {s' : TcpServer γ} (known : (s.view n).conn ≠ none) (frame : Frame n s s')
    (others : ∀ m, m ≠ n → reads' m = reads m)
    (life : Life onMessage codec n (loopFor numThreads n) (reads' n) (s'.view n)) :
    s'.Consistent onMessage codec numThreads reads' where
  threads := frame.numThreads.trans consistent.threads
  life m := by
    by_cases same : m = n
    · rw [same]
      exact life
    · rw [frame.others m same, others m same]
      exact consistent.life m
  fresh m later := by
    rw [frame.nextConnId] at later
    have absent := consistent.fresh m later
    by_cases same : m = n
    · rw [← same, absent.1] at known
      exact absurd rfl known
    · rw [frame.others m same, others m same]
      exact absent
  positive := by
    rw [frame.nextConnId]
    exact consistent.positive
  turn := by
    rw [frame.nextConnId, frame.next]
    exact consistent.turn

theorem connectEstablished_view {loop : LoopId} {socket : Socket}
    (viewed : s.view n = ⟨some (loop, .make codec socket), true, []⟩) :
    ∃ s', s.connectEstablished codec n = .ok s' ∧ Frame n s s' ∧ (s'.view n).listed = true ∧
      Life onMessage codec n loop [] (s'.view n) := by
  have conn : s.conns n = some (loop, .make codec socket) := congrArg View.conn viewed
  obtain ⟨c, made, behind⟩ := TcpConnection.connectEstablished_make onMessage codec socket
  refine ⟨s.setConn n (some (loop, c)), ?_, frame_setConn _, ?_⟩
  · rw [connectEstablished, conn]
    dsimp only
    rw [made]
    rfl
  · rw [view_setConn, viewed]
    exact ⟨rfl, .up [] c behind⟩

theorem removeConnectionInLoop_view {loop : LoopId} {c : TcpConnection γ} {taken : List Bytes}
    (behind : c.Behind onMessage codec taken true)
    (viewed : s.view n = ⟨some (loop, c), true, []⟩) :
    ∃ s', s.removeConnectionInLoop n = .ok s' ∧ Frame n s s' ∧ (s'.view n).waiting ≠ [] ∧
      Life onMessage codec n loop taken (s'.view n) := by
  have conn : s.conns n = some (loop, c) := congrArg View.conn viewed
  have listed : s.connections n = true := congrArg View.listed viewed
  have holds : (Functor.connectDestroyed n).conn = n := rfl
  refine ⟨{ s with connections := Function.update s.connections n false }.queueInLoop loop
    (.connectDestroyed n), ?_, (frame_listed false).trans (frame_queueInLoop holds _), ?_⟩
  · rw [removeConnectionInLoop, conn]
    dsimp only
    rw [check_true listed, ok_bind]
    rfl
  · rw [view_queueInLoop holds, view_listed, viewed]
    exact ⟨by simp, .removed taken c behind⟩

/-- The close callback in the thread of the loop. -/
theorem removeConnection_view {loop : LoopId} {c : TcpConnection γ} {taken : List Bytes}
    (behind : c.Behind onMessage codec taken true)
    (viewed : s.view n = ⟨some (loop, c), true, []⟩) :
    ∃ s', s.runInLoop codec loop baseLoop (.removeConnectionInLoop n) = .ok s' ∧ Frame n s s' ∧
      (s'.view n).waiting ≠ [] ∧ Life onMessage codec n loop taken (s'.view n) := by
  unfold runInLoop
  by_cases base : loop = baseLoop
  · rw [if_pos base, callFunctor]
    exact removeConnectionInLoop_view behind viewed
  · have holds : (Functor.removeConnectionInLoop n).conn = n := rfl
    rw [if_neg base]
    refine ⟨_, rfl, frame_queueInLoop holds _, ?_⟩
    rw [view_queueInLoop holds, viewed]
    exact ⟨by simp, .down taken c behind⟩

theorem handleChannel_view {loop : LoopId} {c : TcpConnection γ} {taken : List Bytes}
    (behind : c.Behind onMessage codec taken false)
    (viewed : s.view n = ⟨some (loop, c), true, []⟩) {revents : Revents} {result : ReadResult}
    (answers : ∀ data ∈ revents.given result,
      ∃ made, callsBy onMessage codec (taken ++ [data]) = .ok made)
    (quiet : revents.pollrdhup = false) (once : revents.closesTwice result = false) :
    ∃ s', s.handleChannel onMessage codec n loop c revents result = .ok s' ∧ Frame n s s' ∧
      Life onMessage codec n loop (taken ++ revents.reads result) (s'.view n) := by
  obtain ⟨c', handled, ⟨more, grown⟩, behind'⟩ :=
    TcpConnection.handleEvent_behind behind answers quiet once
  have set : (s.setConn n (some (loop, c'))).view n = ⟨some (loop, c'), true, []⟩ := by
    rw [view_setConn, viewed]
  have new : c'.operations.drop c.operations.length = more := by
    rw [← grown, List.drop_left]
  unfold handleChannel
  rw [handled, ok_bind, new]
  cases closes : revents.closes result with
  | false =>
      rw [closes] at behind'
      have quiet : .closed ∉ more := fun member => behind'.not_closed (by simp [← grown, member])
      refine ⟨s.setConn n (some (loop, c')), ?_, frame_setConn _, ?_⟩
      · rw [closeCallbacks_none codec loop quiet, ok_bind, release_kept (.inl (by rw [set]))]
      · rw [set]
        exact .up _ c' behind'
  | true =>
      rw [closes] at behind'
      obtain ⟨before, last, earlier⟩ := behind'.closed_last
      have start : c.operations <+: before := by
        have whole : c.operations <+: before ++ [.closed] := ⟨more, grown.trans last⟩
        rcases List.prefix_concat_iff.mp whole with all | part
        · exact absurd (by simp [all]) behind.not_closed
        · exact part
      obtain ⟨rest, split⟩ := start
      have tail : more = rest ++ [.closed] := by
        rw [last, ← split, List.append_assoc] at grown
        exact List.append_cancel_left grown
      have none : .closed ∉ rest := fun member => earlier (by simp [← split, member])
      obtain ⟨s', removed, frame, waiting, life⟩ := removeConnection_view behind' set
      refine ⟨s', ?_, (frame_setConn _).trans frame, life⟩
      rw [tail, closeCallbacks_last codec loop none, removed, ok_bind,
        release_kept (.inr waiting)]

theorem connectDestroyed_view {loop : LoopId} {c : TcpConnection γ} {taken : List Bytes}
    (behind : c.Behind onMessage codec taken true)
    (viewed : s.view n = ⟨some (loop, c), false, []⟩) :
    ∃ s', s.doFunctor codec (.connectDestroyed n) = .ok s' ∧ Frame n s s' ∧
      s'.view n = ⟨none, false, []⟩ := by
  have conn : s.conns n = some (loop, c) := congrArg View.conn viewed
  obtain ⟨c', done, destroyed⟩ := TcpConnection.connectDestroyed_behind behind
  have unreferenced : (s.setConn n (some (loop, c'))).referenced n = false := by
    rw [referenced_eq, view_setConn, viewed]
    rfl
  have set : (s.setConn n (some (loop, c'))).conns n = some (loop, c') := by simp [setConn]
  refine ⟨(s.setConn n (some (loop, c'))).setConn n none, ?_,
    (frame_setConn _).trans (frame_setConn _), ?_⟩
  · rw [doFunctor, callFunctor, connectDestroyed, conn]
    dsimp only
    rw [done, ok_bind, pure_bind, Functor.conn, release, if_neg (by simp [unreferenced]), set]
    dsimp only
    rw [destroyed]
    rfl
  · rw [view_setConn, view_setConn, viewed]

theorem doFunctor_kept {f : Functor} (holds : f.conn = n) {s' : TcpServer γ}
    (called : s.callFunctor codec f = .ok s')
    (kept : (s'.view n).listed = true ∨ (s'.view n).waiting ≠ []) :
    s.doFunctor codec f = .ok s' := by
  rw [doFunctor, called, ok_bind, holds, release_kept kept]

theorem eq_of_singleton_eq_append {α : Type} {x y : α} {before after : List α}
    (split : [x] = before ++ y :: after) : before = [] ∧ y = x ∧ after = [] := by
  cases before with
  | nil => simpa [eq_comm] using split
  | cons first rest => simp at split

/-- Calling the functor that waits for a connection moves it to its next station. -/
theorem doFunctor_view {f : Functor} (holds : f.conn = n) {loop here : LoopId}
    {taken : List Bytes} (life : Life onMessage codec n loop taken (s.view n))
    {before after : List (LoopId × Functor)}
    (waiting : (s.view n).waiting = before ++ (here, f) :: after)
    {s' : TcpServer γ} (erased : s'.view n = { s.view n with waiting := before ++ after }) :
    ∃ s'', s'.doFunctor codec f = .ok s'' ∧ Frame n s' s'' ∧
      Life onMessage codec n loop taken (s''.view n) := by
  generalize s.view n = viewed at life waiting erased
  cases life
  case absent => simp at waiting
  case up behind => simp at waiting
  case connecting socket =>
    obtain ⟨rfl, same, rfl⟩ := eq_of_singleton_eq_append waiting
    cases same
    obtain ⟨s'', called, frame, listed, life⟩ := connectEstablished_view erased
    exact ⟨s'', doFunctor_kept rfl called (.inl listed), frame, life⟩
  case down c behind =>
    obtain ⟨rfl, same, rfl⟩ := eq_of_singleton_eq_append waiting
    cases same
    obtain ⟨s'', called, frame, waiting, life⟩ := removeConnectionInLoop_view behind erased
    exact ⟨s'', doFunctor_kept rfl called (.inr waiting), frame, life⟩
  case removed c behind =>
    obtain ⟨rfl, same, rfl⟩ := eq_of_singleton_eq_append waiting
    cases same
    obtain ⟨s'', called, frame, viewed⟩ := connectDestroyed_view behind erased
    exact ⟨s'', called, frame, by rw [viewed]; exact .absent taken⟩

theorem getNextLoop_turn (consistent : s.Consistent onMessage codec numThreads reads) :
    ∃ next, s.getNextLoop = (loopFor numThreads s.nextConnId, { s with next := next }) ∧
      (numThreads ≠ 0 → next = s.nextConnId % numThreads) := by
  obtain rfl := consistent.threads
  unfold getNextLoop loopFor
  by_cases base : s.numThreads = 0
  · exact ⟨s.next, by rw [if_pos base, if_pos base], fun pool => absurd base pool⟩
  · have turn := consistent.turn base
    refine ⟨_, by rw [if_neg base, if_neg base, ← turn], fun _ => ?_⟩
    have below : s.next < s.numThreads := by
      rw [turn]
      exact Nat.mod_lt _ (Nat.pos_of_ne_zero base)
    have previous : s.numThreads * ((s.nextConnId - 1) / s.numThreads) + s.next + 1 =
        s.nextConnId := by
      rw [turn, Nat.div_add_mod, Nat.sub_add_cancel consistent.positive]
    rw [← previous, Nat.add_assoc, Nat.mul_add_mod]
    by_cases last : s.numThreads ≤ s.next + 1
    · have full : s.next + 1 = s.numThreads := by omega
      rw [if_pos last, full, Nat.mod_self]
    · rw [if_neg last, Nat.mod_eq_of_lt (by omega)]

theorem newConnection_consistent (consistent : s.Consistent onMessage codec numThreads reads)
    (socket : Socket) :
    ∃ s', s.newConnection codec socket = .ok s' ∧
      s'.Consistent onMessage codec numThreads reads := by
  obtain ⟨next, taken, turn⟩ := getNextLoop_turn consistent
  obtain ⟨absent, unread⟩ := consistent.fresh s.nextConnId (Nat.le_refl _)
  -- the server with the new connection, before the loop is asked to establish it
  have named : ∃ made : TcpServer γ, made = { s with
      next := next
      nextConnId := s.nextConnId + 1
      connections := Function.update s.connections s.nextConnId true
      conns := Function.update s.conns s.nextConnId
        (some (loopFor numThreads s.nextConnId, .make codec socket)) } := ⟨_, rfl⟩
  obtain ⟨made, is⟩ := named
  have viewed : made.view s.nextConnId =
      ⟨some (loopFor numThreads s.nextConnId, .make codec socket), true, []⟩ := by
    have waiting : s.pending.filter (fun entry => entry.2.conn == s.nextConnId) = [] :=
      congrArg View.waiting absent
    simp [is, view, waiting]
  have others : ∀ m, m ≠ s.nextConnId → made.view m = s.view m := fun m other => by
    simp [is, view, other]
  have moved : ∃ s', made.runInLoop codec baseLoop (loopFor numThreads s.nextConnId)
      (.connectEstablished s.nextConnId) = .ok s' ∧ Frame s.nextConnId made s' ∧
      Life onMessage codec s.nextConnId (loopFor numThreads s.nextConnId) []
        (s'.view s.nextConnId) := by
    unfold runInLoop
    by_cases base : baseLoop = loopFor numThreads s.nextConnId
    · obtain ⟨s', called, frame, -, life⟩ := connectEstablished_view viewed
      exact ⟨s', by rw [if_pos base, callFunctor, called], frame, life⟩
    · have holds : (Functor.connectEstablished s.nextConnId).conn = s.nextConnId := rfl
      refine ⟨_, if_neg base, frame_queueInLoop holds _, ?_⟩
      rw [view_queueInLoop holds, viewed]
      exact .connecting socket
  obtain ⟨s', called, frame, life⟩ := moved
  have nextConnId : s'.nextConnId = s.nextConnId + 1 := by rw [frame.nextConnId, is]
  refine ⟨s', ?_, ?_, fun m => ?_, fun m later => ?_, ?_, fun pool => ?_⟩
  · rw [newConnection, taken]
    dsimp only
    rw [is] at called
    exact called
  · rw [frame.numThreads, is, consistent.threads]
  · by_cases same : m = s.nextConnId
    · rw [same, unread]
      exact life
    · rw [frame.others m same, others m same]
      exact consistent.life m
  · rw [nextConnId] at later
    have other : m ≠ s.nextConnId := Nat.ne_of_gt later
    rw [frame.others m other, others m other]
    exact consistent.fresh m (Nat.le_of_lt later)
  · rw [nextConnId]
    exact Nat.succ_pos _
  · rw [frame.next, nextConnId, Nat.add_sub_cancel, ← turn pool, is]

/-- Only a connection that is up is watched. -/
theorem Life.of_watched {loop here : LoopId} {c : TcpConnection γ} {taken : List Bytes}
    {v : View γ} (life : Life onMessage codec n loop taken v) (conn : v.conn = some (here, c))
    (watched : c.channel.watched ≠ none) :
    here = loop ∧ v = ⟨some (loop, c), true, []⟩ ∧ c.Behind onMessage codec taken false := by
  cases life
  case absent => cases conn
  case connecting socket =>
    cases conn
    exact absurd rfl watched
  case up behind =>
    cases conn
    exact ⟨rfl, rfl, behind⟩
  case down behind =>
    cases conn
    exact absurd behind.watched watched
  case removed behind =>
    cases conn
    exact absurd behind.watched watched

/-- Only a connection that exists has a functor that waits for it. -/
theorem Life.conn_of_waiting {loop : LoopId} {taken : List Bytes} {v : View γ}
    (life : Life onMessage codec n loop taken v) (waits : v.waiting ≠ []) : v.conn ≠ none := by
  cases life
  case absent => exact absurd rfl waits
  all_goals exact nofun

theorem possible_watched {revents : Revents} {watched : Option Events}
    (possible : revents.possible watched = true) :
    watched ≠ none ∧ revents.pollrdhup = false := by
  cases watched with
  | none => cases possible
  | some events => exact ⟨nofun, by simp_all [Revents.possible]⟩

theorem event_consistent (consistent : s.Consistent onMessage codec numThreads reads) (n : ConnId)
    (revents : Revents) (result : ReadResult) :
    (∃ next, s.step onMessage codec (.event n revents result) = .ok next ∧ ∀ s', next = some s' →
      s'.Consistent onMessage codec numThreads fun m =>
        reads m ++ Action.reads m (.event n revents result)) ∨
    ∃ fault, s.step onMessage codec (.event n revents result) = .error fault ∧
      Action.Fails onMessage codec reads fault (.event n revents result) := by
  rw [step]
  cases conn : s.conns n with
  | none => exact .inl ⟨none, rfl, nofun⟩
  | some entry =>
      obtain ⟨loop, c⟩ := entry
      dsimp only
      by_cases possible : revents.possible c.channel.watched = true
      · obtain ⟨watched, quiet⟩ := possible_watched possible
        obtain ⟨rfl, viewed, behind⟩ := (consistent.life n).of_watched conn watched
        rw [if_pos possible]
        cases twice : revents.closesTwice result with
        | true =>
            refine .inr ⟨_, ?_, .inl ⟨twice, rfl⟩⟩
            rw [handleChannel, TcpConnection.handleEvent_twice behind twice]
            rfl
        | false =>
            by_cases answers : ∀ data ∈ revents.given result,
                ∃ made, callsBy onMessage codec (reads n ++ [data]) = .ok made
            · left
              obtain ⟨s', handled, frame, life⟩ :=
                handleChannel_view behind viewed answers quiet twice
              refine ⟨some s', by rw [handled]; rfl, fun _ same => ?_⟩
              cases same
              refine consistent.change (n := n) (by rw [viewed]; nofun) frame (fun m other => ?_) ?_
              · simp [Action.reads, Ne.symm other]
              · simpa only [Action.reads, if_true] using life
            · simp only [not_forall, not_exists] at answers
              obtain ⟨data, given, unanswered⟩ := answers
              cases fails : callsBy onMessage codec (reads n ++ [data]) with
              | ok made => exact absurd fails (unanswered made)
              | error fault =>
                  refine .inr ⟨fault, ?_, .inr ⟨data, given, fails⟩⟩
                  rw [handleChannel, TcpConnection.handleEvent_fault behind given fails]
                  rfl
      · exact .inl ⟨none, if_neg possible, nofun⟩

/-- A loop that has a functor calls it. -/
theorem call_consistent (consistent : s.Consistent onMessage codec numThreads reads)
    {loop : LoopId} {entry : LoopId × Functor}
    (found : (s.pending.find? fun entry => entry.1 == loop) = some entry) :
    ∃ s', s.step onMessage codec (.call loop) = .ok (some s') ∧
      s'.Consistent onMessage codec numThreads reads := by
  obtain ⟨here, f⟩ := entry
  obtain ⟨before, after, waiting, erased⟩ := view_taken found
  have own := (erased f.conn).trans (if_pos rfl)
  obtain ⟨s', called, frame, life⟩ := doFunctor_view rfl (consistent.life f.conn) waiting own
  have framed : Frame f.conn s s' :=
    ⟨frame.numThreads, frame.nextConnId, frame.next, fun m other => by
      rw [frame.others m other, erased, if_neg other]⟩
  have known : (s.view f.conn).conn ≠ none :=
    (consistent.life f.conn).conn_of_waiting (by simp [waiting])
  refine ⟨s', ?_, consistent.change known framed (fun _ _ => rfl) life⟩
  rw [step, found]
  dsimp only
  rw [called]
  rfl

/-- Whatever the loops do, every connection stays at a station of its life; a step
fails only as it is said in `Action.Fails`. -/
theorem step_consistent (consistent : s.Consistent onMessage codec numThreads reads)
    (action : Action) :
    (∃ next, s.step onMessage codec action = .ok next ∧ ∀ s', next = some s' →
      s'.Consistent onMessage codec numThreads fun n => reads n ++ action.reads n) ∨
    ∃ fault, s.step onMessage codec action = .error fault ∧
      action.Fails onMessage codec reads fault := by
  cases action with
  | accept socket =>
      left
      obtain ⟨s', made, consistent'⟩ := newConnection_consistent consistent socket
      refine ⟨some s', by rw [step, made]; rfl, fun _ same => ?_⟩
      cases same
      simpa only [Action.reads, List.append_nil] using consistent'
  | event n revents result => exact event_consistent consistent n revents result
  | call loop =>
      left
      cases found : s.pending.find? fun entry => entry.1 == loop with
      | none => exact ⟨none, by rw [step, found], nofun⟩
      | some entry =>
          obtain ⟨s', called, consistent'⟩ := call_consistent consistent found
          refine ⟨some s', called, fun _ same => ?_⟩
          cases same
          simpa only [Action.reads, List.append_nil] using consistent'

theorem consistent_start (onMessage : MessageCallback γ) (codec : γ) (numThreads : Nat) :
    (start numThreads).Consistent onMessage codec numThreads fun _ => [] where
  threads := rfl
  life _ := .absent []
  fresh _ _ := ⟨rfl, rfl⟩
  positive := Nat.one_pos
  turn _ := (Nat.zero_mod _).symm

theorem consistent_run {actions : List Action}
    (ran : runSteps (advance onMessage codec) (start numThreads) actions = some s) :
    s.Consistent onMessage codec numThreads fun n => readsOf n actions := by
  refine runSteps_history
    (P := fun taken s => Consistent onMessage codec numThreads (fun n => readsOf n taken) s)
    (fun taken s action s' consistent advanced => ?_)
    (consistent_start onMessage codec numThreads) ran
  have same : ∀ n, readsOf n (taken ++ [action]) = readsOf n taken ++ action.reads n := fun n => by
    simp [readsOf]
  simp only [same]
  rw [advance] at advanced
  rcases step_consistent consistent action with ⟨next, stepped, keeps⟩ | ⟨fault, failed, -⟩
  · rw [stepped] at advanced
    exact keeps s' advanced
  · rw [failed] at advanced
    cases advanced

/-! ### Progress -/

theorem release_pending {s' : TcpServer γ} (released : s.release n = .ok s') :
    s'.pending = s.pending := by
  rw [release] at released
  split at released
  · cases released
    rfl
  · split at released
    · cases released
      rfl
    · obtain ⟨_, -, released⟩ := bind_eq_ok.mp released
      cases released
      rfl

/-- A functor makes one call, and queues what is left to do. -/
theorem callFunctor_callsLeft {f : Functor} {s' : TcpServer γ}
    (called : s.callFunctor codec f = .ok s') :
    s'.callsLeft + 1 = s.callsLeft + Functor.calls f := by
  cases f with
  | connectEstablished n =>
      rw [callFunctor, connectEstablished] at called
      split at called
      · cases called
      · obtain ⟨_, -, called⟩ := bind_eq_ok.mp called
        cases called
        rfl
  | removeConnectionInLoop n =>
      rw [callFunctor, removeConnectionInLoop] at called
      split at called
      · cases called
      · obtain ⟨_, -, called⟩ := bind_eq_ok.mp called
        cases called
        simp [callsLeft, queueInLoop, Functor.calls]
  | connectDestroyed n =>
      rw [callFunctor, connectDestroyed] at called
      split at called
      · cases called
      · obtain ⟨_, -, called⟩ := bind_eq_ok.mp called
        cases called
        rfl

theorem call_callsLeft {loop : LoopId} {s' : TcpServer γ}
    (called : s.advance onMessage codec (.call loop) = some s') :
    s'.callsLeft + 1 = s.callsLeft := by
  rw [advance, step] at called
  cases found : s.pending.find? fun entry => entry.1 == loop with
  | none => simp [found] at called
  | some entry =>
      obtain ⟨before, after, split, erased⟩ := pending_taken found
      rw [found] at called
      dsimp only at called
      cases done : { s with pending := s.pending.eraseP fun entry => entry.1 == loop }.doFunctor
          codec entry.2 with
      | error fault =>
          rw [done] at called
          cases called
      | ok last =>
          rw [done] at called
          cases called
          rw [doFunctor] at done
          obtain ⟨middle, called, released⟩ := bind_eq_ok.mp done
          have same : s'.callsLeft = middle.callsLeft := by
            rw [callsLeft, release_pending released, callsLeft]
          have one := callFunctor_callsLeft called
          have all : s.callsLeft = callsLeft { s with pending := s.pending.eraseP fun entry =>
              entry.1 == loop } + Functor.calls entry.2 := by
            rw [callsLeft, callsLeft, erased, split]
            simp only [List.map_append, List.map_cons, List.sum_append, List.sum_cons]
            omega
          omega

theorem length_le_callsLeft : s.pending.length ≤ s.callsLeft := by
  have weights : ∀ pending : List (LoopId × Functor),
      pending.length ≤ (pending.map fun entry => Functor.calls entry.2).sum := fun pending => by
    induction pending with
    | nil => exact Nat.le_refl _
    | cons entry rest inductionHypothesis =>
        have weight : 1 ≤ Functor.calls entry.2 := by cases entry.2 <;> simp [Functor.calls]
        simp only [List.length_cons, List.map_cons, List.sum_cons]
        omega
  exact weights s.pending

theorem callsLeft_le : s.callsLeft ≤ 2 * s.pending.length := by
  have weights : ∀ pending : List (LoopId × Functor),
      (pending.map fun entry => Functor.calls entry.2).sum ≤ 2 * pending.length := fun pending => by
    induction pending with
    | nil => exact Nat.le_refl _
    | cons entry rest inductionHypothesis =>
        have weight : Functor.calls entry.2 ≤ 2 := by cases entry.2 <;> simp [Functor.calls]
        simp only [List.length_cons, List.map_cons, List.sum_cons]
        omega
  exact weights s.pending

theorem calls_callsLeft {loops : List LoopId} {s' : TcpServer γ}
    (called : runSteps (advance onMessage codec) s (loops.map .call) = some s') :
    loops.length + s'.callsLeft = s.callsLeft := by
  induction loops generalizing s with
  | nil =>
      cases called
      exact Nat.zero_add _
  | cons loop loops inductionHypothesis =>
      obtain ⟨next, stepped, called⟩ := runSteps_cons_eq_some.mp called
      have later := inductionHypothesis called
      have first := call_callsLeft stepped
      rw [List.length_cons]
      omega

/-- A loop for which a functor waits can call its next one. -/
theorem call_enabled (consistent : s.Consistent onMessage codec numThreads reads)
    {entry : LoopId × Functor} (waits : entry ∈ s.pending) :
    ∃ s', s.advance onMessage codec (.call entry.1) = some s' := by
  have some : (s.pending.find? fun other => other.1 == entry.1).isSome = true :=
    List.find?_isSome.mpr ⟨entry, waits, beq_self_eq_true entry.1⟩
  obtain ⟨next, found⟩ := Option.isSome_iff_exists.mp some
  have same : next.1 = entry.1 := by simpa using List.find?_some found
  rw [← same] at found ⊢
  obtain ⟨s', called, -⟩ := call_consistent consistent found
  exact ⟨s', by rw [advance, called]⟩

/-! ### Main results -/

/-- A callback that sends back what it reads, and is done. -/
def echo : MessageCallback Unit := fun _ data => .ok ((), [.send data, .shutdown])

/-- A socket that takes everything. -/
def ready : Socket where
  result _ := .wrote 4096
  stays_broken _ _ _ broken := broken

def readable : Revents := ⟨true, false, false, false, false, false, false⟩

/-- Two connections of two loops: the first is answered, and closed by its client,
before the second is established. -/
def twoConnections : List Action :=
  [.accept ready, .accept ready, .call 1, .event 1 readable (.data 104 [105]),
    .event 1 readable .endOfFile, .call 0, .call 2]

/-- In every state that the loops can reach, in whatever order they accept, handle
events and call functors, every connection is at a station of its life: the loops
take turns, at most one functor waits for a connection, and what it wrote, with what
waits in its output buffer, are the messages of its own callback, or a beginning of
them once a write found the other side gone. -/
theorem connections_live {actions : List Action}
    (ran : runSteps (advance onMessage codec) (start numThreads) actions = some s) (n : ConnId) :
    Life onMessage codec n (loopFor numThreads n) (readsOf n actions) (s.view n) :=
  (consistent_run ran).life n

theorem connections_live_two : ∃ s,
    runSteps (advance echo ()) (start 2) twoConnections = some s ∧
      ∀ n, Life echo () n (loopFor 2 n) (readsOf n twoConnections) (s.view n) := by
  have ran : ∃ s, runSteps (advance echo ()) (start 2) twoConnections = some s := ⟨_, rfl⟩
  obtain ⟨s, ran⟩ := ran
  exact ⟨s, ran, connections_live ran⟩

/-- A step fails only if the message callback does, or for an event that takes a
connection down twice: no other assertion of the server, its connections, channels
and pollers can fail, and no connection is used that does not exist any more. -/
theorem step_fails_as_told {actions : List Action}
    (ran : runSteps (advance onMessage codec) (start numThreads) actions = some s)
    {action : Action} {fault : Fault} (failed : s.step onMessage codec action = .error fault) :
    action.Fails onMessage codec (fun n => readsOf n actions) fault := by
  rcases step_consistent (consistent_run ran) action with
    ⟨next, stepped, -⟩ | ⟨other, stepped, fails⟩
  · rw [stepped] at failed
    cases failed
  · rw [stepped] at failed
    cases failed
    exact fails

/-- Urgent data with a hang-up, and nothing to read. -/
theorem step_fails_urgent : ∃ s fault,
    runSteps (advance echo ()) (start 2) twoConnections = some s ∧
      s.step echo () (.event 2 ⟨false, true, false, false, false, true, false⟩ .endOfFile) =
        .error fault ∧
      Action.Fails echo () (fun n => readsOf n twoConnections) fault
        (.event 2 ⟨false, true, false, false, false, true, false⟩ .endOfFile) := by
  have ran : ∃ s, runSteps (advance echo ()) (start 2) twoConnections = some s ∧
      s.step echo () (.event 2 ⟨false, true, false, false, false, true, false⟩ .endOfFile) =
        .error (.assertion "state_ == kConnected || state_ == kDisconnecting") := ⟨_, rfl, rfl⟩
  obtain ⟨s, ran, failed⟩ := ran
  exact ⟨s, _, ran, failed, step_fails_as_told ran failed⟩

/-- Whatever order the loops call their functors in, every loop for which one waits
can call it, they come to an end within two calls for each that waits now, and leave
no connection behind that is not up. -/
theorem functors_settle {actions : List Action}
    (ran : runSteps (advance onMessage codec) (start numThreads) actions = some s)
    {loops : List LoopId} {s' : TcpServer γ}
    (called : runSteps (advance onMessage codec) s (loops.map .call) = some s') :
    loops.length + s'.pending.length ≤ 2 * s.pending.length ∧
      (∀ entry ∈ s'.pending, ∃ s'', s'.advance onMessage codec (.call entry.1) = some s'') ∧
      (s'.pending = [] → ∀ n, s'.view n = ⟨none, false, []⟩ ∨
        ∃ c, s'.view n = ⟨some (loopFor numThreads n, c), true, []⟩ ∧
          c.Behind onMessage codec (readsOf n actions) false) := by
  have whole : runSteps (advance onMessage codec) (start numThreads)
      (actions ++ loops.map .call) = some s' := by
    rw [runSteps_append, ran]
    exact called
  have consistent := consistent_run whole
  have same : ∀ n, readsOf n (actions ++ loops.map .call) = readsOf n actions := fun n => by
    simp [readsOf, Action.reads]
  refine ⟨?_, fun _ waits => call_enabled consistent waits, fun none n => ?_⟩
  · have all := calls_callsLeft called
    have few := s.callsLeft_le
    have many := s'.length_le_callsLeft
    omega
  · have life := consistent.life n
    have waiting : (s'.view n).waiting = [] := by simp [view, none]
    rw [same] at life
    generalize s'.view n = v at life waiting
    generalize readsOf n actions = taken at life
    cases life
    case absent => exact .inl rfl
    case up c behind => exact .inr ⟨c, rfl, behind⟩
    all_goals cases waiting

theorem functors_settle_two : ∃ s s',
    runSteps (advance echo ()) (start 2) twoConnections = some s ∧
      runSteps (advance echo ()) s ([1].map .call) = some s' ∧ s'.pending = [] ∧
      ∀ n, s'.view n = ⟨none, false, []⟩ ∨
        ∃ c, s'.view n = ⟨some (loopFor 2 n, c), true, []⟩ ∧
          c.Behind echo () (readsOf n twoConnections) false := by
  have called : ∃ s s', runSteps (advance echo ()) (start 2) twoConnections = some s ∧
      runSteps (advance echo ()) s ([1].map .call) = some s' ∧ s'.pending = [] :=
    ⟨_, _, rfl, rfl, rfl⟩
  obtain ⟨s, s', ran, called, none⟩ := called
  exact ⟨s, s', ran, called, none, (functors_settle ran called).2.2 none⟩

end Steps

end TcpServer

end Muduo

end FastCgi
