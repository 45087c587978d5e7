/-
Module: FastCgi.Proofs.Teardown
Layer: Proofs
Purpose: When `RealReadwriteRoutine` closes a connection.  An end of file leaves
  `errno` as earlier calls left it, but `readData` looks at it, so the routine
  tears its connection down exactly where it should if and only if no end of
  file is read while `errno` is EAGAIN; otherwise it counts the end of file as
  one more read without data.
Trusted boundary: none
Main exports: Cocgi.Turn.returns, Cocgi.closed_iff_tearsDown,
  Cocgi.close_is_last, Cocgi.exact_teardown_iff
-/
import FastCgi.Proofs.OutputFraming
import FastCgi.Spec.Teardown

namespace FastCgi

open Library (AtEach atEach_nil atEach_cons split_of_append streak streak_concat)

namespace Cocgi

/-! ### One turn -/

section Turn

variable {backend : Backend}

/-- What a call of `readData` that received data returns. -/
theorem readData_received {errno : Errno} {c : FastCgiCodec} {socket : Socket} {data : Bytes}
    {read : ReadData Socket}
    (called : readData (doRequest (some backend)) errno c socket (.received data) = .ok read) :
    (read.ret = some .errSocketFinish ↔
        (c.view.receive data).request.ends = true ∧
          written (eventsBetween socket read.world) = built (eventsBetween socket read.world)) ∧
      (read.ret = some .errSocketFinish ∨ read.ret = none ∨ read.ret = some .errOk) := by
  rcases readData_received_cases called with
    ⟨waits, ret, _⟩ | ⟨got, params, stdin, ret, params', stdin', asked, returned⟩
  · simp [RequestState.ends, waits, ret]
  · obtain ⟨call, response, code, _, trace⟩ := doRequest_inversion asked
    have events : eventsBetween socket read.world =
        .called call :: .responded response :: (transmit socket.script response).2.2 := by
      rw [eventsBetween, trace, List.drop_left]
    have complete : written (eventsBetween socket read.world) =
        built (eventsBetween socket read.world) ↔ ret = some .errOk := by
      rw [code, transmit_errOk_iff, events]
      simp only [written_cons, built_cons, built_of_isWrite (transmit_isWrite _ _)]
      simp [Event.written, Event.built]
    rw [RequestState.ends, got, Bool.true_and, complete, returned]
    cases ret with
    | none => simp
    | some ret =>
        simp only [Option.map_some]
        split
        · rename_i finished
          simpa using finished
        · rename_i unfinished
          simpa using unfinished

variable (turn : Turn (doRequest (some backend)))

/-- What the call of a turn returns, for each outcome of its read. -/
theorem Turn.returns :
    (turn.result = .endOfFile ∧
        turn.read.ret =
          some (if turn.errno = eagain then .errSocketEagain else .errSocketRead)) ∨
      (turn.result = .failed eagain ∧ turn.read.ret = some .errSocketEagain) ∨
      (∃ errno, errno ≠ eagain ∧ turn.result = .failed errno ∧
        turn.read.ret = some .errSocketRead) ∨
      (turn.EndsResponse ∧ turn.read.ret = some .errSocketFinish) ∨
      (∃ data, turn.result = .received data ∧ ¬ turn.EndsResponse ∧
        (turn.read.ret = none ∨ turn.read.ret = some .errOk)) := by
  obtain ⟨errno, c, socket, result, read, called⟩ := turn
  cases result with
  | endOfFile =>
      cases (readData_endOfFile _ errno c socket).symm.trans called
      exact Or.inl ⟨rfl, rfl⟩
  | failed code =>
      cases (readData_failed _ errno c socket code).symm.trans called
      by_cases blocked : code = eagain
      · exact Or.inr (Or.inl ⟨congrArg ReadResult.failed blocked, congrArg some (if_pos blocked)⟩)
      · exact Or.inr (Or.inr (Or.inl ⟨code, blocked, rfl, congrArg some (if_neg blocked)⟩))
  | received data =>
      obtain ⟨finish, codes⟩ := readData_received called
      refine Or.inr (Or.inr (Or.inr ?_))
      rcases codes with finished | goesOn
      · exact Or.inl ⟨⟨data, rfl, finish.mp finished⟩, finished⟩
      · refine Or.inr ⟨data, rfl, ?_, goesOn⟩
        rintro ⟨_, ⟨⟩, ended⟩
        have finished : read.ret = some .errSocketFinish := finish.mpr ended
        rcases goesOn with blocks | returns
        · cases finished.symm.trans blocks
        · cases finished.symm.trans returns

/-- The turn does not take an old EAGAIN for one of its own. -/
def Turn.Fresh (past : List (Turn (doRequest (some backend)))) : Prop :=
  turn.result = .endOfFile → turn.errno ≠ eagain ∨ 60 ≤ streak Turn.wouldBlock past

/-- The loop closes the connection after the turns that ask for it, and
otherwise goes on with the number of EAGAINs in a row. -/
theorem closed_iff_tearsDown {past : List (Turn (doRequest (some backend)))}
    (fresh : turn.Fresh past) :
    (nextTurn (streak Turn.wouldBlock past) turn.read.ret = .inr .closed ↔
        TearsDown past turn) ∧
      ∀ recycle, nextTurn (streak Turn.wouldBlock past) turn.read.ret = .inl recycle →
        recycle = streak Turn.wouldBlock (past ++ [turn]) := by
  have counted := streak_concat Turn.wouldBlock past turn
  have stops (closed : nextTurn (streak Turn.wouldBlock past) turn.read.ret = .inr .closed)
      (down : TearsDown past turn) :
      (nextTurn (streak Turn.wouldBlock past) turn.read.ret = .inr .closed ↔
          TearsDown past turn) ∧
        ∀ recycle, nextTurn (streak Turn.wouldBlock past) turn.read.ret = .inl recycle →
          recycle = streak Turn.wouldBlock (past ++ [turn]) :=
    ⟨iff_of_true closed down, fun _ goesOn => nomatch closed.symm.trans goesOn⟩
  rcases turn.returns with
    ⟨ended, ret⟩ | ⟨blocked, ret⟩ | ⟨errno, other, failed, ret⟩ | ⟨finished, ret⟩ |
      ⟨data, received, unfinished, ret⟩
  · -- an end of file counts as an EAGAIN if `errno` is stale
    refine stops ?_ (Or.inl ended)
    rw [ret]
    rcases fresh ended with set | late
    · rw [if_neg set]
      rfl
    · split
      · exact if_pos late
      · rfl
  · rw [show turn.wouldBlock = true from decide_eq_true blocked, if_pos rfl] at counted
    have unfinished : ¬ turn.EndsResponse := by
      rintro ⟨data, received, _⟩
      cases blocked.symm.trans received
    by_cases late : 60 ≤ streak Turn.wouldBlock past
    · refine stops ?_ (Or.inr (Or.inr (Or.inr (by omega))))
      rw [ret]
      exact if_pos late
    · have goesOn : nextTurn (streak Turn.wouldBlock past) turn.read.ret =
          .inl (streak Turn.wouldBlock past + 1) := by
        rw [ret]
        exact if_neg late
      refine ⟨iff_of_false (by simp [goesOn]) ?_, ?_⟩
      · rintro (ended | ⟨errno, other, failed⟩ | finished | long)
        · cases blocked.symm.trans ended
        · cases blocked.symm.trans failed
          exact other rfl
        · exact unfinished finished
        · omega
      · intro recycle same
        cases goesOn.symm.trans same
        exact counted.symm
  · refine stops ?_ (Or.inr (Or.inl ⟨errno, other, failed⟩))
    rw [ret]
    rfl
  · refine stops ?_ (Or.inr (Or.inr (Or.inl finished)))
    rw [ret]
    rfl
  · have delivered : turn.wouldBlock = false := by simp [Turn.wouldBlock, received]
    rw [delivered, if_neg (by simp)] at counted
    simp only [TearsDown, received, unfinished, counted]
    rcases ret with ret | ret
    · simp [ret, nextTurn]
    · simp [ret, nextTurn]

/-- With an old EAGAIN in `errno`, the loop goes on after the end of file. -/
theorem goesOn_of_not_fresh {past : List (Turn (doRequest (some backend)))}
    (stale : ¬ turn.Fresh past) :
    TearsDown past turn ∧
      nextTurn (streak Turn.wouldBlock past) turn.read.ret =
        .inl (streak Turn.wouldBlock past + 1) := by
  rw [Turn.Fresh, Classical.not_imp, not_or, not_not] at stale
  obtain ⟨ended, old, early⟩ := stale
  refine ⟨Or.inl ended, ?_⟩
  rcases turn.returns with
    ⟨_, ret⟩ | ⟨blocked, _⟩ | ⟨_, _, failed, _⟩ | ⟨⟨_, received, _⟩, _⟩ | ⟨_, received, _⟩
  · rw [ret, if_pos old]
    exact if_neg early
  · cases ended.symm.trans blocked
  · cases ended.symm.trans failed
  · cases ended.symm.trans received
  · cases ended.symm.trans received

end Turn

/-! ### Turns and operations, one after the other -/

section Cons

variable {doRequest : DoRequest Socket} {recycle : Nat} {errno : Errno} {c : FastCgiCodec}
  {socket : Socket} {result : ReadResult} {reads : List (Errno × ReadResult)}

theorem turns_of_fault {fault : Fault}
    (failed : readData doRequest errno c socket result = .error fault) :
    turns doRequest recycle c socket ((errno, result) :: reads) = [] := by
  rw [turns, readwriteTurns_of_fault failed]

theorem turns_cons {read : ReadData Socket}
    (called : readData doRequest errno c socket result = .ok read) :
    turns doRequest recycle c socket ((errno, result) :: reads) =
      ⟨errno, c, socket, result, read, called⟩ ::
        match nextTurn recycle read.ret with
        | .inl recycle => turns doRequest recycle read.codec read.world reads
        | .inr _ => [] := by
  rw [turns, readwriteTurns_cons called]
  cases nextTurn recycle read.ret <;> rfl

theorem operations_of_fault {fault : Fault}
    (failed : readData doRequest errno c socket result = .error fault) :
    operations doRequest recycle c socket ((errno, result) :: reads) = [.read result] := by
  rw [operations, readwriteTurns_of_fault failed]
  rfl

theorem operations_cons {read : ReadData Socket}
    (called : readData doRequest errno c socket result = .ok read) :
    operations doRequest recycle c socket ((errno, result) :: reads) =
      readOperations socket result read ++
        match nextTurn recycle read.ret with
        | .inl recycle => operations doRequest recycle read.codec read.world reads
        | .inr phase => phase.operations := by
  rw [operations, readwriteTurns_cons called]
  cases nextTurn recycle read.ret with
  | inl next => simp only [operations, List.flatMap_cons, List.append_assoc]; rfl
  | inr phase => simp only [List.flatMap_cons, List.flatMap_nil, List.append_nil]; rfl

end Cons

theorem close_not_mem_readOperations (socket : Socket) (result : ReadResult)
    (read : ReadData Socket) : .close ∉ readOperations socket result read := by
  intro member
  rcases List.mem_cons.mp member with same | later
  · cases same
  · obtain ⟨event, _, same⟩ := List.mem_filterMap.mp later
    cases event with
    | called call => cases same
    | responded response => cases same
    | wrote data => cases same
    | writeFailed errno => cases same

/-- Whatever the loop does after a turn, it does not close the descriptor
without another read. -/
theorem operations_ne_close (doRequest : DoRequest Socket) (recycle : Nat) (c : FastCgiCodec)
    (socket : Socket) (reads : List (Errno × ReadResult)) :
    operations doRequest recycle c socket reads ≠ [.close] := by
  cases reads with
  | nil => simp [operations, readwriteTurns, Stop.operations, Phase.operations]
  | cons first reads =>
      obtain ⟨errno, result⟩ := first
      cases called : readData doRequest errno c socket result with
      | error fault => simp [operations_of_fault called]
      | ok read => simp [operations_cons called, readOperations]

theorem Phase.close_mem_iff (phase : Phase) : .close ∈ phase.operations ↔ phase = .closed := by
  cases phase with
  | polling recycle => simp [Phase.operations]
  | writing => simp [Phase.operations]
  | closed => simp [Phase.operations]

theorem Phase.close_is_last {phase : Phase} {front back : List Operation}
    (closes : phase.operations = front ++ .close :: back) : .close ∉ front ∧ back = [] := by
  have closed : phase = .closed := phase.close_mem_iff.mp (by simp [closes])
  subst closed
  cases front with
  | nil =>
      cases closes
      exact ⟨List.not_mem_nil, rfl⟩
  | cons _ front => simp [Phase.operations] at closes

/-- The descriptor is closed once at most, and not used after that. -/
theorem close_is_last {doRequest : DoRequest Socket} {recycle : Nat} {c : FastCgiCodec}
    {socket : Socket} {reads : List (Errno × ReadResult)} {front back : List Operation}
    (closes : operations doRequest recycle c socket reads = front ++ .close :: back) :
    .close ∉ front ∧ back = [] := by
  induction reads generalizing recycle c socket front with
  | nil => simp [operations, readwriteTurns, Stop.operations, Phase.operations] at closes
  | cons first reads inductionHypothesis =>
      obtain ⟨errno, result⟩ := first
      cases called : readData doRequest errno c socket result with
      | error fault =>
          rw [operations_of_fault called] at closes
          have member : Operation.close ∈ [Operation.read result] := by simp [closes]
          simp at member
      | ok read =>
          rw [operations_cons called] at closes
          have own := close_not_mem_readOperations socket result read
          obtain ⟨rest, rfl, later⟩ := split_of_append own closes
          have behind : .close ∉ rest ∧ back = [] := by
            split at later
            · exact inductionHypothesis later
            · exact Phase.close_is_last later
          exact ⟨fun member => (List.mem_append.mp member).elim own behind.1, behind.2⟩

/-! ### Runs -/

section Runs

variable {backend : Backend}

/-- `ExactTeardown` for the turns behind `past`. -/
def ExactAfter (past later : List (Turn (doRequest (some backend))))
    (operations : List Operation) : Prop :=
  AtEach (fun front turn => TearsDown (past ++ front) turn →
      operations = (front ++ [turn]).flatMap Turn.operations ++ [.close]) later ∧
    (AtEach (fun front turn => ¬ TearsDown (past ++ front) turn) later → .close ∉ operations)

/-- `FreshEndOfFile` for the turns behind `past`. -/
def FreshAfter (past later : List (Turn (doRequest (some backend)))) : Prop :=
  AtEach (fun front turn => turn.Fresh (past ++ front)) later

variable {past later : List (Turn (doRequest (some backend)))}
  {turn : Turn (doRequest (some backend))}

theorem freshAfter_cons :
    FreshAfter past (turn :: later) ↔ turn.Fresh past ∧ FreshAfter (past ++ [turn]) later := by
  simp only [FreshAfter, atEach_cons, List.append_nil, List.append_assoc, List.singleton_append]

/-- A turn after which the connection stays open. -/
theorem exactAfter_cons {operations : List Operation} (stays : ¬ TearsDown past turn) :
    ExactAfter past (turn :: later) (turn.operations ++ operations) ↔
      ExactAfter (past ++ [turn]) later operations := by
  have own : .close ∉ turn.operations := close_not_mem_readOperations _ _ _
  simp only [ExactAfter, atEach_cons, List.append_nil, List.append_assoc,
    stays, not_false_eq_true, true_and, false_imp_iff, List.cons_append, List.nil_append,
    List.flatMap_cons, List.append_cancel_left_eq, List.mem_append, own, false_or]

/-- A turn in which the loop stops without closing. -/
theorem exactAfter_open (stays : ¬ TearsDown past turn) :
    ExactAfter past [turn] (turn.operations ++ []) :=
  (exactAfter_cons stays).mpr ⟨atEach_nil, fun _ => List.not_mem_nil⟩

/-- A turn after which the connection is closed. -/
theorem exactAfter_closed (down : TearsDown past turn) :
    ExactAfter past [turn] (turn.operations ++ [.close]) := by
  have here : TearsDown (past ++ []) turn := by rwa [List.append_nil]
  refine ⟨atEach_cons.mpr ⟨fun _ => ?_, atEach_nil⟩, fun none => absurd here ?_⟩
  · simp
  · exact (atEach_cons.mp none).1

/-- The loop tears its connection down where it should exactly if every end of
file it reads is fresh. -/
theorem exactAfter_iff (past : List (Turn (doRequest (some backend)))) (c : FastCgiCodec)
    (socket : Socket) (reads : List (Errno × ReadResult)) {recycle : Nat}
    (counted : recycle = streak Turn.wouldBlock past) :
    ExactAfter past (turns (doRequest (some backend)) recycle c socket reads)
        (operations (doRequest (some backend)) recycle c socket reads) ↔
      FreshAfter past (turns (doRequest (some backend)) recycle c socket reads) := by
  induction reads generalizing past c socket recycle with
  | nil =>
      simp [turns, operations, readwriteTurns, Stop.operations, Phase.operations, ExactAfter,
        FreshAfter]
  | cons first reads inductionHypothesis =>
      obtain ⟨errno, result⟩ := first
      cases called : readData (doRequest (some backend)) errno c socket result with
      | error fault =>
          simp [turns_of_fault called, operations_of_fault called, ExactAfter, FreshAfter]
      | ok read =>
          rw [turns_cons called, operations_cons called]
          subst counted
          let turn : Turn (doRequest (some backend)) := ⟨errno, c, socket, result, read, called⟩
          by_cases fresh : turn.Fresh past
          · obtain ⟨closes, counts⟩ := closed_iff_tearsDown turn fresh
            have stays {next : Nat ⊕ Phase} (turned : nextTurn _ read.ret = next)
                (other : next ≠ .inr .closed) : ¬ TearsDown past turn :=
              fun down => other (turned.symm.trans (closes.mpr down))
            cases next : nextTurn (streak Turn.wouldBlock past) read.ret with
            | inl recycle =>
                rw [freshAfter_cons, and_iff_right fresh,
                  ← inductionHypothesis (past ++ [turn]) read.codec read.world (counts _ next)]
                exact exactAfter_cons (stays next Sum.inl_ne_inr)
            | inr phase =>
                refine iff_of_true ?_ (freshAfter_cons.mpr ⟨fresh, atEach_nil⟩)
                cases phase with
                | closed => exact exactAfter_closed (closes.mp next)
                | polling _ => exact exactAfter_open (stays next (by simp))
                | writing => exact exactAfter_open (stays next (by simp))
          · -- the turn asks for the end of the connection, but the loop goes on
            obtain ⟨down, (goesOn : nextTurn _ read.ret = _)⟩ := goesOn_of_not_fresh turn fresh
            refine iff_of_false ?_ fun allFresh => fresh (freshAfter_cons.mp allFresh).1
            intro teardown
            have ended := (atEach_cons.mp teardown.1).1 (by rwa [List.append_nil])
            rw [goesOn, List.nil_append, List.flatMap_singleton] at ended
            exact operations_ne_close _ _ _ _ _ (List.append_cancel_left ended)

end Runs

/-- A connection is torn down exactly where it should if and only if no end of
file is read with an old EAGAIN in `errno`; in any case its descriptor is closed
once at most, and not used after that. -/
theorem exact_teardown_iff (backend : Backend) (c : FastCgiCodec) (socket : Socket)
    (reads : List (Errno × ReadResult)) :
    (∀ front back,
      operations (doRequest (some backend)) 0 (clear c) socket reads = front ++ .close :: back →
        .close ∉ front ∧ back = []) ∧
      (ExactTeardown (turns (doRequest (some backend)) 0 (clear c) socket reads)
          (operations (doRequest (some backend)) 0 (clear c) socket reads) ↔
        FreshEndOfFile (turns (doRequest (some backend)) 0 (clear c) socket reads)) :=
  ⟨fun _ _ closes => close_is_last closes, exactAfter_iff [] (clear c) socket reads rfl⟩

/-- The first read finds no data, and the client closes the connection: the end
of file is read with `errno` still EAGAIN, and the descriptor stays open. -/
theorem end_of_file_counted_as_eagain :
    operations (doRequest (some letterPage)) 0 (clear .fresh) ⟨[], []⟩
        [(0, .failed eagain), (eagain, .endOfFile)] =
      [.read (.failed eagain), .read .endOfFile] ∧
      ¬ ExactTeardown
        (turns (doRequest (some letterPage)) 0 (clear .fresh) ⟨[], []⟩
          [(0, .failed eagain), (eagain, .endOfFile)])
        (operations (doRequest (some letterPage)) 0 (clear .fresh) ⟨[], []⟩
          [(0, .failed eagain), (eagain, .endOfFile)]) := by
  refine ⟨rfl, ?_⟩
  rintro ⟨closes, _⟩
  have closed := closes [⟨0, clear .fresh, ⟨[], []⟩, .failed eagain, _, rfl⟩]
    ⟨eagain, clear .fresh, ⟨[], []⟩, .endOfFile, _, rfl⟩ [] rfl (Or.inl rfl)
  exact absurd (congrArg List.length closed) (by decide)

end Cocgi

end FastCgi
