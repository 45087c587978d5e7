/-
Module: FastCgi.Proofs.ResponseDelivery
Layer: Proofs
Purpose: Whether `doRequest` delivers its response on a non-blocking socket.
  Its write loop leaves with ERR_SOCKET_WRITE at the first failed write, EAGAIN
  included, so it delivers exactly when no write would block before the socket
  has taken the whole response.
Trusted boundary: none
Main exports: takesFirst_accepted, delivered_transmit_iff, delivers_iff
-/
import FastCgi.Proofs.OutputFraming

namespace FastCgi

open Cocgi (WriteResult Socket)

/-! ### When the socket takes enough first -/

theorem takesFirst_zero (script : List WriteResult) : TakesFirst 0 script :=
  fun _ _ _ => Nat.zero_le _

theorem takesFirst_nil (size : Nat) : TakesFirst size [] := by
  intro front back split
  simp at split

theorem takesFirst_accepted {size count : Nat} {script : List WriteResult} :
    TakesFirst size (.accepted count :: script) ↔ TakesFirst (size - count) script := by
  constructor
  · intro takes front back split
    have enough := takes (.accepted count :: front) back (by rw [split]; rfl)
    simp only [List.map_cons, List.sum_cons, WriteResult.count] at enough
    omega
  · intro takes front back split
    cases front with
    | nil => cases split
    | cons result front =>
        obtain ⟨rfl, rest⟩ := List.cons.inj split
        have enough := takes front back rest
        simp only [List.map_cons, List.sum_cons, WriteResult.count]
        omega

theorem not_takesFirst_blocked {size : Nat} (positive : 0 < size) (script : List WriteResult) :
    ¬ TakesFirst size (.failed Cocgi.eagain :: script) := by
  intro takes
  have none := takes [] script rfl
  simp at none
  omega

/-! ### One response -/

/-- A piece that was written belongs to the front of the response. -/
theorem delivered_wrote {ret : Option Cocgi.ErrorCode} {bytes : Bytes} {count : Nat}
    {writes : List Event} :
    Delivered ret bytes (.wrote (bytes.take count) :: writes) ↔
      Delivered ret (bytes.drop count) writes := by
  have joined : written (.wrote (bytes.take count) :: writes) = bytes ↔
      written writes = bytes.drop count := by
    rw [written_cons]
    nth_rewrite 2 [← List.take_append_drop count bytes]
    exact List.append_right_inj _
  simp only [Delivered, joined, List.mem_cons, reduceCtorEq, false_or]

theorem delivered_transmit_iff {script : List WriteResult}
    (nonblocking : ∀ result ∈ script, result.NonBlocking) (bytes : Bytes) :
    Delivered (transmit script bytes).1 bytes (transmit script bytes).2.2 ↔
      TakesFirst bytes.length script := by
  induction script, bytes using transmit_induction with
  | done script =>
      refine iff_of_true ⟨?_, ?_⟩ (takesFirst_zero script)
      · simp [transmit_done, written]
      · simp [transmit_done]
  | blocked bytes more =>
      refine iff_of_true ⟨?_, ?_⟩ (takesFirst_nil _)
      · simp [transmit_blocked more]
      · simp [transmit_blocked more]
  | failed errno script bytes more =>
      -- the loop gives up on EAGAIN as on any other error
      obtain rfl : errno = Cocgi.eagain := (List.forall_mem_cons.mp nonblocking).1
      rw [transmit_failed more]
      refine iff_of_false ?_ (not_takesFirst_blocked (List.length_pos_iff.mpr more) script)
      rintro ⟨_, gaveUp⟩
      obtain ⟨errno, other, member⟩ := gaveUp rfl
      cases List.mem_singleton.mp member
      exact other rfl
  | accepted count script bytes more rest =>
      rw [transmit_accepted more, delivered_wrote, rest (List.forall_mem_cons.mp nonblocking).2,
        takesFirst_accepted, List.length_drop]

/-- A socket that takes the whole response first lets the loop return. -/
theorem transmit_ok {script : List WriteResult}
    (nonblocking : ∀ result ∈ script, result.NonBlocking) {bytes : Bytes}
    (takes : TakesFirst bytes.length script)
    (enough : bytes.length ≤ (script.map WriteResult.count).sum) :
    (transmit script bytes).1 = some .errOk := by
  induction script, bytes using transmit_induction with
  | done script => rw [transmit_done]
  | blocked bytes more => exact absurd (List.length_eq_zero_iff.mp (by simpa using enough)) more
  | failed errno script bytes more =>
      obtain rfl : errno = Cocgi.eagain := (List.forall_mem_cons.mp nonblocking).1
      exact absurd takes (not_takesFirst_blocked (List.length_pos_iff.mpr more) script)
  | accepted count script bytes more rest =>
      rw [takesFirst_accepted, ← List.length_drop] at takes
      simp only [List.map_cons, List.sum_cons, WriteResult.count] at enough
      rw [transmit_accepted more]
      exact rest (List.forall_mem_cons.mp nonblocking).2 takes (by rw [List.length_drop]; omega)

/-! ### The handler -/

/-- On a non-blocking socket `doRequest` delivers its response exactly when no
write would block before the socket has taken the whole response; and then it
returns as soon as the socket has taken it. -/
theorem delivers_iff (backend : Backend) (params : ParamMap) (stdin : Buffer)
    (parses : BodyParses (variableOf params (ascii "CONTENT_TYPE")) stdin.readable)
    (socket : Socket) (nonblocking : ∀ result ∈ socket.script, result.NonBlocking) :
    ∃ ret params' stdin' script call response writes,
      Cocgi.doRequest (some backend) params stdin socket = .ok (ret, params', stdin',
        ⟨script, socket.trace ++ .called call :: .responded response :: writes⟩) ∧
      response = responseBytes (backend (calls socket.trace) call) ∧
      (Delivered ret response writes ↔ TakesFirst response.length socket.script) ∧
      (TakesFirst response.length socket.script →
        response.length ≤ (socket.script.map WriteResult.count).sum → ret = some .errOk) := by
  obtain ⟨params', stdin', call, answered, _⟩ := Cocgi.doRequest_of_parses backend parses socket
  exact ⟨_, params', stdin', _, call, _, _, answered, rfl, delivered_transmit_iff nonblocking _,
    transmit_ok nonblocking⟩

theorem empty_body_parses :
    BodyParses (variableOf ∅ (ascii "CONTENT_TYPE")) Buffer.empty.readable := by
  rw [Buffer.readable_empty]
  exact bodyParses_nil _

/-- Two partial writes without an error deliver the response. -/
theorem delivers_in_two_writes :
    ∃ ret params' stdin' script call response writes,
      Cocgi.doRequest (some fun _ _ => [104]) ∅ .empty ⟨[.accepted 5, .accepted 200], []⟩ =
        .ok (ret, params', stdin', ⟨script, .called call :: .responded response :: writes⟩) ∧
      response = responseBytes [104] ∧ ret = some .errOk ∧ written writes = response := by
  obtain ⟨ret, params', stdin', script, call, response, writes, answered, rfl, delivered, ok⟩ :=
    delivers_iff (fun _ _ => [104]) ∅ .empty empty_body_parses ⟨[.accepted 5, .accepted 200], []⟩
      (by simp [WriteResult.NonBlocking])
  have takes : TakesFirst (responseBytes [104]).length [.accepted 5, .accepted 200] :=
    takesFirst_accepted.mpr (takesFirst_accepted.mpr (takesFirst_nil _))
  have returned := ok takes (by decide)
  exact ⟨ret, params', stdin', script, call, _, writes, answered, rfl, returned,
    (delivered.mpr takes).1 (by simp [returned])⟩

/-- A write that would block after five bytes ends the request: `doRequest`
returns ERR_SOCKET_WRITE after an EAGAIN, and the rest of the response is never
offered again. -/
theorem response_given_up_on_eagain :
    ∃ params' stdin' call writes,
      Cocgi.doRequest (some fun _ _ => [104]) ∅ .empty
          ⟨[.accepted 5, .failed Cocgi.eagain, .accepted 200], []⟩ =
        .ok (some .errSocketWrite, params', stdin',
          ⟨[.accepted 200], .called call :: .responded (responseBytes [104]) :: writes⟩) ∧
      writes = [.wrote ((responseBytes [104]).take 5), .writeFailed Cocgi.eagain] ∧
      written writes ≠ responseBytes [104] := by
  obtain ⟨params', stdin', call, answered, _⟩ := Cocgi.doRequest_of_parses (fun _ _ => [104])
    empty_body_parses ⟨[.accepted 5, .failed Cocgi.eagain, .accepted 200], []⟩
  exact ⟨params', stdin', call, _, answered, rfl, by decide⟩

end FastCgi
