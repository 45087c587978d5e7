/-
Module: FastCgi.Proofs.CodecReuse
Layer: Proofs
Purpose: A pooled codec of cocgi serves a new connection as a fresh one does.
  Two codecs with the same view can be told apart neither by one call of
  `readData` nor by a whole connection, and `clear` gives every codec the view
  of a fresh one, whatever its buffers look like.
Trusted boundary: none
Main exports: SeesBytes, doRequest_seesBytes, readData_agree,
  transcript_agree, readwriteLoop_eq_transcript, reused_codec_is_fresh
-/
import FastCgi.Proofs.HandlerRefinement
import FastCgi.Proofs.ServerRefinement

namespace FastCgi

namespace Cocgi

variable {σ : Type}

/-- The result of `doRequest` and what it does to the socket depend on the
bytes of the body only, not on the buffer that holds them. -/
def SeesBytes (doRequest : DoRequest σ) : Prop :=
  ∀ (params : ParamMap) (stdin₁ stdin₂ : Buffer) (world : σ),
    stdin₁.readable = stdin₂.readable →
      (doRequest params stdin₁ world).map (fun result => (result.1, result.2.2.2)) =
        (doRequest params stdin₂ world).map fun result => (result.1, result.2.2.2)

theorem doRequest_seesBytes (callBack : Option Backend) : SeesBytes (doRequest callBack) := by
  intro params stdin₁ stdin₂ socket same
  obtain ⟨stdin₁', taken₁⟩ := takePostData_view stdin₁
  obtain ⟨stdin₂', taken₂⟩ := takePostData_view stdin₂
  rw [doRequest_eq callBack params stdin₁ socket taken₁,
    doRequest_eq callBack params stdin₂ socket taken₂, same]
  cases requestCgi params stdin₂.readable with
  | error fault => rfl
  | ok cgi =>
      obtain ⟨response, responded, _⟩ :=
        respond_view (callOut callBack socket.trace (callOf params cgi)).1 .empty
      simp only [ok_bind, responded, writeLoop_view]
      rfl

/-- Two codecs that stand for the same view. -/
def Agree (c₁ c₂ : FastCgiCodec) : Prop := c₁.view = c₂.view

/-- The results of a call of `readData` on two codecs: they fault alike, or
show the same and leave codecs that agree again if the call has returned. -/
def SameReading : Except Fault (ReadData σ) → Except Fault (ReadData σ) → Prop
  | .error fault₁, .error fault₂ => fault₁ = fault₂
  | .ok read₁, .ok read₂ =>
      read₁.reading = read₂.reading ∧ (read₁.ret ≠ none → Agree read₁.codec read₂.codec)
  | _, _ => False

/-- A call of `readData` that receives nothing leaves the codec alone. -/
theorem sameReading_idle {c₁ c₂ : FastCgiCodec} (agree : Agree c₁ c₂) (ret : ErrorCode)
    (world : σ) :
    SameReading (.ok { ret := some ret, codec := c₁, world := world, seen := [] })
      (.ok { ret := some ret, codec := c₂, world := world, seen := [] }) :=
  ⟨rfl, fun _ => agree⟩

/-- What `readData` makes of two results of `doRequest` that differ in the
codec's own map and buffer only. -/
theorem sameReading_answered {c₁ c₂ : FastCgiCodec} (agree : Agree c₁ c₂)
    {seen : List Observation}
    {result₁ result₂ : Except Fault (Option ErrorCode × ParamMap × Buffer × σ)}
    (same : result₁.map (fun result => (result.1, result.2.2.2)) =
      result₂.map fun result => (result.1, result.2.2.2)) :
    SameReading (result₁.map (answered c₁ seen)) (result₂.map (answered c₂ seen)) := by
  have keeps : c₁.keepConn = c₂.keepConn := congrArg (fun v => v.request.keepConn) agree
  cases result₁ with
  | error fault₁ =>
      cases result₂ with
      | error fault₂ => exact Except.error.inj same
      | ok result₂ => cases same
  | ok result₁ =>
      cases result₂ with
      | error fault₂ => cases same
      | ok result₂ =>
          obtain ⟨ret₁, params₁, stdin₁, world₁⟩ := result₁
          obtain ⟨ret₂, params₂, stdin₂, world₂⟩ := result₂
          obtain ⟨rfl, rfl⟩ := Prod.mk.inj (Except.ok.inj same)
          cases ret₁ with
          | none => exact ⟨rfl, fun returned => absurd rfl returned⟩
          | some ret =>
              refine ⟨?_, fun _ => ?_⟩
              · simp only [ReadData.reading, answered, keeps]
              · simp only [answered, Agree, view_clearRequest]
                rw [show c₁.view = c₂.view from agree]

/-- One call of `readData` cannot tell apart two codecs that agree. -/
theorem readData_agree {doRequest : DoRequest σ} (sees : SeesBytes doRequest)
    {c₁ c₂ : FastCgiCodec} (agree : Agree c₁ c₂) (errno : Errno) (world : σ)
    (result : ReadResult) :
    SameReading (readData doRequest errno c₁ world result)
      (readData doRequest errno c₂ world result) := by
  have same : c₁.view = c₂.view := agree
  cases result with
  | endOfFile =>
      rw [readData_endOfFile, readData_endOfFile]
      exact sameReading_idle agree _ world
  | failed code =>
      rw [readData_failed, readData_failed]
      exact sameReading_idle agree _ world
  | received data =>
      by_cases got : (c₂.view.receive data).request.gotRequest = true
      · obtain ⟨c₁', received₁, read₁⟩ :=
          readData_calls doRequest errno world (c := c₁) (by rw [same]; exact got)
        obtain ⟨c₂', received₂, read₂⟩ := readData_calls doRequest errno world got
        have agree' : c₁'.view = c₂'.view := by rw [received₁, received₂, same]
        have params : c₁'.params = c₂'.params := congrArg (fun v => v.request.params) agree'
        have stdin : c₁'.stdin.readable = c₂'.stdin.readable :=
          congrArg (fun v => v.request.stdin) agree'
        rw [read₁, read₂, same, params]
        exact sameReading_answered agree' (sees _ _ _ world stdin)
      · obtain ⟨c₁', read₁, view₁⟩ :=
          readData_waits doRequest errno world (c := c₁) (by rw [same]; exact got)
        obtain ⟨c₂', read₂, view₂⟩ := readData_waits doRequest errno world got
        rw [read₁, read₂, same]
        refine ⟨rfl, fun _ => ?_⟩
        rw [Agree, view₁, view₂, same]

/-- The transcript of one turn, and of those behind it. -/
theorem transcript_cons (doRequest : DoRequest σ) (recycle : Nat) (c : FastCgiCodec) (world : σ)
    (errno : Errno) (result : ReadResult) (reads : List (Errno × ReadResult)) :
    transcript doRequest recycle c world ((errno, result) :: reads) =
      match readData doRequest errno c world result with
      | .error fault => ([], .error fault)
      | .ok read =>
          let later := match nextTurn recycle read.ret with
            | .inl recycle => transcript doRequest recycle read.codec read.world reads
            | .inr phase => ([], .ok phase)
          (read.reading :: later.1, later.2) := by
  cases called : readData doRequest errno c world result with
  | error fault =>
      rw [transcript, readwriteTurns_of_fault called]
      rfl
  | ok read =>
      rw [transcript, readwriteTurns_cons called]
      dsimp only
      cases nextTurn recycle read.ret with
      | inl next => rfl
      | inr phase => rfl

/-- A whole connection cannot tell apart two codecs that agree. -/
theorem transcript_agree {doRequest : DoRequest σ} (sees : SeesBytes doRequest) (recycle : Nat)
    {c₁ c₂ : FastCgiCodec} (agree : Agree c₁ c₂) (world : σ)
    (reads : List (Errno × ReadResult)) :
    transcript doRequest recycle c₁ world reads = transcript doRequest recycle c₂ world reads := by
  induction reads generalizing recycle c₁ c₂ world with
  | nil => rfl
  | cons head reads inductionHypothesis =>
      obtain ⟨errno, result⟩ := head
      have same := readData_agree sees agree errno world result
      rw [transcript_cons, transcript_cons]
      cases read₁ : readData doRequest errno c₁ world result with
      | error fault₁ =>
          cases read₂ : readData doRequest errno c₂ world result with
          | error fault₂ =>
              rw [read₁, read₂] at same
              rw [show fault₁ = fault₂ from same]
          | ok read₂ =>
              rw [read₁, read₂] at same
              exact same.elim
      | ok outcome₁ =>
          cases read₂ : readData doRequest errno c₂ world result with
          | error fault₂ =>
              rw [read₁, read₂] at same
              exact same.elim
          | ok outcome₂ =>
              rw [read₁, read₂] at same
              obtain ⟨shown, agreeAgain⟩ := same
              have ret : outcome₁.ret = outcome₂.ret := congrArg Reading.ret shown
              have world' : outcome₁.world = outcome₂.world := congrArg Reading.world shown
              simp only [← ret, ← world', ← shown]
              cases turn : nextTurn recycle outcome₁.ret with
              | inr phase => rfl
              | inl next =>
                  simp only [inductionHypothesis next
                    (agreeAgain (returned_of_nextTurn turn)) outcome₁.world]

/-- The transcript is that of the loop: it ends where the loop ends, with the
socket that the last call left. -/
theorem readwriteLoop_eq_transcript (doRequest : DoRequest σ) (recycle : Nat) (c : FastCgiCodec)
    (world : σ) (reads : List (Errno × ReadResult)) :
    (readwriteLoop doRequest recycle c world reads).map
        (fun serving => (serving.phase, serving.world)) =
      (transcript doRequest recycle c world reads).2.map fun phase =>
        (phase, ((transcript doRequest recycle c world reads).1.map Reading.world).getLastD
          world) := by
  rw [readwriteLoop, transcript]
  generalize readwriteTurns doRequest recycle c world reads = run
  obtain ⟨turns, stop⟩ := run
  cases stop with
  | faulted result fault => rfl
  | stands phase => simp only [Stop.phase, Except.map, List.map_map]; rfl

/-- `clear` gives every codec the view of a fresh one. -/
theorem agree_clear (c : FastCgiCodec) : Agree (clear c) .fresh := by
  rw [Agree, view_fresh]
  simp [clear, FastCgiCodec.view, FastCgiCodec.request, FastCgiCodec.clearRequest, View.fresh,
    RequestState.idle]

/-- Whatever earlier connections left in a codec, and whatever the reads and
the results of the writes are: on the next connection every call of `readData`
returns what it returns on a fresh codec, with the same hand-overs and the same
bytes on the socket, and the connection ends in the same way. -/
theorem reused_codec_is_fresh (callBack : Option Backend) (c : FastCgiCodec) (socket : Socket)
    (reads : List (Errno × ReadResult)) :
    transcript (doRequest callBack) 0 (clear c) socket reads =
        transcript (doRequest callBack) 0 .fresh socket reads ∧
      (serveConnection (doRequest callBack) c socket reads).map
          (fun serving => (serving.phase, serving.world)) =
        (readwriteLoop (doRequest callBack) 0 .fresh socket reads).map
          fun serving => (serving.phase, serving.world) := by
  have same := transcript_agree (doRequest_seesBytes callBack) 0 (agree_clear c) socket reads
  refine ⟨same, ?_⟩
  rw [serveConnection, readwriteLoop_eq_transcript, readwriteLoop_eq_transcript, same]

end Cocgi

end FastCgi
