/-
Module: FastCgi.Proofs.WorkerOutput
Layer: Proofs
Purpose: What a worker of the fastcgi server answers.  The backend is called
  for each request with that request's parameters and an empty string, whatever
  came before, and the STDOUT of the request is what it leaves in the string up
  to the first zero byte.
Trusted boundary: none
Main exports: requestParams, backendOutputs, acceptLoop_stdout,
  stdout_is_output_iff
-/
import FastCgi.Library.Assignments
import FastCgi.Model.FastCgiRequests
import Mathlib.Data.List.TakeWhile

namespace FastCgi

namespace CFastCgiServer

open Library (assignAll)

variable {σ : Type}

/-- The parameters of a request on their own: every key with its value in the
request's environment, or with the empty string. -/
def requestParams (getenv : Environment) : ParamMap :=
  assignAll ∅ (paramKeys.map fun strKey => (strKey, (getenv strKey).getD []))

/-- The strings the backend produces when it gets, for each request, its
parameters and an empty string.  Only `σ` goes from one request to the
next. -/
def backendOutputs (callBack : FastCgiCallback σ) : List Environment → σ → List Bytes
  | [], _ => []
  | getenv :: requests, cgiParameter =>
      let (_, cgiParameter, strOutPacket) := callBack (requestParams getenv) cgiParameter []
      strOutPacket :: backendOutputs callBack requests cgiParameter

theorem length_backendOutputs (callBack : FastCgiCallback σ) (requests : List Environment)
    (cgiParameter : σ) :
    (backendOutputs callBack requests cgiParameter).length = requests.length := by
  induction requests generalizing cgiParameter with
  | nil => rfl
  | cons getenv requests inductionHypothesis =>
      rw [backendOutputs, List.length_cons, List.length_cons, inductionHypothesis]

/-! ### Parameters -/

/-- `ParseParam` assigns the keys one after the other and leaves the string
alone. -/
theorem foldl_parseParamItem (getenv : Environment) (keys : List Bytes) (m : Members) :
    keys.foldl (Members.parseParamItem getenv) m =
      { m with
        umParam := assignAll m.umParam
          (keys.map fun strKey => (strKey, (getenv strKey).getD [])) } := by
  induction keys generalizing m with
  | nil => rfl
  | cons strKey keys inductionHypothesis =>
      rw [List.foldl_cons, inductionHypothesis]
      rfl

/-- After `clear`, nothing of an earlier request is left. -/
theorem parseParam_clear (getenv : Environment) (m : Members) :
    m.clear.parseParam getenv = ⟨[], requestParams getenv⟩ :=
  foldl_parseParamItem getenv paramKeys m.clear

/-- The backend finds the twenty-four keys, and no other. -/
theorem getElem?_requestParams (getenv : Environment) (name : Bytes) :
    (requestParams getenv)[name]? =
      if name ∈ paramKeys then some ((getenv name).getD []) else none := by
  rw [requestParams, Library.getElem?_assignAll, Std.ExtTreeMap.getElem?_empty, Option.or_none]
  split
  · rename_i member
    exact Library.lastValue_map_of_mem _ member
  · rename_i absent
    rw [Library.lastValue_eq_none_iff]
    rintro _ member rfl
    obtain ⟨strKey, key, rfl⟩ := List.mem_map.mp member
    exact absent key

/-! ### Output -/

theorem printString_cStr (text : Bytes) : printString (cStr text) = text.takeWhile (· ≠ 0) := by
  rw [printString, cStr, List.takeWhile_append]
  split
  · rename_i whole
    rw [(List.takeWhile_prefix _).eq_of_length whole]
    simp
  · rfl

theorem takeWhile_ne_zero_eq_iff (text : Bytes) :
    text.takeWhile (· ≠ 0) = text ↔ 0 ∉ text := by
  rw [List.takeWhile_eq_self_iff]
  constructor
  · intro nonzero member
    simpa using nonzero 0 member
  · intro absent byte member
    have nonzero : byte ≠ 0 := by
      rintro rfl
      exact absent member
    simpa using nonzero

/-- The loop answers each request with the C string of what the backend makes
of it. -/
theorem acceptLoop_stdout (callBack : FastCgiCallback σ) (requests : List Environment)
    (m : Members) (cgiParameter : σ) :
    (acceptLoop (some callBack) requests m cgiParameter).1 =
      (backendOutputs callBack requests cgiParameter).map (List.takeWhile (· ≠ 0)) := by
  -- the members are cleared first, so the claim is for all of them
  induction requests generalizing m cgiParameter with
  | nil => rfl
  | cons getenv requests inductionHypothesis =>
      simp only [acceptLoop, handleRequest, parseParam_clear, printString_cStr,
        inductionHypothesis, backendOutputs, List.map_cons]

/-- Every request of a worker is answered, and the answer to the `k`-th is the
`k`-th output of the backend exactly if that has no zero byte in it. -/
theorem stdout_is_output_iff (callBack : FastCgiCallback σ) (requests : List Environment)
    (m : Members) (cgiParameter : σ) :
    (acceptLoop (some callBack) requests m cgiParameter).1.length = requests.length ∧
      (backendOutputs callBack requests cgiParameter).length = requests.length ∧
      ∀ k : Nat,
        (acceptLoop (some callBack) requests m cgiParameter).1[k]? =
            (backendOutputs callBack requests cgiParameter)[k]? ↔
          ∀ strOutPacket, (backendOutputs callBack requests cgiParameter)[k]? =
            some strOutPacket → 0 ∉ strOutPacket := by
  rw [acceptLoop_stdout, List.length_map, length_backendOutputs]
  refine ⟨rfl, rfl, ?_⟩
  intro k
  rw [List.getElem?_map]
  cases (backendOutputs callBack requests cgiParameter)[k]? with
  | none => simp
  | some strOutPacket =>
      rw [Option.map_some, Option.some.injEq, takeWhile_ne_zero_eq_iff]
      constructor
      · rintro absent _ ⟨⟩
        exact absent
      · intro absent
        exact absent strOutPacket rfl

/-- A backend that answers with three bytes, the second of them zero: the
client gets the first byte only. -/
theorem zero_byte_ends_output :
    (acceptLoop (some fun umParam parameter _ => (umParam, parameter, [97, 0, 98]))
        [fun _ => none] ⟨[], ∅⟩ ()).1 = [[97]] ∧
      backendOutputs (fun umParam parameter _ => (umParam, parameter, [97, 0, 98]))
        [fun _ => none] () = [[97, 0, 98]] :=
  ⟨rfl, rfl⟩

end CFastCgiServer

end FastCgi
