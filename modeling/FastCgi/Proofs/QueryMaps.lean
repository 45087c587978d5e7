/-
Module: FastCgi.Proofs.QueryMaps
Layer: Proofs
Purpose: The query maps that the two servers make of one request.  Both go over
  the same elements and files, but mucgi keeps the first value of a name and
  lower-cases the names of elements, and cocgi keeps the last value and the
  names as they are.
Trusted boundary: none
Main exports: Mucgi.getElem?_qmap, Cocgi.getElem?_qmap, query_maps_agree_iff
-/
import FastCgi.Proofs.RequestHandling

namespace FastCgi

open Library

/-- In mucgi the first element or file of a name wins. -/
theorem Mucgi.getElem?_qmap (params : ParamMap) (cgi : Cgicc) (key : Bytes) :
    (callOf params cgi).qmap[key]? = (elementPairs cgi ++ cgi.filePairs).lookup key := by
  unfold callOf insertAll
  rw [← List.foldl_append, getElem?_foldl_insertIfNew, Std.ExtTreeMap.getElem?_empty,
    Option.none_or]

/-- In cocgi the last element or file of a name wins. -/
theorem Cocgi.getElem?_qmap (params : ParamMap) (cgi : Cgicc) (key : Bytes) :
    (callOf params cgi).qmap[key]? = lastValue key (elementPairs cgi ++ cgi.filePairs) := by
  unfold callOf
  rw [← assignAll_append, getElem?_assignAll, Std.ExtTreeMap.getElem?_empty, Option.or_none]

/-- The names of elements are lower-cased, letter by letter. -/
theorem Mucgi.elementPairs_eq (cgi : Cgicc) :
    elementPairs cgi =
      cgi.formData.map fun element => (element.name.map lowerCase, element.value) := by
  apply List.map_congr_left
  intro element _
  rw [toLowerCopy, List.map_congr_left fun c _ => tolower_eq_lowerCase c]

theorem elementPairs_of_lowerCase {cgi : Cgicc} (lower : LowerCaseNames cgi) :
    Mucgi.elementPairs cgi = Cocgi.elementPairs cgi := by
  rw [Mucgi.elementPairs_eq, Cocgi.elementPairs]
  apply List.map_congr_left
  intro element member
  rw [lower element member]

/-- The maps that the two servers hand over for one request.  The header maps
are equal.  The query maps are equal exactly when, for every name, the first
value among the lower-cased elements and the files is the last one among the
elements and the files; so they are if the names of the elements are in lower
case and no name has two values. -/
theorem query_maps_agree_iff {params : ParamMap} {stdin : Buffer} {cgi : Cgicc}
    (parsed : requestCgi params stdin.readable = .ok cgi) :
    ∃ mucgi cocgi : BackendCall,
      (∀ backend conn call, Mucgi.HandsOver backend params stdin conn call ↔ call = mucgi) ∧
      (∀ backend socket call, Cocgi.HandsOver backend params stdin socket call ↔ call = cocgi) ∧
      mucgi.header = cocgi.header ∧
      (∀ key, mucgi.qmap[key]? = (Mucgi.elementPairs cgi ++ cgi.filePairs).lookup key) ∧
      (∀ key, cocgi.qmap[key]? = lastValue key (Cocgi.elementPairs cgi ++ cgi.filePairs)) ∧
      (mucgi.qmap = cocgi.qmap ↔
        ∀ key, (Mucgi.elementPairs cgi ++ cgi.filePairs).lookup key =
          lastValue key (Cocgi.elementPairs cgi ++ cgi.filePairs)) ∧
      (LowerCaseNames cgi → SingleValued (Cocgi.elementPairs cgi ++ cgi.filePairs) →
        mucgi.qmap = cocgi.qmap) := by
  have agree : (Mucgi.callOf params cgi).qmap = (Cocgi.callOf params cgi).qmap ↔
      ∀ key, (Mucgi.elementPairs cgi ++ cgi.filePairs).lookup key =
        lastValue key (Cocgi.elementPairs cgi ++ cgi.filePairs) := by
    simp only [← Mucgi.getElem?_qmap params, ← Cocgi.getElem?_qmap params]
    exact ⟨fun same key => by rw [same], Std.ExtTreeMap.ext_getElem?⟩
  refine ⟨Mucgi.callOf params cgi, Cocgi.callOf params cgi, Mucgi.handsOver_of_cgi parsed,
    Cocgi.handsOver_of_cgi parsed, rfl, Mucgi.getElem?_qmap params cgi,
    Cocgi.getElem?_qmap params cgi, agree, ?_⟩
  intro lower single
  refine agree.mpr fun key => ?_
  rw [elementPairs_of_lowerCase lower]
  exact lookup_eq_lastValue single key

/-- The variables of a request with this query string. -/
def queryParams (queryString : Bytes) : ParamMap :=
  assignAll ∅ [(ascii "QUERY_STRING", queryString)]

/-- Two names in lower case give both servers the same query map. -/
theorem query_maps_agree_two_names :
    ∃ mucgi cocgi : BackendCall,
      Mucgi.HandsOver (fun _ _ => []) (queryParams (ascii "a=1&b=2")) .empty [] mucgi ∧
      Cocgi.HandsOver (fun _ _ => []) (queryParams (ascii "a=1&b=2")) .empty ⟨[], []⟩ cocgi ∧
      mucgi.header = cocgi.header ∧ mucgi.qmap = cocgi.qmap := by
  have parsed : requestCgi (queryParams (ascii "a=1&b=2")) Buffer.empty.readable = .ok {
      formData := [⟨ascii "a", ascii "1"⟩, ⟨ascii "b", ascii "2"⟩]
      formFiles := []
      cookies := [] } := by
    decide
  obtain ⟨mucgi, cocgi, first, second, header, _, _, _, qmap⟩ := query_maps_agree_iff parsed
  exact ⟨mucgi, cocgi, (first ..).mpr rfl, (second ..).mpr rfl, header,
    qmap (by decide) (by decide)⟩

/-- A name that occurs twice, and one with an upper-case letter: the two servers
present this request differently. -/
theorem query_maps_differ :
    ∃ mucgi cocgi : BackendCall,
      Mucgi.HandsOver (fun _ _ => []) (queryParams (ascii "a=1&a=2&B=3")) .empty [] mucgi ∧
      Cocgi.HandsOver (fun _ _ => []) (queryParams (ascii "a=1&a=2&B=3")) .empty ⟨[], []⟩ cocgi ∧
      mucgi.qmap[ascii "a"]? = some (ascii "1") ∧ cocgi.qmap[ascii "a"]? = some (ascii "2") ∧
      mucgi.qmap[ascii "B"]? = none ∧ cocgi.qmap[ascii "B"]? = some (ascii "3") := by
  have parsed : requestCgi (queryParams (ascii "a=1&a=2&B=3")) Buffer.empty.readable = .ok {
      formData := [⟨ascii "a", ascii "1"⟩, ⟨ascii "a", ascii "2"⟩, ⟨ascii "B", ascii "3"⟩]
      formFiles := []
      cookies := [] } := by
    decide
  refine ⟨_, _, (Mucgi.handsOver_of_cgi parsed ..).mpr rfl,
    (Cocgi.handsOver_of_cgi parsed ..).mpr rfl, ?_⟩
  simp only [Mucgi.getElem?_qmap, Cocgi.getElem?_qmap]
  decide

end FastCgi
