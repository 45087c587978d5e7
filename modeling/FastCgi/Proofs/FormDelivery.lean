/-
Module: FastCgi.Proofs.FormDelivery
Layer: Proofs
Purpose: The way of a plain form from its encoding to the query maps.  Every
  byte string survives encoding and decoding, an encoded one holds no
  separator, and so the object of a request has exactly the pairs of the form.
Trusted boundary: none
Main exports: formUrldecode_formUrlencode, formEntries_encodeForm,
  form_delivered
-/
import FastCgi.Proofs.QueryMaps

namespace FastCgi

open Library

/-! ### Names and values -/

/-- An escaped byte: two hexadecimal digits that are read back. -/
theorem charToHex_spec (c : UInt8) :
    isxdigit (toHexDigit ((c &&& 0xF0) / 16)) = true ∧
      isxdigit (toHexDigit (c &&& 0x0F)) = true ∧
      hexToChar (toHexDigit ((c &&& 0xF0) / 16)) (toHexDigit (c &&& 0x0F)) = c := by
  have all : ∀ n : Fin UInt8.size,
      isxdigit (toHexDigit ((UInt8.ofFin n &&& 0xF0) / 16)) = true ∧
        isxdigit (toHexDigit (UInt8.ofFin n &&& 0x0F)) = true ∧
        hexToChar (toHexDigit ((UInt8.ofFin n &&& 0xF0) / 16))
          (toHexDigit (UInt8.ofFin n &&& 0x0F)) = UInt8.ofFin n := by
    decide +kernel
  exact all c.toFin

theorem formUrldecode_plus (src : Bytes) :
    formUrldecode (43 :: src) = 32 :: formUrldecode src := by
  rw [formUrldecode.eq_def]
  rfl

theorem formUrldecode_plain {c : UInt8} (plus : c ≠ 43) (percent : c ≠ 37) (src : Bytes) :
    formUrldecode (c :: src) = c :: formUrldecode src := by
  rw [formUrldecode.eq_def]
  simp only [if_neg plus, if_neg percent]

theorem formUrldecode_escape {first second : UInt8} (high : isxdigit first = true)
    (low : isxdigit second = true) (src : Bytes) :
    formUrldecode (37 :: first :: second :: src) = hexToChar first second :: formUrldecode src := by
  rw [formUrldecode.eq_def]
  simp [high, low]

/-- Every byte string survives encoding and decoding. -/
theorem formUrldecode_formUrlencode (src : Bytes) : formUrldecode (formUrlencode src) = src := by
  induction src with
  | nil => rfl
  | cons c src inductionHypothesis =>
      rw [formUrlencode]
      split
      · rename_i blank
        rw [formUrldecode_plus, inductionHypothesis, blank]
      · split
        · rename_i unreserved
          have plus : c ≠ 43 := by
            rintro rfl
            exact absurd unreserved (by decide)
          have percent : c ≠ 37 := by
            rintro rfl
            exact absurd unreserved (by decide)
          rw [formUrldecode_plain plus percent, inductionHypothesis]
        · obtain ⟨high, low, read⟩ := charToHex_spec c
          simp only [charToHex, List.cons_append, List.nil_append]
          rw [formUrldecode_escape high low, read, inductionHypothesis]

theorem isUnreserved_of_isxdigit {c : UInt8} (digit : isxdigit c = true) :
    isUnreserved c = true := by
  simp only [isxdigit, isUnreserved, decide_eq_true_eq] at digit ⊢
  rcases digit with digit | ⟨above, below⟩ | ⟨above, below⟩
  · exact Or.inr (Or.inr (Or.inl digit))
  · exact Or.inl ⟨above, UInt8.le_trans below (by decide)⟩
  · exact Or.inr (Or.inl ⟨above, UInt8.le_trans below (by decide)⟩)

/-- What an encoded byte string is made of. -/
theorem mem_formUrlencode {c : UInt8} {src : Bytes} (member : c ∈ formUrlencode src) :
    isUnreserved c = true ∨ c = 43 ∨ c = 37 := by
  induction src with
  | nil => cases member
  | cons first src inductionHypothesis =>
      rw [formUrlencode] at member
      split at member
      · rcases List.mem_cons.mp member with rfl | later
        · exact Or.inr (Or.inl rfl)
        · exact inductionHypothesis later
      · split at member
        · rename_i unreserved
          rcases List.mem_cons.mp member with rfl | later
          · exact Or.inl unreserved
          · exact inductionHypothesis later
        · obtain ⟨high, low, _⟩ := charToHex_spec first
          simp only [charToHex, List.cons_append, List.nil_append, List.mem_cons] at member
          rcases member with rfl | rfl | rfl | later
          · exact Or.inr (Or.inr rfl)
          · exact Or.inl (isUnreserved_of_isxdigit high)
          · exact Or.inl (isUnreserved_of_isxdigit low)
          · exact inductionHypothesis later

/-- An encoded byte string holds no `=`. -/
theorem equals_notMem_formUrlencode (src : Bytes) : 61 ∉ formUrlencode src :=
  fun member => absurd (mem_formUrlencode member) (by decide)

/-- An encoded byte string holds no `&`. -/
theorem ampersand_notMem_formUrlencode (src : Bytes) : 38 ∉ formUrlencode src :=
  fun member => absurd (mem_formUrlencode member) (by decide)

/-! ### Forms -/

theorem decoded_encoded (pair : Bytes × Bytes) :
    FormEntry.decoded (formUrlencode pair.1, formUrlencode pair.2) = .ofPair pair := by
  simp only [FormEntry.decoded, FormEntry.ofPair, formUrldecode_formUrlencode]

/-- The entries of an encoded form are its pairs. -/
theorem formEntries_encodeForm (pairs : List (Bytes × Bytes)) :
    formEntries (encodeForm pairs) = pairs.map .ofPair := by
  -- induction on the pairs; the last one has no `&` behind it
  induction pairs with
  | nil => rfl
  | cons pair pairs inductionHypothesis =>
      cases pairs with
      | nil =>
          have whole : encodeForm [pair] =
              formUrlencode pair.1 ++ 61 :: formUrlencode pair.2 := List.intercalate_singleton
          have nameCut := dropInfix?_of_notMem (equals_notMem_formUrlencode pair.1)
            (formUrlencode pair.2)
          have last := dropInfix?_eq_none_of_notMem (ampersand_notMem_formUrlencode pair.2)
          rw [whole, formEntries_of_last nameCut last, decoded_encoded]
          rfl
      | cons pair' pairs =>
          have whole : encodeForm (pair :: pair' :: pairs) = formUrlencode pair.1 ++
              61 :: (formUrlencode pair.2 ++ 38 :: encodeForm (pair' :: pairs)) := by
            simp [encodeForm, List.intercalate_cons_cons]
          have nameCut := dropInfix?_of_notMem (equals_notMem_formUrlencode pair.1)
            (formUrlencode pair.2 ++ 38 :: encodeForm (pair' :: pairs))
          have valueCut := dropInfix?_of_notMem (ampersand_notMem_formUrlencode pair.2)
            (encodeForm (pair' :: pairs))
          rw [whole, formEntries_of_some nameCut valueCut, decoded_encoded, inductionHypothesis]
          rfl

/-- The object of a request that sends a form. -/
theorem requestCgi_of_sendsForm {params : ParamMap} {body : Bytes}
    {pairs : List (Bytes × Bytes)} (sent : SendsForm params body pairs) :
    ∃ cgi, requestCgi params body = .ok cgi ∧ cgi.formData = pairs.map .ofPair ∧
      cgi.formFiles = [] := by
  have standard : IsPlain standardType := Or.inr (by decide)
  unfold requestCgi Cgicc.construct
  rcases sent with ⟨query, rfl⟩ | ⟨query, rfl, plain⟩
  · simp only [query, parseFormInput_nil, ok_bind, parseFormInput_of_plain _ standard,
      parseCookies_eq, formEntries_encodeForm]
    exact ⟨_, rfl, rfl, rfl⟩
  · simp only [query, parseFormInput_of_plain _ plain, ok_bind, parseFormInput_nil,
      parseCookies_eq, formEntries_encodeForm]
    exact ⟨_, rfl, rfl, rfl⟩

/-- A form that is sent as the query string or as the body is delivered: the
object of the request has exactly its pairs, in order, and no files.  The query
map of cocgi gives a name its last value, and that of mucgi its first one, among
the pairs with their names in lower case. -/
theorem form_delivered {params : ParamMap} {stdin : Buffer} {pairs : List (Bytes × Bytes)}
    (sent : SendsForm params stdin.readable pairs) :
    (∃ cgi, requestCgi params stdin.readable = .ok cgi ∧
        cgi.formData = pairs.map .ofPair ∧ cgi.formFiles = []) ∧
      (∃ mucgi : BackendCall,
        (∀ backend conn call, Mucgi.HandsOver backend params stdin conn call ↔ call = mucgi) ∧
        ∀ key, mucgi.qmap[key]? =
          (pairs.map fun pair => (pair.1.map lowerCase, pair.2)).lookup key) ∧
      ∃ cocgi : BackendCall,
        (∀ backend socket call,
          Cocgi.HandsOver backend params stdin socket call ↔ call = cocgi) ∧
        ∀ key, cocgi.qmap[key]? = lastValue key pairs := by
  obtain ⟨cgi, built, elements, files⟩ := requestCgi_of_sendsForm sent
  have filePairs : cgi.filePairs = [] := by rw [Cgicc.filePairs, files, List.map_nil]
  have first : Mucgi.elementPairs cgi =
      pairs.map fun pair => (pair.1.map lowerCase, pair.2) := by
    rw [Mucgi.elementPairs_eq, elements, List.map_map]
    rfl
  have last : Cocgi.elementPairs cgi = pairs := by
    rw [Cocgi.elementPairs, elements, List.map_map]
    exact List.map_id pairs
  refine ⟨⟨cgi, built, elements, files⟩, ⟨_, Mucgi.handsOver_of_cgi built, ?_⟩, _,
    Cocgi.handsOver_of_cgi built, ?_⟩
  · intro key
    rw [Mucgi.getElem?_qmap, filePairs, List.append_nil, first]
  · intro key
    rw [Cocgi.getElem?_qmap, filePairs, List.append_nil, last]

/-- The pairs of the form below: a name that occurs twice, in two cases, a value with
an ampersand, and a name with upper-case letters. -/
def mixedCaseForm : List (Bytes × Bytes) :=
  [(ascii "a", ascii "1 & 2"), (ascii "A", ascii "="), (ascii "UserName", ascii "x")]

/-- Sent as the query string, it is found under the lower-cased names in mucgi and
under its own in cocgi. -/
theorem form_delivered_in_query :
    ∃ mucgi cocgi : BackendCall,
      Mucgi.HandsOver (fun _ _ => []) (queryParams (encodeForm mixedCaseForm)) .empty []
        mucgi ∧
      Cocgi.HandsOver (fun _ _ => []) (queryParams (encodeForm mixedCaseForm)) .empty
        ⟨[], []⟩ cocgi ∧
      mucgi.qmap[ascii "a"]? = some (ascii "1 & 2") ∧ mucgi.qmap[ascii "A"]? = none ∧
      mucgi.qmap[ascii "username"]? = some (ascii "x") ∧
      mucgi.qmap[ascii "UserName"]? = none ∧
      cocgi.qmap[ascii "A"]? = some (ascii "=") ∧
      cocgi.qmap[ascii "UserName"]? = some (ascii "x") := by
  have sent : SendsForm (queryParams (encodeForm mixedCaseForm)) Buffer.empty.readable
      mixedCaseForm := Or.inl ⟨by decide +kernel, rfl⟩
  obtain ⟨_, ⟨mucgi, handed, first⟩, cocgi, handed', last⟩ := form_delivered sent
  refine ⟨mucgi, cocgi, (handed ..).mpr rfl, (handed' ..).mpr rfl, ?_⟩
  simp only [first, last]
  decide +kernel

end FastCgi
