/-
Module: FastCgi.Proofs.CgiccRefinement
Layer: Proofs
Purpose: What the `Cgicc` constructor does with arbitrary strings.  No
  position that it computes lies behind the end of a string, whatever was not
  found; it throws exactly when a part of a file upload has no empty line, and
  otherwise its cookies are those of the cookie header.
Trusted boundary: none
Main exports: parseMultipart_eq, parseCookies_eq, construct_of_parses,
  construct_of_not_parses
-/
import FastCgi.Proofs.BufferView
import FastCgi.Spec.Forms

namespace FastCgi

open Library (Framing Turn runLoop runLoop_eq eq_of_dropInfix? isSome_dropInfix?_iff
  separatorFraming)

/-! ### Strings -/

/-- What `find` and the arithmetic around it give when the pattern occurs. -/
theorem find_of_some {data pattern : Bytes} {pos : Nat} {front back : Bytes}
    (inside : pos ≤ data.length) (cut : (data.drop pos).dropInfix? pattern = some (front, back)) :
    find data pattern pos = some (pos + front.length) ∧
      substr data pos (some (pos + front.length - pos)) = .ok front ∧
      data.drop (pos + front.length + pattern.length) = back ∧
      pos + front.length + pattern.length ≤ data.length := by
  have split := eq_of_dropInfix? cut
  have size := congrArg List.length split
  simp only [List.length_drop, List.length_append] at size
  refine ⟨by simp [find, inside, cut], ?_, ?_, by omega⟩
  · rw [Nat.add_sub_cancel_left, substr, if_pos inside, split, List.append_assoc, List.take_left]
  · rw [Nat.add_assoc, ← List.drop_drop, split, ← List.length_append, List.drop_left]

theorem find_of_none {data pattern : Bytes} {pos : Nat}
    (absent : (data.drop pos).dropInfix? pattern = none) : find data pattern pos = none := by
  simp [find, absent]

theorem find_beyond {data : Bytes} (pattern : Bytes) {pos : Nat} (beyond : data.length < pos) :
    find data pattern pos = none := by
  simp [find, Nat.not_le.mpr beyond]

theorem substr_rest {data : Bytes} {pos : Nat} (inside : pos ≤ data.length) :
    substr data pos none = .ok (data.drop pos) := by
  simp [substr, inside]

/-- A substring from inside the data is never out of range. -/
theorem substr_ok {data : Bytes} {pos : Nat} (inside : pos ≤ data.length) (count : Option Nat) :
    ∃ result, substr data pos count = .ok result := by
  cases count with
  | none => exact ⟨_, substr_rest inside⟩
  | some count => exact ⟨(data.drop pos).take count, by simp only [substr, if_pos inside]⟩

theorem extractBetween_ok (data separator1 separator2 : Bytes) :
    ∃ result, extractBetween data separator1 separator2 = .ok result := by
  unfold extractBetween
  cases first : (data.drop 0).dropInfix? separator1 with
  | none =>
      rw [find_of_none first]
      exact ⟨[], rfl⟩
  | some pieces =>
      obtain ⟨found, _, _, inside⟩ := find_of_some (Nat.zero_le _) first
      simp only [found]
      cases second : (data.drop (0 + pieces.1.length + separator1.length)).dropInfix?
          separator2 with
      | none =>
          rw [find_of_none second]
          exact ⟨[], rfl⟩
      | some pieces' =>
          obtain ⟨found', taken, _, _⟩ := find_of_some inside second
          simp only [found']
          exact ⟨_, taken⟩

/-! ### Letters -/

theorem tolower_eq_lowerCase (c : UInt8) : tolower c = lowerCase c := by
  have all : ∀ n : Fin UInt8.size, tolower (.ofFin n) = lowerCase (.ofFin n) := by decide +kernel
  exact all c.toFin

/-- Two bytes have one upper-case form exactly if they have one lower-case form. -/
theorem toupper_eq_toupper_iff (c c' : UInt8) :
    toupper c = toupper c' ↔ lowerCase c = lowerCase c' := by
  have all : ∀ n : Fin UInt8.size, lowerCase (toupper (.ofFin n)) = lowerCase (.ofFin n) ∧
      toupper (lowerCase (.ofFin n)) = toupper (.ofFin n) := by decide +kernel
  obtain ⟨lower, upper⟩ := all c.toFin
  obtain ⟨lower', upper'⟩ := all c'.toFin
  constructor
  · intro same
    exact lower.symm.trans ((congrArg lowerCase same).trans lower')
  · intro same
    exact upper.symm.trans ((congrArg toupper same).trans upper')

/-- Two strings are equal but for case as far as the second one goes. -/
theorem zip_all_toupper {first second : Bytes} (same : first.length = second.length) :
    (first.zip second).all (fun pair => toupper pair.1 = toupper pair.2) =
      decide (first.map lowerCase = second.map lowerCase) := by
  induction first generalizing second with
  | nil =>
      cases second with
      | nil => rfl
      | cons c second => cases same
  | cons c first inductionHypothesis =>
      cases second with
      | nil => cases same
      | cons c' second =>
          rw [List.length_cons, List.length_cons, Nat.add_right_cancel_iff] at same
          rw [List.zip_cons_cons, List.all_cons, inductionHypothesis same]
          simp [toupper_eq_toupper_iff]

/-- The comparison in closed form. -/
theorem stringsAreEqual_eq (s1 s2 : Bytes) (n : Nat) :
    stringsAreEqual s1 s2 n = decide ((n ≤ s1.length ∧ n ≤ s2.length) ∧
      (s1.take n).map lowerCase = (s2.take n).map lowerCase) := by
  unfold stringsAreEqual
  by_cases good : n ≤ s1.length ∧ n ≤ s2.length
  · simp only [good, and_self, decide_true, if_true, Bool.and_true, true_and]
    exact zip_all_toupper (by rw [List.length_take, List.length_take]; omega)
  · simp only [good, decide_false, Bool.and_false, false_and]

theorem beginsWith_length {text start : Bytes} (begins : beginsWith text start = true) :
    start.length ≤ text.length := by
  have size := congrArg List.length (of_decide_eq_true begins)
  simp only [List.length_map, List.length_take] at size
  omega

theorem stringsAreEqual_right (text start : Bytes) :
    stringsAreEqual text start start.length = beginsWith text start := by
  rw [stringsAreEqual_eq, List.take_length, beginsWith, decide_eq_decide]
  refine ⟨fun same => same.2, fun same => ⟨⟨?_, Nat.le_refl _⟩, same⟩⟩
  exact beginsWith_length (decide_eq_true same)

theorem stringsAreEqual_left (text start : Bytes) :
    stringsAreEqual start text start.length = beginsWith text start := by
  rw [stringsAreEqual_eq, List.take_length, beginsWith, decide_eq_decide]
  refine ⟨fun same => same.2.symm, fun same => ⟨⟨Nat.le_refl _, ?_⟩, same.symm⟩⟩
  exact beginsWith_length (decide_eq_true same)

/-! ### Parts of a file upload -/

/-- A part without an empty line throws. -/
theorem parseMIME_of_not_infix (cgi : Cgicc) {part : Bytes} (absent : ¬ headerEnd <:+: part) :
    cgi.parseMIME part = .error (.exception "Malformed input") := by
  have none : (part.drop 0).dropInfix? headerEnd = none := by
    rw [← Option.not_isSome_iff_eq_none, isSome_dropInfix?_iff]
    exact absent
  unfold Cgicc.parseMIME
  rw [find_of_none none]
  rfl

theorem parseHeader_ok (data : Bytes) : ∃ head, Cgicc.parseHeader data = .ok head := by
  unfold Cgicc.parseHeader
  obtain ⟨disposition, found₁⟩ :=
    extractBetween_ok data (ascii "Content-Disposition: ") (ascii ";")
  obtain ⟨name, found₂⟩ := extractBetween_ok data (ascii "name=\"") (ascii "\"")
  obtain ⟨filename, found₃⟩ := extractBetween_ok data (ascii "filename=\"") (ascii "\"")
  obtain ⟨cType, found₄⟩ := extractBetween_ok data (ascii "Content-Type: ") headerEnd
  simp only [found₁, found₂, found₃, found₄, ok_bind]
  exact ⟨_, rfl⟩

/-- A part with an empty line is stored; cookies are not touched. -/
theorem parseMIME_of_infix (cgi : Cgicc) {part : Bytes} (present : headerEnd <:+: part) :
    ∃ cgi', cgi.parseMIME part = .ok cgi' ∧ cgi'.cookies = cgi.cookies := by
  obtain ⟨pieces, cut⟩ := Option.isSome_iff_exists.mp (isSome_dropInfix?_iff.mpr present)
  obtain ⟨found, _, _, inside⟩ := find_of_some (Nat.zero_le part.length) cut
  obtain ⟨value, taken⟩ := substr_ok inside
    (if 0 + pieces.1.length + headerEnd.length + 2 ≤ part.length then
      some (part.length - (0 + pieces.1.length + headerEnd.length) - 2) else none)
  obtain ⟨front, fronted⟩ := substr_ok (Nat.zero_le part.length)
    (some (0 + pieces.1.length + headerEnd.length))
  obtain ⟨head, parsed⟩ := parseHeader_ok front
  unfold Cgicc.parseMIME
  simp only [found, taken, fronted, parsed, ok_bind]
  split
  · exact ⟨_, rfl, rfl⟩
  · exact ⟨_, rfl, rfl⟩

/-- Parts that all have an empty line are all stored. -/
theorem parseParts_of_all {parts : List Bytes} (all : ∀ part ∈ parts, headerEnd <:+: part)
    (cgi : Cgicc) :
    ∃ cgi', parts.foldlM Cgicc.parseMIME cgi = .ok cgi' ∧ cgi'.cookies = cgi.cookies := by
  induction parts generalizing cgi with
  | nil => exact ⟨cgi, rfl, rfl⟩
  | cons part parts inductionHypothesis =>
      obtain ⟨cgi₁, stored, same⟩ := parseMIME_of_infix cgi (all part (by simp))
      obtain ⟨cgi₂, storedAll, sameAll⟩ := inductionHypothesis
        (fun later member => all later (List.mem_cons_of_mem _ member)) cgi₁
      exact ⟨cgi₂, by rw [List.foldlM_cons, stored, ok_bind, storedAll], sameAll.trans same⟩

/-- The first part without an empty line throws. -/
theorem parseParts_of_not_all {parts : List Bytes}
    (missing : ¬ ∀ part ∈ parts, headerEnd <:+: part) (cgi : Cgicc) :
    parts.foldlM Cgicc.parseMIME cgi = .error (.exception "Malformed input") := by
  induction parts generalizing cgi with
  | nil => exact absurd (by simp) missing
  | cons part parts inductionHypothesis =>
      by_cases present : headerEnd <:+: part
      · obtain ⟨cgi₁, stored, _⟩ := parseMIME_of_infix cgi present
        rw [List.foldlM_cons, stored, ok_bind]
        refine inductionHypothesis (fun all => missing ?_) cgi₁
        intro later member
        rcases List.mem_cons.mp member with rfl | member
        · exact present
        · exact all later member
      · rw [List.foldlM_cons, parseMIME_of_not_infix cgi present]
        rfl

/-- The last piece is the end of the text. -/
theorem piecesOf_suffix (separator : Bytes) (nonempty : separator ≠ []) (text : Bytes) :
    (piecesOf separator nonempty text).2 <:+ text := by
  unfold piecesOf
  induction text using (separatorFraming separator nonempty).drain_induction with
  | waits text none =>
      simp only [(separatorFraming separator nonempty).drain_of_next_none none, List.suffix_rfl]
  | cuts text piece rest cut inductionHypothesis =>
      rw [(separatorFraming separator nonempty).drain_of_next_some cut]
      exact inductionHypothesis.trans ⟨piece ++ separator, (eq_of_dropInfix? cut).symm⟩

/-- What the loop over the parts means from a position: the pieces from there
on are parsed, and the position of the last one is returned. -/
def multipartMeaning (data separator : Bytes) (nonempty : separator ≠ []) (state : Nat × Cgicc) :
    Except Fault (Nat × Cgicc) := do
  let pieces := piecesOf separator nonempty (data.drop state.1)
  let cgi ← pieces.1.foldlM Cgicc.parseMIME state.2
  return (data.length - pieces.2.length, cgi)

theorem multipartLoop_eq (data separator : Bytes) (nonempty : separator ≠ []) {oldPos : Nat}
    (inside : oldPos ≤ data.length) (cgi : Cgicc) :
    runLoop .diverged (Cgicc.multipartTurn data separator) (data.length + 1) (oldPos, cgi) =
      multipartMeaning data separator nonempty (oldPos, cgi) := by
  apply runLoop_eq (fun state => state.1 ≤ data.length) (fun state => data.length - state.1)
  · rintro ⟨oldPos, cgi⟩ inside
    simp only at inside
    cases cut : (data.drop oldPos).dropInfix? separator with
    | none =>
        refine Or.inl ⟨(oldPos, cgi), ?_, ?_⟩
        · simp only [Cgicc.multipartTurn, find_of_none cut]
          rfl
        · simp only [multipartMeaning, piecesOf,
            (separatorFraming separator nonempty).drain_of_next_none cut, List.foldlM_nil,
            List.length_drop]
          rw [Nat.sub_sub_self inside]
          rfl
    | some pieces =>
        obtain ⟨front, back⟩ := pieces
        obtain ⟨found, taken, rest, within⟩ := find_of_some inside cut
        have positive := List.length_pos_iff.mpr nonempty
        have turned : Cgicc.multipartTurn data separator (oldPos, cgi) =
            (cgi.parseMIME front >>= fun cgi =>
              .ok (.again (oldPos + front.length + separator.length, cgi))) := by
          simp only [Cgicc.multipartTurn, found, taken, ok_bind]
          rfl
        have means : multipartMeaning data separator nonempty (oldPos, cgi) =
            (cgi.parseMIME front >>= fun cgi => multipartMeaning data separator nonempty
              (oldPos + front.length + separator.length, cgi)) := by
          simp only [multipartMeaning, piecesOf, rest,
            (separatorFraming separator nonempty).drain_of_next_some cut, List.foldlM_cons,
            bind_assoc]
        cases parsed : cgi.parseMIME front with
        | error fault =>
            rw [parsed] at turned means
            exact Or.inr (Or.inl ⟨fault, turned, means⟩)
        | ok cgi' =>
            rw [parsed] at turned means
            exact Or.inr (Or.inr ⟨_, turned, within, by simp only; omega, means⟩)
  · exact inside
  · simp only
    omega

/-- The boundary is cut out without a check, and yet inside the string. -/
theorem substr_boundary {contentType : Bytes} (long : 8 ≤ contentType.length) :
    substr contentType (plusPos (find contentType (ascii "boundary=") 0)
      (ascii "boundary=").length) none = .ok (boundaryOf contentType) := by
  unfold boundaryOf
  cases cut : (contentType.drop 0).dropInfix? (ascii "boundary=") with
  | none =>
      rw [find_of_none cut, List.drop_zero] at *
      rw [cut]
      exact substr_rest long
  | some pieces =>
      obtain ⟨found, _, rest, inside⟩ := find_of_some (Nat.zero_le _) cut
      rw [found, plusPos, substr_rest inside, rest]
      rw [List.drop_zero] at cut
      rw [cut]

/-- What `parseMultipart` does behind the loop: one more part, if the closing
separator is found. -/
theorem parseLast_eq (cgi : Cgicc) {data separator rest : Bytes} {oldPos : Nat}
    (inside : oldPos ≤ data.length) (suffix : data.drop oldPos = rest) :
    (match find data separator oldPos with
      | none => (pure cgi : Except Fault Cgicc)
      | some pos => do cgi.parseMIME (← substr data oldPos (some (pos - oldPos)))) =
    match rest.dropInfix? separator with
      | some (part, _) => cgi.parseMIME part
      | none => .ok cgi := by
  subst suffix
  cases cut : (data.drop oldPos).dropInfix? separator with
  | none =>
      rw [find_of_none cut]
      rfl
  | some pieces =>
      obtain ⟨found, taken, _, _⟩ := find_of_some inside cut
      simp only [found, taken, ok_bind]

/-- The parts in front of the last one, and the last one. -/
theorem foldlM_multipartParts (cgi : Cgicc) (contentType data : Bytes) :
    (multipartParts contentType data).foldlM Cgicc.parseMIME cgi = (do
      let pieces := piecesOf (sep1 (boundaryOf contentType)) (sep1_ne_nil _)
        (afterFirstSeparator (boundaryOf contentType) data)
      let cgi ← pieces.1.foldlM Cgicc.parseMIME cgi
      match pieces.2.dropInfix? (sep2 (boundaryOf contentType)) with
      | some (part, _) => cgi.parseMIME part
      | none => .ok cgi) := by
  simp only [multipartParts]
  cases cut : (piecesOf (sep1 (boundaryOf contentType)) (sep1_ne_nil _)
      (afterFirstSeparator (boundaryOf contentType) data)).2.dropInfix?
      (sep2 (boundaryOf contentType)) with
  | none => exact (bind_pure _).symm
  | some last => simp only [List.foldlM_append, List.foldlM_cons, List.foldlM_nil, bind_pure]

/-- Where the parts begin: behind the first separator, or where `npos` wraps
round to, which may lie behind the end. -/
theorem firstPosition_cases (boundary data : Bytes) :
    (plusPos (find data (sep1 boundary) 0) (sep1 boundary).length ≤ data.length ∧
        data.drop (plusPos (find data (sep1 boundary) 0) (sep1 boundary).length) =
          afterFirstSeparator boundary data) ∨
      (data.length < plusPos (find data (sep1 boundary) 0) (sep1 boundary).length ∧
        afterFirstSeparator boundary data = []) := by
  unfold afterFirstSeparator
  cases cut : data.dropInfix? (sep1 boundary) with
  | some pieces =>
      obtain ⟨found, _, rest, inside⟩ := find_of_some (Nat.zero_le data.length) cut
      rw [found]
      exact Or.inl ⟨inside, rest⟩
  | none =>
      have absent : (data.drop 0).dropInfix? (sep1 boundary) = none := cut
      rw [find_of_none absent]
      rcases Nat.lt_or_ge data.length ((sep1 boundary).length - 1) with beyond | inside
      · exact Or.inr ⟨beyond, List.drop_of_length_le (Nat.le_of_lt beyond)⟩
      · exact Or.inl ⟨inside, rfl⟩

/-- A file upload is parsed part by part. -/
theorem parseMultipart_eq (cgi : Cgicc) (data : Bytes) {contentType : Bytes}
    (long : 8 ≤ contentType.length) :
    cgi.parseMultipart data contentType =
      (multipartParts contentType data).foldlM Cgicc.parseMIME cgi := by
  rw [foldlM_multipartParts]
  unfold Cgicc.parseMultipart
  simp only [substr_boundary long, ok_bind]
  generalize boundaryOf contentType = boundary
  rcases firstPosition_cases boundary data with ⟨inside, start⟩ | ⟨beyond, empty⟩
  · rw [multipartLoop_eq data _ (sep1_ne_nil boundary) inside, multipartMeaning, start, bind_assoc]
    apply bind_congr
    intro cgi
    have suffix := piecesOf_suffix (sep1 boundary) (sep1_ne_nil boundary)
      (afterFirstSeparator boundary data)
    rw [← start] at suffix
    have last := List.suffix_iff_eq_drop.mp (suffix.trans (List.drop_suffix _ _))
    rw [start] at last
    exact parseLast_eq cgi (Nat.sub_le _ _) last.symm
  · have left : runLoop .diverged (Cgicc.multipartTurn data (sep1 boundary)) (data.length + 1)
        (plusPos (find data (sep1 boundary) 0) (sep1 boundary).length, cgi) =
        .ok (plusPos (find data (sep1 boundary) 0) (sep1 boundary).length, cgi) := by
      simp only [runLoop, Cgicc.multipartTurn, find_beyond (sep1 boundary) beyond]
      rfl
    have none : (separatorFraming (sep1 boundary) (sep1_ne_nil boundary)).drain [] = ([], []) :=
      rfl
    simp only [left, ok_bind, find_beyond (sep2 boundary) beyond, empty, piecesOf, none]
    rfl

/-! ### Plain forms -/

section FormEntries

variable {text name rest : Bytes}

theorem formEntries_of_none (absent : text.dropInfix? [61] = none) : formEntries text = [] := by
  have waits : fieldFraming.next text = none := by
    simp only [fieldFraming, Framing.seq, separatorFraming, absent]
  simp only [formEntries, fieldFraming.drain_of_next_none waits, absent]
  rfl

theorem formEntries_of_last (nameCut : text.dropInfix? [61] = some (name, rest))
    (last : rest.dropInfix? [38] = none) : formEntries text = [.decoded (name, rest)] := by
  have waits : fieldFraming.next text = none := by
    simp only [fieldFraming, Framing.seq, separatorFraming, nameCut, last, Option.map_none]
  simp only [formEntries, fieldFraming.drain_of_next_none waits, nameCut]
  rfl

theorem formEntries_of_some {value more : Bytes}
    (nameCut : text.dropInfix? [61] = some (name, rest))
    (valueCut : rest.dropInfix? [38] = some (value, more)) :
    formEntries text = .decoded (name, value) :: formEntries more := by
  have cut : fieldFraming.next text = some ((name, value), more) := by
    simp only [fieldFraming, Framing.seq, separatorFraming, nameCut, valueCut, Option.map_some]
  simp only [formEntries, fieldFraming.drain_of_next_some cut, List.cons_append, List.map_cons]

end FormEntries

/-- What the loop over the fields of a plain form means from a position. -/
def formMeaning (data : Bytes) (state : Nat × Cgicc) : Except Fault Cgicc :=
  .ok { state.2 with formData := state.2.formData ++ formEntries (data.drop state.1) }

theorem urlencodedLoop_eq (data : Bytes) {oldPos : Nat} (inside : oldPos ≤ data.length)
    (cgi : Cgicc) :
    runLoop .diverged (Cgicc.urlencodedTurn data) (data.length + 1) (oldPos, cgi) =
      formMeaning data (oldPos, cgi) := by
  apply runLoop_eq (fun state => state.1 ≤ data.length) (fun state => data.length - state.1)
  · rintro ⟨oldPos, cgi⟩ inside
    simp only at inside
    cases nameCut : (data.drop oldPos).dropInfix? [61] with
    | none =>
        refine Or.inl ⟨_, ?_, rfl⟩
        simp only [Cgicc.urlencodedTurn, findFirstOf, find_of_none nameCut,
          formEntries_of_none nameCut, List.append_nil]
        rfl
    | some namePieces =>
        obtain ⟨name, back⟩ := namePieces
        obtain ⟨found, taken, rest, within⟩ := find_of_some inside nameCut
        rw [List.length_singleton] at rest within
        cases valueCut : (data.drop (oldPos + name.length + 1)).dropInfix? [38] with
        | none =>
            refine Or.inl ⟨_, ?_, rfl⟩
            have last : back.dropInfix? [38] = none := by rw [← rest, valueCut]
            simp only [Cgicc.urlencodedTurn, findFirstOf, found, taken, find_of_none valueCut,
              minusPos, Option.map_none, substr_rest within, ok_bind, rest,
              formEntries_of_last nameCut last]
            rfl
        | some valuePieces =>
            obtain ⟨value, more⟩ := valuePieces
            obtain ⟨found', taken', rest', within'⟩ := find_of_some within valueCut
            rw [List.length_singleton] at rest' within'
            have cut : back.dropInfix? [38] = some (value, more) := by rw [← rest, valueCut]
            refine Or.inr (Or.inr ⟨(oldPos + name.length + 1 + value.length + 1,
              { cgi with formData := cgi.formData ++ [.decoded (name, value)] }), ?_, within', ?_,
              ?_⟩)
            · simp only [Cgicc.urlencodedTurn, findFirstOf, found, taken, found', minusPos,
                Option.map_some, taken', ok_bind]
              rfl
            · simp only
              omega
            · simp only [formMeaning, rest', formEntries_of_some nameCut cut, List.append_assoc,
                List.singleton_append]
  · exact inside
  · simp only
    omega

/-- The entries of a plain form are added, in order. -/
theorem parseFormInput_of_plain (cgi : Cgicc) {contentType : Bytes} (plain : IsPlain contentType)
    (data : Bytes) :
    cgi.parseFormInput data contentType =
      .ok { cgi with formData := cgi.formData ++ formEntries data } := by
  unfold IsPlain at plain
  unfold Cgicc.parseFormInput
  rw [stringsAreEqual_right, stringsAreEqual_left]
  by_cases empty : data = []
  · subst empty
    simp only [if_true, show formEntries [] = [] from rfl, List.append_nil]
    rfl
  · rw [if_neg empty, if_pos plain, urlencodedLoop_eq data (Nat.zero_le _) cgi]
    rfl

/-- Without data nothing is added, whatever its type. -/
theorem parseFormInput_nil (cgi : Cgicc) (contentType : Bytes) :
    cgi.parseFormInput [] contentType = .ok cgi := rfl

/-- A plain form, or data of an unknown type, never throws. -/
theorem parseFormInput_of_not_upload (cgi : Cgicc) {data contentType : Bytes}
    (notUpload : ¬ IsUpload contentType data) :
    ∃ cgi', cgi.parseFormInput data contentType = .ok cgi' ∧ cgi'.cookies = cgi.cookies := by
  by_cases plain : IsPlain contentType
  · exact ⟨_, parseFormInput_of_plain cgi plain data, rfl⟩
  · by_cases empty : data = []
    · subst empty
      exact ⟨cgi, parseFormInput_nil cgi contentType, rfl⟩
    · unfold IsPlain at plain
      have other : ¬ beginsWith contentType multipartType = true := by
        intro multipart
        rw [not_or, Bool.not_eq_true] at plain
        exact notUpload ⟨empty, plain.1, plain.2, multipart⟩
      unfold Cgicc.parseFormInput
      rw [stringsAreEqual_right, stringsAreEqual_left, if_neg empty, if_neg plain, if_neg other]
      exact ⟨cgi, rfl, rfl⟩

/-- A file upload is parsed part by part. -/
theorem parseFormInput_of_upload (cgi : Cgicc) {data contentType : Bytes}
    (upload : IsUpload contentType data) :
    cgi.parseFormInput data contentType =
      (multipartParts contentType data).foldlM Cgicc.parseMIME cgi := by
  obtain ⟨nonempty, typed, notStandard, multipart⟩ := upload
  have long : 8 ≤ contentType.length :=
    Nat.le_trans (by decide) (beginsWith_length multipart)
  have other : ¬ (contentType = [] ∨ beginsWith contentType standardType = true) := by
    rw [not_or, Bool.not_eq_true]
    exact ⟨typed, notStandard⟩
  unfold Cgicc.parseFormInput
  rw [stringsAreEqual_right, stringsAreEqual_left, if_neg nonempty, if_neg other,
    if_pos multipart, parseMultipart_eq cgi data long]

/-! ### Cookies -/

/-- White space in front does not reach behind a character that is none. -/
theorem takeWhile_append_stop {skip : UInt8 → Bool} {stop : UInt8} (stops : skip stop = false)
    (front back : Bytes) : (front ++ stop :: back).takeWhile skip = front.takeWhile skip := by
  induction front with
  | nil => simp [stops]
  | cons c front inductionHypothesis =>
      rw [List.cons_append, List.takeWhile_cons, List.takeWhile_cons, inductionHypothesis]

theorem drop_takeWhile_length (skip : UInt8 → Bool) (text : Bytes) :
    text.drop (text.takeWhile skip).length = text.dropWhile skip := by
  nth_rewrite 2 [← List.takeWhile_append_dropWhile (p := skip) (l := text)]
  rw [List.drop_left]

/-- A piece of the cookie header adds its cookie, if it is one. -/
theorem parseCookie_eq (cgi : Cgicc) (piece : Bytes) :
    cgi.parseCookie piece =
      .ok { cgi with cookies := cgi.cookies ++ (cookieOf piece).toList } := by
  unfold Cgicc.parseCookie
  cases cut : (piece.drop 0).dropInfix? [61] with
  | none =>
      rw [find_of_none cut]
      rw [List.drop_zero] at cut
      simp only [cookieOf, cut, Option.map_none, Option.toList_none, List.append_nil]
      rfl
  | some pieces =>
      obtain ⟨front, back⟩ := pieces
      obtain ⟨found, _, rest, inside⟩ := find_of_some (Nat.zero_le piece.length) cut
      rw [List.drop_zero] at cut
      have split := eq_of_dropInfix? cut
      rw [List.append_assoc, List.singleton_append] at split
      -- the `=` stops the count of white space
      have skipped : piece.takeWhile isspace = front.takeWhile isspace := by
        rw [split, takeWhile_append_stop rfl]
      have short : (front.takeWhile isspace).length ≤ front.length :=
        (List.takeWhile_prefix isspace).length_le
      have name : substr piece (front.takeWhile isspace).length
          (some (0 + front.length - (front.takeWhile isspace).length)) =
          .ok (front.dropWhile isspace) := by
        have bound : (front.takeWhile isspace).length ≤ piece.length := by
          rw [split, List.length_append]
          omega
        rw [substr, if_pos bound, split, List.drop_append_of_le_length short,
          drop_takeWhile_length, Nat.zero_add]
        have size : (front.dropWhile isspace).length =
            front.length - (front.takeWhile isspace).length := by
          rw [← drop_takeWhile_length, List.length_drop]
        rw [← size, List.take_left]
      have value : substr piece (0 + front.length + 1) none = .ok back :=
        (substr_rest inside).trans (congrArg Except.ok rest)
      simp only [found, skipped, name, value, ok_bind, cookieOf, cut, Option.map_some,
        Option.toList_some]
      rfl

/-- What the loop over the cookies means from a position. -/
def cookiesMeaning (data : Bytes) (state : Nat × Cgicc) : Except Fault Cgicc :=
  .ok { state.2 with cookies := state.2.cookies ++ cookieList (data.drop state.1) }

theorem cookieList_of_none {text : Bytes} (cut : text.dropInfix? [59] = none) :
    cookieList text = (cookieOf text).toList := by
  have none : (separatorFraming [59] (by simp)).drain text = ([], text) :=
    (separatorFraming [59] (by simp)).drain_of_next_none cut
  simp only [cookieList, piecesOf, none, List.nil_append]
  cases found : cookieOf text with
  | none => simp [found]
  | some cookie => simp [found]

theorem cookieList_of_some {text piece rest : Bytes}
    (cut : text.dropInfix? [59] = some (piece, rest)) :
    cookieList text = (cookieOf piece).toList ++ cookieList rest := by
  have some := (separatorFraming [59] (by simp)).drain_of_next_some cut
  simp only [cookieList, piecesOf, some, List.cons_append]
  cases found : cookieOf piece with
  | none => simp [found]
  | some cookie => simp [found]

theorem cookiesLoop_eq (data : Bytes) {oldPos : Nat} (inside : oldPos ≤ data.length)
    (cgi : Cgicc) :
    runLoop .diverged (Cgicc.cookiesTurn data) (data.length + 1) (oldPos, cgi) =
      cookiesMeaning data (oldPos, cgi) := by
  apply runLoop_eq (fun state => state.1 ≤ data.length) (fun state => data.length - state.1)
  · rintro ⟨oldPos, cgi⟩ inside
    simp only at inside
    cases cut : (data.drop oldPos).dropInfix? [59] with
    | none =>
        refine Or.inl ⟨_, ?_, rfl⟩
        simp only [Cgicc.cookiesTurn, find_of_none cut, substr_rest inside, parseCookie_eq,
          ok_bind, cookieList_of_none cut]
        rfl
    | some pieces =>
        obtain ⟨piece, back⟩ := pieces
        obtain ⟨found, taken, rest, within⟩ := find_of_some inside cut
        rw [List.length_singleton] at rest within
        refine Or.inr (Or.inr ⟨(oldPos + piece.length + 1,
          { cgi with cookies := cgi.cookies ++ (cookieOf piece).toList }), ?_, within, ?_, ?_⟩)
        · simp only [Cgicc.cookiesTurn, found, taken, parseCookie_eq, ok_bind]
          rfl
        · simp only
          omega
        · simp only [cookiesMeaning, rest, cookieList_of_some cut, List.append_assoc]
  · exact inside
  · simp only
    omega

/-- The cookies are those of the cookie header, in order. -/
theorem parseCookies_eq (cgi : Cgicc) (cookie : Bytes) :
    cgi.parseCookies cookie = .ok { cgi with cookies := cgi.cookies ++ cookieList cookie } := by
  unfold Cgicc.parseCookies
  by_cases empty : cookie = []
  · subst empty
    simp only [if_true, show cookieList [] = [] from rfl, List.append_nil]
  · rw [if_neg empty, cookiesLoop_eq cookie (Nat.zero_le _) cgi]
    rfl

/-! ### The constructor -/

/-- The query string is parsed as a plain form. -/
theorem standardType_not_upload (data : Bytes) : ¬ IsUpload standardType data := by
  rintro ⟨_, _, notStandard, _⟩
  rw [show beginsWith standardType standardType = true by decide] at notStandard
  cases notStandard

/-- When the body parses, the object is built and has the cookies of the
cookie header. -/
theorem construct_of_parses {data type : Bytes} (parses : BodyParses type data)
    (query cookie : Bytes) :
    ∃ cgi, Cgicc.construct query cookie data type = .ok cgi ∧
      cgi.cookies = cookieList cookie := by
  have body (cgi : Cgicc) :
      ∃ cgi', cgi.parseFormInput data type = .ok cgi' ∧ cgi'.cookies = cgi.cookies := by
    by_cases upload : IsUpload type data
    · rw [parseFormInput_of_upload cgi upload]
      exact parseParts_of_all (parses upload) cgi
    · exact parseFormInput_of_not_upload cgi upload
  unfold Cgicc.construct
  obtain ⟨cgi₁, parsed₁, same₁⟩ := body { formData := [], formFiles := [], cookies := [] }
  obtain ⟨cgi₂, parsed₂, same₂⟩ :=
    parseFormInput_of_not_upload cgi₁ (standardType_not_upload query)
  simp only [parsed₁, parsed₂, ok_bind, parseCookies_eq]
  exact ⟨_, rfl, by simp only [same₂, same₁, List.nil_append]⟩

/-- When it does not, the constructor throws. -/
theorem construct_of_not_parses {data type : Bytes} (malformed : ¬ BodyParses type data)
    (query cookie : Bytes) :
    Cgicc.construct query cookie data type = .error (.exception "Malformed input") := by
  obtain ⟨upload, missing⟩ := Classical.not_imp.mp malformed
  unfold Cgicc.construct
  simp only [parseFormInput_of_upload _ upload, parseParts_of_not_all missing]
  rfl

end FastCgi
