/-
Module: FastCgi.Spec.Forms
Layer: Spec
Purpose: What a `Cgicc` object reads out of a request, in terms of separators:
  the parts of a file upload, the entries of a plain form and the cookies of a
  cookie header; and how a plain form is sent.
Trusted boundary: human-reviewed spec
Main exports: lowerCase, beginsWith, boundaryOf, multipartParts, BodyParses,
  formEntries, encodeForm, cookieList
-/
import FastCgi.Library.Separators
import FastCgi.Model.Cgicc

namespace FastCgi

open Library (Framing separatorFraming)

/-- The letters of ASCII, each with its lower-case form. -/
def lowerCaseLetters : List (UInt8 × UInt8) :=
  (ascii "ABCDEFGHIJKLMNOPQRSTUVWXYZ").zip (ascii "abcdefghijklmnopqrstuvwxyz")

/-- An upper-case letter in lower case; any other byte as it is. -/
def lowerCase (c : UInt8) : UInt8 := (lowerCaseLetters.lookup c).getD c

/-- The text begins with the given one, but for case. -/
def beginsWith (text start : Bytes) : Bool :=
  (text.take start.length).map lowerCase = start.map lowerCase

/-- Cut a text at a separator as often as it occurs: the pieces that the
separator ends, and the last piece. -/
def piecesOf (separator : Bytes) (nonempty : separator ≠ []) (text : Bytes) :
    List Bytes × Bytes :=
  (separatorFraming separator nonempty).drain text

/-! ### File uploads -/

/-- What stands behind `boundary=` in a content type, or, without it, behind
the eighth character. -/
def boundaryOf (contentType : Bytes) : Bytes :=
  match contentType.dropInfix? (ascii "boundary=") with
  | some (_, boundary) => boundary
  | none => contentType.drop 8

theorem sep1_ne_nil (boundary : Bytes) : sep1 boundary ≠ [] := by simp [sep1]

/-- The body behind its first separator, or, without one, behind as many
bytes as a separator has but one. -/
def afterFirstSeparator (boundary data : Bytes) : Bytes :=
  match data.dropInfix? (sep1 boundary) with
  | some (_, rest) => rest
  | none => data.drop ((sep1 boundary).length - 1)

/-- The parts of a file upload: those that an inner separator ends, and one
more that the closing separator ends. -/
def multipartParts (contentType data : Bytes) : List Bytes :=
  let boundary := boundaryOf contentType
  let pieces := piecesOf (sep1 boundary) (sep1_ne_nil boundary) (afterFirstSeparator boundary data)
  match pieces.2.dropInfix? (sep2 boundary) with
  | some (part, _) => pieces.1 ++ [part]
  | none => pieces.1

/-- The body is a file upload: it is not empty, and its content type begins as
that of a file upload and not as that of a plain form. -/
def IsUpload (contentType data : Bytes) : Prop :=
  data ≠ [] ∧ contentType ≠ [] ∧ beginsWith contentType standardType = false ∧
    beginsWith contentType multipartType = true

/-- Every part of a file upload has an empty line behind its header. -/
def BodyParses (contentType data : Bytes) : Prop :=
  IsUpload contentType data → ∀ part ∈ multipartParts contentType data, headerEnd <:+: part

instance (contentType data : Bytes) : Decidable (IsUpload contentType data) :=
  inferInstanceAs (Decidable (_ ∧ _))

instance (contentType data : Bytes) : Decidable (BodyParses contentType data) :=
  inferInstanceAs (Decidable (_ → _))

/-- An empty body always parses. -/
theorem bodyParses_nil (contentType : Bytes) : BodyParses contentType [] :=
  fun upload => absurd rfl upload.1

/-! ### Plain forms -/

/-- A field of a plain form: what stands in front of the first `=`, and what
stands behind it, up to the next `&`. -/
def fieldFraming : Framing UInt8 (Bytes × Bytes) :=
  (separatorFraming [61] (by simp)).seq (separatorFraming [38] (by simp))

def FormEntry.decoded (field : Bytes × Bytes) : FormEntry where
  name := formUrldecode field.1
  value := formUrldecode field.2

def FormEntry.ofPair (pair : Bytes × Bytes) : FormEntry where
  name := pair.1
  value := pair.2

/-- The entries of a plain form, in order: the fields that `&` ends, and one
more if what is left has a `=`. -/
def formEntries (text : Bytes) : List FormEntry :=
  let fields := fieldFraming.drain text
  (fields.1 ++ (fields.2.dropInfix? [61]).toList).map .decoded

/-- The content type is that of a plain form: empty, or it begins as the
standard one. -/
def IsPlain (contentType : Bytes) : Prop :=
  contentType = [] ∨ beginsWith contentType standardType = true

/-- How a form is sent: names and values encoded, `=` between them, and `&`
between the fields. -/
def encodeForm (pairs : List (Bytes × Bytes)) : Bytes :=
  [38].intercalate (pairs.map fun pair => formUrlencode pair.1 ++ 61 :: formUrlencode pair.2)

/-! ### Cookies -/

/-- One cookie: what stands in front of the first `=`, without leading white
space, and what stands behind it. -/
def cookieOf (piece : Bytes) : Option HTTPCookie :=
  (piece.dropInfix? [61]).map fun split =>
    { name := split.1.dropWhile isspace, value := split.2 }

/-- The cookies of a cookie header, in order. -/
def cookieList (cookie : Bytes) : List HTTPCookie :=
  let pieces := piecesOf [59] (by simp) cookie
  (pieces.1 ++ [pieces.2]).filterMap cookieOf

end FastCgi
