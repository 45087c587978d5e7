/-
Module: FastCgi.Model.Cgicc
Layer: Model
Purpose: The `Cgicc` object that both request handlers build
  (cgicc_lib/Cgicc.cpp, the same in both servers): the form data of the body
  and of the query string, the uploaded files and the cookies.
Trusted boundary: none
Main exports: Cgicc, Cgicc.parseFormInput, Cgicc.parseMIME,
  Cgicc.parseCookies, Cgicc.construct
-/
import FastCgi.Library.Loop
import FastCgi.Model.CgiUtils

namespace FastCgi

open Library (Turn runLoop)

structure FormEntry where
  name : Bytes
  value : Bytes
deriving Repr, DecidableEq

structure FormFile where
  name : Bytes
  filename : Bytes
  dataType : Bytes
  data : Bytes
deriving Repr, DecidableEq

structure HTTPCookie where
  name : Bytes
  value : Bytes
deriving Repr, DecidableEq

structure MultipartHeader where
  contentDisposition : Bytes
  name : Bytes
  filename : Bytes
  contentType : Bytes
deriving Repr, DecidableEq

/-- The three vectors a `Cgicc` fills. -/
structure Cgicc where
  formData : List FormEntry
  formFiles : List FormFile
  cookies : List HTTPCookie
deriving Repr, DecidableEq

/-- `FormFile(name, filename, dataType, data)`. -/
def FormFile.make (name filename dataType data : Bytes) : FormFile where
  name := name
  filename := filename
  dataType := if dataType = [] then ascii "text/plain" else dataType
  data := data

def standardType : Bytes := ascii "application/x-www-form-urlencoded"

def multipartType : Bytes := ascii "multipart/form-data"

/-- The empty line between the header and the value of a part. -/
def headerEnd : Bytes := [13, 10, 13, 10]

/-- `"--" + boundary + "\r\n"`. -/
def sep1 (boundary : Bytes) : Bytes := [45, 45] ++ boundary ++ [13, 10]

/-- `"--" + boundary + "--\r\n"`. -/
def sep2 (boundary : Bytes) : Bytes := [45, 45] ++ boundary ++ [45, 45, 13, 10]

namespace Cgicc

def parseHeader (data : Bytes) : Except Fault MultipartHeader := do
  let disposition ← extractBetween data (ascii "Content-Disposition: ") (ascii ";")
  let name ← extractBetween data (ascii "name=\"") (ascii "\"")
  let filename ← extractBetween data (ascii "filename=\"") (ascii "\"")
  let cType ← extractBetween data (ascii "Content-Type: ") headerEnd
  return {
    contentDisposition := disposition
    name := name
    filename := formUrldecode filename
    contentType := cType }

/-- A part without an empty line throws.  The count of the value wraps round
when fewer than two bytes are left, which takes the rest. -/
def parseMIME (cgi : Cgicc) (data : Bytes) : Except Fault Cgicc := do
  match find data headerEnd 0 with
  | none => throw (.exception "Malformed input")
  | some headLimit =>
      let valueStart := headLimit + headerEnd.length
      let count :=
        if valueStart + 2 ≤ data.length then some (data.length - valueStart - 2) else none
      let value ← substr data valueStart count
      let head ← parseHeader (← substr data 0 (some valueStart))
      if head.filename = [] then
        return { cgi with formData := cgi.formData ++ [{ name := head.name, value := value }] }
      else
        return { cgi with formFiles := cgi.formFiles ++
          [.make head.name head.filename head.contentType value] }

/-- One turn of the loop over `name=value` pairs. -/
def urlencodedTurn (data : Bytes) (state : Nat × Cgicc) :
    Except Fault (Turn (Nat × Cgicc) Cgicc) := do
  let (oldPos, cgi) := state
  match findFirstOf data 61 oldPos with
  | none => return .leave cgi
  | some pos =>
      let name := formUrldecode (← substr data oldPos (some (pos - oldPos)))
      let oldPos := pos + 1
      let pos := findFirstOf data 38 oldPos
      let value := formUrldecode (← substr data oldPos (minusPos pos oldPos))
      let cgi := { cgi with formData := cgi.formData ++ [{ name := name, value := value }] }
      match pos with
      | none => return .leave cgi
      | some pos => return .again (pos + 1, cgi)

/-- One turn of the loop over the parts that `sep1` ends. -/
def multipartTurn (data separator : Bytes) (state : Nat × Cgicc) :
    Except Fault (Turn (Nat × Cgicc) (Nat × Cgicc)) := do
  let (oldPos, cgi) := state
  match find data separator oldPos with
  | none => return .leave (oldPos, cgi)
  | some pos =>
      let cgi ← cgi.parseMIME (← substr data oldPos (some (pos - oldPos)))
      return .again (pos + separator.length, cgi)

/-- The branch of `parseFormInput` for file uploads.  Both the position of
`boundary=` and that of the first separator are used unchecked. -/
def parseMultipart (cgi : Cgicc) (data contentType : Bytes) : Except Fault Cgicc := do
  let bType := ascii "boundary="
  let boundary ← substr contentType (plusPos (find contentType bType 0) bType.length) none
  let oldPos := plusPos (find data (sep1 boundary) 0) (sep1 boundary).length
  let (oldPos, cgi) ← runLoop .diverged (multipartTurn data (sep1 boundary)) (data.length + 1)
    (oldPos, cgi)
  match find data (sep2 boundary) oldPos with
  | none => return cgi
  | some pos => cgi.parseMIME (← substr data oldPos (some (pos - oldPos)))

def parseFormInput (cgi : Cgicc) (data contentType : Bytes) : Except Fault Cgicc := do
  if data = [] then
    return cgi
  else if contentType = [] ∨
      stringsAreEqual contentType standardType standardType.length then
    runLoop .diverged (urlencodedTurn data) (data.length + 1) (0, cgi)
  else if stringsAreEqual multipartType contentType multipartType.length then
    cgi.parseMultipart data contentType
  else
    return cgi

/-- A cookie without `=` is dropped; leading white space is not part of the
name. -/
def parseCookie (cgi : Cgicc) (data : Bytes) : Except Fault Cgicc := do
  match find data [61] 0 with
  | none => return cgi
  | some pos =>
      let wscount := (data.takeWhile isspace).length
      let name ← substr data wscount (some (pos - wscount))
      let value ← substr data (pos + 1) none
      return { cgi with cookies := cgi.cookies ++ [{ name := name, value := value }] }

/-- One turn of the loop over the cookies. -/
def cookiesTurn (data : Bytes) (state : Nat × Cgicc) :
    Except Fault (Turn (Nat × Cgicc) Cgicc) := do
  let (oldPos, cgi) := state
  match find data [59] oldPos with
  | none =>
      let cgi ← cgi.parseCookie (← substr data oldPos none)
      return .leave cgi
  | some pos =>
      let cgi ← cgi.parseCookie (← substr data oldPos (some (pos - oldPos)))
      return .again (pos + 1, cgi)

def parseCookies (cgi : Cgicc) (data : Bytes) : Except Fault Cgicc :=
  if data = [] then
    .ok cgi
  else
    runLoop .diverged (cookiesTurn data) (data.length + 1) (0, cgi)

/-- The constructor `Cgicc(query, cookie, data, type)`.  The query string is
parsed with the default content type, the standard one. -/
def construct (query cookie data type : Bytes) : Except Fault Cgicc := do
  let cgi : Cgicc := { formData := [], formFiles := [], cookies := [] }
  let cgi ← cgi.parseFormInput data type
  let cgi ← cgi.parseFormInput query standardType
  cgi.parseCookies cookie

end Cgicc

end FastCgi
