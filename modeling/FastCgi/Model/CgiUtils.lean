/-
Module: FastCgi.Model.CgiUtils
Layer: Model
Purpose: The `std::string` operations that the Cgicc sources use, and
  cgicc_lib/CgiUtils.cpp, which both servers carry.
Trusted boundary: the character functions of the C locale (`toupper`,
  `isspace`, `isxdigit`, `tolower`) on bytes; a string's terminating NUL may be
  looked at
Main exports: ascii, find, substr, plusPos, stringsAreEqual, formUrlencode,
  formUrldecode, extractBetween
-/
import FastCgi.Model.Buffer
import Mathlib.Data.List.Basic

namespace FastCgi

/-- The bytes of a string literal. -/
def ascii (text : String) : Bytes := text.toByteArray.data.toList

/-! ### `std::string` -/

/-- `data.find(pattern, pos)`; `none` is `npos`. -/
def find (data pattern : Bytes) (pos : Nat) : Option Nat :=
  if pos ≤ data.length then
    ((data.drop pos).dropInfix? pattern).map fun found => pos + found.1.length
  else
    none

/-- `data.find_first_of(c, pos)`. -/
def findFirstOf (data : Bytes) (c : UInt8) (pos : Nat) : Option Nat := find data [c] pos

/-- `data.substr(pos, count)`; `none` is a count beyond every string, such as
`npos - pos`.  A position behind the end throws. -/
def substr (data : Bytes) (pos : Nat) (count : Option Nat) : Except Fault Bytes :=
  if pos ≤ data.length then
    match count with
    | some count => .ok ((data.drop pos).take count)
    | none => .ok (data.drop pos)
  else
    .error (.exception "basic_string::substr")

/-- `pos + length`, which wraps round from `npos = 2 ^ 64 - 1`. -/
def plusPos (pos : Option Nat) (length : Nat) : Nat :=
  match pos with
  | some pos => pos + length
  | none => length - 1

/-- `pos - start` as a count. -/
def minusPos (pos : Option Nat) (start : Nat) : Option Nat := pos.map (· - start)

/-! ### `<cctype>` -/

def toupper (c : UInt8) : UInt8 := if 97 ≤ c ∧ c ≤ 122 then c - 32 else c

def tolower (c : UInt8) : UInt8 := if 65 ≤ c ∧ c ≤ 90 then c + 32 else c

def isspace (c : UInt8) : Bool := c = 32 ∨ (9 ≤ c ∧ c ≤ 13)

def isxdigit (c : UInt8) : Bool :=
  (48 ≤ c ∧ c ≤ 57) ∨ (65 ≤ c ∧ c ≤ 70) ∨ (97 ≤ c ∧ c ≤ 102)

/-! ### CgiUtils.cpp -/

/-- `stringsAreEqual(s1, s2, n)`: equal in the first `n` characters but for
case.  With a string that is too short the loop compares what there is, and
the result is `false` in any case. -/
def stringsAreEqual (s1 s2 : Bytes) (n : Nat) : Bool :=
  let good := decide (n ≤ s1.length ∧ n ≤ s2.length)
  let l1 := if good then s1.take n else s1
  let l2 := if good then s2.take n else s2
  (l1.zip l2).all (fun pair => toupper pair.1 = toupper pair.2) && good

/-- One hexadecimal digit of `charToHex`: `'A' - 10` or `'0'` is added. -/
def toHexDigit (half : UInt8) : UInt8 := half + (if half > 9 then 65 - 10 else 48)

def charToHex (c : UInt8) : Bytes :=
  [toHexDigit ((c &&& 0xF0) / 16), toHexDigit (c &&& 0x0F)]

/-- One hexadecimal digit of `hexToChar`. -/
def hexDigit (c : UInt8) : UInt8 := if 65 ≤ c then ((c &&& 0xdf) - 65) + 10 else c - 48

def hexToChar (first second : UInt8) : UInt8 := hexDigit first * 16 + hexDigit second

/-- The letters, digits and marks that `form_urlencode` passes through. -/
def isUnreserved (c : UInt8) : Bool :=
  (65 ≤ c ∧ c ≤ 90) ∨ (97 ≤ c ∧ c ≤ 122) ∨ (48 ≤ c ∧ c ≤ 57) ∨ c ∈ ascii "-_.!~*'()"

def formUrlencode : Bytes → Bytes
  | [] => []
  | c :: src =>
      if c = 32 then 43 :: formUrlencode src
      else if isUnreserved c then c :: formUrlencode src
      else 37 :: charToHex c ++ formUrlencode src

/-- A percent sign without two hexadecimal digits is passed through; behind
the last character stands the NUL, which is no digit. -/
def formUrldecode : Bytes → Bytes
  | [] => []
  | c :: src =>
      if c = 43 then 32 :: formUrldecode src
      else if c = 37 then
        match src with
        | first :: second :: rest =>
            if isxdigit first && isxdigit second then
              hexToChar first second :: formUrldecode rest
            else
              37 :: formUrldecode (first :: second :: rest)
        | src => 37 :: formUrldecode src
      else c :: formUrldecode src

/-- The part of the data between two separators, or the empty string. -/
def extractBetween (data separator1 separator2 : Bytes) : Except Fault Bytes :=
  match find data separator1 0 with
  | none => .ok []
  | some start =>
      let start := start + separator1.length
      match find data separator2 start with
      | none => .ok []
      | some limit => substr data start (some (limit - start))

end FastCgi
