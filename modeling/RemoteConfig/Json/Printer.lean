import RemoteConfig.Decimal.Layout
import RemoteConfig.Text.Quoted
import RemoteConfig.Json.Basic
/-! # Writing a JSON text

The compact form: no spaces, fields in their order, and of the characters only the quote, the
backslash and the controls escaped.  Numbers are written with the fewest digits that identify them;
`nan` and the infinities, which JSON does not know, become `null`. -/

namespace RemoteConfig.Json

/-- Numbers always show a point or an exponent; the exponents -5 to 15 are written positionally. -/
def number : Layout where
  isPositional e := -5 ≤ e && e ≤ 15
  keepsPoint := true
  signsExponent := true
  tie := .toEven
  nan := ['n', 'u', 'l', 'l']
  infinity := ['n', 'u', 'l', 'l']

/-- The text of a floating number. -/
def numberText (x : Binary64) : List Char :=
  if x.isFinite then number.render x else number.nan

/-- One character of a string. -/
def escapedChar (c : Char) : List Char :=
  match c with
  | '"' => ['\\', '"']
  | '\\' => ['\\', '\\']
  | '\x08' => ['\\', 'b']
  | '\x0c' => ['\\', 'f']
  | '\n' => ['\\', 'n']
  | '\r' => ['\\', 'r']
  | '\t' => ['\\', 't']
  | c =>
    if c.toNat < 0x10 then ['\\', 'u', '0', '0', '0'] ++ Text.hexDigits c.toNat
    else if c.toNat < 0x20 then ['\\', 'u', '0', '0'] ++ Text.hexDigits c.toNat
    else [c]

def stringText (s : String) : List Char := '"' :: s.toList.flatMap escapedChar ++ ['"']

def integerText (n : Int) : List Char :=
  (if n < 0 then ['-'] else []) ++ Nat.toDigits 10 n.natAbs

/-- Puts a comma between the parts. -/
def commaSeparated : List (List Char) → List Char
  | [] => []
  | [part] => part
  | part :: rest => part ++ ',' :: commaSeparated rest

mutual
/-- The text of a value. -/
def text : Json → List Char
  | null => ['n', 'u', 'l', 'l']
  | bool true => ['t', 'r', 'u', 'e']
  | bool false => ['f', 'a', 'l', 's', 'e']
  | integer n => integerText n
  | float x => numberText x
  | string s => stringText s
  | array items => '[' :: commaSeparated (itemTexts items) ++ [']']
  | object fields => '\x7b' :: commaSeparated (fieldTexts fields) ++ ['\x7d']
  | unreadable => ['n', 'u', 'l', 'l']

def itemTexts : List Json → List (List Char)
  | [] => []
  | j :: rest => text j :: itemTexts rest

def fieldTexts : List (String × Json) → List (List Char)
  | [] => []
  | (name, j) :: rest => (stringText name ++ ':' :: text j) :: fieldTexts rest
end

/-- The text of a value as a string. -/
def print (j : Json) : String := String.ofList (text j)

end RemoteConfig.Json
