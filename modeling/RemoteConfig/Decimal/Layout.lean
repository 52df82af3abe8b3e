import RemoteConfig.Decimal.Shortest
/-! # Layout of numbers

A layout lists the decisions of a number format: which magnitudes are written positionally, whether
a whole number keeps a point and a zero, how an exponent is signed, which way a tie goes.  `render`
writes any number by such a list. -/

namespace RemoteConfig

/-- The decisions of a number format. -/
structure Layout where
  /-- The exponents of the leading digit that are written without an exponent. -/
  isPositional : Int → Bool
  /-- Whether a whole number keeps a point and a zero. -/
  keepsPoint : Bool
  /-- Whether a positive exponent has a sign. -/
  signsExponent : Bool
  tie : Tie
  nan : List Char
  infinity : List Char

namespace Layout

/-- Positional digits: the point stands before, inside or after them. -/
def positional (layout : Layout) (d : Digits) : List Char :=
  if d.point ≤ 0 then
    ['0', '.'] ++ List.replicate (-d.point).toNat '0' ++ d.digits
  else if d.digits.length ≤ d.point.toNat then
    d.digits ++ List.replicate (d.point.toNat - d.digits.length) '0' ++
      (if layout.keepsPoint then ['.', '0'] else [])
  else d.digits.take d.point.toNat ++ ['.'] ++ d.digits.drop d.point.toNat

/-- One digit, the rest after a point, and the exponent of the first. -/
def scientific (layout : Layout) (d : Digits) : List Char :=
  let exponent := d.point - 1
  let mantissa := match d.digits with
    | [] => []
    | [first] => [first]
    | first :: rest => first :: '.' :: rest
  let sign := if exponent < 0 then ['-'] else if layout.signsExponent then ['+'] else []
  mantissa ++ ['e'] ++ sign ++ Nat.toDigits 10 exponent.natAbs

def magnitude (layout : Layout) (x : Magnitude) : List Char :=
  if x = .zero then (if layout.keepsPoint then ['0', '.', '0'] else ['0'])
  else if x.isFinite then
    let d := x.shortest layout.tie
    if layout.isPositional (d.point - 1) then layout.positional d else layout.scientific d
  else layout.infinity

/-- The text of a number. -/
def render (layout : Layout) : Binary64 → List Char
  | .nan => layout.nan
  | .signed negative x => (if negative then ['-'] else []) ++ layout.magnitude x

end Layout

namespace Binary64

/-- Values shown to people and compared as text: positional whatever the size, and a whole number
has no point. -/
def plain : Layout where
  isPositional _ := true
  keepsPoint := false
  signsExponent := false
  tie := .upward
  nan := ['N', 'a', 'N']
  infinity := ['i', 'n', 'f']

/-- Numbers in diagnostics: a number always shows that it is no integer. -/
def diagnostic : Layout where
  isPositional e := -4 ≤ e && e ≤ 15
  keepsPoint := true
  signsExponent := false
  tie := .upward
  nan := ['N', 'a', 'N']
  infinity := ['i', 'n', 'f']

/-- The plain text of a number. -/
def toText (x : Binary64) : String := String.ofList (plain.render x)

/-- A whole number with all its digits, a point and a zero. -/
def wholeText : Binary64 → List Char
  | nan => plain.nan
  | signed negative x =>
    (if negative then ['-'] else []) ++ Nat.toDigits 10 (x.units / Magnitude.unitsPerOne) ++
      ['.', '0']

end Binary64

end RemoteConfig
