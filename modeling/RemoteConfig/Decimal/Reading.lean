import RemoteConfig.Decimal.Binary64
/-! # Numbers written by people

The two readers of free text: integers of 64 bits, and numbers with an optional fraction and
exponent.  Digits are the ten ASCII ones, and nothing may stand before or after the number. -/

namespace RemoteConfig.Decimal

/-- The value of a list of digits, the most significant first. -/
def digitsValue (ds : List Char) : Nat :=
  ds.foldl (fun n c => 10 * n + (c.toNat - '0'.toNat)) 0

/-- Takes an optional sign off the front; the flag says whether it was a minus. -/
def splitSign : List Char → Bool × List Char
  | '-' :: rest => (true, rest)
  | '+' :: rest => (false, rest)
  | rest => (false, rest)

/-- The digits at the front, and the rest. -/
def splitDigits (cs : List Char) : List Char × List Char :=
  (cs.takeWhile Char.isDigit, cs.dropWhile Char.isDigit)

def applySign (negative : Bool) (n : Nat) : Int := if negative then -(n : Int) else n

/-- Whether an integer fits 64 bits with a sign. -/
def fitsInt64 (n : Int) : Bool := -0x8000000000000000 ≤ n && n < 0x8000000000000000

/-- An integer of 64 bits: an optional sign and digits. -/
def readInteger (cs : List Char) : Option Int :=
  let (negative, rest) := splitSign cs
  if rest.isEmpty || !rest.all Char.isDigit then none
  else
    let n := applySign negative (digitsValue rest)
    if fitsInt64 n then some n else none

/-- The exponent part at the end of a number; nothing counts as zero. -/
def readExponent : List Char → Option Int
  | [] => some 0
  | c :: rest =>
    let (negative, digits) := splitSign rest
    if (c = 'e' ∨ c = 'E') ∧ !digits.isEmpty ∧ digits.all Char.isDigit then
      some (applySign negative (digitsValue digits))
    else none

/-- The fraction digits after a point, and the rest; without a point there are none. -/
def splitFraction : List Char → List Char × List Char
  | '.' :: rest => splitDigits rest
  | rest => ([], rest)

/-- A number: an optional sign, then `inf`, `infinity` or `nan` in any case, or digits with an
optional point before, inside or after them, and an optional exponent. -/
def readNumber (cs : List Char) : Option Binary64 :=
  let (negative, rest) := splitSign cs
  let word := rest.map Char.toLower
  if word = ['i', 'n', 'f'] ∨ word = ['i', 'n', 'f', 'i', 'n', 'i', 't', 'y'] then
    some (.signed negative .infinity)
  else if word = ['n', 'a', 'n'] then some .nan
  else
    let (whole, rest) := splitDigits rest
    let (fraction, rest) := splitFraction rest
    if whole.isEmpty && fraction.isEmpty then none
    else (readExponent rest).map fun exponent =>
      .ofDecimal negative (digitsValue (whole ++ fraction)) (exponent - fraction.length)

end RemoteConfig.Decimal
