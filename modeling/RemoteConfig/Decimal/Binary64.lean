/-! # Binary64 numbers

A binary64 number is either no number at all (`nan`) or a sign and a *rank*: the place of its
magnitude in the ascending list of all magnitudes, zero first and infinity last.  With `rank = q *
2^52 + m`, where `q` is zero for the ranks below `2^53` and `m` lies between `2^52` and `2^53`
otherwise, the magnitude is `m * 2^q` units of `2^-1074`.  Ordering by magnitude is ordering by
rank, and rounding is one division of naturals. -/

namespace RemoteConfig

/-- The rank of infinity, one above the rank of the largest finite magnitude. -/
def infinityRank : Nat := 0x7ff0000000000000

/-- How many magnitudes there are from a power of two up to the next one, and below the first. -/
def binade : Nat := 0x10000000000000

/-- The places in the ascending list of magnitudes, infinity included. -/
abbrev Magnitude := Fin (infinityRank + 1)

inductive Binary64 where
  | nan
  | signed (negative : Bool) (magnitude : Magnitude)
deriving DecidableEq, Repr, Inhabited

namespace Magnitude

/-- The magnitude of a given rank; ranks beyond infinity are infinity. -/
def ofRank (rank : Nat) : Magnitude :=
  ⟨min rank infinityRank, Nat.lt_succ_of_le (Nat.min_le_right ..)⟩

def zero : Magnitude := ofRank 0

def infinity : Magnitude := ofRank infinityRank

def isFinite (x : Magnitude) : Bool := x.val < infinityRank

/-- The power of two that counts the steps between neighbours, above the least one. -/
def scale (x : Magnitude) : Nat := x.val / binade - 1

/-- The number of steps of `2 ^ scale` units. -/
def significand (x : Magnitude) : Nat := x.val - x.scale * binade

/-- The magnitude in units of `2 ^ -1074`, exactly. -/
def units (x : Magnitude) : Nat := x.significand * Nat.pow 2 x.scale

/-- How many units make one. -/
def unitsPerOne : Nat := Nat.pow 2 1074

/-- A quotient rounded to the nearest natural, a half to the even neighbour. -/
def divNearestEven (num den : Nat) : Nat :=
  let quotient := num / den
  let twice := 2 * (num % den)
  if twice < den then quotient
  else if den < twice then quotient + 1
  else quotient + quotient % 2

/-- `num / den` units rounded to the nearest magnitude, a half to the even significand. -/
def ofUnits (num den : Nat) : Magnitude :=
  let scale := Nat.log2 (num / den) - 52
  ofRank (scale * binade + divNearestEven num (den * Nat.pow 2 scale))

/-- The quotient `num / den` rounded to the nearest magnitude. -/
def ofRatio (num den : Nat) : Magnitude := ofUnits (num * unitsPerOne) den

/-- A natural number rounded to the nearest magnitude. -/
def ofNat (n : Nat) : Magnitude := ofRatio n 1

/-- The rounded product of two finite magnitudes. -/
def mul (x y : Magnitude) : Magnitude := ofUnits (x.units * y.units) unitsPerOne

/-- The rounded quotient of two finite magnitudes, the second not zero. -/
def div (x y : Magnitude) : Magnitude := ofRatio x.units y.units

/-- `digits * 10 ^ exponent` rounded to the nearest magnitude.  Exponents at which the result is
certainly infinite or zero are decided without computing the power. -/
def ofDecimal (digits : Nat) (exponent : Int) : Magnitude :=
  if digits = 0 then zero
  else match exponent with
    | .ofNat e => if 400 < e then infinity else ofNat (digits * Nat.pow 10 e)
    | .negSucc e =>
      if (Nat.toDigits 10 digits).length + 400 < e then zero
      else ofRatio digits (Nat.pow 10 (e + 1))

end Magnitude

namespace Binary64

def zero : Binary64 := signed false .zero

def isFinite : Binary64 → Bool
  | nan => false
  | signed _ x => x.isFinite

/-- An integer rounded to the nearest number. -/
def ofInt (n : Int) : Binary64 := signed (n < 0) (.ofNat n.natAbs)

/-- `digits * 10 ^ exponent` with a sign, rounded to the nearest number. -/
def ofDecimal (negative : Bool) (digits : Nat) (exponent : Int) : Binary64 :=
  signed negative (.ofDecimal digits exponent)

/-- The signed rank, which orders the numbers; both zeros have the same. -/
def order : Binary64 → Option Int
  | nan => none
  | signed true x => some (-(x.val : Int))
  | signed false x => some x.val

/-- How two numbers compare; `nan` compares with nothing. -/
def compare? (x y : Binary64) : Option Ordering := do
  return compare (← x.order) (← y.order)

/-- Equality of values: the zeros are equal, and `nan` differs from itself. -/
def equals (x y : Binary64) : Bool := x.compare? y == some .eq

/-- Whether the value is a whole number. -/
def isWhole : Binary64 → Bool
  | nan => false
  | signed _ x => x.isFinite && x.units % Magnitude.unitsPerOne == 0

end Binary64

end RemoteConfig
