import RemoteConfig.Decimal.Binary64
/-! # The fewest digits that identify a number

A decimal *identifies* a magnitude if it lies among the reals that round to it.  `shortest` looks
for such decimals on the grids of one, two, up to seventeen digits, and takes the nearest one on the
first grid that has any. -/

namespace RemoteConfig

/-- Which of two equally near decimals is taken. -/
inductive Tie where
  | upward
  | toEven
deriving DecidableEq, Repr

/-- The decimal `0.d₁d₂d₃… * 10 ^ point`. -/
structure Digits where
  digits : List Char
  point : Int
deriving DecidableEq, Repr

namespace Magnitude

/-- Whether `coefficient * 10 ^ exponent` rounds to the magnitude: it lies between the half-way
points to the two neighbours, which themselves belong to an even significand. -/
def isIdentifiedBy (x : Magnitude) (coefficient : Nat) (exponent : Int) : Bool :=
  let m := x.significand
  let below := if m = binade ∧ 0 < x.scale then 4 * m - 1 else 4 * m - 2
  let decimal := 4 * coefficient * Nat.pow 10 exponent.toNat * unitsPerOne
  let step := Nat.pow 2 x.scale * Nat.pow 10 (-exponent).toNat
  if m % 2 = 0 then below * step ≤ decimal && decimal ≤ (4 * m + 2) * step
  else below * step < decimal && decimal < (4 * m + 2) * step

/-- The least `k` with the magnitude below `10 ^ k`; the magnitude is finite and not zero. -/
def decimalPoint (x : Magnitude) : Int :=
  (Nat.toDigits 10 (x.units * Nat.pow 10 330 / unitsPerOne)).length - 330

/-- The nearer one of the two naturals around `num / den`, if both are `good`, and otherwise the one
that is. -/
def nearestGood (tie : Tie) (good : Nat → Bool) (num den : Nat) : Option Nat :=
  let low := num / den
  match good low, good (low + 1) with
  | true, true =>
    match compare (2 * num) ((2 * low + 1) * den), tie with
    | .lt, _ => some low
    | .gt, _ => some (low + 1)
    | .eq, .upward => some (low + 1)
    | .eq, .toEven => some (low + low % 2)
  | true, false => some low
  | false, true => some (low + 1)
  | false, false => none

/-- The nearest decimal with the given exponent that identifies the magnitude. -/
def nearestOnGrid (tie : Tie) (x : Magnitude) (exponent : Int) : Option Nat :=
  nearestGood tie (x.isIdentifiedBy · exponent) (x.units * Nat.pow 10 (-exponent).toNat)
    (unitsPerOne * Nat.pow 10 exponent.toNat)

/-- A coefficient and an exponent without the zeros at the end of the coefficient. -/
def stripZeros (coefficient : Nat) (exponent : Int) : Digits :=
  let all := Nat.toDigits 10 coefficient
  let kept := (all.reverse.dropWhile (· == '0')).reverse
  ⟨kept, exponent + all.length⟩

/-- The fewest digits that identify a finite magnitude other than zero, and of those the nearest.
Seventeen digits always suffice; the exact value stands in should they not. -/
def shortest (tie : Tie) (x : Magnitude) : Digits :=
  let point := x.decimalPoint
  let found := (List.range' 1 17).findSome? fun (count : Nat) =>
    let exponent := point - (count : Int)
    (x.nearestOnGrid tie exponent).map (stripZeros · exponent)
  found.getD (stripZeros (x.units * Nat.pow 5 1074) (-1074))

end Magnitude

end RemoteConfig
