import RemoteConfig.Decimal.Reading
import RemoteConfig.Json.Basic
/-! # Numbers of a JSON text

An integer that fits 64 bits is read exactly.  Any other number is read in two rounded steps: as
many leading digits as fit an unsigned word of 64 bits become a binary64 number, and that is
multiplied or divided by a power of ten.  A number that leaves the range has no value. -/

namespace RemoteConfig.Json

open Decimal

/-- The parts of a number literal. -/
structure Literal where
  negative : Bool
  whole : List Char
  fraction : Option (List Char)
  exponent : Option (Bool × List Char)
deriving DecidableEq, Repr

/-- Appends digits to a significand while it fits an unsigned word; the rest is returned. -/
def extendWord (word : Nat) : List Char → Nat × List Char
  | [] => (word, [])
  | c :: rest =>
    let next := 10 * word + (c.toNat - '0'.toNat)
    if next < 0x10000000000000000 then extendWord next rest else (word, c :: rest)

/-- The largest power of ten that a single step uses. -/
def largestStep : Nat := 308

/-- `x * 10 ^ exponent`, rounded after each step; nothing if it is infinite. -/
def scaleByTen (x : Magnitude) (exponent : Int) : Option Magnitude :=
  if exponent.natAbs ≤ largestStep then
    let step := Magnitude.ofNat (Nat.pow 10 exponent.natAbs)
    if 0 ≤ exponent then
      let product := x.mul step
      if product.isFinite then some product else none
    else some (x.div step)
  else if x = .zero then some x
  else if 0 ≤ exponent then none
  else scaleByTen (x.div (.ofNat (Nat.pow 10 largestStep))) (exponent + largestStep)
termination_by exponent.natAbs
decreasing_by simp only [largestStep] at *; omega

/-- Exponents are counted in a word of 32 bits with a sign, and stay at its ends. -/
def clampWord (n : Int) : Int := max (-0x80000000) (min n 0x7fffffff)

namespace Literal

/-- The exponent that `significand` needs when `start` digits were left out before it. -/
def scaled (l : Literal) (significand : Nat) (start : Int) : Option Magnitude :=
  match l.exponent with
  | none => scaleByTen (.ofNat significand) start
  | some (negative, digits) =>
    let e := digitsValue digits
    if e < 0x80000000 then
      scaleByTen (.ofNat significand) (clampWord (start + applySign negative e))
    else if significand = 0 ∨ negative then some .zero
    else none

/-- The magnitude of a number with a fraction, an exponent, or too many digits. -/
def magnitude (l : Literal) : Option Magnitude :=
  let (word, dropped) := extendWord 0 l.whole
  match l.fraction with
  | none => l.scaled word dropped.length
  | some digits =>
    let (significand, ignored) := extendWord word digits
    l.scaled significand (dropped.length - (digits.length - ignored.length : Nat))

/-- The value of a number.  Minus zero is no integer. -/
def value (l : Literal) : Json :=
  let n := digitsValue l.whole
  if l.fraction.isNone ∧ l.exponent.isNone ∧ n < 0x10000000000000000 then
    if !l.negative then .integer n
    else if 0 < n ∧ n ≤ 0x8000000000000000 then .integer (-n)
    else .float (.signed true (.ofNat n))
  else match l.magnitude with
    | some x => .float (.signed l.negative x)
    | none => .unreadable

end Literal

end RemoteConfig.Json
