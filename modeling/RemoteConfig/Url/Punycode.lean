/-! # Punycode

The encoding of a label with characters beyond ASCII as one within ASCII: first the characters that
are in ASCII, then digits in base 36 that say which character to insert where.  Only reading is
needed here, to see whether a label is a proper one. -/

namespace RemoteConfig.Url.Punycode

/-- The value of a digit in base 36, letters before figures. -/
def digit? (c : Char) : Option Nat :=
  if 'a' ≤ c ∧ c ≤ 'z' then some (c.toNat - 'a'.toNat)
  else if 'A' ≤ c ∧ c ≤ 'Z' then some (c.toNat - 'A'.toNat)
  else if c.isDigit then some (c.toNat - '0'.toNat + 26)
  else none

/-- The digit below which a number ends, by position. -/
def threshold (position bias : Nat) : Nat :=
  if position ≤ bias then 1 else min 26 (position - bias)

/-- How often a distance is divided until it is small, and what is left of it. -/
def shrink (distance position : Nat) : Nat × Nat :=
  if 455 < distance then shrink (distance / 35) (position + 36) else (distance, position)
termination_by distance
decreasing_by omega

/-- The bias after an insertion, from the distance it covered and the length of the text. -/
def adapt (distance length : Nat) (isFirst : Bool) : Nat :=
  let distance := if isFirst then distance / 700 else distance / 2
  let (distance, position) := shrink (distance + distance / length) 0
  position + 36 * distance / (distance + 38)

/-- The state between two digits. -/
structure Decoder where
  text : List Char
  /-- The character inserted last. -/
  code : Nat
  /-- Where the search for the next insertion starts. -/
  place : Nat
  /-- The number read so far, and what its next digit counts. -/
  distance : Nat
  weight : Nat
  position : Nat
  bias : Nat

/-- Inserts the character that a finished number stands for. -/
def Decoder.insert? (d : Decoder) : Option Decoder :=
  let target := d.place + d.distance
  let length := d.text.length + 1
  let code := d.code + target / length
  if h : code.isValidChar then
    some { text := d.text.insertIdx (target % length) (Char.ofNatAux code h), code := code,
           place := target % length + 1, distance := 0, weight := 1, position := 36,
           bias := adapt d.distance length (d.place = 0) }
  else none

def Decoder.step? (d : Decoder) (c : Char) : Option Decoder := do
  let digit ← digit? c
  let t := threshold d.position d.bias
  let d := { d with distance := d.distance + digit * d.weight }
  if digit < t then d.insert?
  else some { d with weight := d.weight * (36 - t), position := d.position + 36 }

/-- The characters before the last hyphen, and the digits after it.  A hyphen with nothing before
it separates nothing. -/
def splitBasic (cs : List Char) : List Char × List Char :=
  let tail := (cs.reverse.takeWhile (· ≠ '-')).reverse
  let basic := (cs.take (cs.length - tail.length)).dropLast
  if basic.isEmpty then ([], cs) else (basic, tail)

/-- The label that a text stands for. -/
def decode? (cs : List Char) : Option (List Char) := do
  let (basic, digits) := splitBasic cs
  let d ← digits.foldlM Decoder.step? ⟨basic, 128, 0, 0, 1, 36, 72⟩
  if d.position = 36 then some d.text else none

end RemoteConfig.Url.Punycode
