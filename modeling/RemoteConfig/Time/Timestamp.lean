import RemoteConfig.Json.Record
import RemoteConfig.Text.Blank
import RemoteConfig.Time.Calendar
/-! # Time stamps

A moment in universal time, to the nanosecond.  It is written in the form of RFC 3339 with `Z`, and
with as many groups of three fraction digits as are needed.  The reader is more liberal: blanks may
stand between the parts, a year may have a sign, and any offset of less than a day is taken into
account. -/

namespace RemoteConfig

/-- Seconds since the start of 1970, and nanoseconds within the second.  A leap second is the second
before it with a billion nanoseconds more. -/
structure Timestamp where
  seconds : Int
  nanos : Nat
deriving DecidableEq, Repr, Inhabited

namespace Timestamp

/-- The start of 1970. -/
def epoch : Timestamp := ⟨0, 0⟩

/-- Whole milliseconds since the start of 1970. -/
def millis (t : Timestamp) : Int := t.seconds * 1000 + t.nanos / 1000000

/-- The moment a number of milliseconds after the start of 1970. -/
def ofMillis (n : Int) : Timestamp := ⟨n / 1000, (n % 1000).toNat * 1000000⟩

/-- The whole seconds from one moment to another; a part of a second does not count. -/
def secondsSince (now start : Timestamp) : Int :=
  ((now.seconds - start.seconds) * 1000000000 + ((now.nanos : Int) - start.nanos)).tdiv 1000000000

/-- The years in which moments are represented. -/
def isYearInRange (year : Int) : Bool := -262143 ≤ year && year ≤ 262142

/-- A natural number with zeros before it, up to a width. -/
def padded (width n : Nat) : List Char :=
  let ds := Nat.toDigits 10 n
  List.replicate (width - ds.length) '0' ++ ds

/-- Four digits, or a sign and at least four. -/
def yearText (year : Int) : List Char :=
  if 0 ≤ year ∧ year ≤ 9999 then padded 4 year.toNat
  else (if year < 0 then '-' else '+') :: padded 4 year.natAbs

/-- The fraction of a second, in the fewest groups of three digits. -/
def fractionText (nanos : Nat) : List Char :=
  if nanos = 0 then []
  else if nanos % 1000000 = 0 then '.' :: padded 3 (nanos / 1000000)
  else if nanos % 1000 = 0 then '.' :: padded 6 (nanos / 1000)
  else '.' :: padded 9 nanos

def text (t : Timestamp) : List Char :=
  let date := Date.ofDays (t.seconds / 86400)
  let time := (t.seconds % 86400).toNat
  let leap := 1000000000 ≤ t.nanos
  let second := time % 60 + if leap then 1 else 0
  let nanos := if leap then t.nanos - 1000000000 else t.nanos
  yearText date.year ++ ['-'] ++ padded 2 date.month ++ ['-'] ++ padded 2 date.day ++ ['T'] ++
    padded 2 (time / 3600) ++ [':'] ++ padded 2 (time / 60 % 60) ++ [':'] ++ padded 2 second ++
    fractionText nanos ++ ['Z']

def toText (t : Timestamp) : String := String.ofList t.text

/-! ## Reading -/

open Decimal

/-- At most `width` digits at the front, at least one, after any blanks. -/
def readDigits (width : Nat) (cs : List Char) : Option (Nat × List Char) :=
  let cs := Text.trimStart cs
  let digits := (cs.take width).takeWhile Char.isDigit
  if digits.isEmpty then none else some (digitsValue digits, cs.drop digits.length)

/-- A year: up to four digits, or a sign and any number of them. -/
def readYear (cs : List Char) : Option (Int × List Char) :=
  let cs := Text.trimStart cs
  let signed (negative : Bool) (rest : List Char) : Option (Int × List Char) :=
    let (digits, after) := splitDigits rest
    if digits.isEmpty then none else some (applySign negative (digitsValue digits), after)
  match cs with
  | '-' :: rest => signed true rest
  | '+' :: rest => signed false rest
  | _ => (readDigits 4 cs).map fun (n, rest) => ((n : Int), rest)

/-- A given character, after any blanks. -/
def skipMark (mark : Char) (cs : List Char) : Option (List Char) :=
  match Text.trimStart cs with
  | c :: rest => if c = mark then some rest else none
  | [] => none

/-- The fraction of a second in nanoseconds; digits after the ninth do not count. -/
def readFraction : List Char → Option (Nat × List Char)
  | '.' :: rest =>
    let (digits, after) := splitDigits rest
    if digits.isEmpty then none
    else
      let kept := digits.take 9
      some (digitsValue (kept ++ List.replicate (9 - kept.length) '0'), after)
  | rest => some (0, rest)

/-- The minutes of an offset, after its hours. -/
def readOffsetMinutes (cs : List Char) : Option (Nat × List Char) :=
  match cs.dropWhile fun c => c = ':' || Text.isBlank c with
  | a :: b :: rest =>
    if a.isDigit ∧ b.isDigit ∧ a < '6' then some (digitsValue [a, b], rest) else none
  | _ => none

/-- An offset from universal time in seconds: `Z`, `UTC`, or a sign, hours and minutes. -/
def readOffset (cs : List Char) : Option (Int × List Char) :=
  let clock (negative : Bool) : List Char → Option (Int × List Char)
    | a :: b :: rest =>
      if a.isDigit ∧ b.isDigit then
        (readOffsetMinutes rest).map fun (minutes, rest) =>
          (applySign negative (digitsValue [a, b] * 3600 + minutes * 60), rest)
      else none
    | _ => none
  if (cs.take 3).map Char.toLower = ['u', 't', 'c'] then some (0, cs.drop 3)
  else match cs with
    | 'Z' :: rest | 'z' :: rest => some (0, rest)
    | '+' :: rest => clock false rest
    | '-' :: rest | '\u2212' :: rest => clock true rest
    | _ => none

/-- The moment at which clocks with an offset show a date and a time. -/
def ofClock? (date : Date) (hour minute second nanos : Nat) (offset : Int) : Option Timestamp :=
  let leap := second = 60
  let shown : Int := date.toDays * 86400 + hour * 3600 + minute * 60 + (if leap then 59 else second)
  let seconds := shown - offset
  if date.isValid && hour < 24 && minute < 60 && second ≤ 60 && offset.natAbs < 86400 &&
      isYearInRange date.year && isYearInRange (Date.ofDays (seconds / 86400)).year then
    some ⟨seconds, nanos + if leap then 1000000000 else 0⟩
  else none

/-- The moment that a text denotes. -/
def parse? (s : String) : Option Timestamp := do
  let (year, cs) ← readYear s.toList
  let cs ← skipMark '-' cs
  let (month, cs) ← readDigits 2 cs
  let cs ← skipMark '-' cs
  let (day, cs) ← readDigits 2 cs
  let cs ← match cs with
    | 'T' :: rest | 't' :: rest | ' ' :: rest => some rest
    | _ => none
  let (hour, cs) ← readDigits 2 cs
  let cs ← skipMark ':' cs
  let (minute, cs) ← readDigits 2 cs
  let cs ← skipMark ':' cs
  let (second, cs) ← readDigits 2 cs
  let (nanos, cs) ← readFraction cs
  let (offset, cs) ← readOffset (Text.trimStart cs)
  if (Text.trimStart cs).isEmpty then ofClock? ⟨year, month, day⟩ hour minute second nanos offset
  else none

def toJson (t : Timestamp) : Json := .string t.toText

def ofJson? (j : Json) : Option Timestamp := j.string?.bind parse?

end Timestamp

end RemoteConfig
