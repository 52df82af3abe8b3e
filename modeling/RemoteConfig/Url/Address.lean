import RemoteConfig.Decimal.Reading
import RemoteConfig.Text.Hex
/-! # Numeric addresses

The two kinds of numeric host: four parts with dots between them, and eight pieces of sixteen bits
with colons between them, where one run of zero pieces may be left out. -/

namespace RemoteConfig.Url

def isOctalDigit (c : Char) : Bool := '0' ≤ c && c ≤ '7'

/-- The value of octal digits, the most significant first. -/
def octalValue (ds : List Char) : Nat := ds.foldl (fun n c => 8 * n + (c.toNat - '0'.toNat)) 0

/-! ## Four parts -/

/-- A part of a dotted address: a number in base ten, after `0x` in base sixteen, and after any
other `0` in base eight.  No digits after `0x` count as zero. -/
def dottedPart? : List Char → Option Nat
  | [] => none
  | ['0'] => some 0
  | '0' :: c :: rest =>
    if c = 'x' ∨ c = 'X' then Text.hexNumber? rest
    else if (c :: rest).all isOctalDigit then some (octalValue (c :: rest)) else none
  | ds => if ds.all Char.isDigit then some (Decimal.digitsValue ds) else none

/-- The parts of a host between its dots, a dot at the end aside. -/
def dottedParts (host : List Char) : List (List Char) :=
  let parts := host.splitOn '.'
  if 1 < parts.length ∧ parts.getLast? = some [] then parts.dropLast else parts

/-- Whether a host has to be a dotted address because its last part is a number. -/
def endsInNumber (host : List Char) : Bool :=
  match (dottedParts host).getLast? with
  | none => false
  | some last => (!last.isEmpty && last.all Char.isDigit) || (dottedPart? last).isSome

/-- Whether numbers are the parts of an address: the last one fills what the others leave of
32 bits. -/
def fillAddress (numbers : List Nat) : Bool :=
  match numbers.reverse with
  | [] => false
  | last :: others =>
    others.length < 4 && others.all (· < 256) && last < Nat.pow 256 (4 - others.length)

def isDotted (host : List Char) : Bool :=
  match (dottedParts host).mapM dottedPart? with
  | none => false
  | some numbers => fillAddress numbers

/-! ## Eight pieces -/

/-- A piece: one to four digits in base sixteen. -/
def isPiece (cs : List Char) : Bool := !cs.isEmpty && cs.length ≤ 4 && (Text.hexNumber? cs).isSome

/-- A byte in base ten without leading zeros. -/
def isByte (cs : List Char) : Bool :=
  !cs.isEmpty && cs.all Char.isDigit && (cs.head? ≠ some '0' || cs.length = 1) &&
    Decimal.digitsValue cs < 256

/-- The strict dotted form that may stand for the last two pieces. -/
def isEmbedded (cs : List Char) : Bool :=
  let parts := cs.splitOn '.'
  parts.length = 4 && parts.all isByte

/-- How many pieces a list of parts stands for.  Only the last part may be dotted, and only if
nothing follows. -/
def countPieces (mayEmbed : Bool) : List (List Char) → Option Nat
  | [] => some 0
  | [last] => if isPiece last then some 1
    else if mayEmbed && isEmbedded last then some 2 else none
  | part :: rest => if isPiece part then (countPieces mayEmbed rest).map (· + 1) else none

/-- How many pieces a text without an omission stands for. -/
def piecesOf (mayEmbed : Bool) (cs : List Char) : Option Nat :=
  if cs.isEmpty then some 0 else countPieces mayEmbed (cs.splitOn ':')

/-- What stands before and after the first two colons in a row. -/
def splitOmission : List Char → Option (List Char × List Char)
  | ':' :: ':' :: rest => some ([], rest)
  | c :: rest => (splitOmission rest).map fun (before, after) => (c :: before, after)
  | [] => none

/-- Whether the text between brackets is an address.  An omission stands for one piece at least. -/
def isBracketed (cs : List Char) : Bool :=
  match splitOmission cs with
  | none => piecesOf true cs = some 8
  | some (before, after) =>
    match piecesOf false before, piecesOf true after with
    | some m, some n => m + n < 8
    | _, _ => false

end RemoteConfig.Url
