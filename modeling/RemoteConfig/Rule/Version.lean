import RemoteConfig.Decimal.Reading
import RemoteConfig.Text.Blank
/-! # Dotted numeric versions

`1`, `2.0`, `10.3.1.7`: segments of 64 bits, the most significant first.  Missing segments count as
zero, so versions that differ only in zero segments at the end are equal. -/

namespace RemoteConfig

structure Version where
  segments : List Nat
deriving DecidableEq, Repr

namespace Version

/-- One segment: digits that fit a word of 64 bits. -/
def readSegment (cs : List Char) : Option Nat :=
  if cs.isEmpty || !cs.all Char.isDigit then none
  else
    let n := Decimal.digitsValue cs
    if n < 0x10000000000000000 then some n else none

/-- The version that a text denotes, blanks around it aside. -/
def parse? (s : String) : Option Version :=
  (((Text.trim s.toList).splitOn '.').mapM readSegment).map Version.mk

/-- Segment by segment, the shorter list continued with zeros. -/
def compareSegments : List Nat → List Nat → Ordering
  | [], [] => .eq
  | [], b :: bs => (compare 0 b).then (compareSegments [] bs)
  | a :: as, [] => (compare a 0).then (compareSegments as [])
  | a :: as, b :: bs => (compare a b).then (compareSegments as bs)

def cmp (v w : Version) : Ordering := compareSegments v.segments w.segments

end Version

end RemoteConfig
