import RemoteConfig.Decimal.Binary64
/-! # JSON values

A value as a text denotes it.  Integers between `-2^63` and `2^64` are kept apart from all other
numbers.  Objects keep their fields in the order of the text, repeated names included.

A text can be well formed and yet denote nothing: a number beyond the range of binary64, a string
with half of a surrogate pair.  Such a part is `unreadable`.  It does no harm where a reader skips
it, so it is part of the value. -/

namespace RemoteConfig

inductive Json where
  | null
  | bool (b : Bool)
  | integer (n : Int)
  | float (x : Binary64)
  | string (s : String)
  | array (items : List Json)
  | object (fields : List (String × Json))
  | unreadable
deriving Inhabited

namespace Json

/-- How many arrays and objects a text may nest. -/
def nestingLimit : Nat := 127

mutual
/-- Whether every part is readable and at most `room` arrays and objects are nested. -/
def fits (room : Nat) : Json → Bool
  | array items => 0 < room && fitsAll (room - 1) items
  | object fields => 0 < room && fitsFields (room - 1) fields
  | unreadable => false
  | _ => true

def fitsAll (room : Nat) : List Json → Bool
  | [] => true
  | j :: rest => fits room j && fitsAll room rest

def fitsFields (room : Nat) : List (String × Json) → Bool
  | [] => true
  | (_, j) :: rest => fits room j && fitsFields room rest
end

end Json

end RemoteConfig
