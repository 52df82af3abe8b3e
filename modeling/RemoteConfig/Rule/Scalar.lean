import RemoteConfig.Decimal.Layout
import RemoteConfig.Decimal.Reading
import RemoteConfig.Text.Blank
/-! # Scalars

The values that rules compare and select: truth values, integers of 64 bits, binary64 numbers and
texts. -/

namespace RemoteConfig

inductive Scalar where
  | bool (b : Bool)
  | int (n : Int)
  | float (x : Binary64)
  | string (s : String)
deriving DecidableEq, Repr, Inhabited

namespace Scalar

def asBool : Scalar → Option Bool
  | bool b => some b
  | _ => none

def asString : Scalar → Option String
  | string s => some s
  | _ => none

/-- The scalar as a number.  A text counts if it reads as a finite number. -/
def asNumber : Scalar → Option Binary64
  | int n => some (.ofInt n)
  | float x => some x
  | string s => (Decimal.readNumber (Text.trim s.toList)).filter Binary64.isFinite
  | bool _ => none

def isNumber : Scalar → Bool
  | int _ | float _ => true
  | _ => false

/-- The scalar as it is shown and compared as text. -/
def toText : Scalar → String
  | bool true => "true"
  | bool false => "false"
  | int n => toString n
  | float x => x.toText
  | string s => s

/-- Equality of values, where `nan` differs from itself and the zeros are equal. -/
def equals : Scalar → Scalar → Bool
  | bool a, bool b => a == b
  | int a, int b => a == b
  | float a, float b => a.equals b
  | string a, string b => a == b
  | _, _ => false

end Scalar

end RemoteConfig
