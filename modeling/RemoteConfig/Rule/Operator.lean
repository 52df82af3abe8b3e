/-! # Operators

The closed list of operators.  The family of an operator decides which operands it takes. -/

namespace RemoteConfig

/-- The six ways to compare two ordered values. -/
inductive Comparison where
  | eq | ne | gt | ge | lt | le
deriving DecidableEq, Repr

/-- The tests of a text against a literal text. -/
inductive TextTest where
  | equal | contains | wildcard
deriving DecidableEq, Repr

inductive Operator where
  /-- Numbers where both operands read as such, texts otherwise. -/
  | compare (c : Comparison)
  /-- Dotted numeric versions. -/
  | version (c : Comparison)
  /-- Emptiness of a text, or its negation. -/
  | empty (negated : Bool)
  /-- A test of a text, or its negation. -/
  | text (test : TextTest) (negated : Bool)
  | and
  | or
  | not
deriving DecidableEq, Repr

inductive Family where
  | compare | version | string | logic
deriving DecidableEq, Repr

namespace Comparison

def symbol : Comparison → String
  | eq => "="
  | ne => "!="
  | gt => ">"
  | ge => ">="
  | lt => "<"
  | le => "<="

/-- Whether the comparison holds of two values that are ordered this way. -/
def holds : Comparison → Ordering → Bool
  | eq, o => o == .eq
  | ne, o => o != .eq
  | gt, o => o == .gt
  | ge, o => o != .lt
  | lt, o => o == .lt
  | le, o => o != .gt

def all : List Comparison := [eq, ne, gt, ge, lt, le]

end Comparison

namespace Operator

def name : Operator → String
  | compare c => c.symbol
  | version c => "ver" ++ c.symbol
  | empty false => "str-empty?"
  | empty true => "str-not-empty?"
  | text .equal false => "str="
  | text .equal true => "str!="
  | text .contains false => "str-contains?"
  | text .contains true => "str-not-contains?"
  | text .wildcard false => "str-wcmatch?"
  | text .wildcard true => "str-not-wcmatch?"
  | and => "and"
  | or => "or"
  | not => "not"

def all : List Operator :=
  Comparison.all.map compare ++ Comparison.all.map version ++
    [text .equal false, text .equal true, empty false, empty true, text .contains false,
     text .contains true, text .wildcard false, text .wildcard true, and, or, not]

/-- The operator of a given name. -/
def ofName? (s : String) : Option Operator := all.find? (·.name = s)

def family : Operator → Family
  | compare _ => .compare
  | version _ => .version
  | empty _ | text _ _ => .string
  | and | or | not => .logic

/-- Whether the operator takes exactly one argument. -/
def isUnary : Operator → Bool
  | empty _ | not => true
  | _ => false

end Operator

end RemoteConfig
