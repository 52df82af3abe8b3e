import RemoteConfig.Rule.Expr
import RemoteConfig.Json.Parser
import RemoteConfig.Json.Printer
import RemoteConfig.Json.Record
/-! # Rules in JSON

Literals are plain JSON scalars, a symbol is an object with the field `symbol`, a call is an object
with the fields `func` and `arguments`.  An object with a usable `symbol` is a symbol, whatever else
it holds.  The parts of a rule whose form decides what they are have to be readable as a whole;
unknown fields of the rule itself are skipped. -/

namespace RemoteConfig

open Json

namespace Scalar

def toJson : Scalar → Json
  | bool b => .bool b
  | int n => .integer n
  | float x => .float x
  | string s => .string s

/-- Integers beyond 64 bits with a sign are numbers. -/
def ofJson? : Json → Option Scalar
  | .bool b => some (bool b)
  | .integer n => some (if Decimal.fitsInt64 n then int n else float (.ofInt n))
  | .float x => some (float x)
  | .string s => some (string s)
  | _ => none

end Scalar

namespace Expr

mutual
def toJson : Expr → Json
  | literal value => value.toJson
  | symbol name => .object [("symbol", .string name)]
  | call operator args =>
    .object [("func", .string operator), ("arguments", .array (toJsonAll args))]

def toJsonAll : List Expr → List Json
  | [] => []
  | e :: rest => e.toJson :: toJsonAll rest
end

/-- The text of a field that occurs exactly once. -/
def textField? (fields : List (String × Json)) (name : String) : Option String :=
  (fieldOnce? fields name).join.bind string?

mutual
/-- The expression that a value denotes, whatever its nesting. -/
def ofJson? : Json → Option Expr
  | .object fields =>
    match textField? fields "symbol" with
    | some name => some (symbol name)
    | none =>
      match textField? fields "func", argumentsOf fields with
      | some operator, [some args] => some (call operator args)
      | _, _ => none
  | j => (Scalar.ofJson? j).map literal

/-- What each field `arguments` denotes. -/
def argumentsOf : List (String × Json) → List (Option (List Expr))
  | [] => []
  | (name, .array items) :: rest =>
    if name = "arguments" then ofJsonAll? items :: argumentsOf rest else argumentsOf rest
  | (name, _) :: rest =>
    if name = "arguments" then none :: argumentsOf rest else argumentsOf rest

def ofJsonAll? : List Json → Option (List Expr)
  | [] => some []
  | j :: rest =>
    match ofJson? j, ofJsonAll? rest with
    | some e, some es => some (e :: es)
    | _, _ => none
end

/-- Reads an expression, all of which has to be readable. -/
def read? : Reader Expr := fun place j => if j.fits place.room then ofJson? j else none

/-- The expression that a text denotes. -/
def parseJson (s : String) : Option Expr := (Json.parse s).bind (read? .top)

def printJson (e : Expr) : String := e.toJson.print

end Expr

namespace Scalar

/-- The scalar that a text denotes. -/
def parseJson (s : String) : Option Scalar := (Json.parse s).bind ofJson?

def printJson (x : Scalar) : String := x.toJson.print

end Scalar

namespace Case

def toJson (c : Case) : Json :=
  .object [("condition", c.condition.toJson), ("value", c.value.toJson)]

def read? : Reader Case := fun place j =>
  match record? ["condition", "value"] place j with
  | some [some condition, some value] => do
    return ⟨← Expr.read? place.inner condition, ← Scalar.ofJson? value⟩
  | _ => none

end Case

namespace Rule

def toJson (r : Rule) : Json :=
  .object [("cond-values", .array (r.cases.map Case.toJson)), ("default-value", r.fallback.toJson)]

def read? : Reader Rule := fun place j =>
  match record? ["cond-values", "default-value"] place j with
  | some [some cases, some fallback] => do
    return ⟨← list? Case.read? place.inner cases, ← Scalar.ofJson? fallback⟩
  | _ => none

/-- The rule that a text denotes. -/
def parseJson (s : String) : Option Rule := (Json.parse s).bind (read? .top)

def printJson (r : Rule) : String := r.toJson.print

end Rule

end RemoteConfig
