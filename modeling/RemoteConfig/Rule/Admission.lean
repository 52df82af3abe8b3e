import RemoteConfig.Client.Attribute
import RemoteConfig.Rule.Expr
import RemoteConfig.Rule.Operator
import RemoteConfig.Rule.Version
/-! # Admission of rules

Evaluation never fails: what cannot be applied is false.  Mistakes are therefore caught before a
rule is stored.  An expression is admitted as a condition if it is a truth value or a call whose
operator is known, has its number of arguments, and is applied to operands of its family. -/

namespace RemoteConfig

/-- Why an expression or a rule is not admitted. -/
inductive Inadmissible where
  | literalCondition (value : Scalar)
  | symbolCondition (name : String)
  | unknownOperator (name : String)
  | noArguments (operator : Operator)
  | argumentCount (operator : Operator) (expected found : Nat)
  | nestedOperand (operator : Operator)
  | noAttribute (operator : Operator)
  | unknownSymbol (name : String)
  | attributeExpected (operator : Operator)
  | wrongDomain (operator : Operator) (name : String)
  | textExpected (operator : Operator)
  | tooManySegments (version : String)
  | notAVersion (text : String)
  | conditionNotACall (index : Nat)
  | condition (index : Nat) (reason : Inadmissible)
deriving Repr

/-- How many segments a version literal may have. -/
def Version.maxSegments : Nat := 4

namespace Inadmissible

def message : Inadmissible → String
  | literalCondition value => "literal " ++ value.toText ++ " is not a boolean predicate"
  | symbolCondition name => "symbol " ++ name ++ " is not a boolean predicate"
  | unknownOperator name => "unknown operator `" ++ name ++ "`"
  | noArguments op => "`" ++ op.name ++ "` needs at least one argument"
  | argumentCount op expected found =>
    "`" ++ op.name ++ "` takes " ++ toString expected ++ " argument(s), got " ++ toString found
  | nestedOperand op => "`" ++ op.name ++ "` operands must be symbols or literals"
  | noAttribute op => "`" ++ op.name ++ "` must reference a client attribute"
  | unknownSymbol name => "unknown symbol `" ++ name ++ "`"
  | attributeExpected op => "`" ++ op.name ++ "` expects a client attribute as its first argument"
  | wrongDomain op name => "`" ++ op.name ++ "` cannot be applied to " ++ name
  | textExpected op => "`" ++ op.name ++ "` expects a string literal argument"
  | tooManySegments version =>
    "version `" ++ version ++ "` has more than " ++ toString Version.maxSegments ++ " segments"
  | notAVersion text => "`" ++ text ++ "` is not a dotted numeric version"
  | conditionNotACall index => "condition #" ++ toString index ++ " must be an operator call"
  | condition index reason => "condition #" ++ toString index ++ ": " ++ reason.message

end Inadmissible

namespace Expr

open Inadmissible

/-- The attribute of a symbol in a rule. -/
def knownAttribute (name : String) : Except Inadmissible Attribute :=
  match Attribute.ofSymbol? name with
  | some a => .ok a
  | none => .error (unknownSymbol name)

/-- Whether the operand names an attribute of the given domain. -/
def expectAttribute (op : Operator) (domain : Domain) : Expr → Except Inadmissible Unit
  | symbol name => do
    let a ← knownAttribute name
    if a.domain = domain then .ok () else .error (wrongDomain op name)
  | _ => .error (attributeExpected op)

/-- The text of an operand that is a literal text. -/
def expectText (op : Operator) : Expr → Except Inadmissible String
  | literal (.string s) => .ok s
  | _ => .error (textExpected op)

/-- Whether an operand of a comparison is a literal or a known attribute. -/
def expectOperand (op : Operator) : Expr → Except Inadmissible Unit
  | symbol name => (knownAttribute name).map fun _ => ()
  | literal _ => .ok ()
  | call _ _ => .error (nestedOperand op)

def isSymbol : Expr → Bool
  | symbol _ => true
  | _ => false

/-- A comparison: two operands, one of them an attribute. -/
def acceptComparison (op : Operator) : List Expr → Except Inadmissible Unit
  | [a, b] => do
    expectOperand op a
    expectOperand op b
    if a.isSymbol || b.isSymbol then .ok () else .error (noAttribute op)
  | args => .error (argumentCount op 2 args.length)

/-- A comparison of versions: an attribute that holds one, and a literal version. -/
def acceptVersion (op : Operator) : List Expr → Except Inadmissible Unit
  | [a, b] => do
    expectAttribute op .version a
    let text ← expectText op b
    match Version.parse? text with
    | some v =>
      if v.segments.length ≤ Version.maxSegments then .ok () else .error (tooManySegments text)
    | none => .error (notAVersion text)
  | args => .error (argumentCount op 2 args.length)

/-- A test of a text attribute alone. -/
def acceptUnaryText (op : Operator) : List Expr → Except Inadmissible Unit
  | [a] => expectAttribute op .text a
  | args => .error (argumentCount op 1 args.length)

/-- A test of a text attribute against a literal text. -/
def acceptBinaryText (op : Operator) : List Expr → Except Inadmissible Unit
  | [a, b] => do
    expectAttribute op .text a
    (expectText op b).map fun _ => ()
  | args => .error (argumentCount op 2 args.length)

mutual
/-- Whether an expression is admitted as a condition. -/
def accept : Expr → Except Inadmissible Unit
  | literal (.bool _) => .ok ()
  | literal value => .error (literalCondition value)
  | symbol name => .error (symbolCondition name)
  | call name args =>
    match Operator.ofName? name with
    | none => .error (unknownOperator name)
    | some op =>
      match op with
      | .compare _ => acceptComparison op args
      | .version _ => acceptVersion op args
      | .empty _ => acceptUnaryText op args
      | .text _ _ => acceptBinaryText op args
      | .not => if args.length = 1 then acceptAll args else .error (argumentCount op 1 args.length)
      | .and | .or => if args.isEmpty then .error (noArguments op) else acceptAll args

/-- Whether all expressions are admitted; the first that is not tells why. -/
def acceptAll : List Expr → Except Inadmissible Unit
  | [] => .ok ()
  | e :: rest => do
    accept e
    acceptAll rest
end

end Expr

namespace Rule

open Inadmissible

/-- Whether the cases from a given index on are admitted. -/
def acceptCases (index : Nat) : List Case → Except Inadmissible Unit
  | [] => .ok ()
  | c :: rest => do
    if !c.condition.isCall then .error (conditionNotACall index)
    else
      match c.condition.accept with
      | .ok () => acceptCases (index + 1) rest
      | .error reason => .error (condition index reason)

/-- Whether a rule is admitted: every condition is a call, and admitted. -/
def accept (r : Rule) : Except Inadmissible Unit := acceptCases 0 r.cases

end Rule

end RemoteConfig
