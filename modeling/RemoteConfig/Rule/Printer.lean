import RemoteConfig.Rule.Expr
/-! # Writing the text form

The canonical text has single spaces.  A whole floating number keeps a point and a zero, so that it
reads as a floating number again. -/

namespace RemoteConfig

namespace Scalar

/-- One character of a string in the text form. -/
def escapedChar : Char → List Char
  | '"' => ['\\', '"']
  | '\\' => ['\\', '\\']
  | '\n' => ['\\', 'n']
  | '\t' => ['\\', 't']
  | c => [c]

/-- A scalar in the text form. -/
def source : Scalar → List Char
  | bool true => ['#', 't']
  | bool false => ['#', 'f']
  | int n => (int n).toText.toList
  | float x => if x.isWhole then x.wholeText else Binary64.plain.render x
  | string s => '"' :: s.toList.flatMap escapedChar ++ ['"']

end Scalar

namespace Expr

mutual
/-- An expression in the text form. -/
def source : Expr → List Char
  | literal value => value.source
  | symbol name => name.toList
  | call operator args => '(' :: operator.toList ++ argsSource args ++ [')']

def argsSource : List Expr → List Char
  | [] => []
  | e :: rest => ' ' :: e.source ++ argsSource rest
end

def toText (e : Expr) : String := String.ofList e.source

end Expr

def Case.source (c : Case) : List Char :=
  [' ', '('] ++ c.condition.source ++ ' ' :: c.value.source ++ [')']

/-- A rule in the text form. -/
def Rule.toText (r : Rule) : String :=
  String.ofList ("(cond".toList ++ r.cases.flatMap Case.source ++ " (else ".toList ++
    r.fallback.source ++ [')', ')'])

end RemoteConfig
