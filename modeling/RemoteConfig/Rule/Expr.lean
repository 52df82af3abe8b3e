import RemoteConfig.Rule.Scalar
/-! # Expressions and rules

A rule lists conditions with the value that each selects, and a fallback for when none holds.  A
condition is an expression over literals, symbols, which name client attributes, and calls of
operators.  Any name is allowed here; which expressions are meaningful is a question of admission,
and what a meaningless one evaluates to is a question of evaluation. -/

namespace RemoteConfig

inductive Expr where
  | literal (value : Scalar)
  | symbol (name : String)
  | call (operator : String) (args : List Expr)
deriving Repr, Inhabited

/-- A condition and the value that it selects. -/
structure Case where
  condition : Expr
  value : Scalar
deriving Repr, Inhabited

structure Rule where
  cases : List Case
  fallback : Scalar
deriving Repr, Inhabited

namespace Expr

mutual
/-- Equality of trees, with the equality of values at the literals. -/
def equals : Expr → Expr → Bool
  | literal a, literal b => a.equals b
  | symbol a, symbol b => a == b
  | call f as, call g bs => f == g && equalsAll as bs
  | _, _ => false

def equalsAll : List Expr → List Expr → Bool
  | [], [] => true
  | a :: as, b :: bs => equals a b && equalsAll as bs
  | _, _ => false
end

def isCall : Expr → Bool
  | call _ _ => true
  | _ => false

end Expr

def Case.equals (a b : Case) : Bool := a.condition.equals b.condition && a.value.equals b.value

def Rule.equals (a b : Rule) : Bool :=
  a.cases.length == b.cases.length && (a.cases.zip b.cases).all (fun (x, y) => x.equals y) &&
    a.fallback.equals b.fallback

end RemoteConfig
