import Std.Data.ExtTreeMap
import RemoteConfig.Client.Context
import RemoteConfig.Rule.Expr
import RemoteConfig.Rule.Glob
import RemoteConfig.Rule.Operator
import RemoteConfig.Rule.Version
/-! # Evaluation of rules

An evaluator answers for one context at a time.  What it keeps between evaluations is a cache of
compiled patterns, so every evaluation also returns the evaluator that it leaves behind.  An
operator that is unknown, or cannot be applied to its arguments, is false. -/

namespace RemoteConfig

namespace Expr

/-- The value of an operand: a literal, or the text of an attribute. -/
def operand (ctx : Context) : Expr → Option Scalar
  | literal value => some value
  | symbol name => some (.string (ctx.lookup name))
  | call _ _ => none

/-- The text of an operand. -/
def operandText (ctx : Context) (e : Expr) : Option String := (e.operand ctx).map Scalar.toText

end Expr

namespace Comparison

/-- Whether the comparison holds of two numbers.  Nothing but inequality holds of `nan`. -/
def holdsOfNumbers (c : Comparison) (x y : Binary64) : Bool :=
  match x.compare? y with
  | some o => c.holds o
  | none => c == .ne

/-- Whether the comparison holds of two scalars.  They are compared as numbers if one of them is a
number and the other reads as one; otherwise only equality applies, as texts. -/
def holdsOfScalars? (c : Comparison) (a b : Scalar) : Option Bool :=
  match (if a.isNumber || b.isNumber then a.asNumber else none), b.asNumber, c with
  | some x, some y, _ => some (c.holdsOfNumbers x y)
  | _, _, eq => some (a.toText == b.toText)
  | _, _, ne => some (a.toText != b.toText)
  | _, _, _ => none

end Comparison

/-- Whether a text occurs in another. -/
def containsText (part : List Char) : List Char → Bool
  | [] => part.isEmpty
  | c :: rest => part.isPrefixOf (c :: rest) || containsText part rest

/-- An evaluator with the patterns it has compiled; a pattern that is refused is kept as such. -/
structure Evaluator where
  patterns : Std.ExtTreeMap String (Option Glob) compare

namespace Evaluator

/-- How many patterns the cache holds before it is emptied. -/
def cacheLimit : Nat := 256

def fresh : Evaluator := ⟨∅⟩

/-- Empties a cache that is more than half full. -/
def reset (ev : Evaluator) : Evaluator :=
  if cacheLimit / 2 < ev.patterns.size then fresh else ev

/-- The compiled form of a pattern, from the cache or new. -/
def compiled (ev : Evaluator) (pattern : String) : Option Glob × Evaluator :=
  match ev.patterns[pattern]? with
  | some glob => (glob, ev)
  | none =>
    let kept := if cacheLimit ≤ ev.patterns.size then ∅ else ev.patterns
    let glob := Glob.compile? pattern
    (glob, ⟨kept.insert pattern glob⟩)

/-- The outcome of a test of a text against a literal text. -/
def textTest (ev : Evaluator) (test : TextTest) (subject pattern : String) :
    Option Bool × Evaluator :=
  match test with
  | .equal => (some (subject == pattern), ev)
  | .contains => (some (containsText pattern.toList subject.toList), ev)
  | .wildcard =>
    let (glob, ev) := ev.compiled pattern
    (glob.map (·.isMatch subject), ev)

/-- Applies an operator that takes operands; nothing if it cannot be applied. -/
def applyToOperands (ev : Evaluator) (ctx : Context) (op : Operator) (args : List Expr) :
    Option Bool × Evaluator :=
  match op, args with
  | .compare c, [a, b] =>
    ((do c.holdsOfScalars? (← a.operand ctx) (← b.operand ctx)), ev)
  | .version c, [a, b] =>
    ((do
      let v ← Version.parse? (← a.operandText ctx)
      let w ← Version.parse? (← b.operandText ctx)
      return c.holds (v.cmp w)), ev)
  | .empty negated, [a] =>
    ((a.operandText ctx).map fun s => s.isEmpty != negated, ev)
  | .text test negated, [a, .literal (.string pattern)] =>
    match a.operandText ctx with
    | none => (none, ev)
    | some subject =>
      let (outcome, ev) := ev.textTest test subject pattern
      (outcome.map (· != negated), ev)
  | _, _ => (none, ev)

mutual
/-- Whether an expression holds as a condition; what is no truth value does not. -/
def holds (ev : Evaluator) (ctx : Context) : Expr → Bool × Evaluator
  | .literal (.bool b) => (b, ev)
  | .call name args =>
    match Operator.ofName? name with
    | none => (false, ev)
    | some op =>
      let (outcome, ev) := apply ev ctx op args
      (outcome.getD false, ev)
  | _ => (false, ev)

/-- Applies an operator; nothing if it cannot be applied. -/
def apply (ev : Evaluator) (ctx : Context) (op : Operator) (args : List Expr) :
    Option Bool × Evaluator :=
  match op, args with
  | .and, [] => (some false, ev)
  | .and, args =>
    let (b, ev) := allHold ev ctx args
    (some b, ev)
  | .or, args =>
    let (b, ev) := anyHolds ev ctx args
    (some b, ev)
  | .not, [e] =>
    let (b, ev) := holds ev ctx e
    (some !b, ev)
  | op, args => applyToOperands ev ctx op args

/-- Whether all conditions hold, the first failure decides. -/
def allHold (ev : Evaluator) (ctx : Context) : List Expr → Bool × Evaluator
  | [] => (true, ev)
  | e :: rest =>
    let (b, ev) := holds ev ctx e
    if b then allHold ev ctx rest else (false, ev)

/-- Whether some condition holds, the first success decides. -/
def anyHolds (ev : Evaluator) (ctx : Context) : List Expr → Bool × Evaluator
  | [] => (false, ev)
  | e :: rest =>
    let (b, ev) := holds ev ctx e
    if b then (true, ev) else anyHolds ev ctx rest
end

/-- The value of any expression: calls give truth values, symbols the text of their attribute. -/
def value (ev : Evaluator) (ctx : Context) : Expr → Scalar × Evaluator
  | .literal value => (value, ev)
  | .symbol name => (.string (ctx.lookup name), ev)
  | .call name args =>
    let (b, ev) := ev.holds ctx (.call name args)
    (.bool b, ev)

/-- The value of the first case whose condition holds, or else the fallback. -/
def selectFrom (ev : Evaluator) (ctx : Context) (fallback : Scalar) :
    List Case → Scalar × Evaluator
  | [] => (fallback, ev)
  | c :: rest =>
    let (b, ev) := ev.holds ctx c.condition
    if b then (c.value, ev) else selectFrom ev ctx fallback rest

/-- The value that a rule selects in a context. -/
def select (ev : Evaluator) (ctx : Context) (r : Rule) : Scalar × Evaluator :=
  ev.selectFrom ctx r.fallback r.cases

end Evaluator

end RemoteConfig
