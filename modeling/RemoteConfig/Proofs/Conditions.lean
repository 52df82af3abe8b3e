import Mathlib
import RemoteConfig.Proofs.Isolation
import RemoteConfig.Proofs.Outcome
import RemoteConfig.Rule.Admission
/-! # Admitted conditions

Evaluation is lenient: an operator that is unknown or cannot be applied is false, and nobody is
told.  Beside it stands a strict reading, in which a condition has a truth value only if every part
of it has a meaning.  Conditions that are admitted are *legal*, and on legal conditions the two
agree.  A legal call still may be undecided, in three ways that depend on the client or on the size
of a pattern, and then it is false. -/

namespace RemoteConfig

theorem Context.lookup_of_ofSymbol? {name : String} {a : Attribute}
    (h : Attribute.ofSymbol? name = some a) (ctx : Context) : ctx.lookup name = ctx.get a := by
  rw [lookup, h]

/-- The search for a part of a text finds it exactly if it occurs. -/
theorem containsText_iff {part : List Char} : ∀ {s : List Char},
    containsText part s = true ↔ part <:+: s
  | [] => by simp [containsText]
  | c :: rest => by
      rw [containsText, Bool.or_eq_true, List.isPrefixOf_iff_prefix, containsText_iff,
        List.infix_cons_iff]

/-! ## Legal conditions -/

namespace Expr

/-- What a comparison takes: a literal, or the symbol of an attribute. -/
inductive IsOperand : Expr → Prop
  | literal (value : Scalar) : IsOperand (.literal value)
  | symbol {name : String} {a : Attribute} (ha : Attribute.ofSymbol? name = some a) :
      IsOperand (.symbol name)

/-- The conditions that make sense for every client. -/
inductive Legal : Expr → Prop
  | truth (b : Bool) : Legal (.literal (.bool b))
  | compare {name : String} {c : Comparison} {a b : Expr}
      (hname : Operator.ofName? name = some (.compare c)) (ha : a.IsOperand) (hb : b.IsOperand)
      (hsymbol : a.isSymbol ∨ b.isSymbol) : Legal (.call name [a, b])
  | version {name symbol text : String} {c : Comparison} {a : Attribute} {v : Version}
      (hname : Operator.ofName? name = some (.version c)) (ha : Attribute.ofSymbol? symbol = some a)
      (hdomain : a.domain = .version) (hv : Version.parse? text = some v)
      (hsegments : v.segments.length ≤ Version.maxSegments) :
      Legal (.call name [.symbol symbol, .literal (.string text)])
  | empty {name symbol : String} {negated : Bool} {a : Attribute}
      (hname : Operator.ofName? name = some (.empty negated))
      (ha : Attribute.ofSymbol? symbol = some a) (hdomain : a.domain = .text) :
      Legal (.call name [.symbol symbol])
  | text {name symbol pattern : String} {test : TextTest} {negated : Bool} {a : Attribute}
      (hname : Operator.ofName? name = some (.text test negated))
      (ha : Attribute.ofSymbol? symbol = some a) (hdomain : a.domain = .text) :
      Legal (.call name [.symbol symbol, .literal (.string pattern)])
  | not {name : String} {e : Expr} (hname : Operator.ofName? name = some .not) (he : Legal e) :
      Legal (.call name [e])
  | junction {name : String} {op : Operator} {args : List Expr}
      (hname : Operator.ofName? name = some op) (hop : op = .and ∨ op = .or) (hne : args ≠ [])
      (hargs : ∀ e ∈ args, Legal e) : Legal (.call name args)

section Inversion

variable {op : Operator} {e : Expr} {args : List Expr} {u : Unit}

theorem knownAttribute_eq_ok {name : String} {a : Attribute} (h : knownAttribute name = .ok a) :
    Attribute.ofSymbol? name = some a := by
  unfold knownAttribute at h
  split at h
  · cases h
    assumption
  · cases h

theorem expectOperand_eq_ok (h : expectOperand op e = .ok u) : e.IsOperand := by
  cases e with
  | literal value => exact .literal value
  | call name args => cases h
  | symbol name =>
      rw [expectOperand] at h
      cases ha : knownAttribute name with
      | error reason =>
          rw [ha] at h
          cases h
      | ok a => exact .symbol (knownAttribute_eq_ok ha)

theorem expectAttribute_eq_ok {domain : Domain} (h : expectAttribute op domain e = .ok u) :
    ∃ name a, e = .symbol name ∧ Attribute.ofSymbol? name = some a ∧ a.domain = domain := by
  cases e with
  | literal value => cases h
  | call name args => cases h
  | symbol name =>
      obtain ⟨a, ha, h⟩ := bind_eq_ok h
      split at h
      · exact ⟨name, a, rfl, knownAttribute_eq_ok ha, ‹_›⟩
      · cases h

theorem expectText_eq_ok {s : String} (h : expectText op e = .ok s) : e = .literal (.string s) := by
  unfold expectText at h
  split at h
  · cases h
    rfl
  · cases h

theorem acceptComparison_eq_ok (h : acceptComparison op args = .ok u) :
    ∃ a b, args = [a, b] ∧ a.IsOperand ∧ b.IsOperand ∧ (a.isSymbol ∨ b.isSymbol) := by
  unfold acceptComparison at h
  split at h
  · rename_i a b
    obtain ⟨_, ha, h⟩ := bind_eq_ok h
    obtain ⟨_, hb, h⟩ := bind_eq_ok h
    split at h
    · rename_i hsymbol
      exact ⟨a, b, rfl, expectOperand_eq_ok ha, expectOperand_eq_ok hb,
        by simpa using hsymbol⟩
    · cases h
  · cases h

theorem acceptVersion_eq_ok (h : acceptVersion op args = .ok u) :
    ∃ symbol a text v, args = [.symbol symbol, .literal (.string text)] ∧
      Attribute.ofSymbol? symbol = some a ∧ a.domain = .version ∧ Version.parse? text = some v ∧
      v.segments.length ≤ Version.maxSegments := by
  unfold acceptVersion at h
  split at h
  · obtain ⟨_, hattribute, hrest⟩ := bind_eq_ok h
    obtain ⟨text, htext, hversion⟩ := bind_eq_ok hrest
    clear h hrest
    obtain ⟨symbol, a, rfl, ha, hdomain⟩ := expectAttribute_eq_ok hattribute
    obtain rfl := expectText_eq_ok htext
    split at hversion
    · rename_i v hv
      split at hversion
      · exact ⟨symbol, a, text, v, rfl, ha, hdomain, hv, ‹_›⟩
      · cases hversion
    · cases hversion
  · cases h

theorem acceptUnaryText_eq_ok (h : acceptUnaryText op args = .ok u) :
    ∃ symbol a, args = [.symbol symbol] ∧ Attribute.ofSymbol? symbol = some a ∧
      a.domain = .text := by
  unfold acceptUnaryText at h
  split at h
  · obtain ⟨symbol, a, rfl, ha, hdomain⟩ := expectAttribute_eq_ok h
    exact ⟨symbol, a, rfl, ha, hdomain⟩
  · cases h

theorem acceptBinaryText_eq_ok (h : acceptBinaryText op args = .ok u) :
    ∃ symbol a pattern, args = [.symbol symbol, .literal (.string pattern)] ∧
      Attribute.ofSymbol? symbol = some a ∧ a.domain = .text := by
  unfold acceptBinaryText at h
  split at h
  · rename_i b
    obtain ⟨_, hattribute, htext⟩ := bind_eq_ok h
    clear h
    obtain ⟨symbol, a, rfl, ha, hdomain⟩ := expectAttribute_eq_ok hattribute
    cases hpattern : expectText op b with
    | error reason =>
        rw [hpattern] at htext
        cases htext
    | ok pattern =>
        obtain rfl := expectText_eq_ok hpattern
        exact ⟨symbol, a, pattern, rfl, ha, hdomain⟩
  · cases h

end Inversion

mutual
/-- What is admitted is legal. -/
theorem legal_of_accept : ∀ {e : Expr}, e.accept = .ok () → e.Legal
  | .literal (.bool b), _ => .truth b
  | .literal (.int _), h => by cases h
  | .literal (.float _), h => by cases h
  | .literal (.string _), h => by cases h
  | .symbol _, h => by cases h
  | .call name args, h => by
      rw [accept] at h
      split at h
      · cases h
      · rename_i op hname
        cases op with
        | compare c =>
            obtain ⟨a, b, rfl, ha, hb, hsymbol⟩ := acceptComparison_eq_ok h
            exact .compare hname ha hb hsymbol
        | version c =>
            obtain ⟨symbol, a, text, v, rfl, ha, hdomain, hv, hsegments⟩ := acceptVersion_eq_ok h
            exact .version hname ha hdomain hv hsegments
        | empty negated =>
            obtain ⟨symbol, a, rfl, ha, hdomain⟩ := acceptUnaryText_eq_ok h
            exact .empty hname ha hdomain
        | text test negated =>
            obtain ⟨symbol, a, pattern, rfl, ha, hdomain⟩ := acceptBinaryText_eq_ok h
            exact .text hname ha hdomain
        | not =>
            simp only at h
            split at h
            · rename_i hlength
              obtain ⟨e, rfl⟩ := List.length_eq_one_iff.mp hlength
              exact .not hname (legal_of_acceptAll h e (List.mem_singleton_self e))
            · cases h
        | and =>
            simp only at h
            split at h
            · cases h
            · rename_i hne
              exact .junction hname (.inl rfl) (by simpa using hne) (legal_of_acceptAll h)
        | or =>
            simp only at h
            split at h
            · cases h
            · rename_i hne
              exact .junction hname (.inr rfl) (by simpa using hne) (legal_of_acceptAll h)

theorem legal_of_acceptAll : ∀ {args : List Expr}, acceptAll args = .ok () → ∀ e ∈ args, e.Legal
  | [], _ => nofun
  | e :: rest, h => by
      rw [acceptAll] at h
      obtain ⟨_, he, hrest⟩ := bind_eq_ok h
      exact List.forall_mem_cons.mpr ⟨legal_of_accept he, legal_of_acceptAll hrest⟩
end

end Expr

/-! ## The strict reading -/

/-- The numbers as which two scalars are compared: one of them has to be a number, and the other to
read as one. -/
def Scalar.numbers? (x y : Scalar) : Option (Binary64 × Binary64) :=
  if x.isNumber || y.isNumber then do return (← x.asNumber, ← y.asNumber) else none

/-- Whether a comparison holds of two scalars.  Without numbers, an ordering is false. -/
def Comparison.judge (c : Comparison) (x y : Scalar) : Bool :=
  match Scalar.numbers? x y, c with
  | some (m, n), c => c.holdsOfNumbers m n
  | none, .eq => x.toText == y.toText
  | none, .ne => x.toText != y.toText
  | none, _ => false

namespace Expr

/-- What an operand of a comparison means. -/
def meaning? (ctx : Context) : Expr → Option Scalar
  | literal value => some value
  | symbol name => (Attribute.ofSymbol? name).map fun a => .string (ctx.get a)
  | call _ _ => none

end Expr

/-- The truth value of an operator on its operands, if that has a meaning.  A version that the
client does not have, and a pattern that is refused, are false. -/
def Operator.judge? (ctx : Context) : Operator → List Expr → Option Bool
  | compare c, [a, b] => do return c.judge (← a.meaning? ctx) (← b.meaning? ctx)
  | version c, [.symbol name, .literal (.string s)] => do
    let a ← Attribute.ofSymbol? name
    let w ← Version.parse? s
    match Version.parse? (ctx.get a) with
    | some v => return c.holds (v.cmp w)
    | none => return false
  | empty negated, [.symbol name] => do
    let a ← Attribute.ofSymbol? name
    return ctx.get a = "" ↔ !negated
  | text test negated, [.symbol name, .literal (.string s)] => do
    let a ← Attribute.ofSymbol? name
    match test with
    | .equal => return ctx.get a = s ↔ !negated
    | .contains => return s.toList <:+: (ctx.get a).toList ↔ !negated
    | .wildcard =>
      match Glob.compile? s with
      | some g => return g.isMatch (ctx.get a) ↔ !negated
      | none => return false
  | _, _ => none

namespace Expr

mutual
/-- The truth value of a condition, if every part of it has a meaning: all of the arguments of a
conjunction hold, or any of a disjunction, or not the one of a negation. -/
def strict? (ctx : Context) : Expr → Option Bool
  | literal (.bool b) => some b
  | call name args =>
    match Operator.ofName? name with
    | none => none
    | some .and => if args.isEmpty then none else (strictAll? ctx args).map (·.all id)
    | some .or => if args.isEmpty then none else (strictAll? ctx args).map (·.any id)
    | some .not =>
      match strictAll? ctx args with
      | some [b] => some !b
      | _ => none
    | some op => op.judge? ctx args
  | _ => none

/-- The truth values of some conditions, all of which have to have one. -/
def strictAll? (ctx : Context) : List Expr → Option (List Bool)
  | [] => some []
  | e :: rest => do return (← strict? ctx e) :: (← strictAll? ctx rest)
end

mutual
/-- All calls in an expression, with the names of their operators and their arguments. -/
def calls : Expr → List (String × List Expr)
  | call name args => (name, args) :: callsAll args
  | _ => []

def callsAll : List Expr → List (String × List Expr)
  | [] => []
  | e :: rest => e.calls ++ callsAll rest
end

/-- A literal that is a number. -/
def IsNumberLiteral : Expr → Prop
  | literal value => value.isNumber = true
  | _ => False

/-- An operand that reads as a number. -/
def ReadsAsNumber (ctx : Context) (e : Expr) : Prop :=
  ∃ value x, e.operand ctx = some value ∧ value.asNumber = some x

end Expr

/-- The calls of legal conditions that cannot be decided for a client. -/
inductive Undecided (ctx : Context) : Operator → List Expr → Prop
  /-- The text of the attribute is not a version. -/
  | version {c : Comparison} {name : String} {b : Expr}
      (h : Version.parse? (ctx.lookup name) = none) : Undecided ctx (.version c) [.symbol name, b]
  /-- Other things than numbers are ordered, or none of them is a number on its own. -/
  | ordering {c : Comparison} {a b : Expr} (hne : c ≠ .eq ∧ c ≠ .ne)
      (h : ¬ ((a.IsNumberLiteral ∨ b.IsNumberLiteral) ∧
        a.ReadsAsNumber ctx ∧ b.ReadsAsNumber ctx)) : Undecided ctx (.compare c) [a, b]
  /-- The pattern is refused. -/
  | wildcard {negated : Bool} {a : Expr} {pattern : String} (h : Glob.compile? pattern = none) :
      Undecided ctx (.text .wildcard negated) [a, .literal (.string pattern)]

/-! ## Operators on operands -/

theorem decide_negated {p : Prop} [Decidable p] {b : Bool} (h : b = true ↔ p) (negated : Bool) :
    decide (p ↔ (!negated) = true) = (b != negated) := by
  cases negated <;> cases b <;> simp_all

namespace Scalar

theorem numbers?_eq_none {x y : Scalar} : numbers? x y = none ↔
    ¬ ((x.isNumber = true ∨ y.isNumber = true) ∧ (∃ m, x.asNumber = some m) ∧
      ∃ n, y.asNumber = some n) := by
  unfold numbers?
  cases x.asNumber <;> cases y.asNumber <;> simp

end Scalar

namespace Comparison

theorem holdsOfScalars?_eq_none {c : Comparison} {x y : Scalar} :
    c.holdsOfScalars? x y = none ↔ (c ≠ .eq ∧ c ≠ .ne) ∧ Scalar.numbers? x y = none := by
  unfold holdsOfScalars? Scalar.numbers?
  cases hx : x.asNumber <;> cases hy : y.asNumber <;> cases c <;> split <;> simp_all

theorem judge_eq {c : Comparison} {x y : Scalar} :
    c.judge x y = (c.holdsOfScalars? x y).getD false := by
  unfold holdsOfScalars? judge Scalar.numbers?
  cases hx : x.asNumber <;> cases hy : y.asNumber <;> cases c <;> split <;> simp_all

end Comparison

namespace Expr

/-- Operands have a meaning, which is what an evaluator compares. -/
theorem IsOperand.exists_operand {e : Expr} (h : e.IsOperand) (ctx : Context) : ∃ x,
    e.operand ctx = some x ∧ e.meaning? ctx = some x ∧ (e.IsNumberLiteral ↔ x.isNumber = true) := by
  cases h with
  | literal value => exact ⟨value, rfl, rfl, Iff.rfl⟩
  | @symbol name a ha =>
      refine ⟨.string (ctx.get a), ?_, ?_, ?_⟩
      · rw [operand, Context.lookup_of_ofSymbol? ha]
      · rw [meaning?, ha, Option.map_some]
      · simp [IsNumberLiteral, Scalar.isNumber]

theorem readsAsNumber_iff {ctx : Context} {e : Expr} {x : Scalar} (h : e.operand ctx = some x) :
    e.ReadsAsNumber ctx ↔ ∃ m, x.asNumber = some m := by
  simp [ReadsAsNumber, h]

end Expr

namespace Evaluator

/-- A call on operands is undecided in the listed ways only, and otherwise has the outcome that the
strict reading says.  Undecided calls are false there. -/
structure Decided (ev : Evaluator) (ctx : Context) (op : Operator) (args : List Expr) : Prop where
  undecided : (ev.applyToOperands ctx op args).1 = none ↔ Undecided ctx op args
  judged : op.judge? ctx args = some ((ev.applyToOperands ctx op args).1.getD false)

section Operands

variable (ev : Evaluator) (ctx : Context)

theorem decided_compare (c : Comparison) {a b : Expr} (ha : a.IsOperand) (hb : b.IsOperand) :
    ev.Decided ctx (.compare c) [a, b] := by
  obtain ⟨x, hx, hmeansx, hnumberx⟩ := ha.exists_operand ctx
  obtain ⟨y, hy, hmeansy, hnumbery⟩ := hb.exists_operand ctx
  have houtcome : (ev.applyToOperands ctx (.compare c) [a, b]).1 = c.holdsOfScalars? x y := by
    simp [applyToOperands, hx, hy]
  constructor
  · rw [houtcome, Comparison.holdsOfScalars?_eq_none, Scalar.numbers?_eq_none, ← hnumberx,
      ← hnumbery, ← Expr.readsAsNumber_iff hx, ← Expr.readsAsNumber_iff hy]
    constructor
    · rintro ⟨hne, h⟩
      exact .ordering hne h
    · rintro ⟨⟩
      exact ⟨‹_›, ‹_›⟩
  · rw [houtcome, ← Comparison.judge_eq]
    simp [Operator.judge?, hmeansx, hmeansy]

theorem decided_version (c : Comparison) {symbol text : String} {a : Attribute} {w : Version}
    (ha : Attribute.ofSymbol? symbol = some a) (hw : Version.parse? text = some w) :
    ev.Decided ctx (.version c) [.symbol symbol, .literal (.string text)] := by
  have hlookup := Context.lookup_of_ofSymbol? ha ctx
  have houtcome :
      (ev.applyToOperands ctx (.version c) [.symbol symbol, .literal (.string text)]).1 =
        (Version.parse? (ctx.get a)).map fun v => c.holds (v.cmp w) := by
    cases hv : Version.parse? (ctx.get a) <;>
      simp [applyToOperands, Expr.operandText, Expr.operand, Scalar.toText, hlookup, hv, hw]
  constructor
  · rw [houtcome, Option.map_eq_none_iff, ← hlookup]
    exact ⟨.version, fun h => by cases h; assumption⟩
  · rw [houtcome]
    cases hv : Version.parse? (ctx.get a) <;> simp [Operator.judge?, ha, hw, hv]

theorem decided_empty (negated : Bool) {symbol : String} {a : Attribute}
    (ha : Attribute.ofSymbol? symbol = some a) :
    ev.Decided ctx (.empty negated) [.symbol symbol] := by
  have houtcome : (ev.applyToOperands ctx (.empty negated) [.symbol symbol]).1 =
      some ((ctx.get a).isEmpty != negated) := by
    simp [applyToOperands, Expr.operandText, Expr.operand, Scalar.toText,
      Context.lookup_of_ofSymbol? ha ctx]
  constructor
  · rw [houtcome]
    exact iff_of_false (Option.some_ne_none _) (by rintro ⟨⟩)
  · rw [houtcome, Operator.judge?, ha]
    exact congrArg some (decide_negated String.isEmpty_iff negated)

theorem decided_text {ev : Evaluator} (hev : ev.Sound) (test : TextTest) (negated : Bool)
    {symbol : String} (pattern : String) {a : Attribute}
    (ha : Attribute.ofSymbol? symbol = some a) :
    ev.Decided ctx (.text test negated) [.symbol symbol, .literal (.string pattern)] := by
  have houtcome : (ev.applyToOperands ctx (.text test negated)
      [.symbol symbol, .literal (.string pattern)]).1 =
        (ev.textTest test (ctx.get a) pattern).1.map (· != negated) := by
    simp [applyToOperands, Expr.operandText, Expr.operand, Scalar.toText,
      Context.lookup_of_ofSymbol? ha ctx]
  cases test with
  | equal =>
      constructor
      · rw [houtcome]
        exact iff_of_false (Option.some_ne_none _) (by rintro ⟨⟩)
      · rw [houtcome, Operator.judge?, ha]
        exact congrArg some (decide_negated beq_iff_eq negated)
  | contains =>
      constructor
      · rw [houtcome]
        exact iff_of_false (Option.some_ne_none _) (by rintro ⟨⟩)
      · rw [houtcome, Operator.judge?, ha]
        exact congrArg some (decide_negated containsText_iff negated)
  | wildcard =>
      have htest : (ev.textTest .wildcard (ctx.get a) pattern).1 =
          (Glob.compile? pattern).map (·.isMatch (ctx.get a)) :=
        congrArg (Option.map _) (fst_compiled hev pattern)
      constructor
      · rw [houtcome, htest, Option.map_eq_none_iff, Option.map_eq_none_iff]
        exact ⟨.wildcard, fun h => by cases h; assumption⟩
      · rw [houtcome, htest, Operator.judge?, ha]
        cases Glob.compile? pattern with
        | none => rfl
        | some g => exact congrArg some (decide_negated Iff.rfl negated)

end Operands

theorem apply_operands {op : Operator} (hop : op.family ≠ .logic) (ev : Evaluator) (ctx : Context)
    (args : List Expr) : ev.apply ctx op args = ev.applyToOperands ctx op args := by
  cases op with
  | and => exact absurd rfl hop
  | or => exact absurd rfl hop
  | not => exact absurd rfl hop
  | _ => simp only [apply]

theorem holds_call {name : String} {op : Operator} (hname : Operator.ofName? name = some op)
    (ev : Evaluator) (ctx : Context) (args : List Expr) :
    (ev.holds ctx (.call name args)).1 = (ev.apply ctx op args).1.getD false := by
  rw [holds, hname]

/-- A call that is not one of logic holds if its operator has the outcome true. -/
theorem holds_operands {name : String} {op : Operator} (hname : Operator.ofName? name = some op)
    (hop : op.family ≠ .logic) (ev : Evaluator) (ctx : Context) (args : List Expr) :
    (ev.holds ctx (.call name args)).1 = (ev.applyToOperands ctx op args).1.getD false := by
  rw [holds_call hname, apply_operands hop]

end Evaluator

/-! ## Conditions -/

namespace Expr

theorem mem_callsAll {call : String × List Expr} {args : List Expr} :
    call ∈ callsAll args ↔ ∃ e ∈ args, call ∈ e.calls := by
  induction args with
  | nil => simp [callsAll]
  | cons e rest ih => simp [callsAll, ih]

theorem IsOperand.calls {e : Expr} (h : e.IsOperand) : e.calls = [] := by
  cases h <;> rfl

theorem strict?_operands {name : String} {op : Operator} (hname : Operator.ofName? name = some op)
    (hop : op.family ≠ .logic) (ctx : Context) (args : List Expr) :
    (call name args).strict? ctx = op.judge? ctx args := by
  rw [strict?, hname]
  cases op with
  | and => exact absurd rfl hop
  | or => exact absurd rfl hop
  | not => exact absurd rfl hop
  | _ => rfl

/-- Evaluation does a condition justice: each operator in it is known and undecided in the listed
ways only, and what holds is what the strict reading says. -/
structure Faithful (ctx : Context) (e : Expr) : Prop where
  decided : ∀ ev : Evaluator, ev.Sound → ∀ p ∈ e.calls, ∃ op, Operator.ofName? p.1 = some op ∧
    ((ev.apply ctx op p.2).1 = none ↔ Undecided ctx op p.2)
  agrees : ∀ ev : Evaluator, ev.Sound → e.strict? ctx = some (ev.holds ctx e).1

variable {ctx : Context}

theorem faithful_of_decided {name : String} {op : Operator} {args : List Expr}
    (hname : Operator.ofName? name = some op) (hop : op.family ≠ .logic)
    (hargs : ∀ e ∈ args, e.calls = []) (h : ∀ ev : Evaluator, ev.Sound → ev.Decided ctx op args) :
    Faithful ctx (call name args) := by
  constructor
  · intro ev hev p hp
    have hnone : callsAll args = [] := List.eq_nil_iff_forall_not_mem.mpr fun p hp => by
      obtain ⟨e, he, hmem⟩ := mem_callsAll.mp hp
      simp [hargs e he] at hmem
    rw [calls, hnone] at hp
    obtain rfl := List.mem_singleton.mp hp
    refine ⟨op, hname, ?_⟩
    rw [Evaluator.apply_operands hop]
    exact (h ev hev).undecided
  · intro ev hev
    rw [strict?_operands hname hop, Evaluator.holds_call hname, Evaluator.apply_operands hop]
    exact (h ev hev).judged

/-- Short circuits do not show: all of the conditions hold, or any, as in the strict reading. -/
theorem strictAll?_of_faithful : ∀ {args : List Expr}, (∀ e ∈ args, Faithful ctx e) →
    ∃ values, strictAll? ctx args = some values ∧ ∀ ev : Evaluator, ev.Sound →
      (ev.allHold ctx args).1 = values.all id ∧ (ev.anyHolds ctx args).1 = values.any id
  | [], _ => ⟨[], by rw [strictAll?], fun ev _ => by simp [Evaluator.allHold, Evaluator.anyHolds]⟩
  | e :: rest, h => by
      obtain ⟨he, hrest⟩ := List.forall_mem_cons.mp h
      obtain ⟨values, hvalues, hlists⟩ := strictAll?_of_faithful hrest
      have hvalue := he.agrees .fresh Evaluator.sound_fresh
      refine ⟨(Evaluator.fresh.holds ctx e).1 :: values, ?_, fun ev hev => ?_⟩
      · rw [strictAll?, hvalue, hvalues]
        rfl
      · -- the rest is asked from the evaluator that the first condition left behind
        have hleft : (ev.holds ctx e).2.Sound :=
          Evaluator.Stable.keeps_holds ctx (fun _ p h => h.compiled p) e ev hev
        obtain ⟨hall, hany⟩ := hlists _ hleft
        have hfirst : (ev.holds ctx e).1 = (Evaluator.fresh.holds ctx e).1 :=
          Option.some.inj ((he.agrees ev hev).symm.trans hvalue)
        simp only [Evaluator.allHold, Evaluator.anyHolds, List.all_cons, List.any_cons, ← hall,
          ← hany, ← hfirst]
        cases (ev.holds ctx e).1 <;> exact ⟨rfl, rfl⟩

/-- Evaluation does every legal condition justice. -/
theorem Legal.faithful {e : Expr} (h : e.Legal) : Faithful ctx e := by
  induction h with
  | truth b =>
      refine ⟨fun ev hev => nofun, fun ev hev => ?_⟩
      rw [strict?, Evaluator.holds]
  | compare hname ha hb hsymbol =>
      exact faithful_of_decided hname nofun (by simp [ha.calls, hb.calls])
        fun ev _ => ev.decided_compare ctx _ ha hb
  | version hname ha hdomain hv hsegments =>
      exact faithful_of_decided hname nofun (by simp [calls])
        fun ev _ => ev.decided_version ctx _ ha hv
  | empty hname ha hdomain =>
      exact faithful_of_decided hname nofun (by simp [calls])
        fun ev _ => ev.decided_empty ctx _ ha
  | text hname ha hdomain =>
      exact faithful_of_decided hname nofun (by simp [calls])
        fun ev hev => Evaluator.decided_text ctx hev _ _ _ ha
  | not hname he ih =>
      refine ⟨fun ev hev => ?_, fun ev hev => ?_⟩
      · rw [calls]
        refine List.forall_mem_cons.mpr ⟨⟨.not, hname, ?_⟩, ?_⟩
        · simp only [Evaluator.apply]
          exact ⟨nofun, nofun⟩
        · simpa [callsAll] using ih.decided ev hev
      · rw [Evaluator.holds_call hname, strict?, hname, Evaluator.apply]
        simp [strictAll?, ih.agrees ev hev]
  | @junction name op args hname hop hne hargs ih =>
      obtain ⟨values, hvalues, hlists⟩ := strictAll?_of_faithful ih
      obtain ⟨e, rest, rfl⟩ := List.exists_cons_of_ne_nil hne
      refine ⟨fun ev hev => ?_, fun ev hev => ?_⟩
      · rw [calls]
        refine List.forall_mem_cons.mpr ⟨⟨op, hname, ?_⟩, fun p hp => ?_⟩
        · rcases hop with rfl | rfl
          · simp only [Evaluator.apply]
            exact ⟨nofun, nofun⟩
          · simp only [Evaluator.apply]
            exact ⟨nofun, nofun⟩
        · obtain ⟨e, he, hmem⟩ := mem_callsAll.mp hp
          exact (ih e he).decided ev hev p hmem
      · obtain ⟨hall, hany⟩ := hlists ev hev
        rw [Evaluator.holds_call hname, strict?, hname]
        rcases hop with rfl | rfl
        · simp [Evaluator.apply, hvalues, hall]
        · simp [Evaluator.apply, hvalues, hany]

end Expr

namespace Lending

/-- On an admitted condition no evaluator in use falls back silently.  Every operator in it, at
whatever depth, is known, and decided for every client, but for versions and numbers that the client
does not have and patterns that are refused.  So it holds exactly if the strict reading says so,
where these are false. -/
theorem admitted_conditions_decided (history : List Event) {ev : Evaluator}
    (hev : ev ∈ (run history).inUse) {e : Expr} (h : e.accept = .ok ()) (ctx : Context) :
    (∀ p ∈ e.calls, ∃ op, Operator.ofName? p.1 = some op ∧
      ((ev.apply ctx op p.2).1 = none ↔ Undecided ctx op p.2)) ∧
    e.strict? ctx = some (ev.holds ctx e).1 := by
  have hsound : ev.Sound := ((bounded_run history).inUse ev hev).sound
  have hfaithful : e.Faithful ctx := (Expr.legal_of_accept h).faithful
  exact ⟨hfaithful.decided ev hsound, hfaithful.agrees ev hsound⟩

/-- Recent versions of the app, except for the languages after a text. -/
def recent : Expr :=
  .call "and" [.call "ver>=" [.symbol "APP_VERSION", .literal (.string "2.0")],
    .call "not" [.call ">" [.symbol "LANG", .literal (.string "m")]]]

/-- Texts are not ordered, so the ordering in the condition is undecided, and false.  Under the
negation it holds, as the strict reading says. -/
theorem admitted_conditions_decided_recent :
    let ctx := (Context.empty.set (.client .appVersion) "2.1").set (.client .lang) "pl"
    let args := [Expr.symbol "LANG", .literal (.string "m")]
    recent.accept = .ok () ∧ recent.strict? ctx = some true ∧
      (Evaluator.fresh.holds ctx recent).1 = true ∧ Undecided ctx (.compare .gt) args := by
  intro ctx args
  have haccept : recent.accept = .ok () := by cbv
  have hev : Evaluator.fresh ∈ (run [.create]).inUse := by simp [run, step, empty]
  obtain ⟨hcalls, hstrict⟩ := admitted_conditions_decided [.create] hev haccept ctx
  have hholds : (Evaluator.fresh.holds ctx recent).1 = true := by cbv
  have hmem : (">", args) ∈ recent.calls := by simp [recent, args, Expr.calls, Expr.callsAll]
  obtain ⟨op, hname, hundecided⟩ := hcalls _ hmem
  obtain rfl : op = .compare .gt := Option.some.inj (hname.symm.trans (by decide))
  have hnone : (Evaluator.fresh.apply ctx (.compare .gt) args).1 = none := by cbv
  refine ⟨haccept, ?_, hholds, hundecided.mp hnone⟩
  rw [hstrict, hholds]

end Lending

end RemoteConfig
