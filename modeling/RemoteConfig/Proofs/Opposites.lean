import RemoteConfig.Proofs.Versions
/-! # Opposite operators

Six operators have an opposite, which is written with a negation in its name.  Where an operator can
be applied, its opposite is true exactly if it is false; where it cannot, neither of the two is
true, so that a mistake in a condition never makes it hold by way of the negation.  Whether an
operator can be applied depends on the number and the kinds of its arguments, and for versions and
patterns on what their texts are. -/

namespace RemoteConfig

namespace Operator

/-- The operators that have an opposite, by name, and their opposites. -/
def opposites : List (String × String) :=
  [("=", "!="), ("ver=", "ver!="), ("str=", "str!="), ("str-empty?", "str-not-empty?"),
    ("str-contains?", "str-not-contains?"), ("str-wcmatch?", "str-not-wcmatch?")]

/-- An operator and its opposite. -/
inductive Opposite : Operator → Operator → Prop
  | compare : Opposite (.compare .eq) (.compare .ne)
  | version : Opposite (.version .eq) (.version .ne)
  | empty : Opposite (.empty false) (.empty true)
  | text (test : TextTest) : Opposite (.text test false) (.text test true)

theorem exists_opposite {name name' : String} (h : (name, name') ∈ opposites) :
    ∃ op op', ofName? name = some op ∧ ofName? name' = some op' ∧ op.Opposite op' := by
  simp only [opposites, List.mem_cons, Prod.mk.injEq, List.not_mem_nil, or_false] at h
  rcases h with ⟨rfl, rfl⟩ | ⟨rfl, rfl⟩ | ⟨rfl, rfl⟩ | ⟨rfl, rfl⟩ | ⟨rfl, rfl⟩ | ⟨rfl, rfl⟩
  exacts [⟨_, _, by decide, by decide, .compare⟩, ⟨_, _, by decide, by decide, .version⟩,
    ⟨_, _, by decide, by decide, .text .equal⟩, ⟨_, _, by decide, by decide, .empty⟩,
    ⟨_, _, by decide, by decide, .text .contains⟩, ⟨_, _, by decide, by decide, .text .wildcard⟩]

/-- How many arguments an operator takes that has an opposite. -/
def arity (op : Operator) : Nat := if op.isUnary then 1 else 2

/-- Arguments to which an operator that has an opposite cannot be applied. -/
inductive Inapplicable (ctx : Context) : Operator → List Expr → Prop
  | number {op : Operator} {args : List Expr} (h : args.length ≠ op.arity) :
      Inapplicable ctx op args
  /-- Calls are no operands. -/
  | call {op : Operator} {args : List Expr} {e : Expr} (he : e ∈ args) (h : e.isCall = true) :
      Inapplicable ctx op args
  /-- A text is tested against a literal text only. -/
  | literal {test : TextTest} {negated : Bool} {a b : Expr} (h : ∀ s, b ≠ .literal (.string s)) :
      Inapplicable ctx (.text test negated) [a, b]
  /-- A text is no version. -/
  | version {c : Comparison} {args : List Expr} {e : Expr} {s : String} (he : e ∈ args)
      (hs : e.operandText ctx = some s) (h : ¬ Version.Written s) :
      Inapplicable ctx (.version c) args
  /-- The pattern is refused. -/
  | pattern {negated : Bool} {a : Expr} {s : String} (h : Glob.compile? s = none) :
      Inapplicable ctx (.text .wildcard negated) [a, .literal (.string s)]

end Operator

/-! ## Operands -/

namespace Expr

variable {ctx : Context}

theorem operand_eq_none_iff {e : Expr} : e.operand ctx = none ↔ e.isCall = true := by
  cases e <;> simp [operand, isCall]

theorem operandText_eq_none_iff {e : Expr} : e.operandText ctx = none ↔ e.isCall = true := by
  rw [operandText, Option.map_eq_none_iff, operand_eq_none_iff]

theorem exists_operand (ctx : Context) {e : Expr} (h : e.isCall = false) :
    ∃ x, e.operand ctx = some x :=
  Option.ne_none_iff_exists'.mp fun hnone => by simp_all [operand_eq_none_iff]

theorem exists_operandText (ctx : Context) {e : Expr} (h : e.isCall = false) :
    ∃ s, e.operandText ctx = some s :=
  Option.ne_none_iff_exists'.mp fun hnone => by simp_all [operandText_eq_none_iff]

end Expr

namespace Comparison

theorem holdsOfNumbers_ne (x y : Binary64) :
    Comparison.ne.holdsOfNumbers x y = !Comparison.eq.holdsOfNumbers x y := by
  unfold holdsOfNumbers
  cases x.compare? y with
  | none => rfl
  | some o => cases o <;> rfl

theorem judge_ne (x y : Scalar) : Comparison.ne.judge x y = !Comparison.eq.judge x y := by
  unfold judge
  cases Scalar.numbers? x y with
  | none => rfl
  | some numbers => exact holdsOfNumbers_ne numbers.1 numbers.2

/-- Equality and inequality are decided of any two scalars. -/
theorem holdsOfScalars?_eq_some {c : Comparison} (hc : c = .eq ∨ c = .ne) (x y : Scalar) :
    c.holdsOfScalars? x y = some (c.judge x y) := by
  rw [judge_eq]
  cases h : c.holdsOfScalars? x y with
  | some b => rfl
  | none =>
      obtain ⟨⟨hne, hne'⟩, -⟩ := holdsOfScalars?_eq_none.mp h
      rcases hc with hc | hc
      · exact absurd hc hne
      · exact absurd hc hne'

end Comparison

/-! ## Outcomes -/

theorem Operator.Opposite.arity_eq {op op' : Operator} (h : op.Opposite op') :
    op'.arity = op.arity := by
  cases h <;> rfl

theorem Operator.Opposite.family_ne {op op' : Operator} (h : op.Opposite op') :
    op.family ≠ .logic ∧ op'.family ≠ .logic := by
  cases h <;> exact ⟨nofun, nofun⟩

/-- The outcomes of an operator and of its opposite. -/
inductive Settled (inapplicable : Prop) : Option Bool → Option Bool → Prop
  | neither (h : inapplicable) : Settled inapplicable none none
  | decided (h : ¬ inapplicable) (b : Bool) : Settled inapplicable (some b) (some !b)

namespace Evaluator

variable {ctx : Context} {op op' : Operator} {args : List Expr}

theorem applyToOperands_of_length (h : args.length ≠ op.arity) (ev : Evaluator) :
    (ev.applyToOperands ctx op args).1 = none := by
  unfold applyToOperands
  split
  iterate 4 exact absurd rfl h
  rfl

theorem applyToOperands_of_call {e : Expr} (he : e ∈ args) (hcall : e.isCall = true)
    (ev : Evaluator) : (ev.applyToOperands ctx op args).1 = none := by
  have hoperand : e.operand ctx = none := Expr.operand_eq_none_iff.mpr hcall
  have htext : e.operandText ctx = none := Expr.operandText_eq_none_iff.mpr hcall
  unfold applyToOperands
  split
  · rename_i a b
    rcases List.mem_pair.mp he with rfl | rfl
    · simp [hoperand]
    · cases a.operand ctx <;> simp [hoperand]
  · rename_i a b
    rcases List.mem_pair.mp he with rfl | rfl
    · simp [htext]
    · cases a.operandText ctx with
      | none => simp
      | some s => cases Version.parse? s <;> simp [htext]
  · obtain rfl := List.mem_singleton.mp he
    simp [htext]
  · rcases List.mem_pair.mp he with rfl | rfl
    · simp [htext]
    · cases hcall
  · rfl

/-- A test has an outcome unless its pattern is refused. -/
theorem textTest_eq_none_iff {ev : Evaluator} (hev : ev.Sound) (test : TextTest)
    (s pattern : String) : (ev.textTest test s pattern).1 = none ↔
      test = .wildcard ∧ Glob.compile? pattern = none := by
  cases test with
  | equal => simp [textTest]
  | contains => simp [textTest]
  | wildcard => simp [textTest, fst_compiled hev]

section Operands

variable {ev ev' : Evaluator} {a b : Expr}

theorem settled_compare (ha : a.isCall = false) (hb : b.isCall = false) :
    Settled ((Operator.compare .eq).Inapplicable ctx [a, b])
      (ev.applyToOperands ctx (.compare .eq) [a, b]).1
      (ev'.applyToOperands ctx (.compare .ne) [a, b]).1 := by
  obtain ⟨x, hx⟩ := Expr.exists_operand ctx ha
  obtain ⟨y, hy⟩ := Expr.exists_operand ctx hb
  have happlicable : ¬ (Operator.compare .eq).Inapplicable ctx [a, b] := by
    intro h
    cases h with
    | number h => exact h rfl
    | call he h => rcases List.mem_pair.mp he with rfl | rfl <;> simp_all
  simp only [applyToOperands, hx, hy, Option.bind_eq_bind, Option.bind_some,
    Comparison.holdsOfScalars?_eq_some (Or.inl rfl),
    Comparison.holdsOfScalars?_eq_some (Or.inr rfl), Comparison.judge_ne]
  exact .decided happlicable _

theorem settled_version (ha : a.isCall = false) (hb : b.isCall = false) :
    Settled ((Operator.version .eq).Inapplicable ctx [a, b])
      (ev.applyToOperands ctx (.version .eq) [a, b]).1
      (ev'.applyToOperands ctx (.version .ne) [a, b]).1 := by
  obtain ⟨s, hs⟩ := Expr.exists_operandText ctx ha
  obtain ⟨t, ht⟩ := Expr.exists_operandText ctx hb
  cases hv : Version.parse? s with
  | none =>
      have hwritten : ¬ Version.Written s := by simp [← Version.isSome_parse?_iff, hv]
      simp only [applyToOperands, hs, hv, Option.bind_eq_bind, Option.bind_some, Option.bind_none]
      exact .neither (.version (by simp) hs hwritten)
  | some v =>
      cases hw : Version.parse? t with
      | none =>
          have hwritten : ¬ Version.Written t := by simp [← Version.isSome_parse?_iff, hw]
          simp only [applyToOperands, hs, hv, ht, hw, Option.bind_eq_bind, Option.bind_some,
            Option.bind_none]
          exact .neither (.version (by simp) ht hwritten)
      | some w =>
          have happlicable : ¬ (Operator.version .eq).Inapplicable ctx [a, b] := by
            intro h
            cases h with
            | number h => exact h rfl
            | call he h => rcases List.mem_pair.mp he with rfl | rfl <;> simp_all
            | version he hu h =>
                rw [← Version.isSome_parse?_iff] at h
                rcases List.mem_pair.mp he with rfl | rfl <;> simp_all
          simp only [applyToOperands, hs, hv, ht, hw, Option.bind_eq_bind, Option.bind_some]
          exact .decided happlicable _

theorem settled_empty (ha : a.isCall = false) :
    Settled ((Operator.empty false).Inapplicable ctx [a])
      (ev.applyToOperands ctx (.empty false) [a]).1
      (ev'.applyToOperands ctx (.empty true) [a]).1 := by
  obtain ⟨s, hs⟩ := Expr.exists_operandText ctx ha
  have happlicable : ¬ (Operator.empty false).Inapplicable ctx [a] := by
    intro h
    cases h with
    | number h => exact h rfl
    | call he h =>
        obtain rfl := List.mem_singleton.mp he
        simp_all
  simp only [applyToOperands, hs, Option.map_some, Bool.bne_false, Bool.bne_true]
  exact .decided happlicable _

theorem settled_text (hev : ev.Sound) (hev' : ev'.Sound) (test : TextTest)
    (ha : a.isCall = false) : Settled ((Operator.text test false).Inapplicable ctx [a, b])
      (ev.applyToOperands ctx (.text test false) [a, b]).1
      (ev'.applyToOperands ctx (.text test true) [a, b]).1 := by
  obtain ⟨s, hs⟩ := Expr.exists_operandText ctx ha
  by_cases hliteral : ∃ pattern, b = .literal (.string pattern)
  · obtain ⟨pattern, rfl⟩ := hliteral
    have hagree := (agree_textTest test s pattern ev ev' hev hev').1
    have hnone := textTest_eq_none_iff hev test s pattern
    simp only [applyToOperands, hs, ← hagree]
    cases houtcome : (ev.textTest test s pattern).1 with
    | none =>
        obtain ⟨rfl, hpattern⟩ := hnone.mp houtcome
        exact .neither (.pattern hpattern)
    | some outcome =>
        have happlicable :
            ¬ (Operator.text test false).Inapplicable ctx [a, .literal (.string pattern)] := by
          intro h
          cases h with
          | number h => exact h rfl
          | call he h => rcases List.mem_pair.mp he with rfl | rfl <;> simp_all [Expr.isCall]
          | literal h => exact h pattern rfl
          | pattern h => simp_all
        simp only [Option.map_some, Bool.bne_false, Bool.bne_true]
        exact .decided happlicable _
  · have hnone : ∀ (ev : Evaluator) (negated : Bool),
        (ev.applyToOperands ctx (.text test negated) [a, b]).1 = none := by
      intro ev negated
      unfold applyToOperands
      split <;> simp_all
    rw [hnone, hnone]
    exact .neither (.literal fun pattern h => hliteral ⟨pattern, h⟩)

end Operands

/-- The outcomes of an operator and of its opposite on the same arguments, from whatever sound
evaluators. -/
theorem settled_of_opposite {ev ev' : Evaluator} (hev : ev.Sound) (hev' : ev'.Sound)
    (hop : op.Opposite op') (ctx : Context) (args : List Expr) : Settled (op.Inapplicable ctx args)
      (ev.applyToOperands ctx op args).1 (ev'.applyToOperands ctx op' args).1 := by
  by_cases hlength : args.length = op.arity
  case neg =>
    rw [applyToOperands_of_length hlength, applyToOperands_of_length (hop.arity_eq ▸ hlength)]
    exact .neither (.number hlength)
  by_cases hcall : ∃ e ∈ args, e.isCall = true
  case pos =>
    obtain ⟨e, he, hcall⟩ := hcall
    rw [applyToOperands_of_call he hcall, applyToOperands_of_call he hcall]
    exact .neither (.call he hcall)
  have hoperand : ∀ e ∈ args, e.isCall = false := by simpa using hcall
  cases hop with
  | compare =>
      obtain ⟨a, b, rfl⟩ := List.length_eq_two.mp hlength
      exact settled_compare (hoperand a (by simp)) (hoperand b (by simp))
  | version =>
      obtain ⟨a, b, rfl⟩ := List.length_eq_two.mp hlength
      exact settled_version (hoperand a (by simp)) (hoperand b (by simp))
  | empty =>
      obtain ⟨a, rfl⟩ := List.length_eq_one_iff.mp hlength
      exact settled_empty (hoperand a (by simp))
  | text test =>
      obtain ⟨a, b, rfl⟩ := List.length_eq_two.mp hlength
      exact settled_text hev hev' test (hoperand a (by simp))

end Evaluator

/-- An operator and its opposite are never both true, whatever their arguments are and whatever the
two evaluators were used for before.  They are both false exactly if the arguments are such that
they cannot be applied, and otherwise just one of them is true. -/
theorem Lending.opposites_complementary (history history' : List Event) {ev ev' : Evaluator}
    (hev : ev ∈ (run history).inUse) (hev' : ev' ∈ (run history').inUse) {name name' : String}
    (hpair : (name, name') ∈ Operator.opposites) (ctx : Context) (args : List Expr) :
    let holds := (ev.holds ctx (.call name args)).1
    let holds' := (ev'.holds ctx (.call name' args)).1
    ¬ (holds = true ∧ holds' = true) ∧
      ∃ op, Operator.ofName? name = some op ∧
        (holds = false ∧ holds' = false ↔ op.Inapplicable ctx args) ∧
        (¬ op.Inapplicable ctx args → holds' = !holds) := by
  intro holds holds'
  obtain ⟨op, op', hname, hname', hop⟩ := Operator.exists_opposite hpair
  have hsettled :=
    Evaluator.settled_of_opposite ((bounded_run history).inUse ev hev).sound
      ((bounded_run history').inUse ev' hev').sound hop ctx args
  have hholds : holds = (ev.applyToOperands ctx op args).1.getD false :=
    Evaluator.holds_operands hname hop.family_ne.1 ev ctx args
  have hholds' : holds' = (ev'.applyToOperands ctx op' args).1.getD false :=
    Evaluator.holds_operands hname' hop.family_ne.2 ev' ctx args
  rw [hholds, hholds']
  generalize (ev.applyToOperands ctx op args).1 = outcome at *
  generalize (ev'.applyToOperands ctx op' args).1 = outcome' at *
  cases hsettled with
  | neither h => exact ⟨nofun, op, hname, iff_of_true ⟨rfl, rfl⟩ h, fun hnot => absurd h hnot⟩
  | decided h b =>
      refine ⟨?_, op, hname, iff_of_false ?_ h, fun _ => rfl⟩
      · cases b <;> nofun
      · cases b <;> nofun

/-- Of a text that is no version neither equality nor its opposite is true, also of different texts;
that it begins in some way is decided, and a call is no operand of either test. -/
theorem Lending.opposites_complementary_malformed :
    let ctx := Context.empty.set (.client .appVersion) "1.x"
    let holds (name : String) (e : Expr) :=
      (Evaluator.fresh.holds ctx (.call name [.symbol "APP_VERSION", e])).1
    holds "ver=" (.literal (.string "2")) = false ∧
      holds "ver!=" (.literal (.string "2")) = false ∧
      holds "str-wcmatch?" (.literal (.string "1.*")) = true ∧
      holds "str-not-wcmatch?" (.literal (.string "1.*")) = false ∧
      holds "=" (.call "not" []) = false ∧ holds "!=" (.call "not" []) = false := by
  have hcovers : (Evaluator.fresh.holds (Context.empty.set (.client .appVersion) "1.x")
      (.call "str-wcmatch?" [.symbol "APP_VERSION", .literal (.string "1.*")])).1 = true := by cbv
  intro ctx holds
  have hev : Evaluator.fresh ∈ (run [.create]).inUse := by simp [run, step, empty]
  have hpair := fun (name name' : String) (h : (name, name') ∈ Operator.opposites) (e : Expr) =>
    opposites_complementary [.create] [.create] hev hev h ctx [.symbol "APP_VERSION", e]
  have hversion : ¬ Version.Written "1.x" := by
    rw [← Version.isSome_parse?_iff]
    decide
  obtain ⟨-, op, hop, hneither, -⟩ :=
    hpair "ver=" "ver!=" (by decide) (.literal (.string "2"))
  obtain rfl : .version .eq = op := Option.some.inj hop
  obtain ⟨heq, hne⟩ := hneither.mpr (.version (e := .symbol "APP_VERSION") (by simp) rfl hversion)
  obtain ⟨hboth, -⟩ :=
    hpair "str-wcmatch?" "str-not-wcmatch?" (by decide) (.literal (.string "1.*"))
  obtain ⟨-, op', -, hcalls, -⟩ := hpair "=" "!=" (by decide) (.call "not" [])
  obtain ⟨hcall, hcall'⟩ := hcalls.mpr (.call (e := .call "not" []) (by simp) rfl)
  exact ⟨heq, hne, hcovers, Bool.eq_false_iff.mpr fun h => hboth ⟨hcovers, h⟩, hcall, hcall'⟩

end RemoteConfig
