import RemoteConfig.Entity.Value
import RemoteConfig.Proofs.TextForm
/-! # Legality

Admission is a check, which stops at the first mistake that it finds; legality is a definition, which
knows no order.  The two agree on every expression, and so they do on every rule, all of whose
conditions have to be legal calls.  As legality is asked of all parts of a condition, a mistake in
one of them, however deep, makes the whole rule refused. -/

namespace RemoteConfig

namespace Expr

/-! ## Legal conditions are admitted -/

section Checks

variable {op : Operator} {name : String} {a : Attribute} {e : Expr}

theorem knownAttribute_of_ofSymbol? (h : Attribute.ofSymbol? name = some a) :
    knownAttribute name = .ok a := by rw [knownAttribute, h]

theorem IsOperand.expectOperand (h : e.IsOperand) (op : Operator) :
    e.expectOperand op = .ok () := by
  cases h with
  | literal value => rfl
  | symbol ha => rw [Expr.expectOperand, knownAttribute_of_ofSymbol? ha]; rfl

theorem expectAttribute_symbol (ha : Attribute.ofSymbol? name = some a) {domain : Domain}
    (hdomain : a.domain = domain) : expectAttribute op domain (.symbol name) = .ok () := by
  rw [expectAttribute, knownAttribute_of_ofSymbol? ha]
  exact if_pos hdomain

end Checks

theorem acceptAll_eq_ok {args : List Expr} (h : ∀ e ∈ args, e.accept = .ok ()) :
    acceptAll args = .ok () := by
  induction args with
  | nil => rw [acceptAll]
  | cons e rest ih =>
      obtain ⟨he, hrest⟩ := List.forall_mem_cons.mp h
      rw [acceptAll, he]
      exact ih hrest

/-- What is legal is admitted. -/
theorem Legal.accept {e : Expr} (h : e.Legal) : e.accept = .ok () := by
  induction h with
  | truth b => rw [Expr.accept]
  | @compare name c a b hname ha hb hsymbol =>
      rw [Expr.accept, hname]
      show acceptComparison _ [a, b] = _
      rw [acceptComparison, ha.expectOperand, hb.expectOperand]
      exact if_pos (by simpa using hsymbol)
  | @version name symbol text c a v hname ha hdomain hv hsegments =>
      rw [Expr.accept, hname]
      show acceptVersion _ _ = _
      rw [acceptVersion, expectAttribute_symbol ha hdomain]
      simp only [expectText, bind, Except.bind, hv]
      exact if_pos hsegments
  | empty hname ha hdomain =>
      rw [Expr.accept, hname]
      exact expectAttribute_symbol ha hdomain
  | text hname ha hdomain =>
      rw [Expr.accept, hname]
      show acceptBinaryText _ _ = _
      rw [acceptBinaryText, expectAttribute_symbol ha hdomain]
      rfl
  | @not name e hname he ih =>
      rw [Expr.accept, hname]
      exact (if_pos rfl).trans (acceptAll_eq_ok (List.forall_mem_singleton.mpr ih))
  | @junction name op args hname hop hne hargs ih =>
      have hall := acceptAll_eq_ok ih
      have hnonempty : ¬ args.isEmpty = true := by simpa using hne
      rw [Expr.accept, hname]
      rcases hop with rfl | rfl
      · exact (if_neg hnonempty).trans hall
      · exact (if_neg hnonempty).trans hall

theorem accept_eq_ok_iff {e : Expr} : e.accept = .ok () ↔ e.Legal := ⟨legal_of_accept, Legal.accept⟩

/-! ## Parts of conditions -/

/-- Only calls and the operands of logical operators have to be conditions. -/
def MustBeCondition (name : String) (e : Expr) : Prop :=
  e.isCall = true ∨ ∃ op, Operator.ofName? name = some op ∧ op.family = .logic

theorem not_mustBeCondition {e : Expr} {name : String} {op : Operator}
    (hname : Operator.ofName? name = some op) (hop : op.family ≠ .logic) (he : e.isCall = false) :
    ¬ MustBeCondition name e := by
  rintro (hcall | ⟨op', hname', hlogic⟩)
  · rw [he] at hcall
    cases hcall
  · obtain rfl := Option.some.inj (hname.symm.trans hname')
    exact hop hlogic

theorem IsOperand.not_isCall {e : Expr} (h : e.IsOperand) : e.isCall = false := by
  cases h <;> rfl

/-- The arguments of a legal call that have to be conditions are legal. -/
theorem Legal.arg {a : Expr} {name : String} {args : List Expr} (h : (call name args).Legal)
    (ha : a ∈ args) (hcondition : MustBeCondition name a) : a.Legal := by
  -- the operands of comparisons and tests are no calls, so only logical operators have such
  -- arguments
  cases h with
  | compare hname hleft hright hsymbol =>
      rcases List.mem_pair.mp ha with rfl | rfl
      · exact absurd hcondition (not_mustBeCondition hname nofun hleft.not_isCall)
      · exact absurd hcondition (not_mustBeCondition hname nofun hright.not_isCall)
  | version hname _ _ _ _ =>
      rcases List.mem_pair.mp ha with rfl | rfl
      · exact absurd hcondition (not_mustBeCondition hname nofun rfl)
      · exact absurd hcondition (not_mustBeCondition hname nofun rfl)
  | empty hname _ _ =>
      obtain rfl := List.mem_singleton.mp ha
      exact absurd hcondition (not_mustBeCondition hname nofun rfl)
  | text hname _ _ =>
      rcases List.mem_pair.mp ha with rfl | rfl
      · exact absurd hcondition (not_mustBeCondition hname nofun rfl)
      · exact absurd hcondition (not_mustBeCondition hname nofun rfl)
  | not hname he =>
      obtain rfl := List.mem_singleton.mp ha
      exact he
  | junction hname hop hne hargs => exact hargs a ha

/-- What has to be a condition within an expression, at whatever depth. -/
inductive IsPart : Expr → Expr → Prop
  | self (e : Expr) : IsPart e e
  | arg {part e : Expr} {name : String} {args : List Expr} (he : e ∈ args)
      (hcondition : MustBeCondition name e) (h : IsPart part e) : IsPart part (.call name args)

/-- Legality goes down to all parts. -/
theorem Legal.part {part e : Expr} (h : e.Legal) (hpart : part.IsPart e) : part.Legal := by
  induction hpart with
  | self => exact h
  | arg he hcondition _ ih => exact ih (h.arg he hcondition)

end Expr

/-! ## Rules -/

namespace Rule

theorem acceptCases_of_legal {cases : List Case}
    (h : ∀ c ∈ cases, c.condition.isCall = true ∧ c.condition.Legal) (index : Nat) :
    acceptCases index cases = .ok () := by
  induction cases generalizing index with
  | nil => rw [acceptCases]
  | cons c cases ih =>
      obtain ⟨⟨hcall, hlegal⟩, hrest⟩ := List.forall_mem_cons.mp h
      rw [acceptCases, hcall, hlegal.accept]
      exact ih hrest (index + 1)

theorem accept_eq_ok_iff {r : Rule} :
    r.accept = .ok () ↔ ∀ c ∈ r.cases, c.condition.isCall = true ∧ c.condition.Legal :=
  ⟨legal_of_acceptCases, fun h => acceptCases_of_legal h 0⟩

/-- A mistake somewhere in a condition makes the rule refused. -/
theorem refused_of_not_legal {r : Rule} {c : Case} (hc : c ∈ r.cases) {part : Expr}
    (hpart : part.IsPart c.condition) (hbad : ¬ part.Legal) : ∃ reason, r.accept = .error reason := by
  cases h : r.accept with
  | error reason => exact ⟨reason, rfl⟩
  | ok _ => exact absurd ((accept_eq_ok_iff.mp h c hc).2.part hpart) hbad

end Rule

/-- Admission is exact.  A condition is admitted if and only if it is legal, and a rule if and only
if all of its conditions are legal calls.  So one part of one condition that is not legal is enough
for the rule to be refused, and for every text that holds it to be refused as the value of a
config. -/
theorem admission_exact :
    (∀ e : Expr, e.accept = .ok () ↔ e.Legal) ∧
    (∀ r : Rule, r.accept = .ok () ↔
      ∀ c ∈ r.cases, c.condition.isCall = true ∧ c.condition.Legal) ∧
    (∀ r : Rule, (∃ c ∈ r.cases, ∃ part : Expr, part.IsPart c.condition ∧ ¬ part.Legal) →
      ∃ reason, r.accept = .error reason ∧ ∀ raw, Rule.parseJson raw = some r →
        ConfigValue.compile .code raw = .error (.validation (.rule reason))) := by
  refine ⟨fun e => Expr.accept_eq_ok_iff, fun r => Rule.accept_eq_ok_iff, ?_⟩
  rintro r ⟨c, hc, part, hpart, hbad⟩
  obtain ⟨reason, hreason⟩ := Rule.refused_of_not_legal hc hpart hbad
  refine ⟨reason, hreason, fun raw hraw => ?_⟩
  simp only [ConfigValue.compile, hraw, hreason]

/-- A condition that every client meets, with a symbol three calls deep that no attribute has. -/
def misspeltRule : Rule :=
  ⟨[⟨.call "or" [.literal (.bool true),
      .call "not" [.call "str=" [.symbol "COUNTRY", .literal (.string "cn")]]], .int 1⟩], .int 0⟩

/-- The rule as the value of a config. -/
def misspeltJson : String :=
  "[[[\x7b\"func\":\"or\",\"arguments\":[true,\x7b\"func\":\"not\",\"arguments\":[" ++
    "\x7b\"func\":\"str=\",\"arguments\":[\x7b\"symbol\":\"COUNTRY\"\x7d,\"cn\"]\x7d]\x7d]\x7d,1]],0]"

/-- The unknown symbol is found, and the config is refused; with a known one the rule is fine. -/
theorem admission_exact_misspelt :
    (∃ c ∈ misspeltRule.cases, ∃ part : Expr, part.IsPart c.condition ∧ ¬ part.Legal) ∧
    (∃ reason, misspeltRule.accept = .error reason ∧
      ConfigValue.compile .code misspeltJson = .error (.validation (.rule reason))) ∧
    Rule.accept ⟨[⟨.call "str=" [.symbol "LANG", .literal (.string "cn")], .int 1⟩], .int 0⟩ =
      .ok () := by
  obtain ⟨hexpr, hrule, hrefused⟩ := admission_exact
  have hequal : Operator.ofName? "str=" = some (.text .equal false) := by decide
  have hlang : Attribute.ofSymbol? "LANG" = some .lang := by decide
  let part : Expr := .call "str=" [.symbol "COUNTRY", .literal (.string "cn")]
  have hpart : part.IsPart (.call "or" [.literal (.bool true), .call "not" [part]]) :=
    .arg (.tail _ (.head _)) (.inl rfl) (.arg (.head _) (.inl rfl) (.self _))
  have hillegal : ¬ part.Legal := by
    intro h
    have haccept : part.accept = .error (.unknownSymbol "COUNTRY") := by cbv
    rw [← hexpr, haccept] at h
    cases h
  have hbad : ∃ c ∈ misspeltRule.cases, ∃ part : Expr, part.IsPart c.condition ∧ ¬ part.Legal :=
    ⟨_, List.mem_singleton_self _, part, hpart, hillegal⟩
  have hparse : Rule.parseJson misspeltJson = some misspeltRule := by cbv
  obtain ⟨reason, hreason, hcompile⟩ := hrefused misspeltRule hbad
  refine ⟨hbad, ⟨reason, hreason, hcompile _ hparse⟩, (hrule _).mpr ?_⟩
  exact List.forall_mem_singleton.mpr ⟨rfl, .text hequal hlang rfl⟩

end RemoteConfig
