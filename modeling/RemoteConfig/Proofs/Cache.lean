import RemoteConfig.Service.Basic
/-! # The cache of compiled patterns

An evaluator hands its cache on from one evaluation to the next, and a pool hands evaluators on from
one client to the next.  As every pattern in a cache is compiled correctly, none of this shows: what
an evaluation gives depends on the expression and on the attributes of the client alone. -/

namespace RemoteConfig

/-- Contexts that differ at most in the sign of the previous answer. -/
def Context.SameAttributes (ctx ctx' : Context) : Prop := ∀ a, ctx.get a = ctx'.get a

theorem Context.SameAttributes.refl (ctx : Context) : ctx.SameAttributes ctx := fun _ => rfl

theorem Context.SameAttributes.lookup {ctx ctx' : Context} (h : ctx.SameAttributes ctx')
    (symbol : String) : ctx.lookup symbol = ctx'.lookup symbol := by
  unfold Context.lookup
  split
  · exact h _
  · rfl

/-! ## What an expression reads -/

namespace Expr

mutual
/-- The symbols that occur in an expression. -/
def symbols : Expr → List String
  | literal _ => []
  | symbol name => [name]
  | call _ args => symbolsAll args

def symbolsAll : List Expr → List String
  | [] => []
  | e :: rest => e.symbols ++ symbolsAll rest
end

end Expr

/-- The symbols that occur in the conditions of a rule. -/
def Rule.symbols (r : Rule) : List String := r.cases.flatMap (·.condition.symbols)

/-- Contexts that give the same text to each of some symbols. -/
def Context.AgreeOn (symbols : List String) (ctx ctx' : Context) : Prop :=
  ∀ name ∈ symbols, ctx.lookup name = ctx'.lookup name

theorem Context.SameAttributes.agreeOn {ctx ctx' : Context} (h : ctx.SameAttributes ctx')
    (symbols : List String) : AgreeOn symbols ctx ctx' := fun name _ => h.lookup name

theorem Context.agreeOn_append {xs ys : List String} {ctx ctx' : Context} :
    AgreeOn (xs ++ ys) ctx ctx' ↔ AgreeOn xs ctx ctx' ∧ AgreeOn ys ctx ctx' :=
  List.forall_mem_append

section Operands

variable {ctx ctx' : Context} {e : Expr} (h : Context.AgreeOn e.symbols ctx ctx')
include h

theorem Expr.operand_congr : e.operand ctx = e.operand ctx' := by
  cases e with
  | literal value => rfl
  | symbol name => rw [operand, operand, h name (by simp [symbols])]
  | call name args => rfl

theorem Expr.operandText_congr : e.operandText ctx = e.operandText ctx' := by
  rw [operandText, operandText, operand_congr h]

end Operands

namespace Evaluator

/-- Every pattern in the cache has its compiled form. -/
def Sound (ev : Evaluator) : Prop :=
  ∀ (pattern : String) glob, ev.patterns[pattern]? = some glob → glob = Glob.compile? pattern

theorem sound_fresh : fresh.Sound := by simp [Sound, fresh]

theorem Sound.reset {ev : Evaluator} (h : ev.Sound) : ev.reset.Sound := by
  unfold Evaluator.reset
  split
  · exact sound_fresh
  · exact h

theorem fst_compiled {ev : Evaluator} (h : ev.Sound) (pattern : String) :
    (ev.compiled pattern).1 = Glob.compile? pattern := by
  unfold compiled
  split
  · exact h pattern _ ‹_›
  · rfl

theorem Sound.compiled {ev : Evaluator} (h : ev.Sound) (pattern : String) :
    (ev.compiled pattern).2.Sound := by
  unfold Evaluator.compiled
  split
  · exact h
  · intro p glob hglob
    simp only [Std.ExtTreeMap.getElem?_insert, Std.LawfulEqCmp.compare_eq_iff_eq] at hglob
    split at hglob
    · subst p
      exact (Option.some.inj hglob).symm
    · split at hglob
      · simp at hglob
      · exact h p glob hglob

/-- Two evaluations that give the same from whatever sound evaluators, and leave sound ones. -/
def Agree {α : Type} (f g : Evaluator → α × Evaluator) : Prop :=
  ∀ ev ev', ev.Sound → ev'.Sound → (f ev).1 = (g ev').1 ∧ (f ev).2.Sound ∧ (g ev').2.Sound

theorem agree_pure {α : Type} (a : α) : Agree (fun ev => (a, ev)) fun ev => (a, ev) :=
  fun _ _ h h' => ⟨rfl, h, h'⟩

theorem agree_bind {α β : Type} {f f' : Evaluator → α × Evaluator}
    {g g' : α → Evaluator → β × Evaluator} (hf : Agree f f') (hg : ∀ a, Agree (g a) (g' a)) :
    Agree (fun ev => g (f ev).1 (f ev).2) fun ev => g' (f' ev).1 (f' ev).2 := by
  intro ev ev' h h'
  obtain ⟨heq, hs, hs'⟩ := hf ev ev' h h'
  dsimp only
  rw [← heq]
  exact hg _ _ _ hs hs'

theorem agree_map {α β : Type} {f f' : Evaluator → α × Evaluator} (hf : Agree f f') (m : α → β) :
    Agree (fun ev => (m (f ev).1, (f ev).2)) fun ev => (m (f' ev).1, (f' ev).2) :=
  agree_bind hf fun a => agree_pure (m a)

/-- A decision that agrees, between evaluations that agree. -/
theorem agree_ite {α : Type} {f f' : Evaluator → Bool × Evaluator}
    {g g' k k' : Evaluator → α × Evaluator} (hf : Agree f f') (hg : Agree g g') (hk : Agree k k') :
    Agree (fun ev => if (f ev).1 then g (f ev).2 else k (f ev).2)
      fun ev => if (f' ev).1 then g' (f' ev).2 else k' (f' ev).2 :=
  @agree_bind _ _ f f' (fun b ev => if b then g ev else k ev)
    (fun b ev => if b then g' ev else k' ev) hf fun b => by
      cases b with
      | true => exact hg
      | false => exact hk

theorem agree_compiled (pattern : String) :
    Agree (fun ev => ev.compiled pattern) fun ev => ev.compiled pattern :=
  fun _ _ h h' => ⟨(fst_compiled h pattern).trans (fst_compiled h' pattern).symm, h.compiled pattern,
    h'.compiled pattern⟩

theorem agree_textTest (test : TextTest) (subject pattern : String) :
    Agree (fun ev => ev.textTest test subject pattern) fun ev => ev.textTest test subject pattern := by
  cases test with
  | equal => exact agree_pure _
  | contains => exact agree_pure _
  | wildcard => exact agree_map (agree_compiled pattern) fun glob => glob.map (·.isMatch subject)

section Expressions

variable {ctx ctx' : Context}

/-- The symbols of two operands. -/
theorem agreeOn_pair {a b : Expr} (h : Context.AgreeOn (Expr.symbolsAll [a, b]) ctx ctx') :
    Context.AgreeOn a.symbols ctx ctx' ∧ Context.AgreeOn b.symbols ctx ctx' := by
  simp only [Expr.symbolsAll, List.append_nil] at h
  exact Context.agreeOn_append.mp h

theorem agree_applyToOperands (op : Operator) (args : List Expr)
    (h : Context.AgreeOn (Expr.symbolsAll args) ctx ctx') :
    Agree (fun ev => ev.applyToOperands ctx op args) fun ev => ev.applyToOperands ctx' op args := by
  unfold applyToOperands
  split
  · obtain ⟨ha, hb⟩ := agreeOn_pair h
    rw [Expr.operand_congr ha, Expr.operand_congr hb]
    exact agree_pure _
  · obtain ⟨ha, hb⟩ := agreeOn_pair h
    rw [Expr.operandText_congr ha, Expr.operandText_congr hb]
    exact agree_pure _
  · simp only [Expr.symbolsAll, List.append_nil] at h
    rw [Expr.operandText_congr h]
    exact agree_pure _
  · rw [Expr.operandText_congr (agreeOn_pair h).1]
    split
    · exact agree_pure _
    · exact agree_map (agree_textTest _ _ _) _
  · exact agree_pure _

mutual
/-- An evaluation depends on no more than what the symbols of the expression stand for. -/
theorem agree_holds : ∀ e : Expr, Context.AgreeOn e.symbols ctx ctx' →
    Agree (fun ev => ev.holds ctx e) fun ev => ev.holds ctx' e
  | .literal value, _ => by
      cases value <;> simp only [holds] <;> exact agree_pure _
  | .symbol name, _ => by
      simp only [holds]
      exact agree_pure false
  | .call name args, h => by
      rw [Expr.symbols] at h
      simp only [holds]
      cases Operator.ofName? name with
      | none => exact agree_pure false
      | some op => exact agree_map (agree_apply op args h) (·.getD false)

theorem agree_apply : ∀ (op : Operator) (args : List Expr),
    Context.AgreeOn (Expr.symbolsAll args) ctx ctx' →
      Agree (fun ev => ev.apply ctx op args) fun ev => ev.apply ctx' op args
  | .and, [], _ => by
      simp only [apply]
      exact agree_pure _
  | .and, e :: rest, h => by
      simp only [apply]
      exact agree_map (agree_allHold (e :: rest) h) some
  | .or, args, h => by
      simp only [apply]
      exact agree_map (agree_anyHolds args h) some
  | .not, [e], h => by
      simp only [Expr.symbolsAll, List.append_nil] at h
      simp only [apply]
      exact agree_map (agree_holds e h) fun b => some !b
  | .not, [], h => by
      simp only [apply]
      exact agree_applyToOperands _ _ h
  | .not, e :: e' :: rest, h => by
      simp only [apply]
      exact agree_applyToOperands _ _ h
  | .compare c, args, h => by
      simp only [apply]
      exact agree_applyToOperands _ _ h
  | .version c, args, h => by
      simp only [apply]
      exact agree_applyToOperands _ _ h
  | .empty negated, args, h => by
      simp only [apply]
      exact agree_applyToOperands _ _ h
  | .text test negated, args, h => by
      simp only [apply]
      exact agree_applyToOperands _ _ h

theorem agree_allHold : ∀ args : List Expr, Context.AgreeOn (Expr.symbolsAll args) ctx ctx' →
    Agree (fun ev => ev.allHold ctx args) fun ev => ev.allHold ctx' args
  | [], _ => by
      simp only [allHold]
      exact agree_pure true
  | e :: rest, h => by
      obtain ⟨he, hrest⟩ := Context.agreeOn_append.mp h
      simp only [allHold]
      exact agree_ite (agree_holds e he) (agree_allHold rest hrest) (agree_pure false)

theorem agree_anyHolds : ∀ args : List Expr, Context.AgreeOn (Expr.symbolsAll args) ctx ctx' →
    Agree (fun ev => ev.anyHolds ctx args) fun ev => ev.anyHolds ctx' args
  | [], _ => by
      simp only [anyHolds]
      exact agree_pure false
  | e :: rest, h => by
      obtain ⟨he, hrest⟩ := Context.agreeOn_append.mp h
      simp only [anyHolds]
      exact agree_ite (agree_holds e he) (agree_pure true) (agree_anyHolds rest hrest)
end

theorem agree_selectFrom (fallback : Scalar) : ∀ cases : List Case,
    Context.AgreeOn (cases.flatMap (·.condition.symbols)) ctx ctx' →
      Agree (fun ev => ev.selectFrom ctx fallback cases) fun ev =>
        ev.selectFrom ctx' fallback cases
  | [], _ => agree_pure fallback
  | c :: rest, h => by
      rw [List.flatMap_cons] at h
      obtain ⟨hc, hrest⟩ := Context.agreeOn_append.mp h
      simp only [selectFrom]
      exact agree_ite (agree_holds c.condition hc) (agree_pure c.value)
        (agree_selectFrom fallback rest hrest)

theorem agree_select (r : Rule) (h : Context.AgreeOn r.symbols ctx ctx') :
    Agree (fun ev => ev.select ctx r) fun ev => ev.select ctx' r :=
  agree_selectFrom r.fallback r.cases h

end Expressions

end Evaluator

end RemoteConfig
