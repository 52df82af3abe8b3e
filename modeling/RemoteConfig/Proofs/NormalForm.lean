import RemoteConfig.Proofs.Grammar
/-! # Normal forms

What has been read from a text is written as canonical text.  Reading that again gives the same tree,
with one exception: the digits of a number may be beyond the range of floating numbers, and then it
is infinite, for which there is no literal.  It is written as a word, which is read as a symbol.  So
an expression with an infinite number is read as another one, though with the same text, and a rule
with an infinite value is not read at all. -/

namespace RemoteConfig

open Rule (Token)

/-! ## Literals -/

namespace Scalar

/-- Whether a scalar is finite if it is a floating number. -/
def IsFinite : Scalar → Prop
  | float x => x.isFinite = true
  | _ => True

variable {token : Token} {v w : Scalar}

/-- Integers that are read fit 64 bits. -/
theorem proper_iff_isFinite (h : token.Denotes v) : v.Proper ↔ v.IsFinite := by
  cases h with
  | string s => exact Iff.rfl
  | atom h =>
      cases v with
      | int n => exact iff_of_true (fitsInt64_of_ofAtom? h) trivial
      | bool b => exact Iff.rfl
      | float x => exact Iff.rfl
      | string s => exact Iff.rfl

theorem forall_proper_iff {vs : List Scalar} (h : ∀ v ∈ vs, ∃ token : Token, token.Denotes v) :
    (∀ v ∈ vs, v.Proper) ↔ ∀ v ∈ vs, v.IsFinite := by
  refine forall₂_congr fun v hv => ?_
  obtain ⟨token, htoken⟩ := h v hv
  exact proper_iff_isFinite htoken

/-- What is not finite is read as a symbol. -/
theorem reread_of_not_isFinite (h : ¬ v.IsFinite) :
    v.reread = .symbol (String.ofList v.source) := by
  cases v with
  | float x =>
      have hx : x.isFinite = false := by simpa [IsFinite] using h
      simp only [reread, Expr.ofAtom, ofAtom?_of_not_isFinite hx]
  | bool b => exact absurd trivial h
  | int n => exact absurd trivial h
  | string s => exact absurd trivial h

/-- A scalar that has been read comes back as a literal only if it is finite, and then unchanged. -/
theorem reread_eq_literal_iff (h : token.Denotes v) :
    v.reread = .literal w ↔ v.IsFinite ∧ v = w := by
  constructor
  · intro hw
    by_cases hfinite : v.IsFinite
    · rw [reread_eq_iff.mpr ((proper_iff_isFinite h).mpr hfinite)] at hw
      exact ⟨hfinite, Expr.literal.inj hw⟩
    · rw [reread_of_not_isFinite hfinite] at hw
      cases hw
  · rintro ⟨hfinite, rfl⟩
    exact reread_eq_iff.mpr ((proper_iff_isFinite h).mpr hfinite)

/-- A scalar that has been read is written like what is read from its text. -/
theorem source_reread (h : token.Denotes v) : v.reread.source = v.source := by
  by_cases hfinite : v.IsFinite
  · rw [(reread_eq_literal_iff h).mpr ⟨hfinite, rfl⟩, Expr.source]
  · rw [reread_of_not_isFinite hfinite, Expr.source, String.toList_ofList]

end Scalar

/-! ## Expressions -/

namespace Expr

mutual
/-- The literals of an expression have tokens. -/
theorem Derives.denotes : ∀ {tokens : List Token} {e : Expr}, Derives tokens e →
    ∀ v ∈ e.literals, ∃ token : Token, token.Denotes v
  | _, _, .literal hv => by
      rw [literals]
      exact List.forall_mem_singleton.mpr ⟨_, hv⟩
  | _, _, .symbol _ => nofun
  | _, _, .call hargs => by
      rw [literals]
      exact hargs.denotes

theorem DerivesAll.denotes : ∀ {tokens : List Token} {args : List Expr}, DerivesAll tokens args →
    ∀ v ∈ literalsAll args, ∃ token : Token, token.Denotes v
  | _, _, .nil => nofun
  | _, _, .cons he hargs => by
      rw [literalsAll]
      exact List.forall_mem_append.mpr ⟨he.denotes, hargs.denotes⟩
end

mutual
/-- An expression that has been read is written like what is read from its text. -/
theorem Derives.source_reread : ∀ {tokens : List Token} {e : Expr}, Derives tokens e →
    e.reread.source = e.source
  | _, _, .literal hv => by
      rw [reread, Scalar.source_reread hv, source]
  | _, _, .symbol hname => by
      rw [reread, Expr.ofAtom, hname]
  | _, _, .call hargs => by
      rw [reread, source, source, hargs.source_rereadAll]

theorem DerivesAll.source_rereadAll : ∀ {tokens : List Token} {args : List Expr},
    DerivesAll tokens args → argsSource (rereadAll args) = argsSource args
  | _, _, .nil => rfl
  | _, _, .cons he hargs => by
      rw [rereadAll, argsSource, argsSource, he.source_reread, hargs.source_rereadAll]
end

theorem exists_derives {s : String} {e : Expr} (h : parseText s = .ok e) :
    ∃ tokens, Derives tokens e := by
  obtain ⟨tokens, hscan, -⟩ := bind_eq_ok h
  exact ⟨tokens, (recognizes_parseText.accepts_iff hscan e).mp h⟩

/-- An expression that has been read is read back exactly if its numbers are finite. -/
theorem parseText_toText_of_parseText {s : String} {e : Expr} (h : parseText s = .ok e) :
    parseText e.toText = .ok e ↔ ∀ v ∈ e.literals, v.IsFinite := by
  obtain ⟨tokens, hderives⟩ := exists_derives h
  rw [parseText_toText_iff, ← Scalar.forall_proper_iff hderives.denotes]
  exact ⟨TextSafe.literals, fun hliterals => ⟨legible_of_parseText h, hliterals⟩⟩

end Expr

/-! ## Rules -/

namespace Case

theorem Derives.condition_ne {tokens : List Token} {c : Case} (h : Derives tokens c) :
    c.condition ≠ .symbol "else" := by
  cases h with
  | clause he helse hv =>
      intro hcondition
      rw [hcondition] at he
      cases he
      exact helse [] rfl

/-- The literals of a clause have tokens. -/
theorem Derives.denotes {tokens : List Token} {c : Case} (h : Derives tokens c) :
    ∀ v ∈ c.literals, ∃ token : Token, token.Denotes v := by
  cases h with
  | clause he helse hv =>
      exact List.forall_mem_append.mpr ⟨he.denotes, List.forall_mem_singleton.mpr ⟨_, hv⟩⟩

theorem DerivesAll.exists_derives {tokens : List Token} {cases : List Case}
    (h : DerivesAll tokens cases) : ∀ c ∈ cases, ∃ used, Derives used c := by
  induction h with
  | nil => exact List.forall_mem_nil _
  | cons hc _ ih => exact List.forall_mem_cons.mpr ⟨⟨_, hc⟩, ih⟩

/-- What is read where a clause was written. -/
def reread (c : Case) : Case := ⟨c.condition.reread, c.value⟩

/-- A clause that has been read comes back if its value is finite, and only then. -/
theorem Derives.readAs_iff {tokens : List Token} {c c' : Case} (h : Derives tokens c) :
    c.ReadAs c' ↔ c.value.IsFinite ∧ c' = c.reread := by
  obtain ⟨token, htoken⟩ :=
    h.denotes c.value (List.mem_append_right _ (List.mem_singleton_self _))
  constructor
  · rintro ⟨-, hcondition, hvalue⟩
    obtain ⟨hfinite, hv⟩ := (Scalar.reread_eq_literal_iff htoken).mp hvalue
    exact ⟨hfinite, by rw [reread, hcondition, hv]⟩
  · rintro ⟨hfinite, rfl⟩
    exact ⟨h.condition_ne, rfl, (Scalar.reread_eq_literal_iff htoken).mpr ⟨hfinite, rfl⟩⟩

theorem forall₂_readAs_iff {cases cases' : List Case}
    (h : ∀ c ∈ cases, ∃ used, Derives used c) : List.Forall₂ ReadAs cases cases' ↔
      (∀ c ∈ cases, c.value.IsFinite) ∧ cases' = cases.map reread := by
  induction cases generalizing cases' with
  | nil => simp
  | cons c cases ih =>
      obtain ⟨⟨used, hc⟩, hcases⟩ := List.forall_mem_cons.mp h
      simp only [List.forall₂_cons_left_iff, hc.readAs_iff, ih hcases, List.forall_mem_cons,
        List.map_cons]
      constructor
      · rintro ⟨_, _, ⟨hfinite, rfl⟩, ⟨hrest, rfl⟩, rfl⟩
        exact ⟨⟨hfinite, hrest⟩, rfl⟩
      · rintro ⟨⟨hfinite, hrest⟩, rfl⟩
        exact ⟨_, _, ⟨hfinite, rfl⟩, ⟨hrest, rfl⟩, rfl⟩

/-- A clause that has been read is written like the one that comes back. -/
theorem Derives.source_reread {tokens : List Token} {c : Case} (h : Derives tokens c) :
    c.reread.source = c.source := by
  cases h with
  | clause he helse hv => rw [source, source, reread, he.source_reread]

end Case

namespace Rule

/-- What is read where a rule was written, if it is read at all. -/
def reread (r : Rule) : Rule := ⟨r.cases.map Case.reread, r.fallback⟩

/-- A rule all of whose values are finite. -/
structure FiniteValues (r : Rule) : Prop where
  values : ∀ c ∈ r.cases, c.value.IsFinite
  fallback : r.fallback.IsFinite

theorem Derives.denotes {tokens : List Token} {r : Rule} (h : Derives tokens r) :
    ∀ v ∈ r.literals, ∃ token : Token, token.Denotes v := by
  cases h with
  | rule hcases hfallback =>
      refine List.forall_mem_append.mpr ⟨fun v hv => ?_,
        List.forall_mem_singleton.mpr ⟨_, hfallback⟩⟩
      obtain ⟨c, hc, hvc⟩ := List.mem_flatMap.mp hv
      obtain ⟨used, hderives⟩ := hcases.exists_derives c hc
      exact hderives.denotes v hvc

theorem Derives.exists_derives {tokens : List Token} {r : Rule} (h : Derives tokens r) :
    ∀ c ∈ r.cases, ∃ used, Case.Derives used c := by
  cases h with
  | rule hcases _ => exact hcases.exists_derives

theorem exists_derives {s : String} {r : Rule} (h : parseText s = .ok r) :
    ∃ tokens, Derives tokens r := by
  obtain ⟨tokens, hscan, -⟩ := bind_eq_ok h
  exact ⟨tokens, (recognizes_parseText.accepts_iff hscan r).mp h⟩

/-- A rule that has been read comes back if its values are finite, and only then. -/
theorem parseText_toText_eq_ok_iff {s : String} {r r' : Rule} (h : parseText s = .ok r) :
    parseText r.toText = .ok r' ↔ r.FiniteValues ∧ r' = r.reread := by
  obtain ⟨tokens, hderives⟩ := exists_derives h
  obtain ⟨token, htoken⟩ :=
    hderives.denotes r.fallback (List.mem_append_right _ (List.mem_singleton_self _))
  -- conditions always come back as something; it is the values that must be literals again
  obtain ⟨cases', fallback'⟩ := r'
  rw [parseText_toText_eq_ok (legible_of_parseText h),
    Case.forall₂_readAs_iff hderives.exists_derives, Scalar.reread_eq_literal_iff htoken]
  constructor
  · rintro ⟨⟨hvalues, rfl⟩, hfallback, rfl⟩
    exact ⟨⟨hvalues, hfallback⟩, rfl⟩
  · rintro ⟨⟨hvalues, hfallback⟩, hr⟩
    cases hr
    exact ⟨⟨hvalues, rfl⟩, hfallback, rfl⟩

theorem toText_reread {s : String} {r : Rule} (h : parseText s = .ok r) :
    r.reread.toText = r.toText := by
  obtain ⟨tokens, hderives⟩ := exists_derives h
  have hcases : (r.cases.map Case.reread).flatMap Case.source = r.cases.flatMap Case.source := by
    rw [List.flatMap_map]
    refine List.flatMap_congr fun c hc => ?_
    obtain ⟨used, hused⟩ := hderives.exists_derives c hc
    exact hused.source_reread
  unfold toText reread
  simp only [hcases]

/-- A rule that has been read is read back exactly if its numbers are finite. -/
theorem parseText_toText_of_parseText {s : String} {r : Rule} (h : parseText s = .ok r) :
    parseText r.toText = .ok r ↔ ∀ v ∈ r.literals, v.IsFinite := by
  obtain ⟨tokens, hderives⟩ := exists_derives h
  have hconditions : ∀ c ∈ r.cases, c.condition.Legible ∧ c.condition ≠ .symbol "else" := by
    intro c hc
    obtain ⟨used, hused⟩ := hderives.exists_derives c hc
    exact ⟨legible_of_parseText h c hc, hused.condition_ne⟩
  rw [parseText_toText_iff, textSafe_iff, and_iff_right hconditions,
    Scalar.forall_proper_iff hderives.denotes]

end Rule

/-- What was read from a text is a normal form up to infinite numbers.  An expression is written and
read again, with the same text, and is the same exactly if its numbers are finite.  A rule is the
same under the same condition; it is read again exactly if its values are finite, and then it has the
same text. -/
theorem text_normal_form (s : String) :
    (∀ e, Expr.parseText s = .ok e →
      (∃ e', Expr.parseText e.toText = .ok e' ∧ e'.toText = e.toText) ∧
      (Expr.parseText e.toText = .ok e ↔ ∀ v ∈ e.literals, v.IsFinite)) ∧
    (∀ r, Rule.parseText s = .ok r →
      ((∃ r', Rule.parseText r.toText = .ok r') ↔ r.FiniteValues) ∧
      (∀ r', Rule.parseText r.toText = .ok r' → r'.toText = r.toText) ∧
      (Rule.parseText r.toText = .ok r ↔ ∀ v ∈ r.literals, v.IsFinite)) := by
  constructor
  · intro e h
    obtain ⟨tokens, hderives⟩ := Expr.exists_derives h
    refine ⟨⟨e.reread, Expr.parseText_toText (Expr.legible_of_parseText h), ?_⟩,
      Expr.parseText_toText_of_parseText h⟩
    rw [Expr.toText, Expr.toText, hderives.source_reread]
  · intro r h
    refine ⟨⟨?_, ?_⟩, ?_, Rule.parseText_toText_of_parseText h⟩
    · rintro ⟨r', hr'⟩
      exact ((Rule.parseText_toText_eq_ok_iff h).mp hr').1
    · intro hfinite
      exact ⟨r.reread, (Rule.parseText_toText_eq_ok_iff h).mpr ⟨hfinite, rfl⟩⟩
    · intro r' hr'
      obtain ⟨-, rfl⟩ := (Rule.parseText_toText_eq_ok_iff h).mp hr'
      exact Rule.toText_reread h

/-- Blanks and signs and digits that are not written again. -/
theorem text_normal_form_blanks :
    let e : Expr := .call "f" [.literal (.float .half), .symbol "x"]
    Expr.parseText " ( f\t0.50 x)" = .ok e ∧ e.toText = "(f 0.5 x)" ∧
      Expr.parseText e.toText = .ok e ∧
      Rule.parseText "(cond (else  +7))" = .ok ⟨[], .int 7⟩ ∧
      Rule.parseText (Rule.mk [] (.int 7)).toText = .ok ⟨[], .int 7⟩ := by
  intro e
  obtain ⟨hexpr, -⟩ := text_normal_form " ( f\t0.50 x)"
  obtain ⟨-, hrule⟩ := text_normal_form "(cond (else  +7))"
  have hscan : Token.scan " ( f\t0.50 x)".toList =
      .ok [.opening, .atom "f", .atom "0.50", .atom "x", .closing] := by cbv
  have hhalf : Token.Denotes (.atom "0.50") (.float .half) := .atom (by decide +kernel)
  have hx : Scalar.ofAtom? "x" = none := by decide
  have he : Expr.parseText " ( f\t0.50 x)" = .ok e :=
    (Expr.recognizes_parseText.accepts_iff hscan e).mpr
      (.call (.cons (.literal hhalf) (.cons (.symbol hx) .nil)))
  have hr : Rule.parseText "(cond (else  +7))" = .ok ⟨[], .int 7⟩ := by cbv
  refine ⟨he, by decide +kernel, (hexpr _ he).2.mpr ?_, hr, (hrule _ hr).2.2.mpr ?_⟩
  · exact List.forall_mem_singleton.mpr rfl
  · exact List.forall_mem_singleton.mpr trivial

/-- Infinite numbers are no normal forms: one is read as a symbol, and where it is the value of a
rule, not at all. -/
theorem not_text_normal_form :
    ¬ (∀ (s : String) (e : Expr), Expr.parseText s = .ok e → Expr.parseText e.toText = .ok e) ∧
    ¬ (∀ (s : String) (r : Rule), Rule.parseText s = .ok r →
      ∃ r', Rule.parseText r.toText = .ok r') := by
  have he : Expr.parseText "1e999" = .ok (.literal (.float (.signed false .infinity))) := by cbv
  have hr : Rule.parseText "(cond (else 1e999))" = .ok ⟨[], .float (.signed false .infinity)⟩ := by
    cbv
  constructor
  · intro h
    have hfinite := (Expr.parseText_toText_of_parseText he).mp (h _ _ he)
    cases hfinite _ (List.mem_singleton_self _)
  · intro h
    obtain ⟨r', hr'⟩ := h _ _ hr
    cases ((Rule.parseText_toText_eq_ok_iff hr).mp hr').1.fallback

end RemoteConfig
