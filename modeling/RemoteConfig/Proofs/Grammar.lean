import RemoteConfig.Proofs.TextForm
/-! # The grammar of the text form

The reader of expressions keeps a stack of open calls and takes the tokens one by one; that it reads
the language of a grammar is not visible in it.  The grammar is stated here as a derivation of trees
from tokens.  What is derived is read, whatever is open and whatever follows; and what is read was
derived, because at each moment the stack says which tokens are still missing.  As the reader is a
function, no tokens have two trees. -/

namespace RemoteConfig

open Rule (Token Malformed)

/-- The literal tokens, with their values. -/
inductive Rule.Token.Denotes : Token → Scalar → Prop
  | string (s : String) : Denotes (.string s) (.string s)
  | atom {s : String} {v : Scalar} (h : Scalar.ofAtom? s = some v) : Denotes (.atom s) v

namespace Expr

/-! ## Expressions -/

mutual
/-- The tokens of an expression: a literal, another atom, or a call in parentheses. -/
inductive Derives : List Token → Expr → Prop
  | literal {token : Token} {v : Scalar} (h : token.Denotes v) : Derives [token] (.literal v)
  | symbol {name : String} (h : Scalar.ofAtom? name = none) : Derives [.atom name] (.symbol name)
  | call {operator : String} {tokens : List Token} {args : List Expr}
      (hargs : DerivesAll tokens args) :
      Derives (.opening :: .atom operator :: (tokens ++ [.closing])) (.call operator args)

/-- The tokens of some expressions in a row. -/
inductive DerivesAll : List Token → List Expr → Prop
  | nil : DerivesAll [] []
  | cons {tokens rest : List Token} {e : Expr} {args : List Expr} (he : Derives tokens e)
      (hargs : DerivesAll rest args) : DerivesAll (tokens ++ rest) (e :: args)
end

theorem Derives.ofAtom (s : String) : Derives [.atom s] (ofAtom s) := by
  unfold Expr.ofAtom
  split
  · exact .literal (.atom ‹_›)
  · exact .symbol ‹_›

/-! ### What is derived is read -/

mutual
/-- A derived expression is read as a whole, whatever is open and whatever follows. -/
theorem Derives.ofTokens : ∀ {tokens : List Token} {e : Expr}, Derives tokens e →
    ∀ (stack : List Open) (rest : List Token),
      Expr.ofTokens stack (tokens ++ rest) = deliver stack e rest
  | _, _, .literal (.string s), stack, rest => by
      rw [List.singleton_append, Expr.ofTokens]
  | _, _, .literal (.atom h), stack, rest => by
      rw [List.singleton_append, Expr.ofTokens, Expr.ofAtom, h]
  | _, _, .symbol h, stack, rest => by
      rw [List.singleton_append, Expr.ofTokens, Expr.ofAtom, h]
  | _, _, @Derives.call operator _ _ hargs, stack, rest => by
      have hread := hargs.ofTokens ⟨operator, []⟩ stack rest
      simpa [Expr.ofTokens] using hread

/-- Derived arguments are added to the innermost open call, and the parenthesis closes it. -/
theorem DerivesAll.ofTokens : ∀ {tokens : List Token} {args : List Expr}, DerivesAll tokens args →
    ∀ (o : Open) (stack : List Open) (rest : List Token),
      Expr.ofTokens (o :: stack) (tokens ++ .closing :: rest) =
        deliver stack (.call o.operator (o.args.reverse ++ args)) rest
  | _, _, .nil, o, stack, rest => by
      rw [List.nil_append, Expr.ofTokens, Open.close, List.append_nil]
  | _, _, @DerivesAll.cons _ _ e _ he hargs, o, stack, rest => by
      rw [List.append_assoc, he.ofTokens, deliver, hargs.ofTokens (o.push e)]
      simp [Open.push]
end

/-! ### What is read was derived -/

/-- What a stack of open calls still demands: behind the expression that stands inside them, the
tokens complete the outermost call. -/
inductive Completes : List Open → Expr → List Token → Expr → Prop
  | done (e : Expr) : Completes [] e [] e
  | close {o : Open} {stack : List Open} {e whole : Expr} {tokens rest : List Token}
      {args : List Expr} (hargs : DerivesAll tokens args)
      (h : Completes stack (.call o.operator (o.args.reverse ++ e :: args)) rest whole) :
      Completes (o :: stack) e (tokens ++ .closing :: rest) whole

/-- What the reader finds inside open calls: either an expression, or the end of the innermost one;
and behind that what the stack demands. -/
inductive Found (stack : List Open) (tokens rest : List Token) (whole : Expr) : Prop
  | expression {used more : List Token} {e : Expr} (he : Derives used e)
      (hmore : Completes stack e more whole) (htokens : tokens = used ++ (more ++ rest))
  | closing {o : Open} {outer : List Open} {more : List Token} (hstack : stack = o :: outer)
      (hmore : Completes outer o.close more whole) (htokens : tokens = .closing :: (more ++ rest))

/-- Behind an opening parenthesis and an operator, the arguments have been found, and the call is
an expression inside the calls around it. -/
theorem Found.of_opening {operator : String} {stack : List Open} {tokens rest : List Token}
    {whole : Expr} (h : Found (⟨operator, []⟩ :: stack) tokens rest whole) :
    Found stack (.opening :: .atom operator :: tokens) rest whole := by
  cases h with
  | expression he hmore htokens =>
      cases hmore with
      | close hargs hmore =>
          refine .expression (.call (.cons he hargs)) hmore ?_
          simp [htokens]
  | closing hstack hmore htokens =>
      cases hstack
      refine .expression (.call .nil) hmore ?_
      simp [htokens]

/-- What was found behind an expression that had been pushed completes the calls around it. -/
theorem Found.completes {o : Open} {stack : List Open} {e whole : Expr} {tokens rest : List Token}
    (h : Found (o.push e :: stack) tokens rest whole) :
    ∃ used, Completes (o :: stack) e used whole ∧ tokens = used ++ rest := by
  cases h with
  | expression he hmore htokens =>
      cases hmore with
      | close hargs hmore =>
          refine ⟨_, .close (.cons he hargs) (by simpa [Open.push] using hmore), ?_⟩
          simp [htokens]
  | closing hstack hmore htokens =>
      cases hstack
      refine ⟨_, .close .nil (by simpa [Open.push, Open.close] using hmore), ?_⟩
      simp [htokens]

mutual
theorem found_of_ofTokens (stack : List Open) :
    (tokens : List Token) → ∀ {whole : Expr} {rest : List Token},
      ofTokens stack tokens = .ok (whole, rest) → Found stack tokens rest whole
  | [], _, _, h => by simp [ofTokens] at h
  | .opening :: .atom operator :: tail, _, _, h => by
      rw [ofTokens] at h
      exact (found_of_ofTokens _ tail h).of_opening
  | [.opening], _, _, h => by simp [ofTokens] at h
  | .opening :: .opening :: _, _, _, h => by simp [ofTokens] at h
  | .opening :: .closing :: _, _, _, h => by simp [ofTokens] at h
  | .opening :: .string _ :: _, _, _, h => by simp [ofTokens] at h
  | .closing :: tail, _, _, h => by
      cases stack with
      | nil => simp [ofTokens] at h
      | cons o stack =>
          rw [ofTokens] at h
          obtain ⟨more, hmore, rfl⟩ := completes_of_deliver stack o.close tail h
          exact .closing rfl hmore rfl
  | .string s :: tail, _, _, h => by
      rw [ofTokens] at h
      obtain ⟨more, hmore, rfl⟩ := completes_of_deliver stack _ tail h
      exact .expression (.literal (.string s)) hmore rfl
  | .atom s :: tail, _, _, h => by
      rw [ofTokens] at h
      obtain ⟨more, hmore, rfl⟩ := completes_of_deliver stack _ tail h
      exact .expression (.ofAtom s) hmore rfl
-- an expression is delivered without a token, but what is read next is a step down
termination_by tokens => (tokens.length, 0)

theorem completes_of_deliver (stack : List Open) (e : Expr) (tokens : List Token) {whole : Expr}
    {rest : List Token} (h : deliver stack e tokens = .ok (whole, rest)) :
    ∃ used, Completes stack e used whole ∧ tokens = used ++ rest := by
  cases stack with
  | nil =>
      rw [deliver] at h
      cases h
      exact ⟨[], .done e, rfl⟩
  | cons o stack =>
      rw [deliver] at h
      exact (found_of_ofTokens _ tokens h).completes
termination_by (tokens.length, 1)
end

/-- The reader takes off exactly the tokens of an expression. -/
theorem ofTokens_eq_ok_iff {tokens rest : List Token} {e : Expr} :
    ofTokens [] tokens = .ok (e, rest) ↔ ∃ used, Derives used e ∧ tokens = used ++ rest := by
  constructor
  · intro h
    cases found_of_ofTokens [] tokens h with
    | expression he hmore htokens =>
        cases hmore
        exact ⟨_, he, htokens⟩
    | closing hstack _ _ => cases hstack
  · rintro ⟨used, he, rfl⟩
    rw [he.ofTokens, deliver]

/-- No expression is the beginning of another one. -/
theorem Derives.eq_nil_of_append {tokens more : List Token} {e e' : Expr} (h : Derives tokens e)
    (h' : Derives (tokens ++ more) e') : more = [] := by
  have hread : Expr.ofTokens [] (tokens ++ more) = .ok (e, more) :=
    ofTokens_eq_ok_iff.mpr ⟨tokens, h, rfl⟩
  have hread' := ofTokens_eq_ok_iff.mpr ⟨tokens ++ more, h', (List.append_nil _).symm⟩
  cases hread.symm.trans hread'
  rfl

theorem derives_literal_iff {tokens : List Token} {v : Scalar} :
    Derives tokens (.literal v) ↔ ∃ token : Token, token.Denotes v ∧ tokens = [token] := by
  constructor
  · intro h
    cases h with
    | literal hv => exact ⟨_, hv, rfl⟩
  · rintro ⟨token, hv, rfl⟩
    exact .literal hv

end Expr

/-! ## Rules -/

/-- The tokens of a clause: a condition and a literal in parentheses.  The word that opens the last
clause is no condition. -/
inductive Case.Derives : List Token → Case → Prop
  | clause {tokens : List Token} {token : Token} {c : Case} (he : Expr.Derives tokens c.condition)
      (helse : ∀ rest, tokens ≠ .atom "else" :: rest) (hv : token.Denotes c.value) :
      Derives (.opening :: (tokens ++ [token, .closing])) c

/-- The tokens of some clauses in a row. -/
inductive Case.DerivesAll : List Token → List Case → Prop
  | nil : DerivesAll [] []
  | cons {tokens rest : List Token} {c : Case} {cases : List Case} (hc : Derives tokens c)
      (hcases : DerivesAll rest cases) : DerivesAll (tokens ++ rest) (c :: cases)

namespace Rule

/-- The last clause, and the end of the rule. -/
def ending (token : Token) : List Token := [.opening, .atom "else", token, .closing, .closing]

/-- The tokens of a rule. -/
inductive Derives : List Token → Rule → Prop
  | rule {tokens : List Token} {token : Token} {r : Rule}
      (hcases : Case.DerivesAll tokens r.cases) (hfallback : token.Denotes r.fallback) :
      Derives (.opening :: .atom "cond" :: (tokens ++ ending token)) r

theorem expect_eq_ok_iff {token : Token} {tokens rest : List Token} :
    expect token tokens = .ok rest ↔ tokens = token :: rest := by
  cases tokens with
  | nil => simp [expect]
  | cons found tail => by_cases hfound : found = token <;> simp [expect, hfound]

theorem literal_eq_ok_iff {tokens rest : List Token} {v : Scalar} :
    literal tokens = .ok (v, rest) ↔ ∃ token : Token, token.Denotes v ∧ tokens = token :: rest := by
  constructor
  · intro h
    obtain ⟨⟨e, more⟩, hexpr, hvalue⟩ := bind_eq_ok h
    obtain ⟨used, hused, htokens⟩ := Expr.ofTokens_eq_ok_iff.mp hexpr
    cases e with
    | literal w =>
        cases hvalue
        obtain ⟨token, hv, hsingle⟩ := Expr.derives_literal_iff.mp hused
        exact ⟨token, hv, by rw [htokens, hsingle, List.singleton_append]⟩
    | symbol name => cases hvalue
    | call name args => cases hvalue
  · rintro ⟨token, hv, rfl⟩
    have hread := (Expr.Derives.literal hv).ofTokens [] rest
    rw [List.singleton_append, Expr.deliver] at hread
    rw [literal, hread]
    rfl

theorem lastClause_eq_ok_iff {tokens : List Token} {v : Scalar} : lastClause tokens = .ok v ↔
    ∃ token : Token, token.Denotes v ∧ tokens = [token, .closing, .closing] := by
  constructor
  · intro h
    obtain ⟨⟨w, rest⟩, hliteral, hclosings⟩ := bind_eq_ok h
    obtain ⟨more, hfirst, hsecond⟩ := bind_eq_ok hclosings
    obtain ⟨last, hlast, hend⟩ := bind_eq_ok hsecond
    obtain ⟨token, hv, htokens⟩ := literal_eq_ok_iff.mp hliteral
    rw [expect_eq_ok_iff.mp hfirst, expect_eq_ok_iff.mp hlast] at htokens
    cases last with
    | nil =>
        cases hend
        exact ⟨token, hv, htokens⟩
    | cons token last => cases hend
  · rintro ⟨token, hv, rfl⟩
    have hliteral : literal [token, .closing, .closing] = .ok (v, [.closing, .closing]) :=
      literal_eq_ok_iff.mpr ⟨token, hv, rfl⟩
    rw [lastClause, hliteral]
    rfl

theorem clause_eq_ok_iff {tokens rest : List Token} {c : Case} : clause tokens = .ok (c, rest) ↔
    ∃ (used : List Token) (token : Token), Expr.Derives used c.condition ∧ token.Denotes c.value ∧
      tokens = used ++ token :: .closing :: rest := by
  constructor
  · intro h
    obtain ⟨⟨e, behind⟩, hexpr, hvalue⟩ := bind_eq_ok h
    obtain ⟨⟨v, more⟩, hliteral, hclosing⟩ := bind_eq_ok hvalue
    obtain ⟨last, hlast, hclause⟩ := bind_eq_ok hclosing
    obtain ⟨used, he, htokens⟩ := Expr.ofTokens_eq_ok_iff.mp hexpr
    obtain ⟨token, hv, hbehind⟩ := literal_eq_ok_iff.mp hliteral
    rw [hbehind, expect_eq_ok_iff.mp hlast] at htokens
    cases hclause
    exact ⟨used, token, he, hv, htokens⟩
  · rintro ⟨used, token, he, hv, rfl⟩
    have hliteral : literal (token :: .closing :: rest) = .ok (c.value, .closing :: rest) :=
      literal_eq_ok_iff.mpr ⟨token, hv, rfl⟩
    rw [clause, he.ofTokens, Expr.deliver]
    simp only [bind, Except.bind, hliteral]
    rfl

/-- A derived clause is read behind its parenthesis, and is not taken for the last one. -/
theorem exists_clause {tokens : List Token} {c : Case} (h : Case.Derives tokens c) :
    ∃ inner, tokens = .opening :: inner ∧ ∀ rest,
      (∀ tail, inner ++ rest ≠ .atom "else" :: tail) ∧ clause (inner ++ rest) = .ok (c, rest) := by
  cases h with
  | @clause used token _ he helse hv =>
      refine ⟨used ++ [token, .closing], rfl, fun rest => ⟨?_, ?_⟩⟩
      · intro tail htail
        cases used with
        | nil => cases he
        | cons first used => exact helse used (by rw [(List.cons_eq_cons.mp htail).1])
      · exact clause_eq_ok_iff.mpr ⟨used, token, he, hv, by simp⟩

/-- Clauses are read up to the last one, behind which the rule has to end. -/
theorem clauses_eq_ok_iff {done : List Case} {tokens : List Token} {r : Rule} :
    clauses done tokens = .ok r ↔ ∃ (used : List Token) (token : Token) (cases : List Case),
      Case.DerivesAll used cases ∧ token.Denotes r.fallback ∧ tokens = used ++ ending token ∧
        r.cases = done.reverse ++ cases := by
  constructor
  · intro h
    fun_induction clauses done tokens with
    | case1 done rest =>
        obtain ⟨v, hlast, rfl⟩ := map_eq_ok h
        obtain ⟨token, hv, rfl⟩ := lastClause_eq_ok_iff.mp hlast
        exact ⟨[], token, [], .nil, hv, rfl, (List.append_nil _).symm⟩
    | case2 => cases h
    | case3 done tail hne c rest hclause ih =>
        obtain ⟨used, token, he, hv, rfl⟩ := clause_eq_ok_iff.mp hclause
        obtain ⟨more, last, cases, hcases, hfallback, rfl, hr⟩ := ih h
        -- the reader looks for the last clause first, so what it took for a clause is not that
        have helse : ∀ rest, used ≠ .atom "else" :: rest := by
          rintro rest rfl
          exact hne _ rfl
        refine ⟨_, last, c :: cases, .cons (.clause he helse hv) hcases, hfallback, ?_, ?_⟩
        · simp
        · simp [hr]
    | case4 => cases h
  · rintro ⟨used, token, cases, hcases, hfallback, rfl, hr⟩
    induction hcases generalizing done with
    | nil =>
        have hlast : lastClause [token, .closing, .closing] = .ok r.fallback :=
          lastClause_eq_ok_iff.mpr ⟨token, hfallback, rfl⟩
        rw [List.nil_append, ending, clauses, hlast, ← List.append_nil done.reverse, ← hr]
        rfl
    | @cons _ rest c cases hc hcases ih =>
        obtain ⟨inner, rfl, hinner⟩ := exists_clause hc
        obtain ⟨hne, hclause⟩ := hinner (rest ++ ending token)
        rw [List.append_assoc, List.cons_append, clauses_of_ne_else hne, hclause]
        exact ih (by simp [hr])

/-- A rule is read if and only if its tokens are derived. -/
theorem ofTokens_eq_ok_iff {tokens : List Token} {r : Rule} :
    ofTokens tokens = .ok r ↔ Derives tokens r := by
  constructor
  · intro h
    obtain ⟨rest, hopening, hcond⟩ := bind_eq_ok h
    rw [expect_eq_ok_iff.mp hopening]
    split at hcond
    · obtain ⟨used, token, cases, hcases, hfallback, rfl, hr⟩ := clauses_eq_ok_iff.mp hcond
      exact .rule (by simpa [hr] using hcases) hfallback
    · cases hcond
  · intro h
    cases h with
    | rule hcases hfallback =>
        exact clauses_eq_ok_iff.mpr ⟨_, _, _, hcases, hfallback, rfl, rfl⟩

/-- Two rows of clauses, each up to the end of its rule, end together. -/
theorem eq_nil_of_clauses {used used' more : List Token} {cases cases' : List Case}
    {token token' : Token} (h : Case.DerivesAll used cases) (h' : Case.DerivesAll used' cases')
    (htokens : used ++ (ending token ++ more) = used' ++ ending token') : more = [] := by
  -- clauses are compared one by one: no clause opens like the ending, and the reader of clauses, as
  -- a function, finds one clause and one rest on both sides
  induction h generalizing used' cases' with
  | nil =>
      cases h' with
      | nil => exact (by simpa [ending] using htokens : token = token' ∧ more = []).2
      | cons hc' hcases' =>
          obtain ⟨inner', rfl, hinner'⟩ := exists_clause hc'
          rw [List.append_assoc] at htokens
          exact absurd (List.cons_eq_cons.mp htokens).2.symm ((hinner' _).1 _)
  | cons hc hcases ih =>
      obtain ⟨inner, rfl, hinner⟩ := exists_clause hc
      rw [List.append_assoc] at htokens
      cases h' with
      | nil => exact absurd (List.cons_eq_cons.mp htokens).2 ((hinner _).1 _)
      | @cons _ rest' _ _ hc' hcases' =>
          obtain ⟨inner', rfl, hinner'⟩ := exists_clause hc'
          rw [List.append_assoc] at htokens
          have hclause : clause (inner ++ _) = clause (inner' ++ (rest' ++ ending token')) :=
            congrArg clause (List.cons_eq_cons.mp htokens).2
          rw [(hinner _).2, (hinner' _).2, Except.ok.injEq, Prod.mk.injEq] at hclause
          exact ih hcases' hclause.2

/-- No rule is the beginning of another one. -/
theorem Derives.eq_nil_of_append {tokens more : List Token} {r r' : Rule} (h : Derives tokens r)
    (h' : Derives (tokens ++ more) r') : more = [] := by
  cases h with
  | @rule used token _ hcases _ =>
      generalize htokens : (.opening :: .atom "cond" :: (used ++ ending token)) ++ more = whole at h'
      cases h' with
      | @rule used' token' _ hcases' _ =>
          have hclauses : used ++ (ending token ++ more) = used' ++ ending token' := by
            rw [← List.append_assoc]
            exact (List.cons_eq_cons.mp (List.cons_eq_cons.mp htokens).2).2
          exact eq_nil_of_clauses hcases hcases' hclauses

/-! ## Texts -/

/-- A reader of texts that accepts exactly what a grammar derives. -/
structure Recognizes {α : Type} (parse : String → Except Malformed α)
    (Derives : List Token → α → Prop) : Prop where
  /-- The result on a text is the tree of its tokens. -/
  accepts_iff : ∀ {s : String} {tokens : List Token}, Token.scan s.toList = .ok tokens →
    ∀ x, parse s = .ok x ↔ Derives tokens x
  /-- No tokens have two trees. -/
  unique : ∀ {tokens : List Token} {x y : α}, Derives tokens x → Derives tokens y → x = y
  /-- Every text is answered, with the tree of its tokens or with a reason why it has none. -/
  answers : ∀ s : String,
    (∃ tokens x, Token.scan s.toList = .ok tokens ∧ Derives tokens x ∧ parse s = .ok x) ∨
      ((∃ reason, parse s = .error reason) ∧
        ∀ tokens, Token.scan s.toList = .ok tokens → ∀ x, ¬ Derives tokens x)
  /-- Tokens with a tree have none any more when some are cut off, or others follow. -/
  eq_nil_of_append : ∀ {tokens more : List Token} {x y : α}, Derives tokens x →
    Derives (tokens ++ more) y → more = []

/-- A reader that scans a text, and then reads all tokens. -/
theorem recognizes_of_read {α : Type} {parse : String → Except Malformed α}
    {Derives : List Token → α → Prop} {read : List Token → Except Malformed α}
    (hparse : ∀ s, parse s = Token.scan s.toList >>= read)
    (hread : ∀ {tokens x}, read tokens = .ok x ↔ Derives tokens x)
    (hends : ∀ {tokens more : List Token} {x y : α}, Derives tokens x →
      Derives (tokens ++ more) y → more = []) : Recognizes parse Derives where
  accepts_iff := by
    intro s tokens hscan x
    rw [hparse, hscan, ← hread]
    rfl
  unique := by
    intro tokens x y hx hy
    exact Except.ok.inj ((hread.mpr hx).symm.trans (hread.mpr hy))
  answers := by
    intro s
    rw [hparse]
    cases hscan : Token.scan s.toList with
    | error reason => exact .inr ⟨⟨reason, rfl⟩, nofun⟩
    | ok tokens =>
        cases hx : read tokens with
        | ok x => exact .inl ⟨tokens, x, rfl, hread.mp hx, hx⟩
        | error reason =>
            refine .inr ⟨⟨reason, hx⟩, ?_⟩
            rintro _ ⟨⟩ x hderives
            cases hx.symm.trans (hread.mpr hderives)
  eq_nil_of_append := hends

end Rule

theorem Expr.recognizes_parseText : Rule.Recognizes Expr.parseText Expr.Derives := by
  refine Rule.recognizes_of_read (fun s => rfl) ?_ Expr.Derives.eq_nil_of_append
  intro tokens e
  constructor
  · intro h
    obtain ⟨⟨e', rest⟩, hread, hend⟩ := bind_eq_ok h
    obtain ⟨used, he, rfl⟩ := Expr.ofTokens_eq_ok_iff.mp hread
    cases rest with
    | nil =>
        cases hend
        rwa [List.append_nil]
    | cons token rest => cases hend
  · intro h
    have hread := Expr.ofTokens_eq_ok_iff.mpr ⟨tokens, h, (List.append_nil _).symm⟩
    simp only [hread, bind, Except.bind]

theorem Rule.recognizes_parseText : Rule.Recognizes Rule.parseText Rule.Derives :=
  Rule.recognizes_of_read (fun _ => rfl) Rule.ofTokens_eq_ok_iff Rule.Derives.eq_nil_of_append

/-- The readers of the text form accept exactly their grammars, which give no tokens two trees. -/
theorem text_grammar_exact :
    Rule.Recognizes Expr.parseText Expr.Derives ∧ Rule.Recognizes Rule.parseText Rule.Derives :=
  ⟨Expr.recognizes_parseText, Rule.recognizes_parseText⟩

/-- A nested call, the same one cut off and closed too often, and a rule. -/
theorem text_grammar_exact_nested :
    Expr.parseText "(f (g -3))" = .ok (.call "f" [.call "g" [.literal (.int (-3))]]) ∧
      (∃ reason, Expr.parseText "(f (g -3)" = .error reason) ∧
      (∃ reason, Expr.parseText "(f (g -3)))" = .error reason) ∧
      Rule.parseText "(cond ((f) 1) (else \"-\"))" =
        .ok ⟨[⟨.call "f" [], .int 1⟩], .string "-"⟩ := by
  obtain ⟨hexpr, hrule⟩ := text_grammar_exact
  let short : List Token := [.opening, .atom "f", .opening, .atom "g", .atom "-3", .closing]
  let close : List Token := [.closing]
  have hscan : Token.scan "(f (g -3))".toList = .ok (short ++ close) := by cbv
  have hshort : Token.scan "(f (g -3)".toList = .ok short := by cbv
  have hlong : Token.scan "(f (g -3)))".toList = .ok (short ++ close ++ close) := by cbv
  have hint : Token.Denotes (.atom "-3") (.int (-3)) := .atom (by decide +kernel)
  have hderives : Expr.Derives (short ++ close) (.call "f" [.call "g" [.literal (.int (-3))]]) :=
    .call (.cons (.call (.cons (.literal hint) .nil)) .nil)
  refine ⟨(hexpr.accepts_iff hscan _).mpr hderives, ?_, ?_, ?_⟩
  · rcases hexpr.answers "(f (g -3)" with ⟨tokens, e, hcut, he, -⟩ | ⟨hrefused, -⟩
    · obtain rfl := Except.ok.inj (hcut.symm.trans hshort)
      exact absurd (hexpr.eq_nil_of_append he hderives) (List.cons_ne_nil _ _)
    · exact hrefused
  · rcases hexpr.answers "(f (g -3)))" with ⟨tokens, e, hmore, he, -⟩ | ⟨hrefused, -⟩
    · obtain rfl := Except.ok.inj (hmore.symm.trans hlong)
      exact absurd (hexpr.eq_nil_of_append hderives he) (List.cons_ne_nil _ _)
    · exact hrefused
  · let condition : List Token := [.opening, .atom "f", .closing]
    let clause : List Token := .opening :: (condition ++ [.atom "1", .closing])
    have htokens : Token.scan "(cond ((f) 1) (else \"-\"))".toList =
        .ok (.opening :: .atom "cond" :: (clause ++ Rule.ending (.string "-"))) := by cbv
    have hone : Token.Denotes (.atom "1") (.int 1) := .atom (by decide +kernel)
    have helse : ∀ rest, condition ≠ .atom "else" :: rest := by
      intro rest h
      cases (List.cons_eq_cons.mp h).1
    have hclause : Case.Derives clause ⟨.call "f" [], .int 1⟩ := .clause (.call .nil) helse hone
    exact (hrule.accepts_iff htokens _).mpr (.rule (.cons hclause .nil) (.string "-"))

end RemoteConfig
