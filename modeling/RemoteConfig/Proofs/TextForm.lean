import RemoteConfig.Proofs.Conditions
import RemoteConfig.Proofs.RuleForm
import RemoteConfig.Proofs.Tokens
/-! # The text form of rules

An expression is read back from its text form exactly if its names are words, its symbols do not
read as literals, and its numbers are proper.  That is exact, because names come back from a text as
words only, and symbols only if they read as nothing else.  In a rule the word `else` cannot be a
condition, since it opens the last clause.  Rules that are admitted have none of these problems. -/

namespace RemoteConfig

open Rule (Token Malformed)
open Rule.Token (IsWord Stops Scans)

namespace Expr

/-! ## What an expression holds -/

theorem mem_symbolsAll {name : String} {args : List Expr} :
    name ∈ symbolsAll args ↔ ∃ e ∈ args, name ∈ e.symbols := by
  induction args with
  | nil => simp [symbolsAll]
  | cons e rest ih => simp [symbolsAll, ih]

/-- An expression whose operators are words, and whose symbols are words that read as nothing
else. -/
structure Legible (e : Expr) : Prop where
  operators : ∀ p ∈ e.calls, IsWord p.1
  symbols : ∀ name ∈ e.symbols, IsWord name ∧ Scalar.ofAtom? name = none

theorem legible_literal (v : Scalar) : Legible (literal v) := ⟨nofun, nofun⟩

theorem legible_symbol {name : String} :
    Legible (symbol name) ↔ IsWord name ∧ Scalar.ofAtom? name = none :=
  ⟨fun h => h.symbols name (List.mem_singleton_self name),
    fun h => ⟨nofun, fun _ hother => List.mem_singleton.mp hother ▸ h⟩⟩

theorem legible_call {name : String} {args : List Expr} :
    Legible (call name args) ↔ IsWord name ∧ ∀ e ∈ args, Legible e := by
  constructor
  · intro h
    refine ⟨h.operators (name, args) (List.mem_cons_self ..), fun e he => ⟨fun p hp => ?_, ?_⟩⟩
    · exact h.operators p (List.mem_cons_of_mem _ (mem_callsAll.mpr ⟨e, he, hp⟩))
    · exact fun other hother => h.symbols other (mem_symbolsAll.mpr ⟨e, he, hother⟩)
  · rintro ⟨hname, hargs⟩
    refine ⟨List.forall_mem_cons.mpr ⟨hname, fun p hp => ?_⟩, fun other hother => ?_⟩
    · obtain ⟨e, he, hmem⟩ := mem_callsAll.mp hp
      exact (hargs e he).operators p hmem
    · obtain ⟨e, he, hmem⟩ := mem_symbolsAll.mp hother
      exact (hargs e he).symbols other hmem

/-! ## Tokens -/

mutual
/-- The tokens of the text form. -/
def tokens : Expr → List Token
  | literal v => [v.token]
  | symbol name => [.atom name]
  | call name args => .opening :: .atom name :: (tokensAll args ++ [.closing])

def tokensAll : List Expr → List Token
  | [] => []
  | e :: rest => e.tokens ++ tokensAll rest
end

theorem stops_blank (rest : List Char) : Stops (' ' :: rest) := Token.stops_cons (by decide) rest

theorem stops_closing (rest : List Char) : Stops (')' :: rest) := Token.stops_cons (by decide) rest

theorem stops_argsSource (args : List Expr) {rest : List Char} (hr : Stops rest) :
    Stops (argsSource args ++ rest) := by
  cases args with
  | nil => exact hr
  | cons e args => exact stops_blank _

mutual
/-- The scanner finds the tokens of a legible expression in its text. -/
theorem scans_source : ∀ {e : Expr}, e.Legible → ∀ {rest : List Char}, Stops rest →
    Scans (e.source ++ rest) e.tokens rest
  | .literal v, _, rest, hr => v.scans_source hr
  | .symbol name, h, rest, hr => (legible_symbol.mp h).1.scans hr
  | .call name args, h, rest, hr => by
      obtain ⟨hname, hargs⟩ := legible_call.mp h
      have hstops : Stops (argsSource args ++ (')' :: rest)) :=
        stops_argsSource args (stops_closing rest)
      have hscans := (Token.scans_opening _).trans ((hname.scans hstops).trans
        ((scans_argsSource hargs (stops_closing rest)).trans (Token.scans_closing rest)))
      simpa [source, tokens] using hscans

theorem scans_argsSource : ∀ {args : List Expr}, (∀ e ∈ args, e.Legible) → ∀ {rest : List Char},
    Stops rest → Scans (argsSource args ++ rest) (tokensAll args) rest
  | [], _, rest, _ => by
      simp only [argsSource, tokensAll, List.nil_append, Scans]
      cases Token.scan rest <;> rfl
  | e :: args, h, rest, hr => by
      obtain ⟨he, hargs⟩ := List.forall_mem_cons.mp h
      have hscans := (Token.scans_blank _).trans ((scans_source he (stops_argsSource args hr)).trans
        (scans_argsSource hargs hr))
      simpa [argsSource, tokensAll] using hscans
end

end Expr

/-! ## Reading tokens -/

namespace Scalar

open Decimal

/-- What is read where a scalar was written. -/
def reread : Scalar → Expr
  | string s => .literal (string s)
  | v => .ofAtom (String.ofList v.source)

theorem ofTokens_token (v : Scalar) (stack : List Expr.Open) (rest : List Token) :
    Expr.ofTokens stack (v.token :: rest) = Expr.deliver stack v.reread rest := by
  cases v <;> simp only [token, Expr.ofTokens, reread]

theorem fitsInt64_of_ofAtom? {s : String} {n : Int} (h : ofAtom? s = some (int n)) :
    fitsInt64 n = true := by
  unfold ofAtom? at h
  split at h
  · cases h
  · split at h
    · cases h
    · simp only at h
      split at h
      · cases h
      · split at h
        · rename_i hn
          cases h
          exact fitsInt64_of_readInteger hn
        · obtain ⟨x, -, hx⟩ := Option.map_eq_some_iff.mp h
          cases hx

theorem ofAtom_eq_literal {s : String} {v : Scalar} :
    Expr.ofAtom s = .literal v ↔ ofAtom? s = some v := by
  unfold Expr.ofAtom
  split
  · rename_i w hw
    simp [hw]
  · rename_i hnone
    simp [hnone]

/-- What is not finite is written as a word that is no literal. -/
theorem ofAtom?_of_not_isFinite {x : Binary64} (hx : x.isFinite = false) :
    ofAtom? (String.ofList (float x).source) = none := by
  have hall : ∀ cs ∈ [['N', 'a', 'N'], ['i', 'n', 'f'], ['-', 'i', 'n', 'f']],
      ofAtom? (String.ofList cs) = none := by decide
  exact hall _ (source_of_not_isFinite hx)

/-- A scalar is read back exactly if it is proper. -/
theorem reread_eq_iff {v : Scalar} : v.reread = .literal v ↔ v.Proper := by
  cases v with
  | string s => exact iff_of_true rfl trivial
  | bool b =>
      refine iff_of_true (ofAtom_eq_literal.mpr ?_) trivial
      cases b <;> decide
  | int n =>
      have hsource : String.ofList (int n).source = toString n := String.ofList_toList
      rw [reread, hsource, ofAtom_eq_literal]
      · exact ⟨fitsInt64_of_ofAtom?, ofAtom?_int⟩
      · rintro s ⟨⟩
  | float x =>
      rw [reread, ofAtom_eq_literal]
      · cases hx : x.isFinite with
        | true => exact iff_of_true (ofAtom?_float hx) hx
        | false =>
            refine iff_of_false ?_ (by simp [Proper, hx])
            rw [ofAtom?_of_not_isFinite hx]
            exact Option.some_ne_none _ ∘ Eq.symm
      · rintro s ⟨⟩

end Scalar

namespace Expr

mutual
/-- What is read where an expression was written. -/
def reread : Expr → Expr
  | literal v => v.reread
  | symbol name => ofAtom name
  | call name args => call name (rereadAll args)

def rereadAll : List Expr → List Expr
  | [] => []
  | e :: rest => e.reread :: rereadAll rest
end

mutual
/-- The tokens of an expression are read as a whole, whatever follows. -/
theorem ofTokens_tokens : ∀ (e : Expr) (stack : List Open) (rest : List Token),
    ofTokens stack (e.tokens ++ rest) = deliver stack e.reread rest
  | .literal v, stack, rest => by
      rw [tokens, reread]
      exact v.ofTokens_token stack rest
  | .symbol name, stack, rest => by
      rw [tokens, reread, List.singleton_append, ofTokens]
  | .call name args, stack, rest => by
      have hargs := ofTokens_tokensAll args ⟨name, []⟩ stack rest
      simpa [tokens, reread, ofTokens] using hargs

/-- The arguments are added to the innermost open call, and the parenthesis closes it. -/
theorem ofTokens_tokensAll : ∀ (args : List Expr) (o : Open) (stack : List Open)
    (rest : List Token), ofTokens (o :: stack) (tokensAll args ++ .closing :: rest) =
      deliver stack (call o.operator (o.args.reverse ++ rereadAll args)) rest
  | [], o, stack, rest => by
      simp [tokensAll, rereadAll, ofTokens, Open.close]
  | e :: args, o, stack, rest => by
      rw [tokensAll, List.append_assoc, ofTokens_tokens e, deliver,
        ofTokens_tokensAll args (o.push e.reread) stack rest]
      simp [Open.push, rereadAll]
end

/-- A legible text is read as an expression. -/
theorem parseText_toText {e : Expr} (h : e.Legible) : parseText e.toText = .ok e.reread := by
  have hscan : Token.scan e.source = .ok e.tokens := by
    have hscans := scans_source h Token.stops_nil
    rw [List.append_nil, Scans, Token.scan] at hscans
    rw [hscans]
    exact congrArg Except.ok (List.append_nil _)
  have hread : ofTokens [] e.tokens = .ok (e.reread, []) := by
    have htokens := ofTokens_tokens e [] []
    rwa [List.append_nil, deliver] at htokens
  rw [parseText, toText, String.toList_ofList, hscan]
  simp only [bind, Except.bind, hread]

mutual
/-- A legible expression is read back exactly if its literals are proper. -/
theorem reread_eq_iff : ∀ {e : Expr}, e.Legible → (e.reread = e ↔ ∀ v ∈ e.literals, v.Proper)
  | .literal v, _ => by
      rw [reread, Scalar.reread_eq_iff, literals, List.forall_mem_singleton]
  | .symbol name, h => by
      have hnone := (legible_symbol.mp h).2
      refine iff_of_true ?_ nofun
      rw [reread, ofAtom, hnone]
  | .call name args, h => by
      rw [reread, literals, ← rereadAll_eq_iff (legible_call.mp h).2]
      simp

theorem rereadAll_eq_iff : ∀ {args : List Expr}, (∀ e ∈ args, e.Legible) →
    (rereadAll args = args ↔ ∀ v ∈ literalsAll args, v.Proper)
  | [], _ => iff_of_true rfl nofun
  | e :: args, h => by
      obtain ⟨he, hargs⟩ := List.forall_mem_cons.mp h
      rw [rereadAll, literalsAll, List.cons_eq_cons, reread_eq_iff he, rereadAll_eq_iff hargs,
        List.forall_mem_append]
end

/-! ## What is read at all

This half of the exactness does not look at the printer.  Atoms are words in any text, so nothing
but legible expressions is ever read.  What comes back from its own text is therefore legible, and
of legible expressions it is known already what comes back. -/

theorem legible_ofAtom {s : String} (hs : IsWord s) : (ofAtom s).Legible := by
  unfold ofAtom
  split
  · exact legible_literal _
  · exact legible_symbol.mpr ⟨hs, ‹_›⟩

/-- Tokens all of whose atoms are words. -/
def Words (tokens : List Token) : Prop := ∀ s, .atom s ∈ tokens → IsWord s

theorem Words.of_suffix {tokens rest : List Token} (h : Words tokens) (hrest : rest <:+ tokens) :
    Words rest := fun s hs => h s (hrest.mem hs)

/-- An open call that has been legible so far. -/
def Open.Legible (o : Open) : Prop := IsWord o.operator ∧ ∀ e ∈ o.args, e.Legible

mutual
/-- Only legible expressions are read, whatever the tokens. -/
theorem legible_of_ofTokens (stack : List Open) (hstack : ∀ o ∈ stack, o.Legible) :
    (tokens : List Token) → Words tokens → ∀ {e : Expr} {rest : List Token},
      ofTokens stack tokens = .ok (e, rest) → e.Legible ∧ rest <:+ tokens
  | [], _, _, _, h => by simp [ofTokens] at h
  | .opening :: .atom operator :: tail, hwords, _, _, h => by
      rw [ofTokens] at h
      have hoperator : IsWord operator := hwords operator (by simp)
      have hopen : Open.Legible ⟨operator, []⟩ := ⟨hoperator, nofun⟩
      obtain ⟨he, hrest⟩ := legible_of_ofTokens (⟨operator, []⟩ :: stack)
        (List.forall_mem_cons.mpr ⟨hopen, hstack⟩) tail
        (hwords.of_suffix ((List.suffix_cons ..).trans (List.suffix_cons ..))) h
      exact ⟨he, (hrest.trans (List.suffix_cons ..)).trans (List.suffix_cons ..)⟩
  | [.opening], _, _, _, h => by simp [ofTokens] at h
  | .opening :: .opening :: _, _, _, _, h => by simp [ofTokens] at h
  | .opening :: .closing :: _, _, _, _, h => by simp [ofTokens] at h
  | .opening :: .string _ :: _, _, _, _, h => by simp [ofTokens] at h
  | .closing :: tail, hwords, _, _, h => by
      cases stack with
      | nil => simp [ofTokens] at h
      | cons o stack =>
          rw [ofTokens] at h
          obtain ⟨ho, hstack⟩ := List.forall_mem_cons.mp hstack
          have hclosed : o.close.Legible :=
            legible_call.mpr ⟨ho.1, fun e he => ho.2 e (List.mem_reverse.mp he)⟩
          obtain ⟨he, hrest⟩ := legible_of_deliver stack hstack hclosed tail
            (hwords.of_suffix (List.suffix_cons ..)) h
          exact ⟨he, hrest.trans (List.suffix_cons ..)⟩
  | .string s :: tail, hwords, _, _, h => by
      rw [ofTokens] at h
      obtain ⟨he, hrest⟩ := legible_of_deliver stack hstack (legible_literal (.string s)) tail
        (hwords.of_suffix (List.suffix_cons ..)) h
      exact ⟨he, hrest.trans (List.suffix_cons ..)⟩
  | .atom s :: tail, hwords, _, _, h => by
      rw [ofTokens] at h
      have hatom := legible_ofAtom (hwords s (List.mem_cons_self ..))
      obtain ⟨he, hrest⟩ := legible_of_deliver stack hstack hatom tail
        (hwords.of_suffix (List.suffix_cons ..)) h
      exact ⟨he, hrest.trans (List.suffix_cons ..)⟩
-- an expression is delivered without a token, but what is read next is a step down
termination_by tokens => (tokens.length, 0)

theorem legible_of_deliver (stack : List Open) (hstack : ∀ o ∈ stack, o.Legible) {e : Expr}
    (he : e.Legible) (tokens : List Token) (hwords : Words tokens) {e' : Expr} {rest : List Token}
    (h : deliver stack e tokens = .ok (e', rest)) : e'.Legible ∧ rest <:+ tokens := by
  cases stack with
  | nil =>
      rw [deliver] at h
      cases h
      exact ⟨he, List.suffix_refl _⟩
  | cons o stack =>
      rw [deliver] at h
      obtain ⟨ho, hstack⟩ := List.forall_mem_cons.mp hstack
      have hpush : (o.push e).Legible := ⟨ho.1, List.forall_mem_cons.mpr ⟨he, ho.2⟩⟩
      exact legible_of_ofTokens (o.push e :: stack) (List.forall_mem_cons.mpr ⟨hpush, hstack⟩)
        tokens hwords h
termination_by (tokens.length, 1)
end

theorem legible_of_parseText {s : String} {e : Expr} (h : parseText s = .ok e) : e.Legible := by
  obtain ⟨tokens, hscan, h⟩ := bind_eq_ok h
  obtain ⟨⟨e', rest⟩, hread, h⟩ := bind_eq_ok h
  obtain ⟨he, -⟩ := legible_of_ofTokens [] nofun tokens (Token.isWord_of_mem_scan hscan) hread
  cases rest with
  | nil =>
      cases h
      exact he
  | cons token rest => cases h

/-- An expression that can be written as text without loss. -/
structure TextSafe (e : Expr) : Prop extends Legible e where
  literals : ∀ v ∈ e.literals, v.Proper

/-- An expression is read back from its text exactly if it is safe. -/
theorem parseText_toText_iff {e : Expr} : parseText e.toText = .ok e ↔ e.TextSafe := by
  constructor
  · intro h
    have hlegible := legible_of_parseText h
    rw [parseText_toText hlegible, Except.ok.injEq, reread_eq_iff hlegible] at h
    exact ⟨hlegible, h⟩
  · intro h
    rw [parseText_toText h.toLegible, (reread_eq_iff h.toLegible).mpr h.literals]

end Expr

/-! ## Rules -/

namespace Case

/-- The tokens of a clause. -/
def tokens (c : Case) : List Token :=
  .opening :: (c.condition.tokens ++ [c.value.token, .closing])

/-- A clause that is read as another one. -/
structure ReadAs (c c' : Case) : Prop where
  condition_ne : c.condition ≠ .symbol "else"
  condition : c.condition.reread = c'.condition
  value : c.value.reread = .literal c'.value

theorem scans_source {c : Case} (h : c.condition.Legible) (rest : List Char) :
    Scans (c.source ++ rest) c.tokens rest := by
  have hscans := (Token.scans_blank _).trans ((Token.scans_opening _).trans
    ((Expr.scans_source h (Expr.stops_blank _)).trans ((Token.scans_blank _).trans
      ((c.value.scans_source (Expr.stops_closing rest)).trans (Token.scans_closing rest)))))
  simpa [source, tokens] using hscans

end Case

namespace Rule

/-- The tokens of the last clause, and of the end of the rule. -/
def lastTokens (v : Scalar) : List Token := [.opening, .atom "else", v.token, .closing, .closing]

/-- The tokens of the text form. -/
def tokens (r : Rule) : List Token :=
  .opening :: .atom "cond" :: (r.cases.flatMap Case.tokens ++ lastTokens r.fallback)

theorem scans_cases {cases : List Case} (h : ∀ c ∈ cases, c.condition.Legible) (rest : List Char) :
    Scans (cases.flatMap Case.source ++ rest) (cases.flatMap Case.tokens) rest := by
  induction cases with
  | nil =>
      simp only [List.flatMap_nil, List.nil_append, Scans]
      cases Token.scan rest <;> rfl
  | cons c cases ih =>
      obtain ⟨hc, hcases⟩ := List.forall_mem_cons.mp h
      rw [List.flatMap_cons, List.append_assoc, List.flatMap_cons]
      exact (Case.scans_source hc _).trans (ih hcases)

theorem isWord_cond : IsWord "cond" := Token.isWord_of_names (by decide) (by decide)

theorem isWord_else : IsWord "else" := Token.isWord_of_names (by decide) (by decide)

/-- The text of the last clause, and of the end of the rule. -/
def lastSource (v : Scalar) : List Char :=
  ' ' :: '(' :: ("else".toList ++ ' ' :: (v.source ++ [')', ')']))

theorem scans_lastSource (v : Scalar) : Scans (lastSource v) (lastTokens v) [] :=
  (Token.scans_blank _).trans ((Token.scans_opening _).trans
    ((isWord_else.scans (Expr.stops_blank _)).trans ((Token.scans_blank _).trans
      ((v.scans_source (Expr.stops_closing _)).trans
        ((Token.scans_closing _).trans (Token.scans_closing []))))))

theorem toList_toText (r : Rule) : r.toText.toList =
    '(' :: ("cond".toList ++ (r.cases.flatMap Case.source ++ lastSource r.fallback)) := by
  have hcond : "(cond".toList = '(' :: "cond".toList := by simp
  have helse : " (else ".toList = ' ' :: '(' :: ("else".toList ++ [' ']) := by simp
  unfold toText lastSource
  simp only [String.toList_ofList, hcond, helse, List.cons_append, List.append_assoc,
    List.nil_append]

theorem scan_toText {r : Rule} (h : ∀ c ∈ r.cases, c.condition.Legible) :
    Token.scan r.toText.toList = .ok r.tokens := by
  have hstops : Stops (r.cases.flatMap Case.source ++ lastSource r.fallback) := by
    cases r.cases with
    | nil => exact Expr.stops_blank _
    | cons c cases => exact Expr.stops_blank _
  have hscans := (Token.scans_opening _).trans ((isWord_cond.scans hstops).trans
    ((scans_cases h _).trans (scans_lastSource r.fallback)))
  rw [toList_toText, hscans, Token.scan]
  exact congrArg Except.ok (List.append_nil _)

/-! ### Reading clauses -/

theorem literal_token_eq_ok {v w : Scalar} {rest rest' : List Token} :
    literal (v.token :: rest) = .ok (w, rest') ↔ v.reread = .literal w ∧ rest = rest' := by
  have hread : Expr.ofTokens [] (v.token :: rest) = .ok (v.reread, rest) := by
    rw [v.ofTokens_token, Expr.deliver]
  rw [literal, hread]
  simp only [bind, Except.bind]
  cases v.reread <;> simp

theorem lastClause_eq_ok {v w : Scalar} :
    lastClause [v.token, .closing, .closing] = .ok w ↔ v.reread = .literal w := by
  constructor
  · intro h
    obtain ⟨⟨w', rest⟩, hliteral, h⟩ := bind_eq_ok h
    obtain ⟨hv, rfl⟩ := literal_token_eq_ok.mp hliteral
    cases h
    exact hv
  · intro h
    rw [lastClause, literal_token_eq_ok.mpr ⟨h, rfl⟩]
    rfl

/-- A last clause has to be the end of the rule. -/
theorem lastClause_ne_ok {v w : Scalar} {rest : List Token} :
    lastClause (v.token :: .closing :: .opening :: rest) ≠ .ok w := by
  intro h
  obtain ⟨⟨w', rest'⟩, hliteral, h⟩ := bind_eq_ok h
  obtain ⟨-, rfl⟩ := literal_token_eq_ok.mp hliteral
  cases h

theorem clause_eq_ok {c c' : Case} {rest rest' : List Token} :
    clause (c.condition.tokens ++ c.value.token :: .closing :: rest) = .ok (c', rest') ↔
      c.condition.reread = c'.condition ∧ c.value.reread = .literal c'.value ∧ rest = rest' := by
  have hread := Expr.ofTokens_tokens c.condition [] (c.value.token :: .closing :: rest)
  rw [Expr.deliver] at hread
  constructor
  · intro h
    obtain ⟨⟨e, more⟩, hexpr, h⟩ := bind_eq_ok h
    cases hread.symm.trans hexpr
    obtain ⟨⟨w, more⟩, hliteral, h⟩ := bind_eq_ok h
    obtain ⟨hvalue, rfl⟩ := literal_token_eq_ok.mp hliteral
    cases h
    exact ⟨rfl, hvalue, rfl⟩
  · rintro ⟨hcondition, hvalue, rfl⟩
    rw [clause, hread, hcondition]
    simp only [bind, Except.bind]
    rw [literal_token_eq_ok.mpr ⟨hvalue, rfl⟩]
    rfl

/-- Only the keyword is taken for the last clause. -/
theorem tokens_ne_else {e : Expr} (he : e ≠ .symbol "else") (more tail : List Token) :
    e.tokens ++ more ≠ .atom "else" :: tail := by
  cases e with
  | literal v => exact fun h => v.token_ne_else (List.cons_eq_cons.mp h).1
  | symbol name =>
      intro h
      obtain rfl := Token.atom.inj (List.cons_eq_cons.mp h).1
      exact he rfl
  | call name args => exact fun h => nomatch (List.cons_eq_cons.mp h).1

theorem clauses_of_ne_else {done : List Case} {tokens : List Token}
    (h : ∀ tail, tokens ≠ .atom "else" :: tail) : clauses done (.opening :: tokens) =
      (clause tokens).bind fun (c, rest) => clauses (c :: done) rest := by
  rw [clauses]
  · split
    · rename_i hclause
      rw [hclause]
      rfl
    · rename_i hclause
      rw [hclause]
      rfl
  · exact fun tail => h tail

theorem exists_cases_tokens (cases : List Case) (v : Scalar) :
    ∃ rest, cases.flatMap Case.tokens ++ lastTokens v = .opening :: rest := by
  cases cases with
  | nil => exact ⟨_, rfl⟩
  | cons c cases => exact ⟨_, rfl⟩

/-- The clauses of a text are read one by one, up to the last. -/
theorem clauses_eq_ok {v : Scalar} {r : Rule} : ∀ {cases done : List Case},
    clauses done (cases.flatMap Case.tokens ++ lastTokens v) = .ok r ↔
      ∃ cases' w, r = ⟨done.reverse ++ cases', w⟩ ∧ v.reread = .literal w ∧
        List.Forall₂ Case.ReadAs cases cases'
  | [], done => by
      rw [List.flatMap_nil, List.nil_append, lastTokens, clauses]
      constructor
      · intro h
        obtain ⟨w, hw, rfl⟩ := map_eq_ok h
        exact ⟨[], w, by rw [List.append_nil], lastClause_eq_ok.mp hw, .nil⟩
      · rintro ⟨cases', w, rfl, hw, hcases⟩
        cases hcases
        rw [lastClause_eq_ok.mpr hw, List.append_nil]
        rfl
  | c :: cases, done => by
      obtain ⟨more, hmore⟩ := exists_cases_tokens cases v
      have htokens : (c :: cases).flatMap Case.tokens ++ lastTokens v = .opening ::
          (c.condition.tokens ++ c.value.token :: .closing ::
            (cases.flatMap Case.tokens ++ lastTokens v)) := by
        simp [Case.tokens]
      rw [htokens]
      by_cases he : c.condition = .symbol "else"
      · -- the clause is taken for the last one, but another one follows
        refine iff_of_false ?_ ?_
        · rw [he, hmore, Expr.tokens, List.singleton_append, clauses]
          intro h
          obtain ⟨w, hw, -⟩ := map_eq_ok h
          exact lastClause_ne_ok hw
        · rintro ⟨cases', w, -, -, hcases⟩
          cases hcases with
          | cons hc _ => exact hc.condition_ne he
      · rw [clauses_of_ne_else (tokens_ne_else he _)]
        constructor
        · intro h
          obtain ⟨⟨c', rest⟩, hclause, h⟩ := bind_eq_ok h
          obtain ⟨hcondition, hvalue, rfl⟩ := clause_eq_ok.mp hclause
          obtain ⟨cases', w, rfl, hw, hcases⟩ := clauses_eq_ok.mp h
          exact ⟨c' :: cases', w, by simp, hw, .cons ⟨he, hcondition, hvalue⟩ hcases⟩
        · rintro ⟨_, w, rfl, hw, hcases⟩
          cases hcases with
          | @cons _ c' _ cases' hc hcases =>
              rw [clause_eq_ok.mpr ⟨hc.condition, hc.value, rfl⟩]
              exact clauses_eq_ok.mpr ⟨cases', w, by simp, hw, hcases⟩

/-! ### What is read at all -/

theorem suffix_of_expect {token : Token} {tokens rest : List Token}
    (h : expect token tokens = .ok rest) : rest <:+ tokens := by
  unfold expect at h
  split at h
  · cases h
  · split at h
    · cases h
      exact List.suffix_cons ..
    · cases h

theorem suffix_of_literal {tokens rest : List Token} {v : Scalar} (hwords : Expr.Words tokens)
    (h : literal tokens = .ok (v, rest)) : rest <:+ tokens := by
  obtain ⟨⟨e, more⟩, hexpr, h⟩ := bind_eq_ok h
  obtain ⟨-, hmore⟩ := Expr.legible_of_ofTokens [] nofun tokens hwords hexpr
  cases e with
  | literal w =>
      cases h
      exact hmore
  | symbol name => cases h
  | call name args => cases h

theorem legible_of_clause {tokens rest : List Token} {c : Case} (hwords : Expr.Words tokens)
    (h : clause tokens = .ok (c, rest)) : c.condition.Legible ∧ rest <:+ tokens := by
  obtain ⟨⟨e, behind⟩, hexpr, h⟩ := bind_eq_ok h
  obtain ⟨he, hbehind⟩ := Expr.legible_of_ofTokens [] nofun tokens hwords hexpr
  obtain ⟨⟨v, more⟩, hliteral, h⟩ := bind_eq_ok h
  have hmore := suffix_of_literal (hwords.of_suffix hbehind) hliteral
  obtain ⟨last, hexpect, h⟩ := bind_eq_ok h
  cases h
  exact ⟨he, (suffix_of_expect hexpect).trans (hmore.trans hbehind)⟩

theorem legible_of_clauses {done : List Case} {tokens : List Token} {r : Rule}
    (hwords : Expr.Words tokens) (hdone : ∀ c ∈ done, c.condition.Legible)
    (h : clauses done tokens = .ok r) : ∀ c ∈ r.cases, c.condition.Legible := by
  fun_induction clauses done tokens with
  | case1 done rest =>
      obtain ⟨w, -, rfl⟩ := map_eq_ok h
      exact fun c hc => hdone c (List.mem_reverse.mp hc)
  | case2 => cases h
  | case3 done tail hne c rest hclause ih =>
      obtain ⟨hc, hrest⟩ := legible_of_clause (hwords.of_suffix (List.suffix_cons ..)) hclause
      exact ih (hwords.of_suffix (hrest.trans (List.suffix_cons ..)))
        (List.forall_mem_cons.mpr ⟨hc, hdone⟩) h
  | case4 => cases h

theorem legible_of_parseText {s : String} {r : Rule} (h : parseText s = .ok r) :
    ∀ c ∈ r.cases, c.condition.Legible := by
  obtain ⟨tokens, hscan, h⟩ := bind_eq_ok h
  have hwords : Expr.Words tokens := Token.isWord_of_mem_scan hscan
  obtain ⟨rest, hopening, h⟩ := bind_eq_ok h
  have hrest := hwords.of_suffix (suffix_of_expect hopening)
  split at h
  · exact legible_of_clauses (hrest.of_suffix (List.suffix_cons ..)) (List.forall_mem_nil _) h
  · cases h

/-- A rule that can be written as text without loss. -/
structure TextSafe (r : Rule) : Prop where
  conditions : ∀ c ∈ r.cases, c.condition.TextSafe ∧ c.condition ≠ .symbol "else"
  values : ∀ c ∈ r.cases, c.value.Proper
  fallback : r.fallback.Proper

/-- A rule is safe if its conditions are legible and can be told from the last clause, and all of
its literals are proper. -/
theorem textSafe_iff {r : Rule} : r.TextSafe ↔
    (∀ c ∈ r.cases, c.condition.Legible ∧ c.condition ≠ .symbol "else") ∧
      ∀ v ∈ r.literals, v.Proper := by
  constructor
  · rintro ⟨hconditions, hvalues, hfallback⟩
    refine ⟨fun c hc => ⟨(hconditions c hc).1.toLegible, (hconditions c hc).2⟩,
      List.forall_mem_append.mpr ⟨fun v hv => ?_, List.forall_mem_singleton.mpr hfallback⟩⟩
    obtain ⟨c, hc, hvc⟩ := List.mem_flatMap.mp hv
    rcases List.mem_append.mp hvc with hcondition | hvalue
    · exact (hconditions c hc).1.literals v hcondition
    · exact List.mem_singleton.mp hvalue ▸ hvalues c hc
  · rintro ⟨hconditions, hliterals⟩
    obtain ⟨hcases, hfallback⟩ := List.forall_mem_append.mp hliterals
    have hproper (c : Case) (hc : c ∈ r.cases) : ∀ v ∈ c.literals, v.Proper := fun v hv =>
      hcases v (List.mem_flatMap.mpr ⟨c, hc, hv⟩)
    refine ⟨fun c hc => ⟨⟨(hconditions c hc).1, fun v hv => ?_⟩, (hconditions c hc).2⟩,
      fun c hc => ?_, hfallback _ (List.mem_singleton_self _)⟩
    · exact hproper c hc v (List.mem_append_left _ hv)
    · exact hproper c hc _ (List.mem_append_right _ (List.mem_singleton_self _))

/-- A rule whose conditions are legible is read clause by clause. -/
theorem parseText_toText_eq_ok {r r' : Rule} (h : ∀ c ∈ r.cases, c.condition.Legible) :
    parseText r.toText = .ok r' ↔
      List.Forall₂ Case.ReadAs r.cases r'.cases ∧ r.fallback.reread = .literal r'.fallback := by
  have hclauses : parseText r.toText =
      clauses [] (r.cases.flatMap Case.tokens ++ lastTokens r.fallback) := by
    rw [parseText, scan_toText h]
    rfl
  rw [hclauses, clauses_eq_ok]
  obtain ⟨cases', fallback'⟩ := r'
  constructor
  · rintro ⟨_, _, hr, hw, hcases⟩
    cases hr
    exact ⟨hcases, hw⟩
  · rintro ⟨hcases, hw⟩
    exact ⟨cases', fallback', rfl, hw, hcases⟩

/-- A rule whose conditions are legible is read back exactly if each of its clauses is. -/
theorem parseText_toText {r : Rule} (h : ∀ c ∈ r.cases, c.condition.Legible) :
    parseText r.toText = .ok r ↔
      (∀ c ∈ r.cases, c.ReadAs c) ∧ r.fallback.reread = .literal r.fallback := by
  rw [parseText_toText_eq_ok h, List.forall₂_same]

/-- A rule is read back from its text exactly if it is safe. -/
theorem parseText_toText_iff {r : Rule} : parseText r.toText = .ok r ↔ r.TextSafe := by
  constructor
  · intro h
    have hlegible := legible_of_parseText h
    obtain ⟨hcases, hfallback⟩ := (parseText_toText hlegible).mp h
    refine ⟨fun c hc => ⟨⟨hlegible c hc, ?_⟩, (hcases c hc).condition_ne⟩, fun c hc => ?_, ?_⟩
    · exact (Expr.reread_eq_iff (hlegible c hc)).mp (hcases c hc).condition
    · exact Scalar.reread_eq_iff.mp (hcases c hc).value
    · exact Scalar.reread_eq_iff.mp hfallback
  · intro h
    refine (parseText_toText fun c hc => (h.conditions c hc).1.toLegible).mpr ⟨fun c hc => ?_, ?_⟩
    · obtain ⟨hsafe, hne⟩ := h.conditions c hc
      exact ⟨hne, (Expr.reread_eq_iff hsafe.toLegible).mpr hsafe.literals,
        Scalar.reread_eq_iff.mpr (h.values c hc)⟩
    · exact Scalar.reread_eq_iff.mpr h.fallback

end Rule

/-! ## Admitted rules -/

theorem Operator.isWord_of_ofName? {name : String} {op : Operator}
    (h : Operator.ofName? name = some op) : IsWord name := by
  have hall : ∀ op ∈ all, op.name ≠ "" ∧ op.name.toList.all Token.isNameChar = true := by
    decide +kernel
  obtain ⟨hne, hchars⟩ := hall op (List.mem_of_find?_eq_some h)
  have hname : op.name = name := by simpa using List.find?_some h
  exact hname ▸ Token.isWord_of_names hne hchars

theorem Attribute.legible_of_ofSymbol? {name : String} {a : Attribute}
    (h : Attribute.ofSymbol? name = some a) : (Expr.symbol name).Legible := by
  have hall : ∀ a ∈ all, (a.symbol ≠ "" ∧ a.symbol.toList.all Token.isNameChar = true) ∧
      Scalar.ofAtom? a.symbol = none := by decide +kernel
  obtain ⟨⟨hne, hchars⟩, hnone⟩ := hall a (List.mem_of_find?_eq_some h)
  have hsymbol : a.symbol = name := by simpa using List.find?_some h
  exact Expr.legible_symbol.mpr (hsymbol ▸ ⟨Token.isWord_of_names hne hchars, hnone⟩)

namespace Expr

theorem IsOperand.legible {e : Expr} (h : e.IsOperand) : e.Legible := by
  cases h with
  | literal value => exact legible_literal value
  | symbol ha => exact Attribute.legible_of_ofSymbol? ha

/-- Legal conditions are legible. -/
theorem Legal.legible {e : Expr} (h : e.Legal) : e.Legible := by
  induction h with
  | truth b => exact legible_literal _
  | compare hname ha hb hsymbol =>
      refine legible_call.mpr ⟨Operator.isWord_of_ofName? hname, ?_⟩
      simp [ha.legible, hb.legible]
  | version hname ha hdomain hv hsegments =>
      refine legible_call.mpr ⟨Operator.isWord_of_ofName? hname, ?_⟩
      simp [Attribute.legible_of_ofSymbol? ha, legible_literal]
  | empty hname ha hdomain =>
      refine legible_call.mpr ⟨Operator.isWord_of_ofName? hname, ?_⟩
      simp [Attribute.legible_of_ofSymbol? ha]
  | text hname ha hdomain =>
      refine legible_call.mpr ⟨Operator.isWord_of_ofName? hname, ?_⟩
      simp [Attribute.legible_of_ofSymbol? ha, legible_literal]
  | not hname he ih =>
      exact legible_call.mpr ⟨Operator.isWord_of_ofName? hname, List.forall_mem_singleton.mpr ih⟩
  | junction hname hop hne hargs ih => exact legible_call.mpr ⟨Operator.isWord_of_ofName? hname, ih⟩

end Expr

namespace Rule

/-- The conditions of admitted rules are legal calls. -/
theorem legal_of_acceptCases {cases : List Case} {index : Nat}
    (h : acceptCases index cases = .ok ()) :
    ∀ c ∈ cases, c.condition.isCall = true ∧ c.condition.Legal := by
  induction cases generalizing index with
  | nil => exact List.forall_mem_nil _
  | cons c cases ih =>
      rw [acceptCases] at h
      split at h
      · cases h
      · rename_i hcall
        split at h
        · rename_i haccept
          have hcondition : c.condition.isCall = true := by simpa using hcall
          exact List.forall_mem_cons.mpr ⟨⟨hcondition, Expr.legal_of_accept haccept⟩, ih h⟩
        · cases h

theorem textSafe_of_accept {r : Rule} (h : r.accept = .ok ())
    (hliterals : ∀ v ∈ r.literals, v.Proper) : r.TextSafe := by
  refine textSafe_iff.mpr ⟨fun c hc => ?_, hliterals⟩
  obtain ⟨hcall, hlegal⟩ := legal_of_acceptCases h c hc
  refine ⟨hlegal.legible, ?_⟩
  intro helse
  rw [helse] at hcall
  cases hcall

end Rule

/-- The text form is exact.  An expression is read back from its text if and only if it is safe, and
so is a rule; and every rule that is accepted as the value of a config is. -/
theorem text_form_exact :
    (∀ e : Expr, Expr.parseText e.toText = .ok e ↔ e.TextSafe) ∧
    (∀ r : Rule, Rule.parseText r.toText = .ok r ↔ r.TextSafe) ∧
    (∀ (raw : String) (r : Rule), ConfigValue.compile .code raw = .ok (.code r) →
      Rule.parseText r.toText = .ok r) := by
  refine ⟨fun e => Expr.parseText_toText_iff, fun r => Rule.parseText_toText_iff, ?_⟩
  intro raw r h
  refine Rule.parseText_toText_iff.mpr ?_
  simp only [ConfigValue.compile] at h
  split at h
  · cases h
  · rename_i r' hparse
    split at h
    · rename_i haccept
      cases h
      exact Rule.textSafe_of_accept haccept (Rule.proper_of_parseJson hparse)
    · cases h

/-- A rule whose text needs escapes. -/
def quotingRule : Rule :=
  ⟨[⟨.call "str=" [.symbol "LANG", .literal (.string "\"")], .bool true⟩], .string "-"⟩

/-- The rule as the value of a config. -/
def quotingJson : String :=
  "[[[\x7b\"func\":\"str=\",\"arguments\":[\x7b\"symbol\":\"LANG\"\x7d,\"\\\"\"]\x7d,true]],\"-\"]"

/-- A rule that is accepted is written with escapes and read back.  A fraction is written without
loss too; a symbol that looks like a number is not. -/
theorem text_form_exact_quoted :
    let e : Expr := .call "<" [.symbol "OS_VERSION", .literal (.float .half)]
    ConfigValue.compile .code quotingJson = .ok (.code quotingRule) ∧
      quotingRule.toText = "(cond ((str= LANG \"\\\"\") #t) (else \"-\"))" ∧
      Rule.parseText quotingRule.toText = .ok quotingRule ∧ Expr.parseText e.toText = .ok e ∧
      Expr.parseText (Expr.symbol "12").toText ≠ .ok (.symbol "12") := by
  intro e
  obtain ⟨hexpr, -, haccepted⟩ := text_form_exact
  have hparse : Rule.parseJson quotingJson = some quotingRule := by cbv
  have haccept : quotingRule.accept = .ok () := by cbv
  have hcompile : ConfigValue.compile .code quotingJson = .ok (.code quotingRule) := by
    simp only [ConfigValue.compile, hparse, haccept]
  refine ⟨hcompile, by decide +kernel, haccepted _ _ hcompile, (hexpr e).mpr ?_, fun h => ?_⟩
  · have hname : Operator.ofName? "<" = some (.compare .lt) := by decide
    have hsymbol : Attribute.ofSymbol? "OS_VERSION" = some .osVersion := by decide
    have hlegal : e.Legal := .compare hname (.symbol hsymbol) (.literal _) (.inl rfl)
    exact ⟨hlegal.legible, List.forall_mem_singleton.mpr rfl⟩
  · have hsymbol := Expr.legible_symbol.mp ((hexpr _).mp h).toLegible
    exact absurd hsymbol.2 (by decide +kernel)

end RemoteConfig
