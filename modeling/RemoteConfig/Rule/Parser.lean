import RemoteConfig.Rule.Token
/-! # Reading the text form

An expression is a string, an atom, or a call: an opening parenthesis, an atom that names the
operator, any number of expressions, and a closing parenthesis.  An atom that reads as a literal is
one; any other is a symbol.  A rule is the form

  `(cond (condition value) ... (else value))`

where the clause `else` comes last.  The open calls are kept on a stack, and the tokens are taken
one by one. -/

namespace RemoteConfig

namespace Scalar

/-- The literal that an atom denotes: a truth value, or a number that starts with a digit. -/
def ofAtom? (s : String) : Option Scalar :=
  if s = "#t" then some (bool true)
  else if s = "#f" then some (bool false)
  else
    let cs := s.toList
    if !((Decimal.splitSign cs).2.head?.any Char.isDigit) then none
    else match Decimal.readInteger cs with
      | some n => some (int n)
      | none => (Decimal.readNumber cs).map float

end Scalar

namespace Expr

/-- What an atom means where an expression stands. -/
def ofAtom (s : String) : Expr :=
  match Scalar.ofAtom? s with
  | some value => literal value
  | none => symbol s

/-- A call that is not closed yet: the operator, and the arguments so far in reverse order. -/
structure Open where
  operator : String
  args : List Expr

namespace Open

def push (o : Open) (e : Expr) : Open := ⟨o.operator, e :: o.args⟩

def close (o : Open) : Expr := call o.operator o.args.reverse

end Open

open Rule (Token Malformed)

mutual
/-- Reads one expression inside the given open calls, and returns the tokens behind the outermost
of them. -/
def ofTokens (stack : List Open) : List Token → Except Malformed (Expr × List Token)
  | [] => .error (if stack.isEmpty then .unexpectedEnd else .unbalanced)
  | .opening :: .atom operator :: rest => ofTokens (⟨operator, []⟩ :: stack) rest
  | .opening :: rest => .error (.expectedOperator rest.head?)
  | .closing :: rest =>
    match stack with
    | [] => .error .unexpectedClosing
    | o :: stack => deliver stack o.close rest
  | .string s :: rest => deliver stack (literal (.string s)) rest
  | .atom s :: rest => deliver stack (ofAtom s) rest
termination_by tokens => (tokens.length, 0)

/-- Hands a complete expression to the innermost open call. -/
def deliver (stack : List Open) (e : Expr) (rest : List Token) :
    Except Malformed (Expr × List Token) :=
  match stack with
  | [] => .ok (e, rest)
  | o :: stack => ofTokens (o.push e :: stack) rest
termination_by (rest.length, 1)
end

mutual
/-- An expression takes a token at least. -/
theorem ofTokens_shorter (stack : List Open) :
    (tokens : List Token) → ∀ {e : Expr} {rest : List Token},
    ofTokens stack tokens = .ok (e, rest) → rest.length < tokens.length
  | [], _, _, h => by simp [ofTokens] at h
  | .opening :: .atom operator :: tail, _, _, h => by
    rw [ofTokens] at h
    have := ofTokens_shorter _ tail h
    simp only [List.length_cons]
    omega
  | [.opening], _, _, h => by simp [ofTokens] at h
  | .opening :: .opening :: _, _, _, h => by simp [ofTokens] at h
  | .opening :: .closing :: _, _, _, h => by simp [ofTokens] at h
  | .opening :: .string _ :: _, _, _, h => by simp [ofTokens] at h
  | .closing :: tail, _, _, h => by
    cases stack with
    | nil => simp [ofTokens] at h
    | cons o stack =>
      rw [ofTokens] at h
      exact Nat.lt_succ_of_le (deliver_shorter _ _ tail h)
  | .string s :: tail, _, _, h => by
    rw [ofTokens] at h
    exact Nat.lt_succ_of_le (deliver_shorter _ _ tail h)
  | .atom s :: tail, _, _, h => by
    rw [ofTokens] at h
    exact Nat.lt_succ_of_le (deliver_shorter _ _ tail h)
termination_by tokens => (tokens.length, 0)

theorem deliver_shorter (stack : List Open) (e : Expr) (tokens : List Token) {e' : Expr}
    {rest : List Token} (h : deliver stack e tokens = .ok (e', rest)) :
    rest.length ≤ tokens.length := by
  cases stack with
  | nil => simp_all [deliver]
  | cons o stack =>
    rw [deliver] at h
    exact Nat.le_of_lt (ofTokens_shorter _ tokens h)
termination_by (tokens.length, 1)
end

/-- The expression that a text denotes. -/
def parseText (s : String) : Except Malformed Expr := do
  match ← ofTokens [] (← Token.scan s.toList) with
  | (e, []) => .ok e
  | _ => .error .trailingInput

end Expr

namespace Rule

/-- Takes a given token off the front. -/
def expect (token : Token) : List Token → Except Malformed (List Token)
  | [] => .error (.expected token none)
  | found :: rest =>
    if found = token then .ok rest else .error (.expected token (some found))

/-- Reads a literal. -/
def literal (tokens : List Token) : Except Malformed (Scalar × List Token) := do
  match ← Expr.ofTokens [] tokens with
  | (.literal value, rest) => .ok (value, rest)
  | (e, _) => .error (.expectedLiteral e)

/-- Reads the value of the last clause and what closes the rule. -/
def lastClause (tokens : List Token) : Except Malformed Scalar := do
  let (value, rest) ← literal tokens
  let rest ← expect .closing rest
  let rest ← expect .closing rest
  if rest.isEmpty then .ok value else .error .trailingInput

/-- Reads a clause behind its opening parenthesis. -/
def clause (tokens : List Token) : Except Malformed (Case × List Token) := do
  let (condition, rest) ← Expr.ofTokens [] tokens
  let (value, rest) ← literal rest
  let rest ← expect .closing rest
  .ok (⟨condition, value⟩, rest)

theorem expect_shorter {token : Token} {tokens rest : List Token}
    (h : expect token tokens = .ok rest) : rest.length < tokens.length := by
  cases tokens with
  | nil => simp [expect] at h
  | cons found tail =>
    by_cases hf : found = token
    · simp_all [expect]
    · simp [expect, hf] at h

theorem literal_shorter {tokens rest : List Token} {value : Scalar}
    (h : literal tokens = .ok (value, rest)) : rest.length < tokens.length := by
  unfold literal at h
  cases he : Expr.ofTokens [] tokens with
  | error e => simp [he, bind, Except.bind] at h
  | ok p =>
    obtain ⟨e, tail⟩ := p
    have := Expr.ofTokens_shorter [] tokens he
    cases e <;> simp_all [bind, Except.bind]

theorem clause_shorter {tokens rest : List Token} {c : Case}
    (h : clause tokens = .ok (c, rest)) : rest.length < tokens.length := by
  unfold clause at h
  cases he : Expr.ofTokens [] tokens with
  | error e => simp [he, bind, Except.bind] at h
  | ok p =>
    cases hl : literal p.2 with
    | error e => simp [he, hl, bind, Except.bind] at h
    | ok q =>
      cases hx : expect .closing q.2 with
      | error e => simp [he, hl, hx, bind, Except.bind] at h
      | ok tail =>
        have h1 := Expr.ofTokens_shorter [] tokens he
        have h2 := literal_shorter hl
        have h3 := expect_shorter hx
        simp only [he, hl, hx, bind, Except.bind, Except.ok.injEq, Prod.mk.injEq] at h
        rw [← h.2]
        omega

/-- Reads clauses up to the last one. -/
def clauses (done : List Case) : List Token → Except Malformed Rule
  | .opening :: .atom "else" :: rest => (lastClause rest).map (⟨done.reverse, ·⟩)
  | .opening :: rest =>
    match _h : clause rest with
    | .error e => .error e
    | .ok (c, rest) => clauses (c :: done) rest
  | tokens => .error (.expected .opening tokens.head?)
termination_by tokens => tokens.length
decreasing_by
  have := clause_shorter _h
  simp only [List.length_cons]
  omega

/-- Reads a rule that makes up all tokens. -/
def ofTokens (tokens : List Token) : Except Malformed Rule := do
  match ← expect .opening tokens with
  | .atom "cond" :: rest => clauses [] rest
  | _ => .error .expectedCond

/-- The rule that a text denotes. -/
def parseText (s : String) : Except Malformed Rule := do
  ofTokens (← Token.scan s.toList)

end Rule

end RemoteConfig
