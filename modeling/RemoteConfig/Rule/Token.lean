import RemoteConfig.Rule.Expr
import RemoteConfig.Text.Blank
import RemoteConfig.Text.Quoted
/-! # Tokens of the text form

Rules have a text form in parentheses, `(str= LANG "en")`.  Its tokens are the two parentheses,
strings between double quotes, and atoms, which end before a blank, a parenthesis or a quote.  Four
escapes are known inside a string: line feed, tab, quote and backslash. -/

namespace RemoteConfig

namespace Rule

inductive Token where
  | opening
  | closing
  | string (s : String)
  | atom (s : String)
deriving DecidableEq, Repr

/-- What can be wrong with a text or a document. -/
inductive Malformed where
  | badEscape (found : Option Char)
  | unterminatedString
  | expected (token : Token) (found : Option Token)
  | expectedCond
  | expectedOperator (found : Option Token)
  | expectedLiteral (found : Expr)
  | unbalanced
  | unexpectedClosing
  | unexpectedEnd
  | trailingInput
  /-- An envelope whose status contradicts its payload. -/
  | statusMismatch
  /-- A JSON text that is none, or denotes nothing of the expected form, in the words of whoever
  read it. -/
  | json (words : String)
deriving Repr

namespace Token

/-- Whether a character can be part of an atom. -/
def isAtomChar (c : Char) : Bool := !(Text.isBlank c || c = '(' || c = ')' || c = '"')

/-- The character that an escape stands for. -/
def escaped : Char → Option Char
  | 'n' => some '\n'
  | 't' => some '\t'
  | '"' => some '"'
  | '\\' => some '\\'
  | _ => none

/-- The characters of a string up to its closing quote, and the rest. -/
def stringBody : List Char → Except Malformed (List Char × List Char)
  | [] => .error .unterminatedString
  | '"' :: rest => .ok ([], rest)
  | ['\\'] => .error (.badEscape none)
  | '\\' :: letter :: rest =>
    match escaped letter with
    | none => .error (.badEscape (some letter))
    | some c => (stringBody rest).map fun (s, rest) => (c :: s, rest)
  | c :: rest => (stringBody rest).map fun (s, rest) => (c :: s, rest)

theorem stringBody_shorter {cs s rest : List Char} (h : stringBody cs = .ok (s, rest)) :
    rest.length < cs.length := by
  fun_induction stringBody cs generalizing s rest with
  | case1 => simp at h
  | case2 => simp_all
  | case3 => simp at h
  | case4 => simp at h
  | case5 letter tail c hc ih =>
    cases hb : stringBody tail with
    | error e => simp [hb, Except.map] at h
    | ok p =>
      have := ih hb
      simp [hb, Except.map] at h
      simp only [List.length_cons, ← h.2]
      omega
  | case6 c tail _ _ _ ih =>
    cases hb : stringBody tail with
    | error e => simp [hb, Except.map] at h
    | ok p =>
      have := ih hb
      simp [hb, Except.map] at h
      simp only [List.length_cons, ← h.2]
      omega

/-- All tokens of a text. -/
def scan : List Char → Except Malformed (List Token)
  | [] => .ok []
  | '(' :: rest => (scan rest).map (opening :: ·)
  | ')' :: rest => (scan rest).map (closing :: ·)
  | '"' :: rest =>
    match _h : stringBody rest with
    | .error e => .error e
    | .ok (s, rest) => (scan rest).map (string (String.ofList s) :: ·)
  | c :: rest =>
    if Text.isBlank c then scan rest
    else
      (scan (rest.dropWhile isAtomChar)).map
        (atom (String.ofList (c :: rest.takeWhile isAtomChar)) :: ·)
termination_by cs => cs.length
decreasing_by
  · simp
  · simp
  · have := stringBody_shorter _h
    simp only [List.length_cons]
    omega
  · simp
  · have := (List.dropWhile_sublist isAtomChar (l := rest)).length_le
    simp only [List.length_cons]
    omega

end Token

end Rule

/-! ## Diagnostics -/

/-- A list of shown things in brackets. -/
def bracketed (shown : List String) : String := "[" ++ ", ".intercalate shown ++ "]"

/-- A thing that may be missing. -/
def shownOption : Option String → String
  | none => "None"
  | some s => "Some(" ++ s ++ ")"

def Scalar.shown : Scalar → String
  | .bool b => "Bool(" ++ (Scalar.bool b).toText ++ ")"
  | .int n => "Int(" ++ (Scalar.int n).toText ++ ")"
  | .float x => "Float(" ++ String.ofList (Binary64.diagnostic.render x) ++ ")"
  | .string s => "String(" ++ Text.quoted s ++ ")"

namespace Expr

mutual
/-- An expression as a diagnostic shows it. -/
def shown : Expr → String
  | literal value => "Literal(" ++ value.shown ++ ")"
  | symbol name => "Symbol \x7b symbol: " ++ Text.quoted name ++ " \x7d"
  | call operator args =>
    "Call \x7b func: " ++ Text.quoted operator ++ ", args: " ++ bracketed (shownAll args) ++ " \x7d"

def shownAll : List Expr → List String
  | [] => []
  | e :: rest => e.shown :: shownAll rest
end

end Expr

namespace Rule

def Token.shown : Token → String
  | opening => "Open"
  | closing => "Close"
  | string s => "Str(" ++ Text.quoted s ++ ")"
  | atom s => "Atom(" ++ Text.quoted s ++ ")"

def Malformed.message : Malformed → String
  | badEscape found => "bad escape " ++ shownOption (found.map Text.quotedSingle)
  | unterminatedString => "unterminated string"
  | expected token found =>
    "expected " ++ token.shown ++ ", found " ++ shownOption (found.map Token.shown)
  | expectedCond => "expected `cond`"
  | expectedOperator found => "expected operator, found " ++ shownOption (found.map Token.shown)
  | expectedLiteral found => "expected a literal, found " ++ found.shown
  | unbalanced => "unbalanced parentheses"
  | unexpectedClosing => "unexpected `)`"
  | unexpectedEnd => "unexpected end of input"
  | trailingInput => "trailing input"
  | statusMismatch => "envelope status does not match its payload"
  | json words => words

end Rule

end RemoteConfig
