/-! # Wildcard patterns

In a pattern `*` stands for any run of characters, the empty one included, `?` for exactly one
character, and every other character for itself.  A pattern covers the whole text.

A pattern is translated to a regular expression, in which the characters between two wildcards are
escaped together, and that is compiled before it is used.  The regular-expression library refuses
what would take more than ten mebibytes, the limit that it documents.  How much an expression takes
is reckoned here by states, as the library does it for the larger one of its two automata: that
over the bytes of UTF-8 which reads a text backwards.  The few states that all expressions have in
common are left out. -/

namespace RemoteConfig

/-- One element of a pattern. -/
inductive Wildcard where
  | char (c : Char)
  | one
  | run
deriving DecidableEq, Repr

/-- A compiled pattern. -/
structure Glob where
  parts : List Wildcard
deriving DecidableEq, Repr

namespace Wildcard

def ofChar : Char → Wildcard
  | '*' => run
  | '?' => one
  | c => char c

/-- The bytes that a state of an automaton takes. -/
def stateSpace : Nat := 32

/-- The bytes that a state takes which branches into a number of others. -/
def branchingSpace (branches : Nat) : Nat := stateSpace + 4 * branches

/-- The characters in UTF-8 are nine products of byte ranges; these are their lengths. -/
def utf8Products : List Nat := [1, 2, 3, 3, 3, 3, 4, 4, 4]

/-- The bytes for a character of any kind: it branches into the products, each has a state for
every range, and all join in one more state. -/
def anySpace : Nat :=
  branchingSpace utf8Products.length + stateSpace * utf8Products.foldr (· + ·) 0 + stateSpace

/-- The bytes that an element of a compiled pattern takes.  A literal character has a state for every
byte, and a run branches into one more character and what follows. -/
def space : Wildcard → Nat
  | char c => stateSpace * c.utf8Size
  | one => anySpace
  | run => branchingSpace 2 + anySpace

/-- From where in the text a pattern matches, one flag for each of its ends, given the flags of the
pattern without its first element. -/
def extend (part : Wildcard) : List Char → List Bool → List Bool
  | [], flags => match part with
    | run => flags
    | _ => [false]
  | c :: text, flag :: flags =>
    let rest := extend part text flags
    match part with
    | char d => (c == d && flags.headD false) :: rest
    | one => flags.headD false :: rest
    | run => (flag || rest.headD false) :: rest
  | _ :: _, [] => []

/-- Characters that have a meaning in a regular expression. -/
def isMeta (c : Char) : Bool :=
  ['\\', '.', '+', '*', '?', '(', ')', '|', '[', ']', '\x7b', '\x7d', '^', '$', '#', '&', '-',
    '~'].contains c

/-- The element as a part of a regular expression. -/
def regex : Wildcard → List Char
  | char c => if isMeta c then ['\\', c] else [c]
  | one => ['.']
  | run => ['.', '*']

end Wildcard

namespace Glob

/-- The largest space that a compiled pattern may take. -/
def spaceLimit : Nat := 10 * 1024 * 1024

def space (g : Glob) : Nat := g.parts.foldr (fun part n => part.space + n) 0

/-- The pattern that a text denotes. -/
def ofString (s : String) : Glob := ⟨s.toList.map Wildcard.ofChar⟩

/-- A text as a regular expression for itself. -/
def escape (s : String) : String :=
  String.ofList (s.toList.flatMap fun c => (Wildcard.char c).regex)

/-- A regular expression as far as it is written, and the literal characters to be written next. -/
structure Translation where
  out : String
  literal : String

/-- Writes the literal characters. -/
def Translation.flush (t : Translation) : String := t.out ++ escape t.literal

/-- Takes the next character of a pattern. -/
def Translation.push (t : Translation) (c : Char) : Translation :=
  match Wildcard.ofChar c with
  | .char c => { t with literal := t.literal.push c }
  | wildcard => ⟨t.flush ++ String.ofList wildcard.regex, ""⟩

/-- The regular expression for a pattern. -/
def translate (pattern : String) : String :=
  (pattern.toList.foldl Translation.push ⟨"(?s)^", ""⟩).flush ++ "$"

/-- The elements of a regular expression up to its end, where those before are given, the last one
first.  A character with a meaning stands for itself only if it is escaped. -/
def readParts? : List Char → List Wildcard → Option (List Wildcard)
  | ['$'], before => some before.reverse
  | '.' :: '*' :: rest, before => readParts? rest (.run :: before)
  | '.' :: rest, before => readParts? rest (.one :: before)
  | '\\' :: c :: rest, before =>
    if Wildcard.isMeta c then readParts? rest (.char c :: before) else none
  | c :: rest, before => if Wildcard.isMeta c then none else readParts? rest (.char c :: before)
  | [], _ => none

/-- The pattern that a regular expression over the whole text denotes, if it has the form of a
translated pattern. -/
def ofRegex? (expression : String) : Option Glob :=
  match expression.toList with
  | '(' :: '?' :: 's' :: ')' :: '^' :: rest => (readParts? rest []).map Glob.mk
  | _ => none

/-- Compiles a pattern, unless it is too large. -/
def compile? (pattern : String) : Option Glob :=
  (ofRegex? (translate pattern)).filter fun g => decide (g.space ≤ spaceLimit)

/-- Flags for the ends of a text, where only the empty end is set. -/
def endFlags : List Char → List Bool
  | [] => [true]
  | _ :: rest => false :: endFlags rest

/-- Whether the pattern covers the text.  The elements are taken from the last to the first, each
with one pass over the text. -/
def isMatch (g : Glob) (s : String) : Bool :=
  let text := s.toList
  (g.parts.foldr (fun part flags => part.extend text flags) (endFlags text)).headD false

end Glob

end RemoteConfig
