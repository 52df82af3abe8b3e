import RemoteConfig.Json.Number
import RemoteConfig.Text.Hex
/-! # Tokens of a JSON text

A text is cut into punctuation, strings and leaves.  Every step takes at least one character, so the
scan ends (`step_shorter`). -/

namespace RemoteConfig.Json

open Decimal

/-- A string token holds nothing if half of a surrogate pair occurs in it. -/
inductive Token where
  | openArray
  | closeArray
  | openObject
  | closeObject
  | comma
  | colon
  | string (text : Option String)
  | leaf (value : Json)

namespace Token

/-- Space, tab, line feed and carriage return separate tokens. -/
def isSpace (c : Char) : Bool := c = ' ' || c = '\t' || c = '\n' || c = '\r'

/-- The code unit that four digits in base sixteen name. -/
def codeUnit (a b c d : Char) : Option Nat := Text.hexNumber? [a, b, c, d]

/-- The character that a letter after a backslash stands for. -/
def escaped : Char → Option Char
  | '"' => some '"'
  | '\\' => some '\\'
  | '/' => some '/'
  | 'b' => some '\x08'
  | 'f' => some '\x0c'
  | 'n' => some '\n'
  | 'r' => some '\r'
  | 't' => some '\t'
  | _ => none

/-- The code points up to the closing quote, where an escaped unit counts as one, and the rest. -/
def stringBody : List Char → Option (List Nat × List Char)
  | [] => none
  | '"' :: rest => some ([], rest)
  | '\\' :: 'u' :: a :: b :: c :: d :: rest =>
    match codeUnit a b c d, stringBody rest with
    | some unit, some (units, rest) => some (unit :: units, rest)
    | _, _ => none
  | '\\' :: letter :: rest =>
    match escaped letter, stringBody rest with
    | some c, some (units, rest) => some (c.toNat :: units, rest)
    | _, _ => none
  | c :: rest =>
    if c.toNat < 0x20 then none
    else match stringBody rest with
      | some (units, rest) => some (c.toNat :: units, rest)
      | none => none

def isHighSurrogate (n : Nat) : Bool := 0xd800 ≤ n && n < 0xdc00

def isLowSurrogate (n : Nat) : Bool := 0xdc00 ≤ n && n < 0xe000

/-- The characters of a list of code points in which surrogates come in pairs. -/
def joinUnits : List Nat → Option (List Char)
  | [] => some []
  | high :: low :: rest =>
    if isHighSurrogate high && isLowSurrogate low then
      (joinUnits rest).map (Char.ofNat (0x10000 + (high - 0xd800) * 0x400 + (low - 0xdc00)) :: ·)
    else if isHighSurrogate high || isLowSurrogate high then none
    else (joinUnits (low :: rest)).map (Char.ofNat high :: ·)
  | [n] => if isHighSurrogate n || isLowSurrogate n then none else some [Char.ofNat n]

/-- The exponent part of a number, if there is one, and the rest. -/
def exponentPart : List Char → Option (Option (Bool × List Char) × List Char)
  | [] => some (none, [])
  | c :: rest =>
    if c = 'e' ∨ c = 'E' then
      let (negative, rest) := splitSign rest
      let (digits, rest) := splitDigits rest
      if digits.isEmpty then none else some (some (negative, digits), rest)
    else some (none, c :: rest)

/-- The fraction of a number, if there is one, and the rest. -/
def fractionPart : List Char → Option (Option (List Char) × List Char)
  | '.' :: rest =>
    let (digits, rest) := splitDigits rest
    if digits.isEmpty then none else some (some digits, rest)
  | rest => some (none, rest)

/-- A number without its sign: no zero may stand before another digit. -/
def unsignedNumber (negative : Bool) (cs : List Char) : Option (Literal × List Char) :=
  let (whole, rest) := splitDigits cs
  if whole.isEmpty || (whole.head? == some '0' && 1 < whole.length) then none
  else
    match fractionPart rest with
    | none => none
    | some (fraction, rest) =>
      match exponentPart rest with
      | none => none
      | some (exponent, rest) => some (⟨negative, whole, fraction, exponent⟩, rest)

/-- The value of a word or number at the front, and the rest. -/
def leaf? : List Char → Option (Json × List Char)
  | 'n' :: 'u' :: 'l' :: 'l' :: rest => some (.null, rest)
  | 't' :: 'r' :: 'u' :: 'e' :: rest => some (.bool true, rest)
  | 'f' :: 'a' :: 'l' :: 's' :: 'e' :: rest => some (.bool false, rest)
  | '-' :: rest => (unsignedNumber true rest).map fun (l, rest) => (l.value, rest)
  | cs => (unsignedNumber false cs).map fun (l, rest) => (l.value, rest)

/-- The token that a punctuation character is. -/
def mark? : Char → Option Token
  | '[' => some openArray
  | ']' => some closeArray
  | '\x7b' => some openObject
  | '\x7d' => some closeObject
  | ',' => some comma
  | ':' => some colon
  | _ => none

/-- A string behind its opening quote, and the rest. -/
def string? (cs : List Char) : Option (Token × List Char) :=
  (stringBody cs).map fun (units, rest) => (string ((joinUnits units).map String.ofList), rest)

/-- The token at the front, or `none` inside if there is only a space, and the rest. -/
def step : List Char → Option (Option Token × List Char)
  | [] => none
  | c :: rest =>
    if isSpace c then some (none, rest)
    else match mark? c with
      | some mark => some (some mark, rest)
      | none =>
        if c = '"' then (string? rest).map fun (token, rest) => (some token, rest)
        else (leaf? (c :: rest)).map fun (j, rest) => (some (leaf j), rest)

theorem stringBody_shorter {cs : List Char} {units : List Nat} {rest : List Char}
    (h : stringBody cs = some (units, rest)) : rest.length < cs.length := by
  fun_induction stringBody cs generalizing units rest <;> simp_all <;> omega

theorem splitDigits_shorter (cs : List Char) : (splitDigits cs).2.length ≤ cs.length :=
  (List.dropWhile_sublist _).length_le

theorem splitSign_shorter (cs : List Char) : (splitSign cs).2.length ≤ cs.length := by
  unfold splitSign; split <;> simp

theorem exponentPart_shorter {cs rest : List Char} {e : Option (Bool × List Char)}
    (h : exponentPart cs = some (e, rest)) : rest.length ≤ cs.length := by
  unfold exponentPart at h
  split at h
  · simp_all
  · rename_i c cs
    have h1 := splitSign_shorter cs
    have h2 := splitDigits_shorter (splitSign cs).2
    grind

theorem fractionPart_shorter {cs rest : List Char} {f : Option (List Char)}
    (h : fractionPart cs = some (f, rest)) : rest.length ≤ cs.length := by
  unfold fractionPart at h
  split at h
  · rename_i cs
    have h1 := splitDigits_shorter cs
    grind
  · simp_all

theorem unsignedNumber_shorter {negative : Bool} {cs rest : List Char} {l : Literal}
    (h : unsignedNumber negative cs = some (l, rest)) : rest.length < cs.length := by
  have split : (splitDigits cs).1 ++ (splitDigits cs).2 = cs := List.takeWhile_append_dropWhile
  have lengths := congrArg List.length split
  rw [List.length_append] at lengths
  unfold unsignedNumber at h
  cases hf : fractionPart (splitDigits cs).2 with
  | none => simp [hf] at h
  | some p =>
    obtain ⟨fraction, rest₁⟩ := p
    have h1 := fractionPart_shorter hf
    cases he : exponentPart rest₁ with
    | none => simp [hf, he] at h
    | some q =>
      obtain ⟨exponent, rest₂⟩ := q
      have h2 := exponentPart_shorter he
      simp only [hf, he] at h
      have whole : (splitDigits cs).1 ≠ [] := by
        intro hw
        simp [hw] at h
      have := List.length_pos_iff.mpr whole
      grind

theorem leaf?_shorter {cs rest : List Char} {j : Json} (h : leaf? cs = some (j, rest)) :
    rest.length < cs.length := by
  unfold leaf? at h
  split at h
  · simp_all
    omega
  · simp_all
    omega
  · simp_all
    omega
  · obtain ⟨⟨l, tail⟩, hl, e⟩ := Option.map_eq_some_iff.mp h
    have := unsignedNumber_shorter hl
    simp_all
    omega
  · obtain ⟨⟨l, tail⟩, hl, e⟩ := Option.map_eq_some_iff.mp h
    have := unsignedNumber_shorter hl
    simp_all

theorem step_shorter {cs rest : List Char} {t : Option Token}
    (h : step cs = some (t, rest)) : rest.length < cs.length := by
  cases cs with
  | nil => simp [step] at h
  | cons c tail =>
    rw [step] at h
    split at h
    · simp_all
    · split at h
      · simp_all
      · split at h
        · obtain ⟨⟨token, after⟩, ht, e⟩ := Option.map_eq_some_iff.mp h
          obtain ⟨⟨units, after⟩, hu, e'⟩ := Option.map_eq_some_iff.mp ht
          have := stringBody_shorter hu
          simp_all
          omega
        · obtain ⟨⟨j, after⟩, hj, e⟩ := Option.map_eq_some_iff.mp h
          have := leaf?_shorter hj
          simp_all

/-- All tokens of a text, or nothing if some part of it is no token. -/
def scan (cs : List Char) : Option (List Token) :=
  if cs.isEmpty then some []
  else match _h : step cs with
    | none => none
    | some (token, rest) => (scan rest).map (token.toList ++ ·)
termination_by cs.length
decreasing_by exact step_shorter _h

end Token

end RemoteConfig.Json
