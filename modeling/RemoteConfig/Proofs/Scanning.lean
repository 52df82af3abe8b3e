import Mathlib.Tactic.IntervalCases
import RemoteConfig.Proofs.Literals
/-! # Scanning what was written

The text of a value is cut into the tokens it was made of: a string into one token that holds the
same characters, a number into one leaf, an array or object into its brackets with the tokens of its
parts between them.  What follows the text is cut as if it stood alone. -/

namespace RemoteConfig.Json

open Decimal

namespace Token

/-! ## Strings -/

theorem not_surrogate (c : Char) :
    isHighSurrogate c.toNat = false ∧ isLowSurrogate c.toNat = false := by
  have hvalid : c.toNat < 0xd800 ∨ 0xdfff < c.toNat ∧ c.toNat < 0x110000 := c.valid
  simp only [isHighSurrogate, isLowSurrogate, Bool.and_eq_false_iff, decide_eq_false_iff_not]
  omega

theorem joinUnits_cons (c : Char) (units : List Nat) :
    joinUnits (c.toNat :: units) = (joinUnits units).map (c :: ·) := by
  obtain ⟨hhigh, hlow⟩ := not_surrogate c
  cases units with
  | nil => simp [joinUnits, hhigh, hlow, Char.ofNat_toNat]
  | cons n units => simp [joinUnits, hhigh, hlow, Char.ofNat_toNat]

/-- Code points of characters make up these characters. -/
@[simp]
theorem joinUnits_map_toNat (cs : List Char) : joinUnits (cs.map Char.toNat) = some cs := by
  induction cs with
  | nil => rfl
  | cons c cs ih => rw [List.map_cons, joinUnits_cons, ih, Option.map_some]

/-- One unit before those of the rest of a string. -/
def unitBefore (n : Nat) (body : Option (List Nat × List Char)) : Option (List Nat × List Char) :=
  body.map fun (units, rest) => (n :: units, rest)

theorem stringBody_unit {a b c d : Char} {n : Nat} (h : codeUnit a b c d = some n)
    (rest : List Char) :
    stringBody ('\\' :: 'u' :: a :: b :: c :: d :: rest) = unitBefore n (stringBody rest) := by
  rw [stringBody, h]
  cases stringBody rest <;> rfl

theorem stringBody_escape {letter c : Char} (hletter : letter ≠ 'u') (h : escaped letter = some c)
    (rest : List Char) :
    stringBody ('\\' :: letter :: rest) = unitBefore c.toNat (stringBody rest) := by
  rw [stringBody.eq_def]
  split <;> rename_i heq
  · cases heq
  · cases heq
  · injection heq with _ heq
    injection heq with hu
    exact absurd hu hletter
  · injection heq with _ heq
    injection heq with hl hr
    subst hl hr
    rw [h]
    cases stringBody rest <;> rfl
  · rename_i hno
    injection heq with hc hr
    exact (hno letter rest hc.symm hr.symm).elim

theorem stringBody_plain {c : Char} (hquote : c ≠ '"') (hbackslash : c ≠ '\\')
    (hplain : 0x20 ≤ c.toNat) (rest : List Char) :
    stringBody (c :: rest) = unitBefore c.toNat (stringBody rest) := by
  rw [stringBody.eq_def]
  split <;> rename_i heq
  · cases heq
  · injection heq with hc
    exact absurd hc hquote
  · injection heq with hc
    exact absurd hc hbackslash
  · injection heq with hc
    exact absurd hc hbackslash
  · injection heq with hc hr
    subst hc hr
    rw [if_neg (by omega)]
    cases stringBody rest <;> rfl

/-- The four digits that a control is escaped with are those of its number. -/
theorem codeUnit_hexDigits {n : Nat} (hn : n < 0x20) :
    ∃ a b, (if n < 0x10 then ['\\', 'u', '0', '0', '0'] ++ Text.hexDigits n
      else ['\\', 'u', '0', '0'] ++ Text.hexDigits n) = ['\\', 'u', '0', '0', a, b] ∧
      codeUnit '0' '0' a b = some n := by
  interval_cases n <;> exact ⟨_, _, rfl, rfl⟩

/-- A character is read as it was escaped. -/
theorem stringBody_escapedChar (c : Char) (rest : List Char) :
    stringBody (escapedChar c ++ rest) = unitBefore c.toNat (stringBody rest) := by
  unfold escapedChar
  split
  iterate 7 exact stringBody_escape (by decide) rfl rest
  rename_i hquote hbackslash _ _ _ _ _
  by_cases hcontrol : c.toNat < 0x20
  · obtain ⟨a, b, htext, hunit⟩ := codeUnit_hexDigits hcontrol
    rw [if_pos hcontrol, htext]
    exact stringBody_unit hunit rest
  · rw [if_neg (by omega), if_neg hcontrol]
    exact stringBody_plain hquote hbackslash (by omega) rest

theorem stringBody_flatMap (cs rest : List Char) :
    stringBody (cs.flatMap escapedChar ++ '"' :: rest) = some (cs.map Char.toNat, rest) := by
  induction cs with
  | nil => rw [List.flatMap_nil, List.nil_append, stringBody, List.map_nil]
  | cons c cs ih =>
      rw [List.flatMap_cons, List.append_assoc, stringBody_escapedChar, ih]
      rfl

/-- A string is one token, which holds it as it was. -/
theorem step_stringText (s : String) (rest : List Char) :
    step (stringText s ++ rest) = some (some (.string (some s)), rest) := by
  have hbody : stringText s ++ rest = '"' :: (s.toList.flatMap escapedChar ++ '"' :: rest) := by
    simp [stringText]
  rw [hbody, step, string?, stringBody_flatMap]
  simp [isSpace, mark?, String.ofList_toList]

/-! ## Scans -/

/-- The text `cs` begins with the given tokens, and goes on with `rest`. -/
def Scans (cs : List Char) (tokens : List Token) (rest : List Char) : Prop :=
  scan cs = (scan rest).map (tokens ++ ·)

theorem scans_of_step {cs rest : List Char} {token : Token}
    (h : step cs = some (some token, rest)) : Scans cs [token] rest := by
  cases cs with
  | nil => cases h
  | cons c cs =>
      rw [Scans, scan]
      simp only [List.isEmpty_cons, Bool.false_eq_true, if_false]
      split
      · rename_i hnone
        rw [hnone] at h
        cases h
      · rename_i hsome
        rw [hsome] at h
        cases h
        rfl

theorem scan_nil : scan [] = some [] := by
  rw [scan]
  rfl

theorem Scans.trans {as bs cs : List Char} {ts us : List Token} (h : Scans as ts bs)
    (h' : Scans bs us cs) : Scans as (ts ++ us) cs := by
  unfold Scans at *
  rw [h, h', Option.map_map]
  congr 1
  funext vs
  exact (List.append_assoc ts us vs).symm

theorem scans_mark {c : Char} {token : Token} (hspace : isSpace c = false)
    (h : mark? c = some token) (rest : List Char) : Scans (c :: rest) [token] rest := by
  refine scans_of_step ?_
  rw [step, hspace, h]
  rfl

theorem scans_comma (rest : List Char) : Scans (',' :: rest) [.comma] rest :=
  scans_mark rfl rfl rest

theorem scans_stringText (s : String) (rest : List Char) :
    Scans (stringText s ++ rest) [.string (some s)] rest :=
  scans_of_step (step_stringText s rest)

/-- A name with its colon stands before a value. -/
theorem scans_named (name : String) {cs rest : List Char} {tokens : List Token}
    (h : Scans cs tokens rest) :
    Scans (stringText name ++ ':' :: cs) (.string (some name) :: .colon :: tokens) rest :=
  (scans_stringText name _).trans ((scans_mark rfl rfl cs).trans h)

theorem scans_literal {l : Literal} (hl : l.WellFormed) {rest : List Char} (hr : Ends rest) :
    Scans (l.text ++ rest) [.leaf l.value] rest :=
  scans_of_step (Literal.step_append hl hr)

theorem scans_null (rest : List Char) : Scans (['n', 'u', 'l', 'l'] ++ rest) [.leaf .null] rest :=
  scans_of_step rfl

theorem scans_bool (b : Bool) (rest : List Char) :
    Scans (text (.bool b) ++ rest) [.leaf (.bool b)] rest := by
  cases b <;> exact scans_of_step rfl

end Token

/-! ## Values -/

open Token

/-- What is read back from the text of a floating number: `nan` and the infinities become null. -/
def rereadFloat : Binary64 → Json
  | .nan => null
  | .signed negative x => if x.isFinite then (Literal.ofMagnitude negative x).value else null

mutual
/-- The tokens of a value. -/
def tokens : Json → List Token
  | null => [.leaf null]
  | bool b => [.leaf (bool b)]
  | integer n => [.leaf (Literal.ofInt n).value]
  | float x => [.leaf (rereadFloat x)]
  | string s => [.string (some s)]
  | array [] => [.openArray, .closeArray]
  | array (j :: rest) => .openArray :: (tokens j ++ moreItems rest)
  | object [] => [.openObject, .closeObject]
  | object ((name, j) :: rest) =>
    .openObject :: .string (some name) :: .colon :: (tokens j ++ moreFields rest)
  | unreadable => [.leaf null]

/-- The tokens from behind an item to the end of its array. -/
def moreItems : List Json → List Token
  | [] => [.closeArray]
  | j :: rest => .comma :: (tokens j ++ moreItems rest)

/-- The tokens from behind a field to the end of its object. -/
def moreFields : List (String × Json) → List Token
  | [] => [.closeObject]
  | (name, j) :: rest =>
    .comma :: .string (some name) :: .colon :: (tokens j ++ moreFields rest)
end

theorem commaSeparated_cons (part : List Char) (parts : List (List Char)) :
    commaSeparated (part :: parts) = part ++ parts.flatMap (',' :: ·) := by
  induction parts generalizing part with
  | nil => simp [commaSeparated]
  | cons next parts ih => rw [commaSeparated, ih]; simp; simp

theorem scans_float (x : Binary64) {rest : List Char} (hr : Ends rest) :
    Scans (numberText x ++ rest) [.leaf (rereadFloat x)] rest := by
  cases x with
  | nan => exact scans_null rest
  | signed negative x =>
      by_cases hx : x.isFinite
      · rw [← Literal.text_ofMagnitude hx, rereadFloat, if_pos hx]
        exact scans_literal Literal.wellFormed_ofMagnitude hr
      · have hinfinite : ¬Binary64.isFinite (.signed negative x) = true := hx
        rw [rereadFloat, if_neg hx, numberText, if_neg hinfinite]
        exact scans_null rest

/-- What is written behind an item of an array, up to what follows the array. -/
def itemsText (items : List Json) (rest : List Char) : List Char :=
  (itemTexts items).flatMap (',' :: ·) ++ ']' :: rest

/-- What is written behind a field of an object, up to what follows the object. -/
def fieldsText (fields : List (String × Json)) (rest : List Char) : List Char :=
  (fieldTexts fields).flatMap (',' :: ·) ++ '\x7d' :: rest

theorem ends_itemsText (items : List Json) (rest : List Char) : Ends (itemsText items rest) := by
  cases items with
  | nil => exact ends_cons (.inr (.inl rfl)) _
  | cons j items => exact ends_cons (.inl rfl) _

theorem ends_fieldsText (fields : List (String × Json)) (rest : List Char) :
    Ends (fieldsText fields rest) := by
  cases fields with
  | nil => exact ends_cons (.inr (.inr rfl)) _
  | cons field fields => exact ends_cons (.inl rfl) _

mutual
/-- The text of a value is cut into its tokens. -/
theorem scans_text : ∀ (j : Json) {rest : List Char}, Ends rest →
    Scans (text j ++ rest) (tokens j) rest
  | null, rest, _ => scans_null rest
  | unreadable, rest, _ => scans_null rest
  | bool b, rest, _ => scans_bool b rest
  | integer n, rest, hr => by
      rw [text, ← Literal.text_ofInt, tokens]
      exact scans_literal (Literal.wellFormed_ofInt n) hr
  | float x, rest, hr => by
      rw [text, tokens]
      exact scans_float x hr
  | string s, rest, _ => by
      rw [text, tokens]
      exact scans_stringText s rest
  | array [], rest, _ => by
      rw [tokens]
      exact (scans_mark rfl rfl _).trans (scans_mark rfl rfl rest)
  | array (j :: items), rest, _ => by
      have htext : text (array (j :: items)) ++ rest = '[' :: (text j ++ itemsText items rest) := by
        simp [text, itemTexts, commaSeparated_cons, itemsText]
      rw [htext, tokens]
      exact (scans_mark rfl rfl _).trans
        ((scans_text j (ends_itemsText items rest)).trans (scans_items items rest))
  | object [], rest, _ => by
      rw [tokens]
      exact (scans_mark rfl rfl _).trans (scans_mark rfl rfl rest)
  | object ((name, j) :: fields), rest, _ => by
      have htext : text (object ((name, j) :: fields)) ++ rest =
          '\x7b' :: (stringText name ++ ':' :: (text j ++ fieldsText fields rest)) := by
        simp [text, fieldTexts, commaSeparated_cons, fieldsText]
      rw [htext, tokens]
      exact (scans_mark rfl rfl _).trans (scans_named name
        ((scans_text j (ends_fieldsText fields rest)).trans (scans_fields fields rest)))

theorem scans_items : ∀ (items : List Json) (rest : List Char),
    Scans (itemsText items rest) (moreItems items) rest
  | [], rest => scans_mark rfl rfl rest
  | j :: items, rest => by
      have htext : itemsText (j :: items) rest = ',' :: (text j ++ itemsText items rest) := by
        simp [itemsText, itemTexts]
      rw [htext, moreItems]
      exact (scans_comma _).trans
        ((scans_text j (ends_itemsText items rest)).trans (scans_items items rest))

theorem scans_fields : ∀ (fields : List (String × Json)) (rest : List Char),
    Scans (fieldsText fields rest) (moreFields fields) rest
  | [], rest => scans_mark rfl rfl rest
  | (name, j) :: fields, rest => by
      have htext : fieldsText ((name, j) :: fields) rest =
          ',' :: (stringText name ++ ':' :: (text j ++ fieldsText fields rest)) := by
        simp [fieldsText, fieldTexts]
      rw [htext, moreFields]
      exact (scans_comma _).trans (scans_named name
        ((scans_text j (ends_fieldsText fields rest)).trans (scans_fields fields rest)))
end

/-- The whole text of a value is cut into its tokens. -/
theorem scan_text (j : Json) : scan (text j) = some (tokens j) := by
  have hscans := scans_text j ends_nil
  rw [List.append_nil, Scans, scan_nil, Option.map_some, List.append_nil] at hscans
  exact hscans

end RemoteConfig.Json
