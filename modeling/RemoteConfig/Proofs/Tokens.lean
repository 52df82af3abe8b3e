import RemoteConfig.Proofs.Numerals
import RemoteConfig.Proofs.Outcome
import RemoteConfig.Rule.Parser
/-! # Words and strings

The scanner takes a word off the front of a text as one atom if something follows that ends it, and
a string with all its characters, whatever they are.  All atoms that it finds are words.  Scalars
other than strings are written as words, and the word of a truth value, of an integer of 64 bits or
of a finite number denotes it. -/

namespace RemoteConfig

open Rule (Token Malformed)

/-! ## The scanner -/

namespace Rule.Token

/-- What can be an atom: some characters, and no blank, parenthesis or quote among them. -/
structure IsWord (s : String) : Prop where
  ne_empty : s ≠ ""
  isAtomChar : ∀ c ∈ s.toList, isAtomChar c = true

/-- The visible characters of ASCII that are no marks. -/
def isNameChar (c : Char) : Bool := '!' ≤ c && c ≤ '~' && c != '(' && c != ')' && c != '"'

theorem isBlank_of_ascii {c : Char} (hlow : 0x21 ≤ c.toNat) (hhigh : c.toNat < 0x85) :
    Text.isBlank c = false := by
  have hall : ∀ n < 0x85, 0x21 ≤ n →
      decide (Text.blanks.changes.countP (· ≤ n) % 2 = 1) = false := by decide
  exact hall c.toNat hhigh hlow

theorem isAtomChar_of_isNameChar {c : Char} (h : isNameChar c = true) : isAtomChar c = true := by
  simp only [isNameChar, Bool.and_eq_true, decide_eq_true_eq, bne_iff_ne] at h
  obtain ⟨⟨⟨⟨hlow, hhigh⟩, hopening⟩, hclosing⟩, hquote⟩ := h
  have hblank : Text.isBlank c = false :=
    isBlank_of_ascii hlow (Nat.lt_of_le_of_lt hhigh (by decide))
  simp [isAtomChar, hblank, hopening, hclosing, hquote]

theorem isWord_of_names {s : String} (hne : s ≠ "") (h : s.toList.all isNameChar = true) :
    IsWord s :=
  ⟨hne, fun c hc => isAtomChar_of_isNameChar (List.all_eq_true.mp h c hc)⟩

/-- A text in front of which an atom ends. -/
def Stops (rest : List Char) : Prop := ∀ c ∈ rest.head?, isAtomChar c = false

theorem stops_nil : Stops [] := nofun

theorem stops_cons {c : Char} (h : isAtomChar c = false) (rest : List Char) :
    Stops (c :: rest) := by
  rintro _ ⟨⟩
  exact h

/-- Some tokens are found in front of the rest of a text. -/
def Scans (cs : List Char) (tokens : List Token) (rest : List Char) : Prop :=
  scan cs = (scan rest).map (tokens ++ ·)

theorem Scans.trans {as bs cs : List Char} {ts us : List Token} (h : Scans as ts bs)
    (h' : Scans bs us cs) : Scans as (ts ++ us) cs := by
  unfold Scans at *
  rw [h, h']
  cases scan cs with
  | error reason => rfl
  | ok tokens => exact congrArg Except.ok (List.append_assoc ..).symm

theorem scans_opening (rest : List Char) : Scans ('(' :: rest) [.opening] rest := by
  rw [Scans, scan]
  rfl

theorem scans_closing (rest : List Char) : Scans (')' :: rest) [.closing] rest := by
  rw [Scans, scan]
  rfl

/-- What begins with a character that is no mark. -/
theorem scan_plain {c : Char} (hopening : c ≠ '(') (hclosing : c ≠ ')') (hquote : c ≠ '"')
    (rest : List Char) : scan (c :: rest) =
      if Text.isBlank c then scan rest
      else (scan (rest.dropWhile Token.isAtomChar)).map
        (atom (String.ofList (c :: rest.takeWhile Token.isAtomChar)) :: ·) := by
  rw [scan]
  · exact hopening
  · exact hclosing
  · exact hquote

theorem scans_blank (rest : List Char) : Scans (' ' :: rest) [] rest := by
  rw [Scans, scan_plain (by decide) (by decide) (by decide), if_pos (by decide)]
  cases scan rest <;> rfl

theorem isAtomChar_iff (c : Char) : isAtomChar c = true ↔
    Text.isBlank c = false ∧ c ≠ '(' ∧ c ≠ ')' ∧ c ≠ '"' := by
  simp [isAtomChar, and_assoc]

theorem IsWord.scans {s : String} (hs : IsWord s) {rest : List Char} (hr : Stops rest) :
    Scans (s.toList ++ rest) [.atom s] rest := by
  have hne : s.toList ≠ [] := fun h => hs.ne_empty (String.toList_eq_nil_iff.mp h)
  obtain ⟨c, cs, hcons⟩ := List.exists_cons_of_ne_nil hne
  have hall : ∀ d ∈ c :: cs, Token.isAtomChar d = true := hcons ▸ hs.isAtomChar
  obtain ⟨hc, hcs⟩ := List.forall_mem_cons.mp hall
  obtain ⟨hblank, hopening, hclosing, hquote⟩ := (isAtomChar_iff c).mp hc
  obtain ⟨htake, hdrop⟩ := Decimal.span_append hcs hr
  rw [Scans, hcons, List.cons_append, scan_plain hopening hclosing hquote,
    if_neg (by simp [hblank]), htake, hdrop, ← hcons, String.ofList_toList]
  rfl

/-! ## Strings -/

/-- A character in front of the body of a string. -/
def prepend (c : Char) (body : Except Malformed (List Char × List Char)) :
    Except Malformed (List Char × List Char) := body.map fun (s, rest) => (c :: s, rest)

theorem stringBody_escapedChar (c : Char) (rest : List Char) :
    stringBody (Scalar.escapedChar c ++ rest) = prepend c (stringBody rest) := by
  unfold Scalar.escapedChar
  split
  iterate 4 rfl
  rename_i hquote hbackslash _ _
  rw [List.singleton_append, stringBody]
  · rfl
  · exact hquote
  · rintro rfl
    exact absurd rfl hbackslash
  · rintro letter tail rfl
    exact absurd rfl hbackslash

theorem stringBody_flatMap (cs rest : List Char) :
    stringBody (cs.flatMap Scalar.escapedChar ++ '"' :: rest) = .ok (cs, rest) := by
  induction cs with
  | nil => rfl
  | cons c cs ih =>
      rw [List.flatMap_cons, List.append_assoc, stringBody_escapedChar, ih]
      rfl

theorem scan_string {cs s rest : List Char} (h : stringBody cs = .ok (s, rest)) :
    scan ('"' :: cs) = (scan rest).map (string (String.ofList s) :: ·) := by
  rw [scan]
  split
  · rename_i hbody
    rw [h] at hbody
    cases hbody
  · rename_i hbody
    rw [h] at hbody
    cases hbody
    rfl

theorem scans_string (s : String) (rest : List Char) :
    Scans ((Scalar.string s).source ++ rest) [.string s] rest := by
  have hbody := stringBody_flatMap s.toList rest
  rw [Scans, Scalar.source, List.append_assoc]
  exact (scan_string hbody).trans (by rw [String.ofList_toList]; rfl)

/-! ## What is found -/

/-- All atoms that are found are words. -/
theorem isWord_of_mem_scan {cs : List Char} {tokens : List Token} (h : scan cs = .ok tokens) :
    ∀ s, .atom s ∈ tokens → IsWord s := by
  fun_induction scan cs generalizing tokens with
  | case1 =>
      cases h
      nofun
  | case2 rest ih =>
      obtain ⟨more, hmore, rfl⟩ := map_eq_ok h
      simpa using ih hmore
  | case3 rest ih =>
      obtain ⟨more, hmore, rfl⟩ := map_eq_ok h
      simpa using ih hmore
  | case4 => cases h
  | case5 rest s tail hbody ih =>
      obtain ⟨more, hmore, rfl⟩ := map_eq_ok h
      simpa using ih hmore
  | case6 c rest hopening hclosing hquote hblank ih => exact ih h
  | case7 c rest hopening hclosing hquote hblank ih =>
      obtain ⟨more, hmore, rfl⟩ := map_eq_ok h
      intro s hs
      rcases List.mem_cons.mp hs with heq | hs
      · cases heq
        refine ⟨by simp, ?_⟩
        rw [String.toList_ofList]
        refine List.forall_mem_cons.mpr ⟨?_, fun d hd => List.mem_takeWhile_imp hd⟩
        exact (isAtomChar_iff c).mpr ⟨by simpa using hblank, hopening, hclosing, hquote⟩
      · exact ih hmore s hs

end Rule.Token

/-! ## Scalars -/

namespace Decimal

theorem toList_toString (n : Int) :
    (toString n).toList = signed (n < 0) (Nat.toDigits 10 n.natAbs) := by
  cases n with
  | ofNat n => simp [toString, Int.repr, Nat.repr, signed]
  | negSucc n => simp [toString, Int.repr, Nat.repr, signed]

/-- The text of an integer of 64 bits is read back. -/
theorem readInteger_toString {n : Int} (hn : fitsInt64 n = true) :
    readInteger (toString n).toList = some n := by
  have hdigits := isDigits_toDigits n.natAbs
  have hsign := splitSign_signed hdigits (n < 0) []
  have hvalue : applySign (n < 0) n.natAbs = n := by
    simp only [applySign, decide_eq_true_eq]
    split <;> omega
  rw [List.append_nil] at hsign
  have hall : (Nat.toDigits 10 n.natAbs).all Char.isDigit = true := List.all_eq_true.mpr hdigits.all
  rw [toList_toString, readInteger, hsign]
  simp [hall, hdigits.ne_nil, hvalue, hn]

end Decimal

namespace Scalar

open Decimal
open Rule.Token (IsWord)

/-- An atom of digits behind an optional minus is a number. -/
theorem ofAtom?_signed {digits : List Char} (hd : IsDigits digits) (negative : Bool)
    (rest : List Char) : ofAtom? (String.ofList (signed negative (digits ++ rest))) =
      match readInteger (signed negative (digits ++ rest)) with
      | some n => some (int n)
      | none => (readNumber (signed negative (digits ++ rest))).map float := by
  have hsign := splitSign_signed hd negative rest
  obtain ⟨c, more, rfl⟩ := List.exists_cons_of_ne_nil hd.ne_nil
  have hc := hd.all c (List.mem_cons_self ..)
  have hword (w : String) (hw : w.toList.head? = some '#') :
      String.ofList (signed negative (c :: more ++ rest)) ≠ w := by
    rintro rfl
    rw [String.toList_ofList] at hw
    cases negative with
    | true => cases hw
    | false =>
        obtain rfl := Option.some.inj hw
        cases hc
  rw [ofAtom?, if_neg (hword _ rfl), if_neg (hword _ rfl)]
  simp only [String.toList_ofList, hsign]
  exact if_neg (by simp [hc])

theorem ofAtom?_int {n : Int} (hn : fitsInt64 n = true) : ofAtom? (toString n) = some (int n) := by
  have hatom := ofAtom?_signed (isDigits_toDigits n.natAbs) (n < 0) []
  rw [List.append_nil, ← toList_toString, String.ofList_toList, readInteger_toString hn] at hatom
  exact hatom

theorem ofAtom?_float {x : Binary64} (hx : x.isFinite = true) :
    ofAtom? (String.ofList (float x).source) = some (float x) := by
  obtain ⟨negative, whole, fraction, htext, hwhole, hfraction, -⟩ := exists_numeral hx
  have hatom := ofAtom?_signed hwhole negative ('.' :: fraction)
  rw [← numeral, readInteger_numeral hwhole, ← htext, readNumber_source hx] at hatom
  exact hatom

/-- What is not finite is written with letters, and is no number when it is read. -/
theorem source_of_not_isFinite {x : Binary64} (hx : x.isFinite = false) :
    (float x).source ∈ [['N', 'a', 'N'], ['i', 'n', 'f'], ['-', 'i', 'n', 'f']] := by
  cases x with
  | nan => decide
  | signed negative x =>
      have hinfinite : x.isFinite = false := hx
      have hne : x ≠ .zero := by
        rintro rfl
        cases hinfinite
      have hwhole : ¬ (Binary64.signed negative x).isWhole = true := by
        simp [Binary64.isWhole, hinfinite]
      have htext : Binary64.plain.magnitude x = ['i', 'n', 'f'] := by
        rw [Layout.magnitude, if_neg hne, if_neg (by simp [hinfinite])]
        rfl
      rw [source, if_neg hwhole, Layout.render, htext]
      cases negative <;> decide

/-- The characters of which literals other than strings are made. -/
def literalChars : List Char :=
  ['0', '1', '2', '3', '4', '5', '6', '7', '8', '9', '-', '.', '#', 't', 'f', 'N', 'a', 'i', 'n']

theorem mem_literalChars_of_isDigit {c : Char} (h : c.isDigit = true) : c ∈ literalChars :=
  List.mem_append_left ['-', '.', '#', 't', 'f', 'N', 'a', 'i', 'n'] ((isDigit_iff_mem c).mp h)

theorem signed_subset_literalChars {cs : List Char} (h : cs ⊆ literalChars) {negative : Bool} :
    signed negative cs ⊆ literalChars := by
  intro c hc
  rcases List.mem_append.mp hc with hc | hc
  · cases negative with
    | true =>
        obtain rfl := List.mem_singleton.mp hc
        decide
    | false => cases hc
  · exact h hc

theorem source_literalChars {v : Scalar} (hv : ∀ s, v ≠ string s) :
    v.source ≠ [] ∧ v.source ⊆ literalChars := by
  cases v with
  | string s => exact absurd rfl (hv s)
  | bool b => cases b <;> decide
  | int n =>
      have hdigits := isDigits_toDigits n.natAbs
      rw [source, toText, toList_toString]
      exact ⟨by simp [signed, hdigits.ne_nil], signed_subset_literalChars fun c hc =>
        mem_literalChars_of_isDigit (hdigits.all c hc)⟩
  | float x =>
      cases hx : x.isFinite with
      | true =>
          obtain ⟨negative, whole, fraction, htext, hwhole, hfraction, -⟩ := exists_numeral hx
          rw [htext]
          refine ⟨by simp [numeral, signed], signed_subset_literalChars fun c hc => ?_⟩
          rcases List.mem_append.mp hc with hc | hc
          · exact mem_literalChars_of_isDigit (hwhole.all c hc)
          · rcases List.mem_cons.mp hc with rfl | hc
            · decide
            · exact mem_literalChars_of_isDigit (hfraction.all c hc)
      | false =>
          have hall : ∀ cs ∈ [['N', 'a', 'N'], ['i', 'n', 'f'], ['-', 'i', 'n', 'f']],
              cs ≠ [] ∧ cs ⊆ literalChars := by decide
          exact hall _ (source_of_not_isFinite hx)

/-- Whatever is written for a scalar other than a string is a word. -/
theorem isWord_source {v : Scalar} (hv : ∀ s, v ≠ string s) : IsWord (String.ofList v.source) := by
  have hnames : literalChars.all Token.isNameChar = true := by decide
  obtain ⟨hne, hchars⟩ := source_literalChars hv
  refine Token.isWord_of_names (by simpa using hne) (List.all_eq_true.mpr fun c hc => ?_)
  rw [String.toList_ofList] at hc
  exact List.all_eq_true.mp hnames c (hchars hc)

/-- The token that is written for a scalar. -/
def token : Scalar → Token
  | string s => .string s
  | v => .atom (String.ofList v.source)

/-- Strings have tokens of their own, and other scalars are atoms. -/
theorem string_or_atom (v : Scalar) :
    (∃ s, v = string s) ∨ (∀ s, v ≠ string s) ∧ v.token = .atom (String.ofList v.source) := by
  cases v with
  | string s => exact .inl ⟨s, rfl⟩
  | bool b => exact .inr ⟨nofun, rfl⟩
  | int n => exact .inr ⟨nofun, rfl⟩
  | float x => exact .inr ⟨nofun, rfl⟩

theorem scans_source (v : Scalar) {rest : List Char} (hr : Token.Stops rest) :
    Token.Scans (v.source ++ rest) [v.token] rest := by
  obtain ⟨s, rfl⟩ | ⟨hv, htoken⟩ := v.string_or_atom
  · exact Token.scans_string s rest
  · have hscans := (isWord_source hv).scans hr
    rwa [String.toList_ofList, ← htoken] at hscans

/-- No scalar is written like the keyword of the last clause. -/
theorem token_ne_else (v : Scalar) : v.token ≠ .atom "else" := by
  obtain ⟨s, rfl⟩ | ⟨hv, htoken⟩ := v.string_or_atom
  · exact nofun
  · intro h
    have hsource : v.source = "else".toList := by
      rw [← Token.atom.inj (htoken.symm.trans h), String.toList_ofList]
    have hsubset := (source_literalChars hv).2
    rw [hsource] at hsubset
    revert hsubset
    decide

end Scalar

end RemoteConfig
